import IotLoggingServer.ProtoWrapper.Export

set_option autoImplicit false

/-! # The wrappers round trip

A protobuf message converted and exported again keeps the values of its fields, an instance exported
and converted again is equal to itself, and the instance without arguments is the conversion of the
empty message (`roundTrip`). Each of the three is an induction over the message type; a field of a
message only has to do its part, and the loops over the fields put the parts together. -/

namespace IotLoggingServer

/-! ## What the round trip is about -/

/-- Messages whose enum values are members of the wrappers and whose doubles are no NaN. -/
def pbSpec : ValueSpec where
  scalar t a := t.Holds a ∧ a ≠ .float .nan
  element t a := t.Holds a ∧ a ≠ .float .nan
  enum t a := ∃ n ∈ t.values, a = .int n ∧ IntKind.int32.InRange n
  message t v := v.isProto t = true
  getattr := readEq.getattr

/-- Instances without NaN. -/
def noNanSpec : ValueSpec where
  scalar _ a := a ≠ .float .nan
  element _ a := a ≠ .float .nan
  enum _ _ := True
  message _ _ := True
  getattr v name _ := v.attr name

/-- Instances without NaN whose messages are instances of the annotated classes themselves. -/
def plainSpec : ValueSpec :=
  { noNanSpec with message := fun _ v => ∃ cls attrs, v = .inst cls none attrs }

/-- No name hides a method that `convert` and `export_pb` call on the value of the field. -/
def FieldType.Unhidden : FieldType → Prop
  | .enum t => t.hasMember "convert" = false ∧
      (t.hasMember "export_to_pb" = false ∧ t.hasMember "export_pb" = false)
  | .message t => (t.hasField "convert" = false ∧ t.hasField "export_pb" = false) ∧
      t.hasField "export_to_pb" = false ∧ t.hasField "CopyFrom" = false
  | .repeatedComposite t => t.hasField "convert" = false ∧ t.hasField "export_pb" = false
  | .messageMap _ t => (t.hasField "convert" = false ∧ t.hasField "export_pb" = false) ∧
      t.hasField "CopyFrom" = false
  | _ => True

instance : (type : FieldType) → Decidable type.Unhidden
  | .enum _ => inferInstanceAs (Decidable (_ ∧ _ ∧ _))
  | .message _ => inferInstanceAs (Decidable ((_ ∧ _) ∧ _ ∧ _))
  | .repeatedComposite _ => inferInstanceAs (Decidable (_ ∧ _))
  | .messageMap _ _ => inferInstanceAs (Decidable ((_ ∧ _) ∧ _))
  | .scalar _ => .isTrue trivial
  | .repeatedScalar _ => .isTrue trivial
  | .scalarMap _ _ => .isTrue trivial

/-- No name hides a method that the conversions of the message use. -/
def MessageType.Unhidden (t : MessageType) : Prop :=
  (t.hasField "convert" = false ∧ t.hasField "export_pb" = false) ∧
    t.Everywhere FieldType.Unhidden (fun _ => True)

mutual

theorem FieldType.everywhere_and {P P' : FieldType → Prop} {Q Q' : MessageType → Prop} :
    ∀ {type : FieldType}, type.Everywhere P Q → type.Everywhere P' Q' →
      type.Everywhere (fun type => P type ∧ P' type) (fun t => Q t ∧ Q' t)
  | .scalar _, h, h' => ⟨h, h'⟩
  | .enum _, h, h' => ⟨h, h'⟩
  | .message _, h, h' => ⟨⟨h.1, h'.1⟩, MessageType.everywhere_and h.2 h'.2⟩
  | .repeatedScalar _, h, h' => ⟨h, h'⟩
  | .repeatedComposite _, h, h' => ⟨⟨h.1, h'.1⟩, MessageType.everywhere_and h.2 h'.2⟩
  | .scalarMap _ _, h, h' => ⟨h, h'⟩
  | .messageMap _ _, h, h' => ⟨⟨h.1, h'.1⟩, MessageType.everywhere_and h.2 h'.2⟩

theorem MessageType.everywhere_and {P P' : FieldType → Prop} {Q Q' : MessageType → Prop} :
    ∀ {t : MessageType}, t.Everywhere P Q → t.Everywhere P' Q' →
      t.Everywhere (fun type => P type ∧ P' type) (fun t => Q t ∧ Q' t)
  | .mk _ _ _, h, h' => ⟨⟨h.1, h'.1⟩, Fields.everywhere_and h.2 h'.2⟩

theorem Fields.everywhere_and {P P' : FieldType → Prop} {Q Q' : MessageType → Prop} :
    ∀ {fields : Fields}, fields.Everywhere P Q → fields.Everywhere P' Q' →
      fields.Everywhere (fun type => P type ∧ P' type) (fun t => Q t ∧ Q' t)
  | .nil, _, _ => trivial
  | .cons _ _ _ _, h, h' => ⟨FieldType.everywhere_and h.1 h'.1, Fields.everywhere_and h.2 h'.2⟩

end

/-! ## Equality field by field -/

theorem Fields.eq_iff {c : Comparison} {a b : Str → FieldType → Option PyVal} :
    ∀ {fields : Fields}, fields.eq c a b = true ↔ ∀ field ∈ fields.toList, ∃ x y,
      a field.name field.type = some x ∧ b field.name field.type = some y ∧
        field.type.eq c x y = true
  | .nil => by simp [Fields.eq, Fields.toList]
  | .cons name oneof type rest => by
      simp only [Fields.eq, Fields.toList, List.forall_mem_cons, Bool.and_eq_true]
      refine and_congr ?_ Fields.eq_iff
      cases a name type <;> cases b name type <;> simp

/-! ## Containers forth and back -/

section Containers

variable {rt : PbRuntime} {convert exportPb : PyVal → Except PyExc PyVal}
  {eq : PyVal → PyVal → Bool} {key : KeyType}

theorem repeated_forth_back {xs : List PyVal} (h : ∀ x ∈ xs, ∃ y z, convert x = .ok y ∧
    exportPb y = .ok z ∧ eq z x = true) :
    ∃ ys zs, repeatedConvert convert (.list xs) = .ok (.list ys) ∧ ys.mapM exportPb = .ok zs ∧
      zs.isEqv xs eq = true := by
  obtain ⟨ys, zs, hys, hzs, heq⟩ := mapM_forth_back h
  exact ⟨ys, zs, repeatedConvert_eq_ok.2 ⟨xs, ys, rfl, hys, rfl⟩, hzs, isEqv_of_forall₂ heq⟩

theorem repeated_back {xs zs : List PyVal} (hzs : xs.mapM exportPb = .ok zs)
    (h : ∀ x ∈ xs, ∀ z, exportPb x = .ok z → ∃ y, convert z = .ok y ∧ eq y x = true) :
    ∃ ys, repeatedConvert convert (.list zs) = .ok (.list ys) ∧ ys.isEqv xs eq = true := by
  obtain ⟨ys, hys, heq⟩ := mapM_back hzs h
  exact ⟨ys, repeatedConvert_eq_ok.2 ⟨zs, ys, rfl, hys, rfl⟩, isEqv_of_forall₂ heq⟩

/-- Dictionaries with the same keys and equal values are equal. -/
theorem dictEq_of_forall₂ {kvs kvs' : List (Atom × PyVal)} (hd : DistinctKeys Atom.canon kvs')
    (h : List.Forall₂ (fun e e' => e.1 = e'.1 ∧ eq e.2 e'.2 = true) kvs kvs') :
    dictEq eq kvs kvs' = true := by
  rw [dictEq, decide_eq_true h.length_eq, Bool.true_and, List.all_eq_true]
  intro e he
  obtain ⟨e', he', hkey, heq⟩ : ∃ e' ∈ kvs', e.1 = e'.1 ∧ eq e.2 e'.2 = true := by
    clear hd
    induction h with
    | nil => cases he
    | cons hpair _ ih =>
        rcases List.mem_cons.1 he with rfl | he
        · exact ⟨_, List.mem_cons_self, hpair⟩
        · obtain ⟨e', hmem, hpair⟩ := ih he
          exact ⟨e', List.mem_cons_of_mem _ hmem, hpair⟩
  have hget : dictGet? Atom.canon kvs' e.1 = some e'.2 := hkey ▸ dictGet?_of_mem hd he'
  rw [hget]
  exact heq

/-- A converted map with distinct keys has the entries that were converted. -/
theorem mapConvert_of_distinct {kvs entries : List (Atom × PyVal)}
    (hd : DistinctKeys Atom.canon kvs)
    (hentries : kvs.mapM (key.checkEntry convert) = .ok entries) :
    mapConvert key convert (.dict kvs) = .ok (.dict entries) := by
  have hkeys : dictKeys Atom.canon kvs = dictKeys Atom.canon entries := by
    refine dictKeys_eq_of_forall₂ ((mapM_eq_ok_iff.1 hentries).imp (fun e e' he => ?_))
    obtain ⟨-, v, -, rfl⟩ := KeyType.checkEntry_eq_ok.1 he
    rfl
  have hdistinct : DistinctKeys Atom.canon entries := by
    rw [DistinctKeys, ← hkeys]
    exact hd
  exact mapConvert_eq_ok.2 ⟨kvs, entries, rfl, hentries, by rw [dictUpdate_nil hdistinct]⟩

theorem map_forth_back {kvs : List (Atom × PyVal)} (hd : DistinctKeys Atom.canon kvs)
    (h : ∀ e ∈ kvs, key.scalar.Holds e.1 ∧ ∃ y z, convert e.2 = .ok y ∧ exportPb y = .ok z ∧
      eq z e.2 = true) :
    ∃ entries exported, mapConvert key convert (.dict kvs) = .ok (.dict entries) ∧
      entries.mapM (key.exportEntry rt exportPb) = .ok exported ∧
      dictEq eq (dictUpdate Atom.canon [] exported) kvs = true := by
  obtain ⟨entries, exported, hentries, hexported, hsame⟩ : ∃ entries exported,
      kvs.mapM (key.checkEntry convert) = .ok entries ∧
      entries.mapM (key.exportEntry rt exportPb) = .ok exported ∧
      List.Forall₂ (fun e e' => e.1 = e'.1 ∧ eq e.2 e'.2 = true) exported kvs := by
    refine mapM_forth_back (fun e he => ?_)
    obtain ⟨hkey, y, z, hy, hz, heq⟩ := h e he
    refine ⟨(e.1, y), (e.1, z), KeyType.checkEntry_eq_ok.2 ⟨hkey.1, y, hy, rfl⟩, ?_, rfl, heq⟩
    rw [KeyType.exportEntry, rt.assign_of_holds _ _ hkey, ok_bind, hz, ok_bind]
  have hdistinct : DistinctKeys Atom.canon exported := by
    rw [DistinctKeys, dictKeys_eq_of_forall₂ (hsame.imp (fun _ _ hpair => hpair.1))]
    exact hd
  refine ⟨entries, exported, mapConvert_of_distinct hd hentries, hexported, ?_⟩
  rw [dictUpdate_nil hdistinct]
  exact dictEq_of_forall₂ hd hsame

theorem map_back {kvs exported : List (Atom × PyVal)} (hd : DistinctKeys Atom.canon kvs)
    (hexported : kvs.mapM (key.exportEntry rt exportPb) = .ok exported)
    (h : ∀ e ∈ kvs, key.scalar.isExact e.1 = true ∧
      ∀ z, exportPb e.2 = .ok z → ∃ y, convert z = .ok y ∧ eq y e.2 = true) :
    ∃ entries, mapConvert key convert (.dict (dictUpdate Atom.canon [] exported))
        = .ok (.dict entries) ∧ dictEq eq entries kvs = true := by
  -- a key is stored as it is
  have hentry : ∀ e ∈ kvs, ∀ e', key.exportEntry rt exportPb e = .ok e' →
      e'.1 = e.1 ∧ exportPb e.2 = .ok e'.2 := by
    intro e he e' he'
    obtain ⟨k, hk, he'⟩ := bind_eq_ok.1 he'
    obtain ⟨z, hz, he'⟩ := bind_eq_ok.1 he'
    cases he'
    have hexact := (h e he).1
    obtain ⟨hholds, hcanon⟩ :=
      rt.assign_eq_ok _ _ _ (ScalarType.isInstance_of_isExact hexact) hk
    exact ⟨KeyType.eq_of_canon hholds.1 hexact hcanon, hz⟩
  obtain ⟨entries, hentries, hsame⟩ : ∃ entries,
      exported.mapM (key.checkEntry convert) = .ok entries ∧
      List.Forall₂ (fun e e' => e.1 = e'.1 ∧ eq e.2 e'.2 = true) entries kvs := by
    refine mapM_back hexported (fun e he e' he' => ?_)
    obtain ⟨hkey, hvalue⟩ := hentry e he e' he'
    obtain ⟨y, hy, heq⟩ := (h e he).2 _ hvalue
    refine ⟨(e'.1, y), KeyType.checkEntry_eq_ok.2 ⟨?_, y, hy, rfl⟩, hkey, heq⟩
    rw [hkey]
    exact (h e he).1
  have hdistinct : DistinctKeys Atom.canon exported := by
    have hkeys : dictKeys Atom.canon kvs = dictKeys Atom.canon exported := by
      refine dictKeys_eq_of_forall₂ ?_
      have hall := mapM_eq_ok_iff.1 hexported
      clear hexported hentries hsame hd
      induction hall with
      | nil => exact .nil
      | cons he' _ ih =>
          rw [List.forall_mem_cons] at h hentry
          exact .cons (hentry.1 _ he').1.symm (ih h.2 hentry.2)
    rw [DistinctKeys, ← hkeys]
    exact hd
  rw [dictUpdate_nil hdistinct]
  exact ⟨entries, mapConvert_of_distinct hdistinct hentries, dictEq_of_forall₂ hd hsame⟩

end Containers

/-! ## Single values -/

/-- What a protobuf field stores is as good as what it was given. -/
theorem PbRuntime.assignTo_eq_ok {rt : PbRuntime} {t : ScalarType} {a : Atom} {v : PyVal}
    (ha : t.isInstance a = true) (h : rt.assignTo t (.atom a) = .ok v) :
    ∃ b, v = .atom b ∧ t.Holds b ∧ b.canon = a.canon := by
  obtain ⟨b, hb, h⟩ := bind_eq_ok.1 h
  cases h
  exact ⟨b, rfl, rt.assign_eq_ok _ _ _ ha hb⟩

theorem MessageType.exportToPb_eq (rt : PbRuntime) {t : MessageType}
    (hto : t.hasField "export_to_pb" = false) (hcopy : t.hasField "CopyFrom" = false) (v : PyVal) :
    (FieldType.message t).exportToPb rt v = t.exportPb rt v := by
  rw [FieldType.exportToPb, hto, hcopy]
  rfl

theorem MessageType.convertEntry_of_isProto {t : MessageType} {v : PyVal}
    (hv : v.isProto t = true) (convert : PyVal → Except PyExc PyVal) :
    t.convertEntry convert v = convert v := by
  cases v with
  | pb proto pbFields => exact if_pos hv
  | _ => cases hv

/-! ## A message converted and exported -/

section ConvertExport

variable (rt : PbRuntime)

/-- What a descriptor takes from a protobuf message it gives back equal. -/
def FieldType.ConvertsExports (type : FieldType) : Prop :=
  ∀ v, type.Sat pbSpec v → ∃ x, type.set (some v) = .ok x ∧
    ∃ v', type.exportToPb rt x = .ok v' ∧ type.eq readEq (pbStore type.pbDefault v') v = true

def MessageType.ConvertsExports (t : MessageType) : Prop :=
  t.hasField "convert" = false ∧ t.hasField "export_pb" = false → ∀ v, t.Sat pbSpec v →
    ∃ x v', t.convert v = .ok x ∧ t.exportPb rt x = .ok v' ∧ t.eq readEq v' v = true

variable {rt}

/-- A message type does it if its fields do. -/
theorem MessageType.convertsExports {t : MessageType} (ht : t.Accepted)
    (ih : ∀ field ∈ t.fields.toList, field.type.ConvertsExports rt) : t.ConvertsExports rt := by
  rintro ⟨hconvert, hexport⟩ v hv
  obtain ⟨hproto, hfields⟩ := MessageType.sat_iff.1 hv
  cases v with
  | pb proto pbFields =>
      obtain rfl : proto = t.proto := of_decide_eq_true hproto
      have hpart : ∀ field ∈ t.fields.toList, ∃ x,
          field.type.set (some (pbGetattr pbFields field.name field.type)) = .ok x ∧
          ∃ v', field.type.exportToPb rt x = .ok v' ∧
            field.type.eq readEq (pbStore field.type.pbDefault v')
              (pbGetattr pbFields field.name field.type) = true := by
        intro field hmem
        obtain ⟨y, hy, hsat⟩ := hfields field hmem
        cases hy
        exact ih field hmem _ hsat
      -- the instance
      obtain ⟨attrs, hnew, hattr⟩ := @Fields.new_forall _ ht.nodup
        (fun name type => some (pbGetattr pbFields name type)) _ hpart
      have hconverted : t.convert (.pb t.proto pbFields) = .ok (.inst t none attrs) := by
        rw [MessageType.convert_pb hconvert, hnew, ok_bind]
      -- the message exported from it
      obtain ⟨res, hres⟩ : ∃ res, t.fields.exportPb rt t.fields (dictGet? id attrs) [] = .ok res :=
        Fields.exportPb_ok [] (fun field hmem => by
          obtain ⟨x, hget, v', hv', -⟩ := hattr field hmem
          exact ⟨x, v', hget, hv'⟩)
      have hexported : t.exportPb rt (.inst t none attrs) = .ok (.pb t.proto res) := by
        rw [MessageType.exportPb_inst rt hexport, hres, ok_bind]
      refine ⟨_, _, hconverted, hexported, ?_⟩
      have hclass : readEq.sameClass (.pb t.proto res) (.pb t.proto pbFields) = true :=
        decide_eq_true rfl
      rw [MessageType.eq_eq, hclass, Bool.true_and]
      refine Fields.eq_iff.2 (fun field hmem => ?_)
      obtain ⟨x, hget, v', hv', heq⟩ := hattr field hmem
      obtain ⟨x', v'', hget', hv'', hstored⟩ :=
        Fields.exportPb_stored ht.nodup ht.noOneof hres field hmem
      rw [hget] at hget'
      cases hget'
      rw [hv'] at hv''
      cases hv''
      refine ⟨_, _, rfl, rfl, ?_⟩
      rw [pbGetattr, hstored]
      exact heq
  | _ => cases hproto

theorem ScalarType.convertsExports (t : ScalarType) : (FieldType.scalar t).ConvertsExports rt := by
  intro v hv
  obtain ⟨a, rfl, hholds, hnan⟩ := hv
  have hset : t.checkInstance (.atom a) = .ok (.atom a) := ScalarType.checkInstance_of_holds hholds
  have hexport : rt.assignTo t (.atom a) = .ok (.atom a) := rt.assignTo_of_holds hholds
  exact ⟨.atom a, hset, .atom a, hexport, Atom.eq_refl hnan⟩

theorem EnumType.convertsExports {t : EnumType} (hnames : (FieldType.enum t).Unhidden) :
    (FieldType.enum t).ConvertsExports rt := by
  obtain ⟨hconvert, hto, hpb⟩ := hnames
  intro v hv
  obtain ⟨_, rfl, n, hn, rfl, hrange⟩ := hv
  have hset : t.convert (.atom (.int n)) = .ok (.atom (.enumMember t n)) :=
    EnumType.convert_of_mem hconvert hn
  have hexport : (FieldType.enum t).exportToPb rt (.atom (.enumMember t n))
      = .ok (.atom (.int n)) := by
    rw [EnumType.exportToPb_eq rt hto hpb]
    exact rt.assignTo_of_holds ⟨rfl, hrange⟩
  exact ⟨.atom (.enumMember t n), hset, .atom (.int n), hexport, Atom.eq_refl (by simp)⟩

theorem MessageType.message_convertsExports {t : MessageType}
    (hnames : (FieldType.message t).Unhidden) (ih : t.ConvertsExports rt) :
    (FieldType.message t).ConvertsExports rt := by
  obtain ⟨hcalled, hto, hcopy⟩ := hnames
  intro v hv
  obtain ⟨x, v', hx, hv', heq⟩ := ih hcalled v hv
  refine ⟨x, hx, v', ?_, heq⟩
  rw [MessageType.exportToPb_eq rt hto hcopy, hv']

theorem ScalarType.repeated_convertsExports (t : ScalarType) :
    (FieldType.repeatedScalar t).ConvertsExports rt := by
  intro v hv
  obtain ⟨xs, rfl, hxs⟩ := hv
  obtain ⟨ys, zs, hys, hzs, heq⟩ : ∃ ys zs,
      repeatedConvert t.checkExact (.list xs) = .ok (.list ys) ∧
      ys.mapM (rt.assignTo t) = .ok zs ∧ zs.isEqv xs PyVal.atomEq = true := by
    refine repeated_forth_back ?_
    intro x hx
    obtain ⟨a, rfl, hholds, hnan⟩ := hxs x hx
    exact ⟨_, _, ScalarType.checkExact_of_holds hholds, rt.assignTo_of_holds hholds,
      Atom.eq_refl hnan⟩
  refine ⟨.list ys, hys, .list zs, ?_, heq⟩
  rw [FieldType.exportToPb, hzs, ok_bind]

theorem MessageType.repeated_convertsExports {t : MessageType}
    (hnames : (FieldType.repeatedComposite t).Unhidden) (ih : t.ConvertsExports rt) :
    (FieldType.repeatedComposite t).ConvertsExports rt := by
  intro v hv
  obtain ⟨xs, rfl, hxs⟩ := hv
  obtain ⟨ys, zs, hys, hzs, heq⟩ : ∃ ys zs,
      repeatedConvert (t.convertEntry (fun entry => t.convert entry)) (.list xs)
        = .ok (.list ys) ∧
      ys.mapM (fun x => t.exportPb rt x) = .ok zs ∧
      zs.isEqv xs (fun x y => t.eq readEq x y) = true := by
    refine repeated_forth_back ?_
    intro x hx
    obtain ⟨y, z, hy, hz, heq⟩ := ih hnames x (hxs x hx)
    have hproto : x.isProto t = true := (MessageType.sat_iff.1 (hxs x hx)).1
    exact ⟨y, z, by rw [MessageType.convertEntry_of_isProto hproto, hy], hz, heq⟩
  refine ⟨.list ys, hys, .list zs, ?_, heq⟩
  rw [FieldType.exportToPb, hzs, ok_bind]

theorem ScalarType.map_convertsExports (key : KeyType) (t : ScalarType) :
    (FieldType.scalarMap key t).ConvertsExports rt := by
  intro v hv
  obtain ⟨kvs, rfl, hd, hkvs⟩ := hv
  obtain ⟨entries, exported, hentries, hexported, heq⟩ : ∃ entries exported,
      mapConvert key t.checkInstance (.dict kvs) = .ok (.dict entries) ∧
      entries.mapM (key.exportEntry rt (rt.assignTo t)) = .ok exported ∧
      dictEq PyVal.atomEq (dictUpdate Atom.canon [] exported) kvs = true := by
    refine map_forth_back hd ?_
    intro e he
    obtain ⟨hkey, a, ha, hholds, hnan⟩ := hkvs e he
    rw [ha]
    exact ⟨hkey.1, _, _, ScalarType.checkInstance_of_holds hholds, rt.assignTo_of_holds hholds,
      Atom.eq_refl hnan⟩
  refine ⟨.dict entries, hentries, .dict exported, ?_, heq⟩
  rw [FieldType.exportToPb, hexported, ok_bind]

theorem MessageType.map_convertsExports {key : KeyType} {t : MessageType}
    (hnames : (FieldType.messageMap key t).Unhidden) (ih : t.ConvertsExports rt) :
    (FieldType.messageMap key t).ConvertsExports rt := by
  obtain ⟨hcalled, hcopy⟩ := hnames
  intro v hv
  obtain ⟨kvs, rfl, hd, hkvs⟩ := hv
  obtain ⟨entries, exported, hentries, hexported, heq⟩ : ∃ entries exported,
      mapConvert key (t.convertEntry (fun entry => t.convert entry)) (.dict kvs)
        = .ok (.dict entries) ∧
      entries.mapM (key.exportEntry rt (fun v =>
        if t.hasField "CopyFrom" then .error .typeError else t.exportPb rt v)) = .ok exported ∧
      dictEq (fun x y => t.eq readEq x y) (dictUpdate Atom.canon [] exported) kvs = true := by
    refine map_forth_back hd ?_
    intro e he
    obtain ⟨hkey, hsat⟩ := hkvs e he
    obtain ⟨y, z, hy, hz, heq⟩ := ih hcalled e.2 hsat
    have hproto : e.2.isProto t = true := (MessageType.sat_iff.1 hsat).1
    refine ⟨hkey.1, y, z, ?_, ?_, heq⟩
    · rw [MessageType.convertEntry_of_isProto hproto, hy]
    · rw [hcopy, if_neg Bool.false_ne_true, hz]
  refine ⟨.dict entries, hentries, .dict exported, ?_, heq⟩
  rw [FieldType.exportToPb, hexported, ok_bind]

/-- **A message keeps its fields through `convert` and `export_pb`.** -/
theorem MessageType.convert_export {t : MessageType} (ht : t.Supported) (hnames : t.Unhidden) :
    t.ConvertsExports rt := by
  refine @MessageType.everywhere_induction _ _ (FieldType.ConvertsExports rt) _ ?scalar ?enum
    ?message ?repeatedScalar ?repeatedComposite ?scalarMap ?messageMap ?mk t
    (MessageType.everywhere_and ht hnames.2)
  case scalar => exact fun t _ => t.convertsExports
  case enum => exact fun t h => EnumType.convertsExports h.2
  case message => exact fun t h ih => MessageType.message_convertsExports h.2 ih
  case repeatedScalar => exact fun t _ => t.repeated_convertsExports
  case repeatedComposite => exact fun t h ih => MessageType.repeated_convertsExports h.2 ih
  case scalarMap => exact fun key t _ => t.map_convertsExports key
  case messageMap => exact fun key t h ih => MessageType.map_convertsExports h.2 ih
  case mk => exact fun t ht ih => MessageType.convertsExports ht.here.1 ih

end ConvertExport

/-! ## An instance exported and converted -/

section ExportConvert

variable (rt : PbRuntime)

/-- What a descriptor exports it takes back equal. -/
def FieldType.ExportsConverts (type : FieldType) : Prop :=
  ∀ x v, type.Sat setSpec x → type.Sat plainSpec x → type.exportToPb rt x = .ok v →
    ∃ y, type.set (some (pbStore type.pbDefault v)) = .ok y ∧ type.eq instEq y x = true

def MessageType.ExportsConverts (t : MessageType) : Prop :=
  t.hasField "convert" = false ∧ t.hasField "export_pb" = false → ∀ x v, t.Sat setSpec x →
    t.Sat plainSpec x → t.exportPb rt x = .ok v →
    v.isProto t = true ∧ ∃ y, t.convert v = .ok y ∧ t.eq instEq y x = true

variable {rt}

/-- A message type does it if its fields do. -/
theorem MessageType.exportsConverts {t : MessageType} (ht : t.Accepted)
    (ih : ∀ field ∈ t.fields.toList, field.type.ExportsConverts rt) : t.ExportsConverts rt := by
  rintro ⟨hconvert, hexport⟩ x v hvalid hplain h
  obtain ⟨hwrapper, hfields⟩ := MessageType.sat_iff.1 hvalid
  obtain ⟨⟨cls, attrs, rfl⟩, hplainFields⟩ := MessageType.sat_iff.1 hplain
  obtain rfl : cls = t := of_decide_eq_true hwrapper
  rw [MessageType.exportPb_inst rt hexport, bind_eq_ok] at h
  obtain ⟨res, hres, h⟩ := h
  cases h
  have hpart : ∀ field ∈ cls.fields.toList, ∃ y,
      field.type.set (some (pbGetattr res field.name field.type)) = .ok y ∧
      ∃ x, dictGet? id attrs field.name = some x ∧ field.type.eq instEq y x = true := by
    intro field hmem
    obtain ⟨x, v, hget, hv, hstored⟩ :=
      Fields.exportPb_stored ht.nodup ht.noOneof hres field hmem
    obtain ⟨x', hx', hsat⟩ := hfields field hmem
    obtain ⟨x'', hx'', hsatPlain⟩ := hplainFields field hmem
    cases hx'.symm.trans hget
    cases hx''.symm.trans hget
    obtain ⟨y, hy, heq⟩ := ih field hmem x v hsat hsatPlain hv
    exact ⟨y, by rw [pbGetattr, hstored]; exact hy, x, hget, heq⟩
  obtain ⟨attrs', hnew, hattr⟩ := @Fields.new_forall _ ht.nodup
    (fun name type => some (pbGetattr res name type)) _ hpart
  refine ⟨decide_eq_true rfl, .inst cls none attrs', ?_, ?_⟩
  · rw [MessageType.convert_pb hconvert, hnew, ok_bind]
  · have hclass : instEq.sameClass (.inst cls none attrs') (.inst cls none attrs) = true := by
      simp [instEq]
    rw [MessageType.eq_eq, hclass, Bool.true_and]
    refine Fields.eq_iff.2 (fun field hmem => ?_)
    obtain ⟨y, hget', x, hget, heq⟩ := hattr field hmem
    exact ⟨y, x, hget', hget, heq⟩

theorem ScalarType.exportsConverts (t : ScalarType) : (FieldType.scalar t).ExportsConverts rt := by
  intro x v hvalid hplain h
  obtain ⟨a, rfl, hinst⟩ := hvalid
  obtain ⟨_, ⟨⟩, hnan⟩ := hplain
  obtain ⟨b, rfl, hholds, hcanon⟩ := PbRuntime.assignTo_eq_ok hinst h
  have hset : t.checkInstance (.atom b) = .ok (.atom b) := ScalarType.checkInstance_of_holds hholds
  exact ⟨.atom b, hset, Atom.eq_of_canon hcanon hnan⟩

theorem EnumType.exportsConverts {t : EnumType} (hnames : (FieldType.enum t).Unhidden) :
    (FieldType.enum t).ExportsConverts rt := by
  obtain ⟨hconvert, hto, hpb⟩ := hnames
  intro x v hvalid _ h
  obtain ⟨_, rfl, n, hn, rfl⟩ := hvalid
  rw [EnumType.exportToPb_eq rt hto hpb] at h
  obtain ⟨b, rfl, hholds, hcanon⟩ := PbRuntime.assignTo_eq_ok rfl h
  -- an integer field stores the number of the member, not the member
  obtain rfl : b = .int n := @KeyType.eq_of_canon (.int .int32) _ _ hholds.1 rfl hcanon
  exact ⟨.atom (.enumMember t n), EnumType.convert_of_mem hconvert hn, Atom.eq_refl (by simp)⟩

theorem MessageType.message_exportsConverts {t : MessageType}
    (hnames : (FieldType.message t).Unhidden) (ih : t.ExportsConverts rt) :
    (FieldType.message t).ExportsConverts rt := by
  obtain ⟨hcalled, hto, hcopy⟩ := hnames
  intro x v hvalid hplain h
  rw [MessageType.exportToPb_eq rt hto hcopy] at h
  exact (ih hcalled x v hvalid hplain h).2

theorem ScalarType.repeated_exportsConverts (t : ScalarType) :
    (FieldType.repeatedScalar t).ExportsConverts rt := by
  intro x v hvalid hplain h
  obtain ⟨xs, rfl, hxs⟩ := hvalid
  obtain ⟨_, ⟨⟩, hplain⟩ := hplain
  rw [FieldType.exportToPb, bind_eq_ok] at h
  obtain ⟨zs, hzs, h⟩ := h
  cases h
  obtain ⟨ys, hys, heq⟩ : ∃ ys, repeatedConvert t.checkExact (.list zs) = .ok (.list ys) ∧
      ys.isEqv xs PyVal.atomEq = true := by
    refine repeated_back hzs ?_
    intro x hx z hz
    obtain ⟨a, rfl, hexact⟩ := hxs x hx
    obtain ⟨_, ⟨⟩, hnan⟩ := hplain _ hx
    obtain ⟨b, rfl, hholds, hcanon⟩ :=
      PbRuntime.assignTo_eq_ok (ScalarType.isInstance_of_isExact hexact) hz
    exact ⟨_, ScalarType.checkExact_of_holds hholds, Atom.eq_of_canon hcanon hnan⟩
  exact ⟨.list ys, hys, heq⟩

theorem MessageType.repeated_exportsConverts {t : MessageType}
    (hnames : (FieldType.repeatedComposite t).Unhidden) (ih : t.ExportsConverts rt) :
    (FieldType.repeatedComposite t).ExportsConverts rt := by
  intro x v hvalid hplain h
  obtain ⟨xs, rfl, hxs⟩ := hvalid
  obtain ⟨_, ⟨⟩, hplain⟩ := hplain
  rw [FieldType.exportToPb, bind_eq_ok] at h
  obtain ⟨zs, hzs, h⟩ := h
  cases h
  obtain ⟨ys, hys, heq⟩ : ∃ ys,
      repeatedConvert (t.convertEntry (fun entry => t.convert entry)) (.list zs)
        = .ok (.list ys) ∧
      ys.isEqv xs (fun x y => t.eq instEq x y) = true := by
    refine repeated_back hzs ?_
    intro x hx z hz
    obtain ⟨hproto, y, hy, heq⟩ := ih hnames x z (hxs x hx) (hplain x hx) hz
    exact ⟨y, by rw [MessageType.convertEntry_of_isProto hproto, hy], heq⟩
  exact ⟨.list ys, hys, heq⟩

theorem ScalarType.map_exportsConverts (key : KeyType) (t : ScalarType) :
    (FieldType.scalarMap key t).ExportsConverts rt := by
  intro x v hvalid hplain h
  obtain ⟨kvs, rfl, hd, hkvs⟩ := hvalid
  obtain ⟨_, ⟨⟩, -, hplain⟩ := hplain
  rw [FieldType.exportToPb, bind_eq_ok] at h
  obtain ⟨exported, hexported, h⟩ := h
  cases h
  obtain ⟨entries, hentries, heq⟩ : ∃ entries,
      mapConvert key t.checkInstance (.dict (dictUpdate Atom.canon [] exported))
        = .ok (.dict entries) ∧ dictEq PyVal.atomEq entries kvs = true := by
    refine map_back hd hexported ?_
    intro e he
    obtain ⟨hkey, a, ha, hinst⟩ := hkvs e he
    refine ⟨hkey, fun z hz => ?_⟩
    obtain ⟨a', ha', hnan⟩ := (hplain e he).2
    cases ha'.symm.trans ha
    rw [ha] at hz ⊢
    obtain ⟨b, rfl, hholds, hcanon⟩ := PbRuntime.assignTo_eq_ok hinst hz
    exact ⟨_, ScalarType.checkInstance_of_holds hholds, Atom.eq_of_canon hcanon hnan⟩
  exact ⟨.dict entries, hentries, heq⟩

theorem MessageType.map_exportsConverts {key : KeyType} {t : MessageType}
    (hnames : (FieldType.messageMap key t).Unhidden) (ih : t.ExportsConverts rt) :
    (FieldType.messageMap key t).ExportsConverts rt := by
  obtain ⟨hcalled, hcopy⟩ := hnames
  intro x v hvalid hplain h
  obtain ⟨kvs, rfl, hd, hkvs⟩ := hvalid
  obtain ⟨_, ⟨⟩, -, hplain⟩ := hplain
  rw [FieldType.exportToPb, bind_eq_ok] at h
  obtain ⟨exported, hexported, h⟩ := h
  cases h
  obtain ⟨entries, hentries, heq⟩ : ∃ entries,
      mapConvert key (t.convertEntry (fun entry => t.convert entry))
        (.dict (dictUpdate Atom.canon [] exported)) = .ok (.dict entries) ∧
      dictEq (fun x y => t.eq instEq x y) entries kvs = true := by
    refine map_back hd hexported ?_
    intro e he
    obtain ⟨hkey, hsat⟩ := hkvs e he
    refine ⟨hkey, fun z hz => ?_⟩
    rw [hcopy, if_neg Bool.false_ne_true] at hz
    obtain ⟨hproto, y, hy, heq⟩ := ih hcalled e.2 z hsat (hplain e he).2 hz
    exact ⟨y, by rw [MessageType.convertEntry_of_isProto hproto, hy], heq⟩
  exact ⟨.dict entries, hentries, heq⟩

/-- **An instance is equal to itself exported and converted.** -/
theorem MessageType.export_convert {t : MessageType} (ht : t.Supported) (hnames : t.Unhidden) :
    t.ExportsConverts rt := by
  refine @MessageType.everywhere_induction _ _ (FieldType.ExportsConverts rt) _ ?scalar ?enum
    ?message ?repeatedScalar ?repeatedComposite ?scalarMap ?messageMap ?mk t
    (MessageType.everywhere_and ht hnames.2)
  case scalar => exact fun t _ => t.exportsConverts
  case enum => exact fun t h => EnumType.exportsConverts h.2
  case message => exact fun t h ih => MessageType.message_exportsConverts h.2 ih
  case repeatedScalar => exact fun t _ => t.repeated_exportsConverts
  case repeatedComposite => exact fun t h ih => MessageType.repeated_exportsConverts h.2 ih
  case scalarMap => exact fun key t _ => t.map_exportsConverts key
  case messageMap => exact fun key t h ih => MessageType.map_exportsConverts h.2 ih
  case mk => exact fun t ht ih => MessageType.exportsConverts ht.here.1 ih

end ExportConvert

/-! ## The default instance -/

/-- The default of a descriptor is what it makes of the protobuf default. -/
def FieldType.DefaultsAgree (type : FieldType) : Prop :=
  ∃ x y, type.set none = .ok x ∧ type.set (some type.pbDefault) = .ok y ∧
    type.eq instEq x y = true

def MessageType.DefaultsAgree (t : MessageType) : Prop :=
  t.hasField "convert" = false → ∃ x y, t.new (fun _ _ => none) = .ok x ∧
    t.convert (.pb t.proto []) = .ok y ∧ t.eq instEq x y = true

theorem MessageType.defaultsAgree {t : MessageType} (ht : t.Accepted)
    (ih : ∀ field ∈ t.fields.toList, field.type.DefaultsAgree) : t.DefaultsAgree := by
  intro hconvert
  -- both instances, the second after the first
  obtain ⟨attrs, hnew, hattr⟩ := @Fields.new_forall _ ht.nodup (fun _ _ => none)
    (fun field x => ∃ y, field.type.set (some field.type.pbDefault) = .ok y ∧
      field.type.eq instEq x y = true)
    (fun field hmem => (ih field hmem).imp (fun x ⟨y, hx, hy, heq⟩ => ⟨hx, y, hy, heq⟩))
  obtain ⟨attrs', hnew', hattr'⟩ := @Fields.new_forall _ ht.nodup
    (fun name type => some (pbGetattr [] name type))
    (fun field y => ∃ x, dictGet? id attrs field.name = some x ∧
      field.type.eq instEq x y = true)
    (fun field hmem => by
      obtain ⟨x, hget, y, hy, heq⟩ := hattr field hmem
      exact ⟨y, hy, x, hget, heq⟩)
  refine ⟨.inst t none attrs, .inst t none attrs', ?_, ?_, ?_⟩
  · rw [MessageType.new_eq, hnew, ok_bind]
  · rw [MessageType.convert_pb hconvert, hnew', ok_bind]
  · have hclass : instEq.sameClass (.inst t none attrs) (.inst t none attrs') = true := by
      simp [instEq]
    rw [MessageType.eq_eq, hclass, Bool.true_and]
    refine Fields.eq_iff.2 (fun field hmem => ?_)
    obtain ⟨y, hget', x, hget, heq⟩ := hattr' field hmem
    exact ⟨x, y, hget, hget', heq⟩

theorem ScalarType.defaultsAgree (t : ScalarType) : (FieldType.scalar t).DefaultsAgree := by
  have hset : t.checkInstance (.atom t.default) = .ok (.atom t.default) :=
    ScalarType.checkInstance_of_holds t.holds_default
  have heq : t.default.eq t.default = true := Atom.eq_refl t.default_ne_nan
  exact ⟨.atom t.default, .atom t.default, rfl, hset, heq⟩

theorem EnumType.defaultsAgree {t : EnumType} (hfirst : (FieldType.enum t).ZeroFirst)
    (hnames : (FieldType.enum t).Unhidden) : (FieldType.enum t).DefaultsAgree := by
  obtain ⟨name, rest, hmembers⟩ := hfirst
  have hzero : (0 : ℤ) ∈ t.values := by simp [EnumType.values, hmembers]
  have hdefault : t.first = .ok (.atom (.enumMember t 0)) := by rw [EnumType.first, hmembers]
  have heq : (Atom.enumMember t 0).eq (.enumMember t 0) = true := Atom.eq_refl (by simp)
  exact ⟨_, _, hdefault, EnumType.convert_of_mem hnames.1 hzero, heq⟩

/-- **The instance without arguments is the conversion of the empty message.** -/
theorem MessageType.new_eq_convert {t : MessageType} (ht : t.Supported) (hnames : t.Unhidden) :
    t.DefaultsAgree := by
  refine @MessageType.everywhere_induction _ _ FieldType.DefaultsAgree _ ?scalar ?enum ?message
    ?repeatedScalar ?repeatedComposite ?scalarMap ?messageMap ?mk t
    (MessageType.everywhere_and ht hnames.2)
  case scalar => exact fun t _ => t.defaultsAgree
  case enum => exact fun t h => EnumType.defaultsAgree h.1 h.2
  case message => exact fun t h ih => ih h.2.1.1
  -- the containers start empty
  case repeatedScalar => exact fun t _ => ⟨_, _, rfl, rfl, rfl⟩
  case repeatedComposite => exact fun t _ _ => ⟨_, _, rfl, rfl, rfl⟩
  case scalarMap => exact fun key t _ => ⟨_, _, rfl, rfl, rfl⟩
  case messageMap => exact fun key t _ _ => ⟨_, _, rfl, rfl, rfl⟩
  case mk => exact fun t ht ih => MessageType.defaultsAgree ht.here.1 ih

/-! ## The round trip -/

/-- A wrapper class round trips, on the instances that the API builds with `S`. -/
structure MessageType.RoundTrips (rt : PbRuntime) (t : MessageType) (S : ValueSpec) : Prop where
  ofMessage : ∀ m, t.Sat pbSpec m → ∃ w m', t.convert m = .ok w ∧ t.exportPb rt w = .ok m' ∧
    t.eq readEq m' m = true
  ofInstance : ∀ n w m, Built n w → w.isWrapper t = true → t.Sat S w → t.exportPb rt w = .ok m →
    ∃ w', t.convert m = .ok w' ∧ t.eq instEq w' w = true
  ofDefault : ∃ w w', t.new (fun _ _ => none) = .ok w ∧ t.convert (.pb t.proto []) = .ok w' ∧
    t.eq instEq w w' = true

/-- **The wrappers round trip**, over every schema in which no name hides a method, on instances of
    the wrapper classes themselves. -/
theorem roundTrips (rt : PbRuntime) {t : MessageType} (ht : t.Supported) (hnames : t.Unhidden) :
    t.RoundTrips rt plainSpec where
  ofMessage := MessageType.convert_export ht hnames hnames.1
  ofInstance := by
    intro n w m hbuilt hwrapper hplain hexport
    cases w with
    | inst cls sub attrs =>
        obtain rfl : cls = t := of_decide_eq_true hwrapper
        have hvalid := valid_of_built n hbuilt _ _ _ rfl ht
        exact (MessageType.export_convert ht hnames hnames.1 _ m hvalid hplain hexport).2
    | _ => cases hwrapper
  ofDefault := MessageType.new_eq_convert ht hnames hnames.1.1

/-! ## An example schema -/

def sampleEnum : EnumType where
  name := "SampleEnum".toList
  members := [("VALUE_0".toList, 0), ("VALUE_1".toList, 1), ("VALUE_2".toList, 2)]

def innerMessage : MessageType :=
  .mk "InnerMessage".toList "InnerMessage".toList
    (.cons "duration_field".toList none (.message duration) <|
     .cons "enum_field".toList none (.enum sampleEnum) <|
     .cons "double_field".toList none (.scalar .double) <|
     .cons "int_field".toList none (.scalar (.int .uint32)) <|
     .cons "str_field".toList none (.scalar .str) .nil)

def outerMessage : MessageType :=
  .mk "OuterMessage".toList "OuterMessage".toList
    (.cons "mapping_composite_field".toList none (.messageMap (.int .uint32) innerMessage) <|
     .cons "mapping_scalar_field".toList none (.scalarMap .str .str) <|
     .cons "nested_msg".toList none (.message innerMessage) <|
     .cons "repeated_composite_field".toList none (.repeatedComposite innerMessage) <|
     .cons "repeated_scalar_field".toList none (.repeatedScalar .str) .nil)

theorem duration_supported : duration.Supported :=
  ⟨MessageType.accepted_of (by decide) (by decide) (by decide), trivial, trivial, trivial⟩

theorem innerMessage_supported : innerMessage.Supported :=
  ⟨MessageType.accepted_of (by decide) (by decide) (by decide), ⟨trivial, duration_supported⟩,
    ⟨_, _, rfl⟩, trivial, trivial, trivial, trivial⟩

theorem outerMessage_supported : outerMessage.Supported :=
  ⟨MessageType.accepted_of (by decide) (by decide) (by decide), ⟨trivial, innerMessage_supported⟩,
    trivial, ⟨trivial, innerMessage_supported⟩, ⟨trivial, innerMessage_supported⟩, trivial,
    trivial⟩

theorem duration_everywhere : duration.Everywhere FieldType.Unhidden (fun _ => True) :=
  ⟨trivial, trivial, trivial, trivial⟩

theorem innerMessage_everywhere : innerMessage.Everywhere FieldType.Unhidden (fun _ => True) :=
  have henum : (FieldType.enum sampleEnum).Unhidden := by decide
  ⟨trivial, ⟨by decide, duration_everywhere⟩, henum, trivial, trivial, trivial, trivial⟩

theorem outerMessage_unhidden : outerMessage.Unhidden :=
  ⟨by decide, trivial, ⟨by decide, innerMessage_everywhere⟩, trivial,
    ⟨by decide, innerMessage_everywhere⟩, ⟨by decide, innerMessage_everywhere⟩, trivial, trivial⟩

theorem roundTrips_outerMessage : outerMessage.RoundTrips indexRuntime plainSpec :=
  roundTrips indexRuntime outerMessage_supported outerMessage_unhidden

/-! ## Schemas that do not round trip -/

/-- A field hides the `convert` of its class. -/
def hidingMessage : MessageType :=
  .mk "Hiding".toList "Hiding".toList
    (.cons "convert".toList none (.scalar (.int .int32)) .nil)

def emptyMessage : MessageType := .mk "Empty".toList "Empty".toList .nil

def holderMessage : MessageType :=
  .mk "Holder".toList "Holder".toList (.cons "held".toList none (.message emptyMessage) .nil)

/-- An instance of a subclass of the class of `emptyMessage`. -/
def subInstance : PyVal := .inst emptyMessage (some "SubEmpty".toList) []

def holderInstance : PyVal := .inst holderMessage none [("held".toList, subInstance)]

theorem holderMessage_supported : holderMessage.Supported :=
  ⟨MessageType.accepted_of (by decide) (by decide) (by decide),
    ⟨trivial, MessageType.accepted_of (by decide) (by decide) (by decide), trivial⟩, trivial⟩

theorem built_holderInstance : Built 2 holderInstance := by
  have hsub : Built 1 subInstance := @APICall.new _ emptyMessage _ [] _ (by simp) rfl
  have hargs : ∀ e ∈ [("held".toList, subInstance)], e.2.Carries (Built 1) := by
    rintro e he
    cases List.mem_singleton.1 he
    exact .inst hsub
  exact APICall.new hargs rfl

/-- **Neither condition can be left out**: a field named as a method hides it, and an instance of a
    subclass is not equal to the instance of the class that it comes back as. -/
theorem not_roundTrips :
    (¬ ∀ (rt : PbRuntime) (t : MessageType), t.Supported → t.RoundTrips rt plainSpec) ∧
    ¬ ∀ (rt : PbRuntime) (t : MessageType), t.Supported → t.Unhidden →
      t.RoundTrips rt noNanSpec := by
  constructor
  · intro h
    have hsupported : hidingMessage.Supported :=
      ⟨MessageType.accepted_of (by decide) (by decide) (by decide), trivial, trivial⟩
    obtain ⟨w, w', -, hconvert, -⟩ := (h indexRuntime _ hsupported).ofDefault
    cases hconvert
  · intro h
    have hunhidden : holderMessage.Unhidden :=
      ⟨by decide, trivial, ⟨by decide, trivial, trivial⟩, trivial⟩
    have hnoNan : holderMessage.Sat noNanSpec holderInstance :=
      ⟨trivial, ⟨subInstance, rfl, trivial, trivial⟩, trivial⟩
    obtain ⟨w', hconvert, heq⟩ := (h indexRuntime _ holderMessage_supported hunhidden).ofInstance 2
      holderInstance _ built_holderInstance rfl hnoNan rfl
    cases hconvert
    revert heq
    decide

end IotLoggingServer
