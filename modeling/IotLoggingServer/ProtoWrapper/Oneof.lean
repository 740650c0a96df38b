import IotLoggingServer.ProtoWrapper.RoundTrip

set_option autoImplicit false

/-! # Oneofs through the wrappers (`proto_wrapper.py`)

`convert` reads every field of a message, set or not, and `export_pb` writes every field in the
order of annotation, so that of every oneof the last member is set in the end
(`MessageType.exported`). A message keeps its oneofs exactly if these were the members that it had
set (`keepsOneofs_iff`). -/

namespace IotLoggingServer

/-! ## Messages -/

def PyVal.pbFields : PyVal → List (Str × PyVal)
  | .pb _ pbFields => pbFields
  | _ => []

/-- `m.HasField(name)` of a member of a oneof. -/
def PyVal.isSet (m : PyVal) (name : Str) : Bool := (dictGet? id m.pbFields name).isSome

/-- `m.WhichOneof(group)` -/
def MessageType.whichOneof (t : MessageType) (m : PyVal) (group : Str) : Option Str :=
  (t.fields.toList.find? (fun field =>
    decide (field.oneof = some group) && m.isSet field.name)).map Field.name

/-- At most one member of every oneof is set. -/
def MessageType.OneSet (t : MessageType) (m : PyVal) : Prop :=
  ∀ field ∈ t.fields.toList, ∀ field' ∈ t.fields.toList, ∀ group,
    field.oneof = some group → field'.oneof = some group →
    m.isSet field.name = true → m.isSet field'.name = true → field.name = field'.name

/-- The messages of the protobuf types. -/
def protoSpec : ValueSpec where
  scalar t a := t.Holds a
  element t a := t.Holds a
  enum _ a := ∃ n, a = .int n ∧ IntKind.int32.InRange n
  message t m := m.isProto t = true ∧ t.OneSet m
  getattr := readEq.getattr

theorem MessageType.whichOneof_eq_some {t : MessageType} {m : PyVal} {group name : Str}
    (h : t.whichOneof m group = some name) : ∃ field ∈ t.fields.toList,
      field.oneof = some group ∧ m.isSet field.name = true ∧ field.name = name := by
  obtain ⟨field, hfind, hname⟩ := Option.map_eq_some_iff.1 h
  have hset := List.find?_some hfind
  simp only [Bool.and_eq_true, decide_eq_true_eq] at hset
  exact ⟨field, List.mem_of_find?_eq_some hfind, hset.1, hset.2, hname⟩

/-- A group without members has none set. -/
theorem MessageType.whichOneof_eq_none {t : MessageType} {m : PyVal} {group : Str}
    (h : t.fields.lastMember group = none) : t.whichOneof m group = none := by
  by_contra hne
  obtain ⟨name, hname⟩ := Option.ne_none_iff_exists'.1 hne
  obtain ⟨field, hmem, hgroup, -, -⟩ := MessageType.whichOneof_eq_some hname
  exact Fields.lastMember_ne_none hmem hgroup h

/-- The set member of a oneof is the one that `WhichOneof` gives. -/
theorem MessageType.whichOneof_of_isSet {t : MessageType} {m : PyVal} (hone : t.OneSet m)
    {field : Field} (hmem : field ∈ t.fields.toList) {group : Str}
    (hgroup : field.oneof = some group) (hset : m.isSet field.name = true) :
    t.whichOneof m group = some field.name := by
  cases hwhich : t.whichOneof m group with
  | none =>
      have hnone := List.find?_eq_none.1 (Option.map_eq_none_iff.1 hwhich) field hmem
      rw [decide_eq_true hgroup, hset] at hnone
      exact absurd rfl hnone
  | some name =>
      obtain ⟨field', hmem', hgroup', hset', rfl⟩ := MessageType.whichOneof_eq_some hwhich
      rw [hone field' hmem' field hmem group hgroup' hgroup hset' hset]

/-- Where of every group just the last member is set, `WhichOneof` gives it. -/
theorem MessageType.whichOneof_eq_lastMember {t : MessageType} {m : PyVal}
    (hset : ∀ field ∈ t.fields.toList, m.isSet field.name = t.fields.keeps field) (group : Str) :
    t.whichOneof m group = t.fields.lastMember group := by
  have hkeeps : ∀ field ∈ t.fields.toList, field.oneof = some group →
      (m.isSet field.name = true ↔ t.fields.lastMember group = some field.name) := by
    intro field hmem hgroup
    rw [hset field hmem, Fields.keeps, hgroup]
    exact decide_eq_true_iff
  cases hwhich : t.whichOneof m group with
  | some name =>
      obtain ⟨field, hmem, hgroup, hset', rfl⟩ := MessageType.whichOneof_eq_some hwhich
      exact ((hkeeps field hmem hgroup).1 hset').symm
  | none =>
      cases hlast : t.fields.lastMember group with
      | none => rfl
      | some last =>
          obtain ⟨field, hmem, hgroup, rfl⟩ := Fields.lastMember_eq_some hlast
          have hnone := List.find?_eq_none.1 (Option.map_eq_none_iff.1 hwhich) field hmem
          rw [decide_eq_true hgroup, (hkeeps field hmem hgroup).2 hlast] at hnone
          exact absurd rfl hnone

/-! ## Through the wrapper and back -/

/-- A field that reads `x` holds `z` in the message that is converted and exported again. -/
def FieldType.Through (rt : PbRuntime) (type : FieldType) (x z : PyVal) : Prop :=
  ∃ v y, type.set (some x) = .ok v ∧ type.exportToPb rt v = .ok y ∧ z = pbStore type.pbDefault y

/-- `m' = W.convert(m).export_pb()` -/
def MessageType.Through (rt : PbRuntime) (t : MessageType) (m m' : PyVal) : Prop :=
  ∃ w, t.convert m = .ok w ∧ t.exportPb rt w = .ok m'

section Through

variable {rt : PbRuntime}

theorem FieldType.through_iff {type : FieldType} {x v y : PyVal}
    (hset : type.set (some x) = .ok v) (hexport : type.exportToPb rt v = .ok y) {z : PyVal} :
    type.Through rt x z ↔ z = pbStore type.pbDefault y := by
  constructor
  · rintro ⟨v', y', hset', hexport', rfl⟩
    obtain rfl : v = v' := Except.ok.inj (hset.symm.trans hset')
    obtain rfl : y = y' := Except.ok.inj (hexport.symm.trans hexport')
    rfl
  · exact fun h => ⟨v, y, hset, hexport, h⟩

theorem ScalarType.through_iff {t : ScalarType} {a : Atom} (ha : t.Holds a) {z : PyVal} :
    (FieldType.scalar t).Through rt (.atom a) z ↔ z = .atom a := by
  have hset : (FieldType.scalar t).set (some (.atom a)) = .ok (.atom a) :=
    ScalarType.checkInstance_of_holds ha
  have hexport : (FieldType.scalar t).exportToPb rt (.atom a) = .ok (.atom a) :=
    rt.assignTo_of_holds ha
  exact FieldType.through_iff hset hexport

theorem ScalarType.repeated_through_iff {t : ScalarType} {xs : List PyVal}
    (hxs : ∀ x ∈ xs, ∃ a, x = .atom a ∧ t.Holds a) {z : PyVal} :
    (FieldType.repeatedScalar t).Through rt (.list xs) z ↔ z = .list xs := by
  have hset : (FieldType.repeatedScalar t).set (some (.list xs)) = .ok (.list xs) := by
    refine repeatedConvert_eq_ok.2 ⟨xs, xs, rfl, mapM_eq_self_iff.2 (fun x hx => ?_), rfl⟩
    obtain ⟨a, rfl, ha⟩ := hxs x hx
    exact ScalarType.checkExact_of_holds ha
  have hexport : (FieldType.repeatedScalar t).exportToPb rt (.list xs) = .ok (.list xs) := by
    have hself : xs.mapM (rt.assignTo t) = .ok xs := by
      refine mapM_eq_self_iff.2 (fun x hx => ?_)
      obtain ⟨a, rfl, ha⟩ := hxs x hx
      exact rt.assignTo_of_holds ha
    rw [FieldType.exportToPb, hself, ok_bind]
  exact FieldType.through_iff hset hexport

theorem KeyType.exportEntry_eq {key : KeyType} {exportValue : PyVal → Except PyExc PyVal}
    {e : Atom × PyVal} (he : key.scalar.Holds e.1) :
    key.exportEntry rt exportValue e = (do .ok (e.1, ← exportValue e.2)) := by
  rw [KeyType.exportEntry, rt.assign_of_holds _ _ he, ok_bind]

theorem ScalarType.map_through_iff {key : KeyType} {t : ScalarType} {kvs : List (Atom × PyVal)}
    (hd : DistinctKeys Atom.canon kvs)
    (hkvs : ∀ e ∈ kvs, key.scalar.Holds e.1 ∧ ∃ a, e.2 = .atom a ∧ t.Holds a) {z : PyVal} :
    (FieldType.scalarMap key t).Through rt (.dict kvs) z ↔ z = .dict kvs := by
  have hset : (FieldType.scalarMap key t).set (some (.dict kvs)) = .ok (.dict kvs) := by
    refine mapConvert_of_distinct hd (mapM_eq_self_iff.2 (fun e he => ?_))
    obtain ⟨hkey, a, ha, hholds⟩ := hkvs e he
    refine KeyType.checkEntry_eq_ok.2 ⟨hkey.1, e.2, ?_, rfl⟩
    rw [ha]
    exact ScalarType.checkInstance_of_holds hholds
  have hexport : (FieldType.scalarMap key t).exportToPb rt (.dict kvs) = .ok (.dict kvs) := by
    have hself : kvs.mapM (key.exportEntry rt (rt.assignTo t)) = .ok kvs := by
      refine mapM_eq_self_iff.2 (fun e he => ?_)
      obtain ⟨hkey, a, ha, hholds⟩ := hkvs e he
      have hvalue : rt.assignTo t e.2 = .ok e.2 := by
        rw [ha]
        exact rt.assignTo_of_holds hholds
      rw [KeyType.exportEntry_eq hkey, hvalue, ok_bind]
    rw [FieldType.exportToPb, hself, ok_bind]
  rw [FieldType.through_iff hset hexport]
  show z = .dict (dictUpdate Atom.canon [] kvs) ↔ _
  rw [dictUpdate_nil hd]

/-- An enum number gets through if it is a member and no member hides a method. -/
theorem EnumType.through_iff {t : EnumType} {n : ℤ} (hn : IntKind.int32.InRange n) {z : PyVal} :
    (FieldType.enum t).Through rt (.atom (.int n)) z ↔
      ((FieldType.enum t).Unhidden ∧ n ∈ t.values) ∧ z = .atom (.int n) := by
  have hholds : (ScalarType.int .int32).Holds (.int n) := ⟨rfl, hn⟩
  constructor
  · rintro ⟨v, y, hset, hexport, rfl⟩
    -- what the descriptor has stored is a member
    have hconvert : t.hasMember "convert" = false := by
      by_contra hname
      rw [Bool.not_eq_false] at hname
      simp only [FieldType.set, EnumType.convert, hname, if_true] at hset
      cases hset
    obtain ⟨hmem, rfl⟩ : n ∈ t.values ∧ v = .atom (.enumMember t n) := by
      simp only [FieldType.set, EnumType.convert, hconvert, Bool.false_eq_true, if_false,
        EnumType.ofValue] at hset
      split at hset
      · next hmem => exact ⟨by simpa using hmem, (Except.ok.inj hset).symm⟩
      · cases hset
    rw [FieldType.exportToPb] at hexport
    split at hexport
    · cases hexport
    · next hnames =>
        simp only [Bool.or_eq_true, not_or, Bool.not_eq_true] at hnames
        rw [rt.assignTo_of_holds hholds] at hexport
        cases hexport
        exact ⟨⟨⟨hconvert, hnames⟩, hmem⟩, rfl⟩
  · rintro ⟨⟨⟨hconvert, hto, hpb⟩, hmem⟩, rfl⟩
    refine ⟨_, .atom (.int n), EnumType.convert_of_mem hconvert hmem, ?_, rfl⟩
    rw [EnumType.exportToPb_eq rt hto hpb]
    exact rt.assignTo_of_holds hholds

theorem MessageType.message_through_iff {t : MessageType} {x z : PyVal} :
    (FieldType.message t).Through rt x z ↔
      (t.hasField "export_to_pb" = false ∧ t.hasField "CopyFrom" = false) ∧ t.Through rt x z := by
  constructor
  · rintro ⟨v, y, hset, hexport, rfl⟩
    rw [FieldType.exportToPb] at hexport
    split at hexport
    · cases hexport
    · next hnames =>
        simp only [Bool.or_eq_true, not_or, Bool.not_eq_true] at hnames
        exact ⟨hnames, v, hset, hexport⟩
  · rintro ⟨⟨hto, hcopy⟩, v, hset, hexport⟩
    exact ⟨v, z, hset, by rw [MessageType.exportToPb_eq rt hto hcopy, hexport], rfl⟩

theorem MessageType.repeated_through_iff {t : MessageType} {xs : List PyVal}
    (hxs : ∀ x ∈ xs, x.isProto t = true) {z : PyVal} :
    (FieldType.repeatedComposite t).Through rt (.list xs) z ↔
      ∃ zs, z = .list zs ∧ List.Forall₂ (fun x z => t.Through rt x z) xs zs := by
  constructor
  · rintro ⟨v, y, hset, hexport, rfl⟩
    obtain ⟨_, ys, ⟨⟩, hys, rfl⟩ := repeatedConvert_eq_ok.1 hset
    rw [FieldType.exportToPb, bind_eq_ok] at hexport
    obtain ⟨zs, hzs, hexport⟩ := hexport
    cases hexport
    refine ⟨zs, rfl, forall₂_imp_of_mem (mapM_mapM_eq_ok_iff.1 ⟨ys, hys, hzs⟩) ?_⟩
    rintro x hx z ⟨y, hy, hz⟩
    rw [MessageType.convertEntry_of_isProto (hxs x hx)] at hy
    exact ⟨y, hy, hz⟩
  · rintro ⟨zs, rfl, hall⟩
    obtain ⟨ys, hys, hzs⟩ : ∃ ys, xs.mapM (t.convertEntry (fun entry => t.convert entry))
        = .ok ys ∧ ys.mapM (fun x => t.exportPb rt x) = .ok zs := by
      refine mapM_mapM_eq_ok_iff.2 (forall₂_imp_of_mem hall ?_)
      rintro x hx z ⟨y, hy, hz⟩
      exact ⟨y, by rw [MessageType.convertEntry_of_isProto (hxs x hx), hy], hz⟩
    have hexport : (FieldType.repeatedComposite t).exportToPb rt (.list ys) = .ok (.list zs) := by
      rw [FieldType.exportToPb, hzs, ok_bind]
    exact ⟨.list ys, .list zs, repeatedConvert_eq_ok.2 ⟨xs, ys, rfl, hys, rfl⟩, hexport, rfl⟩

/-- What an entry becomes that is converted and exported. -/
theorem MessageType.entry_through_iff {key : KeyType} {t : MessageType} {e e' : Atom × PyVal}
    (hkey : key.scalar.Holds e.1) (hvalue : e.2.isProto t = true) :
    (∃ x, key.checkEntry (t.convertEntry (fun entry => t.convert entry)) e = .ok x ∧
      key.exportEntry rt (fun v =>
        if t.hasField "CopyFrom" then .error .typeError else t.exportPb rt v) x = .ok e') ↔
      e.1 = e'.1 ∧ t.hasField "CopyFrom" = false ∧ t.Through rt e.2 e'.2 := by
  constructor
  · rintro ⟨x, hx, he'⟩
    obtain ⟨-, w, hw, rfl⟩ := KeyType.checkEntry_eq_ok.1 hx
    rw [@KeyType.exportEntry_eq rt key _ (e.1, w) hkey, bind_eq_ok] at he'
    obtain ⟨z, hz, he'⟩ := he'
    cases he'
    rw [MessageType.convertEntry_of_isProto hvalue] at hw
    cases hcopy : t.hasField "CopyFrom" with
    | true =>
        rw [hcopy] at hz
        cases hz
    | false =>
        rw [hcopy] at hz
        exact ⟨rfl, rfl, w, hw, hz⟩
  · obtain ⟨k, v⟩ := e'
    rintro ⟨rfl, hcopy, w, hw, hz⟩
    refine ⟨(e.1, w), KeyType.checkEntry_eq_ok.2 ⟨hkey.1, w, ?_, rfl⟩, ?_⟩
    · rw [MessageType.convertEntry_of_isProto hvalue, hw]
    · rw [@KeyType.exportEntry_eq rt key _ (e.1, w) hkey, hcopy, if_neg Bool.false_ne_true, hz,
        ok_bind]

theorem MessageType.map_through_iff {key : KeyType} {t : MessageType} {kvs : List (Atom × PyVal)}
    (hd : DistinctKeys Atom.canon kvs)
    (hkvs : ∀ e ∈ kvs, key.scalar.Holds e.1 ∧ e.2.isProto t = true) {z : PyVal} :
    (FieldType.messageMap key t).Through rt (.dict kvs) z ↔
      ∃ kvs', z = .dict kvs' ∧ List.Forall₂ (fun e e' => e.1 = e'.1 ∧
        t.hasField "CopyFrom" = false ∧ t.Through rt e.2 e'.2) kvs kvs' := by
  -- the entries that come back have the same keys
  have hstored : ∀ {kvs' : List (Atom × PyVal)}, List.Forall₂ (fun e e' => e.1 = e'.1 ∧
      t.hasField "CopyFrom" = false ∧ t.Through rt e.2 e'.2) kvs kvs' →
      dictUpdate Atom.canon [] kvs' = kvs' := by
    intro kvs' hall
    refine dictUpdate_nil ?_
    rw [DistinctKeys, ← dictKeys_eq_of_forall₂ (hall.imp (fun _ _ h => h.1))]
    exact hd
  constructor
  · rintro ⟨v, y, hset, hexport, rfl⟩
    obtain ⟨_, entries, ⟨⟩, hentries, -⟩ := mapConvert_eq_ok.1 hset
    rw [FieldType.set, mapConvert_of_distinct hd hentries] at hset
    cases hset
    rw [FieldType.exportToPb, bind_eq_ok] at hexport
    obtain ⟨kvs', hkvs', hexport⟩ := hexport
    cases hexport
    have hall := forall₂_imp_of_mem (mapM_mapM_eq_ok_iff.1 ⟨entries, hentries, hkvs'⟩)
      (fun e he e' => (MessageType.entry_through_iff (hkvs e he).1 (hkvs e he).2).1)
    refine ⟨kvs', ?_, hall⟩
    show PyVal.dict (dictUpdate Atom.canon [] kvs') = _
    rw [hstored hall]
  · rintro ⟨kvs', rfl, hall⟩
    obtain ⟨entries, hentries, hkvs'⟩ := mapM_mapM_eq_ok_iff.2 (forall₂_imp_of_mem hall
      (fun e he e' => (MessageType.entry_through_iff (hkvs e he).1 (hkvs e he).2).2))
    have hexport : (FieldType.messageMap key t).exportToPb rt (.dict entries)
        = .ok (.dict kvs') := by
      rw [FieldType.exportToPb, hkvs', ok_bind]
    refine ⟨.dict entries, .dict kvs', mapConvert_of_distinct hd hentries, hexport, ?_⟩
    show _ = PyVal.dict (dictUpdate Atom.canon [] kvs')
    rw [hstored hall]

/-- What a message becomes that is converted and exported, field by field. -/
theorem MessageType.through_pb {t : MessageType} (ht : t.AcceptedClass)
    {pbFields : List (Str × PyVal)} {m' : PyVal} (h : t.Through rt (.pb t.proto pbFields) m') :
    (t.hasField "convert" = false ∧ t.hasField "export_pb" = false) ∧
    ∃ res, m' = .pb t.proto res ∧ ∀ field ∈ t.fields.toList, ∃ z,
      field.type.Through rt (pbGetattr pbFields field.name field.type) z ∧
      dictGet? id res field.name = if t.fields.keeps field then some z else none := by
  obtain ⟨w, hw, hm'⟩ := h
  have hconvert : t.hasField "convert" = false := by
    by_contra hname
    rw [Bool.not_eq_false] at hname
    rw [MessageType.convert_eq, hname, if_pos rfl] at hw
    cases hw
  rw [MessageType.convert_pb hconvert, bind_eq_ok] at hw
  obtain ⟨attrs, hnew, hw⟩ := hw
  cases hw
  have hexport : t.hasField "export_pb" = false := by
    by_contra hname
    rw [Bool.not_eq_false] at hname
    rw [MessageType.exportPb_eq, hname, if_pos rfl] at hm'
    cases hm'
  rw [MessageType.exportPb_inst rt hexport, bind_eq_ok] at hm'
  obtain ⟨res, hres, hm'⟩ := hm'
  cases hm'
  refine ⟨⟨hconvert, hexport⟩, res, rfl, fun field hmem => ?_⟩
  obtain ⟨v, hset, hattr⟩ := Fields.new_eq_ok ht.nodup hnew field hmem
  obtain ⟨x, y, hx, hy, hget⟩ := Fields.exportPb_mem ht.nodup
    (fun field hmem => Fields.oneofOf_of_mem ht.nodup hmem) (fun _ _ => rfl) hres field hmem
  obtain rfl : v = x := Option.some.inj (hattr.symm.trans hx)
  exact ⟨_, ⟨v, y, hset, hy, rfl⟩, hget⟩

/-- A message gets through if its fields do. -/
theorem MessageType.through_ok {t : MessageType} (ht : t.AcceptedClass)
    (hnames : t.hasField "convert" = false ∧ t.hasField "export_pb" = false)
    {pbFields : List (Str × PyVal)} (h : ∀ field ∈ t.fields.toList, ∃ z,
      field.type.Through rt (pbGetattr pbFields field.name field.type) z) :
    ∃ m', t.Through rt (.pb t.proto pbFields) m' := by
  obtain ⟨attrs, hnew, hattr⟩ := @Fields.new_forall _ ht.nodup
    (fun name type => some (pbGetattr pbFields name type))
    (fun field v => ∃ y, field.type.exportToPb rt v = .ok y)
    (fun field hmem => by
      obtain ⟨z, v, y, hset, hy, -⟩ := h field hmem
      exact ⟨v, hset, y, hy⟩)
  obtain ⟨res, hres⟩ : ∃ res, t.fields.exportPb rt t.fields (dictGet? id attrs) [] = .ok res :=
    Fields.exportPb_ok [] (fun field hmem => by
      obtain ⟨v, hget, y, hy⟩ := hattr field hmem
      exact ⟨v, y, hget, hy⟩)
  refine ⟨.pb t.proto res, .inst t none attrs, ?_, ?_⟩
  · rw [MessageType.convert_pb hnames.1, hnew, ok_bind]
  · rw [MessageType.exportPb_inst rt hnames.2, hres, ok_bind]

end Through

/-! ## Which messages get through, and which come back the same -/

mutual

/-- The value gets through: its enum numbers are members of the wrappers, and no name hides a method
    that is called on the way. -/
def FieldType.Converts : FieldType → PyVal → Prop
  | .enum t, v => ∃ n, v = .atom (.int n) ∧ (FieldType.enum t).Unhidden ∧ n ∈ t.values
  | .message t, v =>
    (t.hasField "export_to_pb" = false ∧ t.hasField "CopyFrom" = false) ∧ t.Converts v
  | .repeatedComposite t, v => ∃ xs, v = .list xs ∧ ∀ x ∈ xs, t.Converts x
  | .messageMap _ t, v => ∃ kvs, v = .dict kvs ∧
      ∀ e ∈ kvs, t.hasField "CopyFrom" = false ∧ t.Converts e.2
  | _, _ => True

def MessageType.Converts : MessageType → PyVal → Prop
  | .mk cls proto fields, m =>
    ((MessageType.mk cls proto fields).hasField "convert" = false ∧
      (MessageType.mk cls proto fields).hasField "export_pb" = false) ∧ fields.Converts m.pbFields

def Fields.Converts : Fields → List (Str × PyVal) → Prop
  | .nil, _ => True
  | .cons name _ type rest, pbFields =>
    type.Converts (pbGetattr pbFields name type) ∧ rest.Converts pbFields

end

mutual

/-- The same value: messages have the same members set in their oneofs and read the same in all
    their fields. -/
def FieldType.Same : FieldType → PyVal → PyVal → Prop
  | .message t, x, y => t.Same x y
  | .repeatedComposite t, x, y => ∃ xs ys, x = .list xs ∧ y = .list ys ∧
      List.Forall₂ (fun x y => t.Same x y) xs ys
  | .messageMap _ t, x, y => ∃ kvs kvs', x = .dict kvs ∧ y = .dict kvs' ∧
      List.Forall₂ (fun e e' => e.1 = e'.1 ∧ t.Same e.2 e'.2) kvs kvs'
  | _, x, y => x = y

def MessageType.Same : MessageType → PyVal → PyVal → Prop
  | .mk cls proto fields, m, m' =>
    (∀ group, (MessageType.mk cls proto fields).whichOneof m' group
      = (MessageType.mk cls proto fields).whichOneof m group) ∧
    fields.Same m.pbFields m'.pbFields

def Fields.Same : Fields → List (Str × PyVal) → List (Str × PyVal) → Prop
  | .nil, _, _ => True
  | .cons name _ type rest, pbFields, pbFields' =>
    type.Same (pbGetattr pbFields name type) (pbGetattr pbFields' name type) ∧
      rest.Same pbFields pbFields'

end

mutual

/-- Of every oneof in the value the last member is set. A message field that is no member of a oneof
    is exported in any case, so that this goes for its default, too. -/
def FieldType.LastSet : FieldType → PyVal → Prop
  | .message t, v => t.LastSet v
  | .repeatedComposite t, v => ∃ xs, v = .list xs ∧ ∀ x ∈ xs, t.LastSet x
  | .messageMap _ t, v => ∃ kvs, v = .dict kvs ∧ ∀ e ∈ kvs, t.LastSet e.2
  | _, _ => True

def MessageType.LastSet : MessageType → PyVal → Prop
  | .mk cls proto fields, m =>
    (∀ group, (MessageType.mk cls proto fields).whichOneof m group = fields.lastMember group) ∧
      fields.LastSet m

def Fields.LastSet : Fields → PyVal → Prop
  | .nil, _ => True
  | .cons name oneof type rest, m =>
    (oneof = none ∨ m.isSet name = true → type.LastSet (pbGetattr m.pbFields name type)) ∧
      rest.LastSet m

end

theorem Fields.converts_iff {pbFields : List (Str × PyVal)} : ∀ {fields : Fields},
    fields.Converts pbFields ↔ ∀ field ∈ fields.toList,
      field.type.Converts (pbGetattr pbFields field.name field.type)
  | .nil => by simp [Fields.Converts, Fields.toList]
  | .cons name oneof type rest => by
      simp only [Fields.Converts, Fields.toList, List.forall_mem_cons]
      exact and_congr_right' Fields.converts_iff

theorem MessageType.converts_iff {t : MessageType} {m : PyVal} : t.Converts m ↔
    (t.hasField "convert" = false ∧ t.hasField "export_pb" = false) ∧
      ∀ field ∈ t.fields.toList,
        field.type.Converts (pbGetattr m.pbFields field.name field.type) := by
  cases t with
  | mk cls proto fields => exact and_congr_right' Fields.converts_iff

theorem Fields.same_iff {pbFields pbFields' : List (Str × PyVal)} : ∀ {fields : Fields},
    fields.Same pbFields pbFields' ↔ ∀ field ∈ fields.toList,
      field.type.Same (pbGetattr pbFields field.name field.type)
        (pbGetattr pbFields' field.name field.type)
  | .nil => by simp [Fields.Same, Fields.toList]
  | .cons name oneof type rest => by
      simp only [Fields.Same, Fields.toList, List.forall_mem_cons]
      exact and_congr_right' Fields.same_iff

theorem MessageType.same_iff {t : MessageType} {m m' : PyVal} : t.Same m m' ↔
    (∀ group, t.whichOneof m' group = t.whichOneof m group) ∧ ∀ field ∈ t.fields.toList,
      field.type.Same (pbGetattr m.pbFields field.name field.type)
        (pbGetattr m'.pbFields field.name field.type) := by
  cases t with
  | mk cls proto fields => exact and_congr_right' Fields.same_iff

theorem Fields.lastSet_iff {m : PyVal} : ∀ {fields : Fields},
    fields.LastSet m ↔ ∀ field ∈ fields.toList, field.oneof = none ∨ m.isSet field.name = true →
      field.type.LastSet (pbGetattr m.pbFields field.name field.type)
  | .nil => by simp [Fields.LastSet, Fields.toList]
  | .cons name oneof type rest => by
      simp only [Fields.LastSet, Fields.toList, List.forall_mem_cons]
      exact and_congr_right' Fields.lastSet_iff

theorem MessageType.lastSet_iff {t : MessageType} {m : PyVal} : t.LastSet m ↔
    (∀ group, t.whichOneof m group = t.fields.lastMember group) ∧ ∀ field ∈ t.fields.toList,
      field.oneof = none ∨ m.isSet field.name = true →
        field.type.LastSet (pbGetattr m.pbFields field.name field.type) := by
  cases t with
  | mk cls proto fields => exact and_congr_right' Fields.lastSet_iff

/-- Of every field type the defaults are the same value. -/
theorem MessageType.same_default {t : MessageType}
    (ht : t.Everywhere (fun _ => True) MessageType.AcceptedClass) :
    ∀ field ∈ t.fields.toList, field.type.Same field.type.pbDefault field.type.pbDefault := by
  have hmessage : ∀ {t : MessageType}, (∀ field ∈ t.fields.toList,
      field.type.Same field.type.pbDefault field.type.pbDefault) →
      t.Same (.pb t.proto []) (.pb t.proto []) :=
    fun h => MessageType.same_iff.2 ⟨fun _ => rfl, h⟩
  refine @MessageType.everywhere_induction _ _
    (fun type => type.Same type.pbDefault type.pbDefault)
    (fun t => ∀ field ∈ t.fields.toList, field.type.Same field.type.pbDefault field.type.pbDefault)
    ?scalar ?enum ?message ?repeatedScalar ?repeatedComposite ?scalarMap ?messageMap ?mk t ht
  case scalar => exact fun t _ => rfl
  case enum => exact fun t _ => rfl
  case message => exact fun t _ ih => hmessage ih
  case repeatedScalar => exact fun t _ => rfl
  case repeatedComposite => exact fun t _ _ => ⟨[], [], rfl, rfl, .nil⟩
  case scalarMap => exact fun key t _ => rfl
  case messageMap => exact fun key t _ _ => ⟨[], [], rfl, rfl, .nil⟩
  case mk => exact fun t _ ih => ih

section Exact

variable {rt : PbRuntime}

/-- Which values of the type get through, and which of them come back the same. -/
def FieldType.Exact (rt : PbRuntime) (type : FieldType) : Prop := ∀ x, type.Sat protoSpec x →
  ((∃ z, type.Through rt x z) ↔ type.Converts x) ∧
    ∀ z, type.Through rt x z → (type.Same x z ↔ type.LastSet x)

def MessageType.Exact (rt : PbRuntime) (t : MessageType) : Prop := ∀ m, t.Sat protoSpec m →
  ((∃ m', t.Through rt m m') ↔ t.Converts m) ∧
    ∀ m', t.Through rt m m' → (t.Same m m' ↔ t.LastSet m)

/-- Where the last members are set, these and the fields outside of oneofs are kept. -/
theorem MessageType.keeps_iff {t : MessageType} {m : PyVal} (hone : t.OneSet m)
    (hlast : ∀ group, t.whichOneof m group = t.fields.lastMember group) {field : Field}
    (hmem : field ∈ t.fields.toList) :
    t.fields.keeps field = true ↔ field.oneof = none ∨ m.isSet field.name = true := by
  unfold Fields.keeps
  cases hgroup : field.oneof with
  | none => simp
  | some group =>
      show decide (t.fields.lastMember group = some field.name) = true ↔ _
      rw [← hlast group]
      simp only [decide_eq_true_eq, reduceCtorEq, false_or]
      constructor
      · intro h
        obtain ⟨field', -, -, hset, hname⟩ := MessageType.whichOneof_eq_some h
        rw [← hname]
        exact hset
      · exact MessageType.whichOneof_of_isSet hone hmem hgroup

/-- The exported message: which fields are set, and what they hold. -/
theorem MessageType.exported {t : MessageType} (ht : t.AcceptedClass)
    {pbFields : List (Str × PyVal)} {m' : PyVal} (h : t.Through rt (.pb t.proto pbFields) m') :
    (∀ group, t.whichOneof m' group = t.fields.lastMember group) ∧
    ∀ field ∈ t.fields.toList, ∃ z,
      field.type.Through rt (pbGetattr pbFields field.name field.type) z ∧
      pbGetattr m'.pbFields field.name field.type
        = if t.fields.keeps field then z else field.type.pbDefault := by
  obtain ⟨-, res, rfl, hres⟩ := MessageType.through_pb ht h
  constructor
  · refine MessageType.whichOneof_eq_lastMember (fun field hmem => ?_)
    obtain ⟨z, -, hget⟩ := hres field hmem
    show (dictGet? id res field.name).isSome = _
    rw [hget]
    cases t.fields.keeps field <;> rfl
  · intro field hmem
    obtain ⟨z, hz, hget⟩ := hres field hmem
    refine ⟨z, hz, ?_⟩
    show (dictGet? id res field.name).getD _ = _
    rw [hget]
    cases t.fields.keeps field <;> rfl

/-- A message type is exact if its fields are. -/
theorem MessageType.exact_of_fields {t : MessageType}
    (ht : t.Everywhere (fun _ => True) MessageType.AcceptedClass)
    (ih : ∀ field ∈ t.fields.toList, field.type.Exact rt) : t.Exact rt := by
  intro m hm
  obtain ⟨⟨hproto, hone⟩, hfields⟩ := MessageType.sat_iff.1 hm
  cases m with
  | pb proto pbFields =>
      obtain rfl : proto = t.proto := of_decide_eq_true hproto
      have hexact : ∀ field ∈ t.fields.toList,
          ((∃ z, field.type.Through rt (pbGetattr pbFields field.name field.type) z) ↔
            field.type.Converts (pbGetattr pbFields field.name field.type)) ∧
          ∀ z, field.type.Through rt (pbGetattr pbFields field.name field.type) z →
            (field.type.Same (pbGetattr pbFields field.name field.type) z ↔
              field.type.LastSet (pbGetattr pbFields field.name field.type)) := by
        intro field hmem
        obtain ⟨x, hx, hsat⟩ := hfields field hmem
        obtain rfl := Option.some.inj hx
        exact ih field hmem _ hsat
      constructor
      · rw [MessageType.converts_iff]
        constructor
        · rintro ⟨m', hm'⟩
          obtain ⟨hnames, res, -, hres⟩ := MessageType.through_pb ht.here hm'
          refine ⟨hnames, fun field hmem => (hexact field hmem).1.1 ?_⟩
          obtain ⟨z, hz, -⟩ := hres field hmem
          exact ⟨z, hz⟩
        · rintro ⟨hnames, hconverts⟩
          exact MessageType.through_ok ht.here hnames
            (fun field hmem => (hexact field hmem).1.2 (hconverts field hmem))
      · intro m' hm'
        obtain ⟨hwhich, hread⟩ := MessageType.exported ht.here hm'
        rw [MessageType.same_iff, MessageType.lastSet_iff]
        constructor
        · rintro ⟨hgroups, hsame⟩
          have hlast : ∀ group, t.whichOneof (.pb t.proto pbFields) group
              = t.fields.lastMember group :=
            fun group => (hgroups group).symm.trans (hwhich group)
          refine ⟨hlast, fun field hmem hset => ?_⟩
          obtain ⟨z, hz, hget⟩ := hread field hmem
          have hkeeps := (MessageType.keeps_iff hone hlast hmem).2 hset
          rw [hkeeps, if_pos rfl] at hget
          have hfield := hsame field hmem
          rw [hget] at hfield
          exact ((hexact field hmem).2 z hz).1 hfield
        · rintro ⟨hlast, hfieldsLast⟩
          refine ⟨fun group => (hwhich group).trans (hlast group).symm, fun field hmem => ?_⟩
          obtain ⟨z, hz, hget⟩ := hread field hmem
          rw [hget]
          by_cases hkeeps : t.fields.keeps field = true
          · rw [if_pos hkeeps]
            have hset := (MessageType.keeps_iff hone hlast hmem).1 hkeeps
            exact ((hexact field hmem).2 z hz).2 (hfieldsLast field hmem hset)
          · -- neither message has the field set
            rw [if_neg hkeeps]
            have hunset : dictGet? id pbFields field.name = none := by
              rw [MessageType.keeps_iff hone hlast hmem, not_or] at hkeeps
              exact Option.not_isSome_iff_eq_none.1 hkeeps.2
            show field.type.Same ((dictGet? id pbFields field.name).getD _) _
            rw [hunset]
            exact MessageType.same_default ht field hmem
  | _ => cases hproto

theorem ScalarType.exact (t : ScalarType) : (FieldType.scalar t).Exact rt := by
  rintro _ ⟨a, rfl, ha⟩
  refine ⟨iff_of_true ⟨_, (ScalarType.through_iff ha).2 rfl⟩ trivial, fun z hz => ?_⟩
  exact iff_of_true ((ScalarType.through_iff ha).1 hz).symm trivial

theorem EnumType.exact (t : EnumType) : (FieldType.enum t).Exact rt := by
  rintro _ ⟨_, rfl, n, rfl, hn⟩
  constructor
  · constructor
    · rintro ⟨z, hz⟩
      obtain ⟨⟨hnames, hmem⟩, -⟩ := (EnumType.through_iff hn).1 hz
      exact ⟨n, rfl, hnames, hmem⟩
    · rintro ⟨_, ⟨⟩, hnames, hmem⟩
      exact ⟨_, (EnumType.through_iff hn).2 ⟨⟨hnames, hmem⟩, rfl⟩⟩
  · intro z hz
    exact iff_of_true ((EnumType.through_iff hn).1 hz).2.symm trivial

theorem MessageType.message_exact {t : MessageType} (ih : t.Exact rt) :
    (FieldType.message t).Exact rt := by
  intro x hx
  obtain ⟨hthrough, hsame⟩ := ih x hx
  constructor
  · simp only [MessageType.message_through_iff, exists_and_left, hthrough]
    exact Iff.rfl
  · exact fun z hz => hsame z (MessageType.message_through_iff.1 hz).2

theorem ScalarType.repeated_exact (t : ScalarType) : (FieldType.repeatedScalar t).Exact rt := by
  rintro _ ⟨xs, rfl, hxs⟩
  refine ⟨iff_of_true ⟨_, (ScalarType.repeated_through_iff hxs).2 rfl⟩ trivial, fun z hz => ?_⟩
  exact iff_of_true ((ScalarType.repeated_through_iff hxs).1 hz).symm trivial

theorem MessageType.isProto_of_sat {t : MessageType} {m : PyVal} (h : t.Sat protoSpec m) :
    m.isProto t = true := (MessageType.sat_iff.1 h).1.1

theorem MessageType.repeated_exact {t : MessageType} (ih : t.Exact rt) :
    (FieldType.repeatedComposite t).Exact rt := by
  rintro _ ⟨xs, rfl, hxs⟩
  have hproto : ∀ x ∈ xs, x.isProto t = true := fun x hx => MessageType.isProto_of_sat (hxs x hx)
  constructor
  · have hconverts : (∃ zs, List.Forall₂ (fun x z => t.Through rt x z) xs zs) ↔
        ∀ x ∈ xs, t.Converts x :=
      exists_forall₂_iff.trans (forall₂_congr (fun x hx => (ih x (hxs x hx)).1))
    simp only [MessageType.repeated_through_iff hproto, FieldType.Converts]
    constructor
    · rintro ⟨_, zs, rfl, hzs⟩
      exact ⟨xs, rfl, hconverts.1 ⟨zs, hzs⟩⟩
    · rintro ⟨_, ⟨⟩, h⟩
      obtain ⟨zs, hzs⟩ := hconverts.2 h
      exact ⟨_, zs, rfl, hzs⟩
  · intro z hz
    obtain ⟨zs, rfl, hzs⟩ := (MessageType.repeated_through_iff hproto).1 hz
    have hsame := forall₂_iff_forall hzs (fun x hx z hz => (ih x (hxs x hx)).2 z hz)
    constructor
    · rintro ⟨_, _, ⟨⟩, ⟨⟩, h⟩
      exact ⟨xs, rfl, hsame.1 h⟩
    · rintro ⟨_, ⟨⟩, h⟩
      exact ⟨xs, zs, rfl, rfl, hsame.2 h⟩

theorem ScalarType.map_exact (key : KeyType) (t : ScalarType) :
    (FieldType.scalarMap key t).Exact rt := by
  rintro _ ⟨kvs, rfl, hd, hkvs⟩
  refine ⟨iff_of_true ⟨_, (ScalarType.map_through_iff hd hkvs).2 rfl⟩ trivial, fun z hz => ?_⟩
  exact iff_of_true ((ScalarType.map_through_iff hd hkvs).1 hz).symm trivial

theorem MessageType.map_exact (key : KeyType) {t : MessageType} (ih : t.Exact rt) :
    (FieldType.messageMap key t).Exact rt := by
  rintro _ ⟨kvs, rfl, hd, hkvs⟩
  have hproto : ∀ e ∈ kvs, key.scalar.Holds e.1 ∧ e.2.isProto t = true :=
    fun e he => ⟨(hkvs e he).1, MessageType.isProto_of_sat (hkvs e he).2⟩
  constructor
  · have hconverts : (∃ kvs' : List (Atom × PyVal), List.Forall₂ (fun e e' => e.1 = e'.1 ∧
        t.hasField "CopyFrom" = false ∧ t.Through rt e.2 e'.2) kvs kvs') ↔
        ∀ e ∈ kvs, t.hasField "CopyFrom" = false ∧ t.Converts e.2 := by
      refine exists_forall₂_iff.trans (forall₂_congr (fun e he => ?_))
      rw [← (ih e.2 (hkvs e he).2).1]
      constructor
      · rintro ⟨e', -, hcopy, hz⟩
        exact ⟨hcopy, e'.2, hz⟩
      · rintro ⟨hcopy, z, hz⟩
        exact ⟨(e.1, z), rfl, hcopy, hz⟩
    simp only [MessageType.map_through_iff hd hproto, FieldType.Converts]
    constructor
    · rintro ⟨_, kvs', rfl, h⟩
      exact ⟨kvs, rfl, hconverts.1 ⟨kvs', h⟩⟩
    · rintro ⟨_, ⟨⟩, h⟩
      obtain ⟨kvs', hkvs'⟩ := hconverts.2 h
      exact ⟨_, kvs', rfl, hkvs'⟩
  · intro z hz
    obtain ⟨kvs', rfl, hall⟩ := (MessageType.map_through_iff hd hproto).1 hz
    have hsame : List.Forall₂ (fun e e' => e.1 = e'.1 ∧ t.Same e.2 e'.2) kvs kvs' ↔
        ∀ e ∈ kvs, t.LastSet e.2 :=
      forall₂_iff_forall hall (fun e he e' he' =>
        (and_iff_right he'.1).trans ((ih e.2 (hkvs e he).2).2 e'.2 he'.2.2))
    constructor
    · rintro ⟨_, _, ⟨⟩, ⟨⟩, h⟩
      exact ⟨kvs, rfl, hsame.1 h⟩
    · rintro ⟨_, ⟨⟩, h⟩
      exact ⟨kvs, kvs', rfl, rfl, hsame.2 h⟩

/-- **Which messages get through, and which of them come back the same.** -/
theorem MessageType.exact {t : MessageType}
    (ht : t.Everywhere (fun _ => True) MessageType.AcceptedClass) :
    t.Exact rt ∧ ∀ field ∈ t.fields.toList, field.type.Exact rt := by
  refine @MessageType.everywhere_induction _ _ (FieldType.Exact rt)
    (fun t => t.Exact rt ∧ ∀ field ∈ t.fields.toList, field.type.Exact rt) ?scalar ?enum
    ?message ?repeatedScalar ?repeatedComposite ?scalarMap ?messageMap ?mk t ht
  case scalar => exact fun t _ => t.exact
  case enum => exact fun t _ => t.exact
  case message => exact fun t _ ih => MessageType.message_exact ih.1
  case repeatedScalar => exact fun t _ => t.repeated_exact
  case repeatedComposite => exact fun t _ ih => MessageType.repeated_exact ih.1
  case scalarMap => exact fun key t _ => t.map_exact key
  case messageMap => exact fun key t _ ih => MessageType.map_exact key ih.1
  case mk => exact fun t ht ih => ⟨MessageType.exact_of_fields ht ih, ih⟩

end Exact

/-! ## What becomes of the oneofs -/

/-- `W.convert(m).export_pb()` has the same member set in every oneof as `m`, with the same
    value. -/
def MessageType.KeepsOneofs (rt : PbRuntime) (t : MessageType) (m : PyVal) : Prop :=
  ∃ m', t.Through rt m m' ∧ ∀ group, t.whichOneof m' group = t.whichOneof m group ∧
    ∀ field ∈ t.fields.toList, t.whichOneof m group = some field.name →
      field.type.Same (pbGetattr m.pbFields field.name field.type)
        (pbGetattr m'.pbFields field.name field.type)

/-- Of every oneof the last member is the one that is set, and so it is within its value. -/
def MessageType.LastSelected (t : MessageType) (m : PyVal) : Prop :=
  ∀ group, t.whichOneof m group = t.fields.lastMember group ∧
    ∀ field ∈ t.fields.toList, t.whichOneof m group = some field.name →
      field.type.LastSet (pbGetattr m.pbFields field.name field.type)

/-- **When a message keeps its oneofs**: when it gets through the wrapper at all, and in every oneof
    the last member is set. -/
theorem keepsOneofs_iff (rt : PbRuntime) {t : MessageType}
    (ht : t.Everywhere (fun _ => True) MessageType.AcceptedClass) {m : PyVal}
    (hm : t.Sat protoSpec m) : t.KeepsOneofs rt m ↔ t.Converts m ∧ t.LastSelected m := by
  obtain ⟨⟨hproto, hone⟩, hfields⟩ := MessageType.sat_iff.1 hm
  obtain ⟨hexact, hfieldsExact⟩ := @MessageType.exact rt t ht
  cases m with
  | pb proto pbFields =>
      obtain rfl : proto = t.proto := of_decide_eq_true hproto
      -- the selected member is read back as it came out of the wrapper
      have hvalue : ∀ {m'}, t.Through rt (.pb t.proto pbFields) m' →
          (∀ group, t.whichOneof (.pb t.proto pbFields) group = t.fields.lastMember group) →
          ∀ group, ∀ field ∈ t.fields.toList,
            t.whichOneof (.pb t.proto pbFields) group = some field.name →
            (field.type.Same (pbGetattr pbFields field.name field.type)
                (pbGetattr m'.pbFields field.name field.type) ↔
              field.type.LastSet (pbGetattr pbFields field.name field.type)) := by
        intro m' hm' hlast group field hmem hwhich
        obtain ⟨x, hx, hsat⟩ := hfields field hmem
        obtain rfl := Option.some.inj hx
        obtain ⟨z, hz, hget⟩ := (MessageType.exported ht.here hm').2 field hmem
        obtain ⟨field', -, -, hset, hname⟩ := MessageType.whichOneof_eq_some hwhich
        rw [hname] at hset
        rw [hget, if_pos ((MessageType.keeps_iff hone hlast hmem).2 (.inr hset))]
        exact (hfieldsExact field hmem _ hsat).2 z hz
      constructor
      · rintro ⟨m', hm', hgroups⟩
        have hlast : ∀ group, t.whichOneof (.pb t.proto pbFields) group
            = t.fields.lastMember group := fun group =>
          (hgroups group).1.symm.trans ((MessageType.exported ht.here hm').1 group)
        refine ⟨(hexact _ hm).1.1 ⟨m', hm'⟩, fun group => ⟨hlast group, ?_⟩⟩
        intro field hmem hwhich
        exact (hvalue hm' hlast group field hmem hwhich).1 ((hgroups group).2 field hmem hwhich)
      · rintro ⟨hconverts, hselected⟩
        have hlast := fun group => (hselected group).1
        obtain ⟨m', hm'⟩ := (hexact _ hm).1.2 hconverts
        refine ⟨m', hm', fun group => ⟨?_, fun field hmem hwhich => ?_⟩⟩
        · rw [(MessageType.exported ht.here hm').1 group, hlast group]
        · exact (hvalue hm' hlast group field hmem hwhich).2
            ((hselected group).2 field hmem hwhich)
  | _ => cases hproto

/-- `message Choice { oneof choice { int32 number = 1; string text = 2; } }` -/
def choiceMessage : MessageType :=
  .mk "Choice".toList "Choice".toList
    (.cons "number".toList (some "choice".toList) (.scalar (.int .int32)) <|
     .cons "text".toList (some "choice".toList) (.scalar .str) .nil)

theorem choiceMessage_everywhere :
    choiceMessage.Everywhere (fun _ => True) MessageType.AcceptedClass :=
  ⟨⟨by decide, initSubclass_eq_ok_iff.2 ⟨by decide, rfl⟩⟩, trivial, trivial, trivial⟩

/-- A message that has just one field set. -/
def choose (name : String) (v : PyVal) : PyVal := .pb "Choice".toList [(name.toList, v)]

/-- Such a message is one of its type. -/
theorem sat_choose {name : String} {v : PyVal}
    (hone : ∀ field ∈ choiceMessage.fields.toList, (choose name v).isSet field.name = true →
      field.name = name.toList)
    (hfields : ∀ field ∈ choiceMessage.fields.toList, field.type.Sat protoSpec
      (pbGetattr [(name.toList, v)] field.name field.type)) :
    choiceMessage.Sat protoSpec (choose name v) := by
  refine MessageType.sat_iff.2 ⟨⟨rfl, ?_⟩, fun field hmem => ⟨_, rfl, hfields field hmem⟩⟩
  intro field hmem field' hmem' group _ _ hset hset'
  rw [hone field hmem hset, hone field' hmem' hset']

theorem keepsOneofs_iff_example :
    choiceMessage.KeepsOneofs indexRuntime (choose "text" (.atom (.str "hi".toList))) := by
  have hsat : choiceMessage.Sat protoSpec (choose "text" (.atom (.str "hi".toList))) := by
    refine sat_choose (by decide) (List.forall_mem_cons.2 ⟨?_, List.forall_mem_singleton.2 ?_⟩)
    · exact ⟨.int 0, rfl, rfl, by decide⟩
    · exact ⟨.str "hi".toList, rfl, rfl, trivial⟩
  refine (keepsOneofs_iff indexRuntime choiceMessage_everywhere hsat).2 ⟨?_, fun group => ?_⟩
  · exact ⟨⟨by decide, by decide⟩, trivial, trivial, trivial⟩
  · by_cases hgroup : some "choice".toList = some group
    · obtain rfl := Option.some.inj hgroup
      exact ⟨by decide, List.forall_mem_cons.2
        ⟨fun _ => trivial, List.forall_mem_singleton.2 (fun _ => trivial)⟩⟩
    · have hlast : choiceMessage.fields.lastMember group = none := by
        simp only [choiceMessage, MessageType.fields, Fields.lastMember, if_neg hgroup]
      rw [MessageType.whichOneof_eq_none hlast, hlast]
      exact ⟨rfl, fun _ _ h => by cases h⟩

/-- A message with the first member set comes back with the second one, which is empty. -/
theorem not_keepsOneofs : ¬ ∀ (rt : PbRuntime) (t : MessageType) (m : PyVal),
    t.Everywhere (fun _ => True) MessageType.AcceptedClass → t.Sat protoSpec m →
    (∃ group, t.whichOneof m group ≠ none) → t.KeepsOneofs rt m := by
  intro h
  have hsat : choiceMessage.Sat protoSpec (choose "number" (.atom (.int 5))) := by
    refine sat_choose (by decide) (List.forall_mem_cons.2 ⟨?_, List.forall_mem_singleton.2 ?_⟩)
    · exact ⟨.int 5, rfl, rfl, by decide⟩
    · exact ⟨.str [], rfl, rfl, trivial⟩
  obtain ⟨m', ⟨w, hw, hm'⟩, hgroups⟩ := h indexRuntime choiceMessage _ choiceMessage_everywhere
    hsat ⟨"choice".toList, by decide⟩
  cases hw
  cases hm'
  have hwhich := (hgroups "choice".toList).1
  revert hwhich
  decide

end IotLoggingServer
