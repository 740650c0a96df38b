import IotLoggingServer.ProtoWrapper.RoundTrip

set_option autoImplicit false

/-! # Equal instances, messages that read the same

What a message says is what an instance holds (`MessageType.Represents`), field by field and up to
the equality of Python values. Whatever is exported is represented by the instance it is exported
from, and whatever is converted is represented by the instance that comes of it. As two instances
are equal iff the messages they represent read the same (`MessageType.eq_agrees`), both conversions
preserve equality and reflect it (`conversions_keep_eq`). -/

namespace IotLoggingServer

/-! ## Representation -/

/-- A value without parts, and one equal to it unless it is a NaN. -/
def AtomRepresents (x v : PyVal) : Prop :=
  ∃ a b, x = .atom a ∧ v = .atom b ∧ b.canon = a.canon

/-- An entry of a map, and one with the same key. -/
def EntryRepresents (R : PyVal → PyVal → Prop) (e e' : Atom × PyVal) : Prop :=
  e.1 = e'.1 ∧ R e.2 e'.2

mutual

/-- The value `v` of a protobuf field says what the attribute `x` of an instance holds. -/
def FieldType.Represents : FieldType → PyVal → PyVal → Prop
  | .scalar _, x, v => AtomRepresents x v
  | .enum _, x, v => AtomRepresents x v
  | .message t, x, v => t.Represents x v
  | .repeatedScalar _, x, v =>
    ∃ xs vs, x = .list xs ∧ v = .list vs ∧ List.Forall₂ AtomRepresents xs vs
  | .repeatedComposite t, x, v =>
    ∃ xs vs, x = .list xs ∧ v = .list vs ∧ List.Forall₂ (fun x v => t.Represents x v) xs vs
  | .scalarMap _ _, x, v =>
    ∃ kvs kvs', x = .dict kvs ∧ v = .dict kvs' ∧
      List.Forall₂ (EntryRepresents AtomRepresents) kvs kvs'
  | .messageMap _ t, x, v =>
    ∃ kvs kvs', x = .dict kvs ∧ v = .dict kvs' ∧
      List.Forall₂ (EntryRepresents (fun x v => t.Represents x v)) kvs kvs'

def MessageType.Represents : MessageType → PyVal → PyVal → Prop
  | .mk cls proto fields, x, v =>
    (∃ attrs pbFields, x = .inst (.mk cls proto fields) none attrs ∧ v = .pb proto pbFields) ∧
      fields.Represents (instEq.getattr x) (readEq.getattr v)

def Fields.Represents : Fields → (Str → FieldType → Option PyVal) →
    (Str → FieldType → Option PyVal) → Prop
  | .nil, _, _ => True
  | .cons name _ type rest, a, b =>
    (∃ x v, a name type = some x ∧ b name type = some v ∧ type.Represents x v) ∧
      rest.Represents a b

end

theorem Fields.represents_iff {a b : Str → FieldType → Option PyVal} :
    ∀ {fields : Fields}, fields.Represents a b ↔ ∀ field ∈ fields.toList, ∃ x v,
      a field.name field.type = some x ∧ b field.name field.type = some v ∧
        field.type.Represents x v
  | .nil => by simp [Fields.Represents, Fields.toList]
  | .cons name oneof type rest => by
      simp only [Fields.Represents, Fields.toList, List.forall_mem_cons]
      exact and_congr_right' Fields.represents_iff

theorem MessageType.represents_iff {t : MessageType} {x v : PyVal} :
    t.Represents x v ↔ ∃ attrs pbFields, x = .inst t none attrs ∧ v = .pb t.proto pbFields ∧
      ∀ field ∈ t.fields.toList, ∃ y, dictGet? id attrs field.name = some y ∧
        field.type.Represents y (pbGetattr pbFields field.name field.type) := by
  cases t with
  | mk cls proto fields =>
      unfold MessageType.Represents
      rw [Fields.represents_iff]
      constructor
      · rintro ⟨⟨attrs, pbFields, rfl, rfl⟩, hfields⟩
        refine ⟨attrs, pbFields, rfl, rfl, fun field hmem => ?_⟩
        obtain ⟨y, v, hy, hv, hrep⟩ := hfields field hmem
        cases hv
        exact ⟨y, hy, hrep⟩
      · rintro ⟨attrs, pbFields, rfl, rfl, hfields⟩
        refine ⟨⟨attrs, pbFields, rfl, rfl⟩, fun field hmem => ?_⟩
        obtain ⟨y, hy, hrep⟩ := hfields field hmem
        exact ⟨y, _, hy, rfl, hrep⟩

/-! ## Equality of what is represented -/

theorem Atom.canon_eq_nan_iff {a : Atom} : a.canon = .float .nan ↔ a = .float .nan := by
  cases a with
  | float x => cases x <;> simp [Atom.canon]
  | _ => simp [Atom.canon]

/-- Equality only sees the canonical forms. -/
theorem Atom.eq_congr {a a' b b' : Atom} (h : b.canon = a.canon) (h' : b'.canon = a'.canon) :
    a.eq a' = b.eq b' := by
  have hnan : a ≠ .float .nan ↔ b ≠ .float .nan := by
    rw [Ne, Ne, ← Atom.canon_eq_nan_iff, ← @Atom.canon_eq_nan_iff b, h]
  unfold Atom.eq
  rw [h, h', decide_eq_decide.2 hnan]

theorem AtomRepresents.eq_agrees (x x' v v' : PyVal) (h : AtomRepresents x v)
    (h' : AtomRepresents x' v') : x.atomEq x' = v.atomEq v' := by
  obtain ⟨a, b, rfl, rfl, hcanon⟩ := h
  obtain ⟨a', b', rfl, rfl, hcanon'⟩ := h'
  exact Atom.eq_congr hcanon hcanon'

/-- Dictionaries are compared alike if their values are. -/
theorem dictEq_congr {R : PyVal → PyVal → Prop} {eq eq' : PyVal → PyVal → Bool}
    (hR : ∀ x x' v v', R x v → R x' v' → eq x x' = eq' v v')
    {kvs kvs' pbs pbs' : List (Atom × PyVal)} (h : List.Forall₂ (EntryRepresents R) kvs pbs)
    (h' : List.Forall₂ (EntryRepresents R) kvs' pbs') :
    dictEq eq kvs kvs' = dictEq eq' pbs pbs' := by
  unfold dictEq
  rw [h.length_eq, h'.length_eq]
  congr 1
  refine all_congr_forall₂ h (fun e e' hpair => ?_)
  have hrel := @dictGet?_forall₂ _ _ _ _ Atom.canon _ R _ _ h' e.1
  rw [← hpair.1]
  generalize dictGet? Atom.canon kvs' e.1 = value at hrel ⊢
  generalize dictGet? Atom.canon pbs' e.1 = value' at hrel ⊢
  cases hrel with
  | none => rfl
  | some hvalue => exact hR _ _ _ _ hpair.2 hvalue

def FieldType.EqAgrees (type : FieldType) : Prop :=
  ∀ x x' v v', type.Represents x v → type.Represents x' v' →
    type.eq instEq x x' = type.eq readEq v v'

def MessageType.EqAgrees (t : MessageType) : Prop :=
  ∀ x x' v v', t.Represents x v → t.Represents x' v' → t.eq instEq x x' = t.eq readEq v v'

/-- A message type does it if its fields do. -/
theorem MessageType.eqAgrees {t : MessageType}
    (ih : ∀ field ∈ t.fields.toList, field.type.EqAgrees) : t.EqAgrees := by
  intro x x' v v' h h'
  obtain ⟨attrs, pbFields, rfl, rfl, hfields⟩ := MessageType.represents_iff.1 h
  obtain ⟨attrs', pbFields', rfl, rfl, hfields'⟩ := MessageType.represents_iff.1 h'
  have hinst : instEq.sameClass (.inst t none attrs) (.inst t none attrs') = true := by
    simp [instEq]
  have hpb : readEq.sameClass (.pb t.proto pbFields) (.pb t.proto pbFields') = true :=
    decide_eq_true rfl
  rw [MessageType.eq_eq, MessageType.eq_eq, hinst, hpb, Bool.true_and, Bool.true_and,
    Bool.eq_iff_iff, Fields.eq_iff, Fields.eq_iff]
  refine forall₂_congr (fun field hmem => ?_)
  obtain ⟨y, hy, hrep⟩ := hfields field hmem
  obtain ⟨y', hy', hrep'⟩ := hfields' field hmem
  have hagrees := ih field hmem _ _ _ _ hrep hrep'
  show (∃ z z', dictGet? id attrs field.name = some z ∧
    dictGet? id attrs' field.name = some z' ∧ field.type.eq instEq z z' = true) ↔
    ∃ z z', some (pbGetattr pbFields field.name field.type) = some z ∧
      some (pbGetattr pbFields' field.name field.type) = some z' ∧
      field.type.eq readEq z z' = true
  simp only [hy, hy', Option.some.injEq, exists_and_left, exists_eq_left', hagrees]

theorem ScalarType.repeated_eqAgrees (t : ScalarType) : (FieldType.repeatedScalar t).EqAgrees := by
  intro x x' v v' h h'
  obtain ⟨xs, vs, rfl, rfl, hall⟩ := h
  obtain ⟨xs', vs', rfl, rfl, hall'⟩ := h'
  exact isEqv_congr_forall₂ AtomRepresents.eq_agrees hall hall'

theorem MessageType.repeated_eqAgrees {t : MessageType} (ih : t.EqAgrees) :
    (FieldType.repeatedComposite t).EqAgrees := by
  intro x x' v v' h h'
  obtain ⟨xs, vs, rfl, rfl, hall⟩ := h
  obtain ⟨xs', vs', rfl, rfl, hall'⟩ := h'
  exact isEqv_congr_forall₂ ih hall hall'

theorem ScalarType.map_eqAgrees (key : KeyType) (t : ScalarType) :
    (FieldType.scalarMap key t).EqAgrees := by
  intro x x' v v' h h'
  obtain ⟨kvs, pbs, rfl, rfl, hall⟩ := h
  obtain ⟨kvs', pbs', rfl, rfl, hall'⟩ := h'
  exact dictEq_congr AtomRepresents.eq_agrees hall hall'

theorem MessageType.map_eqAgrees {key : KeyType} {t : MessageType} (ih : t.EqAgrees) :
    (FieldType.messageMap key t).EqAgrees := by
  intro x x' v v' h h'
  obtain ⟨kvs, pbs, rfl, rfl, hall⟩ := h
  obtain ⟨kvs', pbs', rfl, rfl, hall'⟩ := h'
  exact dictEq_congr ih hall hall'

/-- **Two instances are equal iff the messages they represent read the same.** -/
theorem MessageType.eq_agrees {P : FieldType → Prop} {Q : MessageType → Prop} {t : MessageType}
    (ht : t.Everywhere P Q) : t.EqAgrees := by
  refine @MessageType.everywhere_induction _ _ FieldType.EqAgrees _ ?scalar ?enum ?message
    ?repeatedScalar ?repeatedComposite ?scalarMap ?messageMap ?mk t ht
  case scalar => exact fun _ _ => AtomRepresents.eq_agrees
  case enum => exact fun _ _ => AtomRepresents.eq_agrees
  case message => exact fun _ _ ih => ih
  case repeatedScalar => exact fun t _ => t.repeated_eqAgrees
  case repeatedComposite => exact fun _ _ ih => MessageType.repeated_eqAgrees ih
  case scalarMap => exact fun key t _ => t.map_eqAgrees key
  case messageMap => exact fun _ _ _ ih => MessageType.map_eqAgrees ih
  case mk => exact fun _ _ ih => MessageType.eqAgrees ih

/-! ## What is exported -/

/-- The values that the fields of a protobuf message without NaN have. -/
def plainMessageSpec : ValueSpec :=
  { pbSpec with enum := fun _ a => ∃ n, a = .int n ∧ IntKind.int32.InRange n }

/-- The values that the fields of a protobuf message have. -/
def messageSpec : ValueSpec :=
  { plainMessageSpec with
    scalar := fun t a => t.Holds a
    element := fun t a => t.Holds a }

theorem plainMessageSpec_implies : plainMessageSpec.Implies messageSpec where
  scalar _ _ h := h.1
  element _ _ h := h.1
  enum _ _ h := h
  message _ _ h := h
  getattr := rfl

/-- Instances whose messages are instances of the annotated classes themselves. -/
def ownClassSpec : ValueSpec where
  scalar _ _ := True
  element _ _ := True
  enum _ _ := True
  message _ v := ∃ cls attrs, v = .inst cls none attrs
  getattr v name _ := v.attr name

theorem plainSpec_implies : plainSpec.Implies ownClassSpec where
  scalar _ _ _ := trivial
  element _ _ _ := trivial
  enum _ _ _ := trivial
  message _ _ h := h
  getattr := rfl

section Exported

variable (rt : PbRuntime)

def FieldType.ExportsRepresented (type : FieldType) : Prop :=
  ∀ x v, type.Sat setSpec x → type.Sat ownClassSpec x → type.exportToPb rt x = .ok v →
    type.Represents x (pbStore type.pbDefault v) ∧
      type.Sat messageSpec (pbStore type.pbDefault v)

def MessageType.ExportsRepresented (t : MessageType) : Prop :=
  ∀ x v, t.Sat setSpec x → t.Sat ownClassSpec x → t.exportPb rt x = .ok v →
    t.Represents x v ∧ t.Sat messageSpec v

variable {rt}

/-- A message type does it if its fields do. -/
theorem MessageType.exportsRepresented {t : MessageType} (ht : t.Accepted)
    (ih : ∀ field ∈ t.fields.toList, field.type.ExportsRepresented rt) :
    t.ExportsRepresented rt := by
  intro x v hvalid hown h
  obtain ⟨hwrapper, hfields⟩ := MessageType.sat_iff.1 hvalid
  obtain ⟨⟨cls, attrs, rfl⟩, hownFields⟩ := MessageType.sat_iff.1 hown
  obtain rfl : cls = t := of_decide_eq_true hwrapper
  have hexport : cls.hasField "export_pb" = false := by
    by_contra hhidden
    rw [MessageType.exportPb_eq, if_pos (Bool.eq_true_of_not_eq_false hhidden)] at h
    cases h
  rw [MessageType.exportPb_inst rt hexport, bind_eq_ok] at h
  obtain ⟨res, hres, h⟩ := h
  cases h
  have hpart : ∀ field ∈ cls.fields.toList, ∃ y, dictGet? id attrs field.name = some y ∧
      field.type.Represents y (pbGetattr res field.name field.type) ∧
      field.type.Sat messageSpec (pbGetattr res field.name field.type) := by
    intro field hmem
    obtain ⟨y, w, hget, hw, hstored⟩ :=
      Fields.exportPb_stored ht.nodup ht.noOneof hres field hmem
    obtain ⟨y', hy', hsat⟩ := hfields field hmem
    obtain ⟨y'', hy'', hsatOwn⟩ := hownFields field hmem
    cases hy'.symm.trans hget
    cases hy''.symm.trans hget
    have hread : pbGetattr res field.name field.type = pbStore field.type.pbDefault w := by
      rw [pbGetattr, hstored]
      rfl
    rw [hread]
    exact ⟨y, hget, ih field hmem y w hsat hsatOwn hw⟩
  refine ⟨MessageType.represents_iff.2 ⟨attrs, res, rfl, rfl, fun field hmem => ?_⟩,
    MessageType.sat_iff.2 ⟨decide_eq_true rfl, fun field hmem => ?_⟩⟩
  · obtain ⟨y, hget, hrep, -⟩ := hpart field hmem
    exact ⟨y, hget, hrep⟩
  · obtain ⟨-, -, -, hsat⟩ := hpart field hmem
    exact ⟨_, rfl, hsat⟩

theorem ScalarType.exportsRepresented (t : ScalarType) :
    (FieldType.scalar t).ExportsRepresented rt := by
  intro x v hvalid _ h
  obtain ⟨a, rfl, hinst⟩ := hvalid
  obtain ⟨b, rfl, hholds, hcanon⟩ := PbRuntime.assignTo_eq_ok hinst h
  exact ⟨⟨a, b, rfl, rfl, hcanon⟩, ⟨b, rfl, hholds⟩⟩

theorem EnumType.exportsRepresented (t : EnumType) :
    (FieldType.enum t).ExportsRepresented rt := by
  intro x v hvalid _ h
  obtain ⟨_, rfl, n, -, rfl⟩ := hvalid
  unfold FieldType.exportToPb at h
  split at h
  · cases h
  · obtain ⟨b, rfl, hholds, hcanon⟩ := PbRuntime.assignTo_eq_ok rfl h
    -- an integer field stores the number of the member, not the member
    obtain rfl : b = .int n := @KeyType.eq_of_canon (.int .int32) _ _ hholds.1 rfl hcanon
    exact ⟨⟨_, _, rfl, rfl, rfl⟩, ⟨_, rfl, n, rfl, hholds.2⟩⟩

theorem MessageType.message_exportsRepresented {t : MessageType}
    (ih : t.ExportsRepresented rt) : (FieldType.message t).ExportsRepresented rt := by
  intro x v hvalid hown h
  unfold FieldType.exportToPb at h
  split at h
  · cases h
  · exact ih x v hvalid hown h

theorem ScalarType.repeated_exportsRepresented (t : ScalarType) :
    (FieldType.repeatedScalar t).ExportsRepresented rt := by
  intro x v hvalid _ h
  obtain ⟨xs, rfl, hxs⟩ := hvalid
  rw [FieldType.exportToPb, bind_eq_ok] at h
  obtain ⟨vs, hvs, h⟩ := h
  cases h
  have helement : ∀ x ∈ xs, ∀ v, rt.assignTo t x = .ok v →
      AtomRepresents x v ∧ ∃ b, v = .atom b ∧ t.Holds b := by
    intro x hmem v hv
    obtain ⟨a, rfl, hexact⟩ := hxs x hmem
    obtain ⟨b, rfl, hholds, hcanon⟩ :=
      PbRuntime.assignTo_eq_ok (ScalarType.isInstance_of_isExact hexact) hv
    exact ⟨⟨a, b, rfl, rfl, hcanon⟩, b, rfl, hholds⟩
  have hall := forall₂_imp_of_mem (mapM_eq_ok_iff.1 hvs)
    (fun x hmem v hv => (helement x hmem v hv).1)
  exact ⟨⟨xs, vs, rfl, rfl, hall⟩,
    ⟨vs, rfl, mapM_forall hvs (fun x hmem v hv => (helement x hmem v hv).2)⟩⟩

theorem MessageType.repeated_exportsRepresented {t : MessageType}
    (ih : t.ExportsRepresented rt) : (FieldType.repeatedComposite t).ExportsRepresented rt := by
  intro x v hvalid hown h
  obtain ⟨xs, rfl, hxs⟩ := hvalid
  obtain ⟨_, hlist, hown⟩ := hown
  cases hlist
  rw [FieldType.exportToPb, bind_eq_ok] at h
  obtain ⟨vs, hvs, h⟩ := h
  cases h
  have helement : ∀ x ∈ xs, ∀ v, t.exportPb rt x = .ok v → t.Represents x v ∧ t.Sat messageSpec v :=
    fun x hmem v => ih x v (hxs x hmem) (hown x hmem)
  have hall := forall₂_imp_of_mem (mapM_eq_ok_iff.1 hvs)
    (fun x hmem v hv => (helement x hmem v hv).1)
  exact ⟨⟨xs, vs, rfl, rfl, hall⟩,
    ⟨vs, rfl, mapM_forall hvs (fun x hmem v hv => (helement x hmem v hv).2)⟩⟩

/-- The entries of an exported map are stored under their own keys. -/
theorem map_exportsRepresented {key : KeyType} {exportPb : PyVal → Except PyExc PyVal}
    {R : PyVal → PyVal → Prop} {S : PyVal → Prop} {kvs entries : List (Atom × PyVal)}
    (hd : DistinctKeys Atom.canon kvs)
    (hentries : kvs.mapM (key.exportEntry rt exportPb) = .ok entries)
    (h : ∀ e ∈ kvs, key.scalar.isExact e.1 = true ∧
      ∀ v, exportPb e.2 = .ok v → R e.2 v ∧ S v) :
    dictUpdate Atom.canon [] entries = entries ∧ DistinctKeys Atom.canon entries ∧
      List.Forall₂ (EntryRepresents R) kvs entries ∧
      ∀ e ∈ entries, key.scalar.Holds e.1 ∧ S e.2 := by
  have hentry : ∀ e ∈ kvs, ∀ e', key.exportEntry rt exportPb e = .ok e' →
      EntryRepresents R e e' ∧ key.scalar.Holds e'.1 ∧ S e'.2 := by
    intro e hmem e' he'
    obtain ⟨k, hk, he'⟩ := bind_eq_ok.1 he'
    obtain ⟨v, hv, he'⟩ := bind_eq_ok.1 he'
    cases he'
    obtain ⟨hexact, hvalue⟩ := h e hmem
    obtain ⟨hholds, hcanon⟩ := rt.assign_eq_ok _ _ _ (ScalarType.isInstance_of_isExact hexact) hk
    have hkey : k = e.1 := KeyType.eq_of_canon hholds.1 hexact hcanon
    exact ⟨⟨hkey.symm, (hvalue v hv).1⟩, hholds, (hvalue v hv).2⟩
  have hall := forall₂_imp_of_mem (mapM_eq_ok_iff.1 hentries)
    (fun e hmem e' he' => (hentry e hmem e' he').1)
  have hdistinct : DistinctKeys Atom.canon entries := by
    unfold DistinctKeys
    rw [← dictKeys_eq_of_forall₂ (hall.imp (fun _ _ hpair => hpair.1))]
    exact hd
  exact ⟨dictUpdate_nil hdistinct, hdistinct, hall,
    mapM_forall hentries (fun e hmem e' he' => (hentry e hmem e' he').2)⟩

theorem ScalarType.map_exportsRepresented (key : KeyType) (t : ScalarType) :
    (FieldType.scalarMap key t).ExportsRepresented rt := by
  intro x v hvalid _ h
  obtain ⟨kvs, rfl, hd, hkvs⟩ := hvalid
  rw [FieldType.exportToPb, bind_eq_ok] at h
  obtain ⟨entries, hentries, h⟩ := h
  cases h
  obtain ⟨hupdate, hdistinct, hall, hsat⟩ := @IotLoggingServer.map_exportsRepresented _ _ _
    AtomRepresents (fun v => ∃ b, v = .atom b ∧ t.Holds b) _ _ hd hentries (by
      intro e hmem
      obtain ⟨hkey, a, ha, hinst⟩ := hkvs e hmem
      refine ⟨hkey, fun v hv => ?_⟩
      rw [ha] at hv ⊢
      obtain ⟨b, rfl, hholds, hcanon⟩ := PbRuntime.assignTo_eq_ok hinst hv
      exact ⟨⟨a, b, rfl, rfl, hcanon⟩, b, rfl, hholds⟩)
  show (FieldType.scalarMap key t).Represents _ (.dict (dictUpdate Atom.canon [] entries)) ∧
    (FieldType.scalarMap key t).Sat messageSpec (.dict (dictUpdate Atom.canon [] entries))
  rw [hupdate]
  exact ⟨⟨kvs, entries, rfl, rfl, hall⟩, ⟨entries, rfl, hdistinct, hsat⟩⟩

theorem MessageType.map_exportsRepresented {key : KeyType} {t : MessageType}
    (ih : t.ExportsRepresented rt) : (FieldType.messageMap key t).ExportsRepresented rt := by
  intro x v hvalid hown h
  obtain ⟨kvs, rfl, hd, hkvs⟩ := hvalid
  obtain ⟨_, hdict, -, hown⟩ := hown
  cases hdict
  rw [FieldType.exportToPb, bind_eq_ok] at h
  obtain ⟨entries, hentries, h⟩ := h
  cases h
  obtain ⟨hupdate, hdistinct, hall, hsat⟩ := @IotLoggingServer.map_exportsRepresented _ _ _
    (fun x v => t.Represents x v) (fun v => t.Sat messageSpec v) _ _ hd hentries (by
      intro e hmem
      refine ⟨(hkvs e hmem).1, fun v hv => ?_⟩
      split at hv
      · cases hv
      · exact ih e.2 v (hkvs e hmem).2 (hown e hmem).2 hv)
  show (FieldType.messageMap key t).Represents _ (.dict (dictUpdate Atom.canon [] entries)) ∧
    (FieldType.messageMap key t).Sat messageSpec (.dict (dictUpdate Atom.canon [] entries))
  rw [hupdate]
  exact ⟨⟨kvs, entries, rfl, rfl, hall⟩, ⟨entries, rfl, hdistinct, hsat⟩⟩

/-- **What is exported says what the instance holds.** -/
theorem MessageType.export_represents {P : FieldType → Prop} {t : MessageType}
    (ht : t.Everywhere P MessageType.Accepted) : t.ExportsRepresented rt := by
  refine @MessageType.everywhere_induction _ _ (FieldType.ExportsRepresented rt) _ ?scalar ?enum
    ?message ?repeatedScalar ?repeatedComposite ?scalarMap ?messageMap ?mk t ht
  case scalar => exact fun t _ => t.exportsRepresented
  case enum => exact fun t _ => t.exportsRepresented
  case message => exact fun _ _ ih => MessageType.message_exportsRepresented ih
  case repeatedScalar => exact fun t _ => t.repeated_exportsRepresented
  case repeatedComposite => exact fun _ _ ih => MessageType.repeated_exportsRepresented ih
  case scalarMap => exact fun key t _ => t.map_exportsRepresented key
  case messageMap => exact fun _ _ _ ih => MessageType.map_exportsRepresented ih
  case mk => exact fun _ ht ih => MessageType.exportsRepresented ht.here ih

end Exported

/-! ## What is converted -/

def FieldType.ConvertsRepresented (type : FieldType) : Prop :=
  ∀ v x, type.Sat messageSpec v → type.set (some v) = .ok x → type.Represents x v

def MessageType.ConvertsRepresented (t : MessageType) : Prop :=
  ∀ v x, t.Sat messageSpec v → t.convert v = .ok x → t.Represents x v

/-- A message type does it if its fields do. -/
theorem MessageType.convertsRepresented {t : MessageType} (hnd : t.fields.names.Nodup)
    (ih : ∀ field ∈ t.fields.toList, field.type.ConvertsRepresented) : t.ConvertsRepresented := by
  intro v x hv h
  obtain ⟨hproto, hfields⟩ := MessageType.sat_iff.1 hv
  obtain ⟨pbFields, rfl⟩ : ∃ pbFields, v = .pb t.proto pbFields := by
    cases v with
    | pb proto pbFields =>
        obtain rfl : proto = t.proto := of_decide_eq_true hproto
        exact ⟨pbFields, rfl⟩
    | _ => cases hproto
  have hconvert : t.hasField "convert" = false := by
    by_contra hhidden
    rw [MessageType.convert_eq, if_pos (Bool.eq_true_of_not_eq_false hhidden)] at h
    cases h
  rw [MessageType.convert_pb hconvert, bind_eq_ok] at h
  obtain ⟨attrs, hnew, h⟩ := h
  cases h
  refine MessageType.represents_iff.2 ⟨attrs, pbFields, rfl, rfl, fun field hmem => ?_⟩
  obtain ⟨y, hset, hget⟩ := Fields.new_eq_ok hnd hnew field hmem
  obtain ⟨w, hw, hsat⟩ := hfields field hmem
  cases hw
  exact ⟨y, hget, ih field hmem _ y hsat hset⟩

theorem ScalarType.convertsRepresented (t : ScalarType) :
    (FieldType.scalar t).ConvertsRepresented := by
  intro v x hv h
  obtain ⟨a, rfl, -⟩ := hv
  have hcheck : t.checkInstance (.atom a) = .ok x := h
  obtain ⟨b, hb, -, rfl⟩ := PyVal.check_eq_ok.1 hcheck
  cases hb
  exact ⟨a, a, rfl, rfl, rfl⟩

theorem EnumType.convertsRepresented (t : EnumType) : (FieldType.enum t).ConvertsRepresented := by
  intro v x hv h
  obtain ⟨_, rfl, n, rfl, -⟩ := hv
  simp only [FieldType.set, EnumType.convert, EnumType.ofValue] at h
  split at h
  · cases h
  · split at h
    · cases h
      exact ⟨_, _, rfl, rfl, rfl⟩
    · cases h

theorem ScalarType.repeated_convertsRepresented (t : ScalarType) :
    (FieldType.repeatedScalar t).ConvertsRepresented := by
  intro v x hv h
  obtain ⟨vs, rfl, -⟩ := hv
  obtain ⟨_, xs, hiter, hxs, rfl⟩ := repeatedConvert_eq_ok.1 h
  cases hiter
  refine ⟨xs, vs, rfl, rfl, List.Forall₂.flip ((mapM_eq_ok_iff.1 hxs).imp (fun v x hx => ?_))⟩
  obtain ⟨a, rfl, -, rfl⟩ := PyVal.check_eq_ok.1 hx
  exact ⟨a, a, rfl, rfl, rfl⟩

theorem MessageType.repeated_convertsRepresented {t : MessageType} (ih : t.ConvertsRepresented) :
    (FieldType.repeatedComposite t).ConvertsRepresented := by
  intro v x hv h
  obtain ⟨vs, rfl, hvs⟩ := hv
  obtain ⟨_, xs, hiter, hxs, rfl⟩ := repeatedConvert_eq_ok.1 h
  cases hiter
  refine ⟨xs, vs, rfl, rfl, List.Forall₂.flip ?_⟩
  refine forall₂_imp_of_mem (mapM_eq_ok_iff.1 hxs) (fun v hmem x hx => ?_)
  rw [MessageType.convertEntry_of_isProto (MessageType.sat_iff.1 (hvs v hmem)).1] at hx
  exact ih v x (hvs v hmem) hx

/-- The entries of a converted map stay under their keys. -/
theorem map_convertsRepresented {key : KeyType} {convertValue : PyVal → Except PyExc PyVal}
    {R : PyVal → PyVal → Prop} {kvs : List (Atom × PyVal)} {x : PyVal}
    (hd : DistinctKeys Atom.canon kvs) (h : mapConvert key convertValue (.dict kvs) = .ok x)
    (hR : ∀ e ∈ kvs, ∀ y, convertValue e.2 = .ok y → R y e.2) :
    ∃ entries, x = .dict entries ∧ List.Forall₂ (EntryRepresents R) entries kvs := by
  obtain ⟨_, entries, hitems, hentries, rfl⟩ := mapConvert_eq_ok.1 h
  cases hitems
  have hall : List.Forall₂ (fun e e' => EntryRepresents R e' e) kvs entries := by
    refine forall₂_imp_of_mem (mapM_eq_ok_iff.1 hentries) (fun e hmem e' he' => ?_)
    obtain ⟨-, y, hy, rfl⟩ := KeyType.checkEntry_eq_ok.1 he'
    exact ⟨rfl, hR e hmem y hy⟩
  have hdistinct : DistinctKeys Atom.canon entries := by
    unfold DistinctKeys
    rw [← dictKeys_eq_of_forall₂ (hall.imp (fun _ _ hpair => hpair.1.symm))]
    exact hd
  exact ⟨entries, by rw [dictUpdate_nil hdistinct], List.Forall₂.flip hall⟩

theorem ScalarType.map_convertsRepresented (key : KeyType) (t : ScalarType) :
    (FieldType.scalarMap key t).ConvertsRepresented := by
  intro v x hv h
  obtain ⟨kvs, rfl, hd, hkvs⟩ := hv
  obtain ⟨entries, rfl, hall⟩ := @IotLoggingServer.map_convertsRepresented _ _
    AtomRepresents _ _ hd h (by
      intro e _ y hy
      obtain ⟨a, ha, -, rfl⟩ := PyVal.check_eq_ok.1 hy
      exact ⟨a, a, rfl, ha, rfl⟩)
  exact ⟨entries, kvs, rfl, rfl, hall⟩

theorem MessageType.map_convertsRepresented {key : KeyType} {t : MessageType}
    (ih : t.ConvertsRepresented) : (FieldType.messageMap key t).ConvertsRepresented := by
  intro v x hv h
  obtain ⟨kvs, rfl, hd, hkvs⟩ := hv
  obtain ⟨entries, rfl, hall⟩ := @IotLoggingServer.map_convertsRepresented _ _
    (fun x v => t.Represents x v) _ _ hd h (by
      intro e hmem y hy
      have hsat := (hkvs e hmem).2
      rw [MessageType.convertEntry_of_isProto (MessageType.sat_iff.1 hsat).1] at hy
      exact ih e.2 y hsat hy)
  exact ⟨entries, kvs, rfl, rfl, hall⟩

/-- **What is converted holds what the message says.** -/
theorem MessageType.convert_represents {P : FieldType → Prop} {t : MessageType}
    (ht : t.Everywhere P MessageType.Accepted) : t.ConvertsRepresented := by
  refine @MessageType.everywhere_induction _ _ FieldType.ConvertsRepresented _ ?scalar ?enum
    ?message ?repeatedScalar ?repeatedComposite ?scalarMap ?messageMap ?mk t ht
  case scalar => exact fun t _ => t.convertsRepresented
  case enum => exact fun t _ => t.convertsRepresented
  case message => exact fun _ _ ih => ih
  case repeatedScalar => exact fun t _ => t.repeated_convertsRepresented
  case repeatedComposite => exact fun _ _ ih => MessageType.repeated_convertsRepresented ih
  case scalarMap => exact fun key t _ => t.map_convertsRepresented key
  case messageMap => exact fun _ _ _ ih => MessageType.map_convertsRepresented ih
  case mk => exact fun _ ht ih => MessageType.convertsRepresented ht.here.nodup ih

/-! ## Both conversions -/

/-- The conversions of a wrapper class take equal values to equal values and others to others: of
    instances without NaN, whose messages are of the annotated classes, and of messages without
    NaN. -/
structure MessageType.KeepsEq (rt : PbRuntime) (t : MessageType) : Prop where
  ofExport : ∀ n w w' m m', Built n w → Built n w' → w.isWrapper t = true →
    w'.isWrapper t = true → t.Sat plainSpec w → t.Sat plainSpec w' →
    t.exportPb rt w = .ok m → t.exportPb rt w' = .ok m' →
    (t.eq readEq m m' = true ↔ t.eq instEq w w' = true)
  ofConvert : ∀ m m' w w', t.Sat plainMessageSpec m → t.Sat plainMessageSpec m' →
    t.convert m = .ok w → t.convert m' = .ok w' →
    (t.eq instEq w w' = true ↔ t.eq readEq m m' = true)

/-- An instance built by the API and what is exported from it. -/
theorem MessageType.Supported.represents {rt : PbRuntime} {t : MessageType} (ht : t.Supported)
    {n : ℕ} {w m : PyVal} (hbuilt : Built n w) (hwrapper : w.isWrapper t = true)
    (hown : t.Sat ownClassSpec w) (h : t.exportPb rt w = .ok m) :
    t.Sat setSpec w ∧ t.Represents w m ∧ t.Sat messageSpec m := by
  obtain ⟨⟨cls, attrs, rfl⟩, -⟩ := MessageType.sat_iff.1 hown
  obtain rfl : cls = t := of_decide_eq_true hwrapper
  have hvalid := valid_of_built n hbuilt _ _ _ rfl ht
  exact ⟨hvalid, MessageType.export_represents ht _ m hvalid hown h⟩

/-- **Equality survives both conversions**, in either direction: exported messages read the same iff
    the instances are equal, and converted instances are equal iff the messages read the same. -/
theorem conversions_keep_eq (rt : PbRuntime) {t : MessageType} (ht : t.Supported) :
    t.KeepsEq rt where
  ofExport := by
    intro n w w' m m' hbuilt hbuilt' hwrapper hwrapper' hplain hplain' h h'
    have hown := MessageType.sat_imp plainSpec_implies ht w hplain
    have hown' := MessageType.sat_imp plainSpec_implies ht w' hplain'
    obtain ⟨-, hrep, -⟩ := ht.represents hbuilt hwrapper hown h
    obtain ⟨-, hrep', -⟩ := ht.represents hbuilt' hwrapper' hown' h'
    rw [MessageType.eq_agrees ht _ _ _ _ hrep hrep']
  ofConvert := by
    intro m m' w w' hplain hplain' h h'
    have hm := MessageType.sat_imp plainMessageSpec_implies ht m hplain
    have hm' := MessageType.sat_imp plainMessageSpec_implies ht m' hplain'
    have hrep := MessageType.convert_represents ht m w hm h
    have hrep' := MessageType.convert_represents ht m' w' hm' h'
    rw [MessageType.eq_agrees ht _ _ _ _ hrep hrep']

theorem conversions_keep_eq_outerMessage : outerMessage.KeepsEq indexRuntime :=
  conversions_keep_eq indexRuntime outerMessage_supported

end IotLoggingServer
