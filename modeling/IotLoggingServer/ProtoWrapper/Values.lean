import IotLoggingServer.Lib.Traverse
import IotLoggingServer.ProtoWrapper.Wrapper

set_option autoImplicit false

/-! # What the wrappers hold

A property of the values of a message type is given by what it says of single values and of messages
(`ValueSpec`). The file ends with the invariant of the wrappers: however an instance is built by the
constructor, by `convert` and by field assignment, its fields hold what their descriptors let
through (`valid_of_built`). -/

namespace IotLoggingServer

/-! ## Schemas -/

mutual

/-- `P` of every field type and `Q` of every message type that is used. -/
def FieldType.Everywhere (P : FieldType → Prop) (Q : MessageType → Prop) : FieldType → Prop
  | .scalar t => P (.scalar t)
  | .enum t => P (.enum t)
  | .message t => P (.message t) ∧ t.Everywhere P Q
  | .repeatedScalar t => P (.repeatedScalar t)
  | .repeatedComposite t => P (.repeatedComposite t) ∧ t.Everywhere P Q
  | .scalarMap key t => P (.scalarMap key t)
  | .messageMap key t => P (.messageMap key t) ∧ t.Everywhere P Q

def MessageType.Everywhere (P : FieldType → Prop) (Q : MessageType → Prop) : MessageType → Prop
  | .mk cls proto fields => Q (.mk cls proto fields) ∧ fields.Everywhere P Q

def Fields.Everywhere (P : FieldType → Prop) (Q : MessageType → Prop) : Fields → Prop
  | .nil => True
  | .cons _ _ type rest => type.Everywhere P Q ∧ rest.Everywhere P Q

end

/-- Induction over a schema with `P` and `Q` everywhere: the hypotheses for the fields of a message
    type are given field by field. -/
theorem MessageType.everywhere_induction {P : FieldType → Prop} {Q : MessageType → Prop}
    {R : FieldType → Prop} {S : MessageType → Prop}
    (scalar : ∀ t, P (.scalar t) → R (.scalar t))
    (enum : ∀ t, P (.enum t) → R (.enum t))
    (message : ∀ t, P (.message t) → S t → R (.message t))
    (repeatedScalar : ∀ t, P (.repeatedScalar t) → R (.repeatedScalar t))
    (repeatedComposite : ∀ t, P (.repeatedComposite t) → S t → R (.repeatedComposite t))
    (scalarMap : ∀ key t, P (.scalarMap key t) → R (.scalarMap key t))
    (messageMap : ∀ key t, P (.messageMap key t) → S t → R (.messageMap key t))
    (mk : ∀ t : MessageType, t.Everywhere P Q → (∀ field ∈ t.fields.toList, R field.type) → S t) :
    ∀ t : MessageType, t.Everywhere P Q → S t :=
  @MessageType.rec (fun type => type.Everywhere P Q → R type) (fun t => t.Everywhere P Q → S t)
    (fun fields => fields.Everywhere P Q → ∀ field ∈ fields.toList, R field.type)
    (fun t h => scalar t h)
    (fun t h => enum t h)
    (fun t ih h => message t h.1 (ih h.2))
    (fun t h => repeatedScalar t h)
    (fun t ih h => repeatedComposite t h.1 (ih h.2))
    (fun key t h => scalarMap key t h)
    (fun key t ih h => messageMap key t h.1 (ih h.2))
    (fun cls proto fields ih h => mk (.mk cls proto fields) h (ih h.2))
    (fun _ _ hmem => by cases hmem)
    (fun _ _ _ _ ihType ihRest h field hmem => by
      rcases List.mem_cons.1 hmem with rfl | hmem
      · exact ihType h.1
      · exact ihRest h.2 field hmem)

theorem MessageType.Everywhere.here {P : FieldType → Prop} {Q : MessageType → Prop}
    {t : MessageType} (h : t.Everywhere P Q) : Q t := by
  cases t with
  | mk cls proto fields => exact h.1

theorem Fields.Everywhere.mem {P : FieldType → Prop} {Q : MessageType → Prop} :
    ∀ {fields : Fields}, fields.Everywhere P Q → ∀ field ∈ fields.toList,
      field.type.Everywhere P Q
  | .nil, _, _, hmem => by cases hmem
  | .cons _ _ _ _, h, field, hmem => by
      rcases List.mem_cons.1 hmem with rfl | hmem
      · exact h.1
      · exact Fields.Everywhere.mem h.2 field hmem

theorem MessageType.Everywhere.field {P : FieldType → Prop} {Q : MessageType → Prop}
    {t : MessageType} (h : t.Everywhere P Q) : ∀ field ∈ t.fields.toList,
    field.type.Everywhere P Q := by
  cases t with
  | mk cls proto fields => exact Fields.Everywhere.mem h.2

/-! ## Properties of values -/

/-- What is required of the values in a message, and how its fields are read. -/
structure ValueSpec where
  /-- of the value of a scalar field and of a map -/
  scalar : ScalarType → Atom → Prop
  /-- of the elements of a repeated field and the keys of a map -/
  element : ScalarType → Atom → Prop
  enum : EnumType → Atom → Prop
  message : MessageType → PyVal → Prop
  getattr : PyVal → Str → FieldType → Option PyVal

mutual

def FieldType.Sat (S : ValueSpec) : FieldType → PyVal → Prop
  | .scalar t, v => ∃ a, v = .atom a ∧ S.scalar t a
  | .enum t, v => ∃ a, v = .atom a ∧ S.enum t a
  | .message t, v => t.Sat S v
  | .repeatedScalar t, v => ∃ xs, v = .list xs ∧ ∀ x ∈ xs, ∃ a, x = .atom a ∧ S.element t a
  | .repeatedComposite t, v => ∃ xs, v = .list xs ∧ ∀ x ∈ xs, t.Sat S x
  | .scalarMap key t, v => ∃ kvs, v = .dict kvs ∧ DistinctKeys Atom.canon kvs ∧
      ∀ e ∈ kvs, S.element key.scalar e.1 ∧ ∃ a, e.2 = .atom a ∧ S.scalar t a
  | .messageMap key t, v => ∃ kvs, v = .dict kvs ∧ DistinctKeys Atom.canon kvs ∧
      ∀ e ∈ kvs, S.element key.scalar e.1 ∧ t.Sat S e.2

def MessageType.Sat (S : ValueSpec) : MessageType → PyVal → Prop
  | .mk cls proto fields, v => S.message (.mk cls proto fields) v ∧ fields.Sat S (S.getattr v)

def Fields.Sat (S : ValueSpec) : Fields → (Str → FieldType → Option PyVal) → Prop
  | .nil, _ => True
  | .cons name _ type rest, get =>
    (∃ v, get name type = some v ∧ type.Sat S v) ∧ rest.Sat S get

end

theorem Fields.sat_iff {S : ValueSpec} {get : Str → FieldType → Option PyVal} :
    ∀ {fields : Fields}, fields.Sat S get ↔
      ∀ field ∈ fields.toList, ∃ v, get field.name field.type = some v ∧ field.type.Sat S v
  | .nil => by simp [Fields.Sat, Fields.toList]
  | .cons name oneof type rest => by
      simp only [Fields.Sat, Fields.toList, List.forall_mem_cons]
      exact and_congr_right' Fields.sat_iff

theorem MessageType.sat_iff {S : ValueSpec} {t : MessageType} {v : PyVal} :
    t.Sat S v ↔ S.message t v ∧ ∀ field ∈ t.fields.toList,
      ∃ x, S.getattr v field.name field.type = some x ∧ field.type.Sat S x := by
  cases t with
  | mk cls proto fields => exact and_congr_right' Fields.sat_iff

/-- What `S` says of values with no message in it implies what `S'` says, and so for messages. -/
structure ValueSpec.Implies (S S' : ValueSpec) : Prop where
  scalar : ∀ t a, S.scalar t a → S'.scalar t a
  element : ∀ t a, S.element t a → S'.element t a
  enum : ∀ t a, S.enum t a → S'.enum t a
  message : ∀ t v, S.message t v → S'.message t v
  getattr : S.getattr = S'.getattr

/-- A weaker property holds of the same values, at any depth. -/
theorem MessageType.sat_imp {S S' : ValueSpec} (h : S.Implies S') {P : FieldType → Prop}
    {Q : MessageType → Prop} {t : MessageType} (ht : t.Everywhere P Q) :
    ∀ v, t.Sat S v → t.Sat S' v := by
  refine @MessageType.everywhere_induction P Q (fun type => ∀ v, type.Sat S v → type.Sat S' v)
    (fun t => ∀ v, t.Sat S v → t.Sat S' v) ?scalar ?enum ?message ?repeatedScalar
    ?repeatedComposite ?scalarMap ?messageMap ?mk t ht
  case scalar =>
    rintro t - v ⟨a, rfl, ha⟩
    exact ⟨a, rfl, h.scalar t a ha⟩
  case enum =>
    rintro t - v ⟨a, rfl, ha⟩
    exact ⟨a, rfl, h.enum t a ha⟩
  case message => exact fun _ _ ih => ih
  case repeatedScalar =>
    rintro t - v ⟨xs, rfl, hxs⟩
    exact ⟨xs, rfl, fun x hx => (hxs x hx).imp (fun a ha => ⟨ha.1, h.element t a ha.2⟩)⟩
  case repeatedComposite =>
    rintro t - ih v ⟨xs, rfl, hxs⟩
    exact ⟨xs, rfl, fun x hx => ih x (hxs x hx)⟩
  case scalarMap =>
    rintro key t - v ⟨kvs, rfl, hd, hkvs⟩
    exact ⟨kvs, rfl, hd, fun e he => ⟨h.element _ _ (hkvs e he).1,
      (hkvs e he).2.imp (fun a ha => ⟨ha.1, h.scalar t a ha.2⟩)⟩⟩
  case messageMap =>
    rintro key t - ih v ⟨kvs, rfl, hd, hkvs⟩
    exact ⟨kvs, rfl, hd, fun e he => ⟨h.element _ _ (hkvs e he).1, ih _ (hkvs e he).2⟩⟩
  case mk =>
    intro t _ ih v hv
    obtain ⟨hmessage, hfields⟩ := MessageType.sat_iff.1 hv
    refine MessageType.sat_iff.2 ⟨h.message t v hmessage, fun field hmem => ?_⟩
    obtain ⟨x, hx, hsat⟩ := hfields field hmem
    exact ⟨x, by rw [← h.getattr, hx], ih field hmem x hsat⟩

/-- What the descriptors let through: instances of the annotated types, in containers exactly typed
    elements. -/
def setSpec : ValueSpec where
  scalar t a := t.isInstance a = true
  element t a := t.isExact a = true
  enum t a := ∃ n ∈ t.values, a = .enumMember t n
  message t v := v.isWrapper t = true
  getattr v name _ := v.attr name

/-! ## The constructor -/

/-- A class that `__init_subclass__` accepts. -/
structure MessageType.AcceptedClass (t : MessageType) : Prop where
  nodup : t.fields.names.Nodup
  accepted : initSubclass t.fields.names (calculateSlots t.fields.names) = .ok t.fields.names

/-- A class that `__init_subclass__` accepts for a protobuf type without oneofs. -/
structure MessageType.Accepted (t : MessageType) : Prop extends t.AcceptedClass where
  noOneof : ∀ field ∈ t.fields.toList, field.oneof = none

theorem MessageType.accepted_of {t : MessageType} (hnd : t.fields.names.Nodup)
    (hnames : ∀ name ∈ t.fields.names, isPrivate name = false)
    (hone : ∀ field ∈ t.fields.toList, field.oneof = none) : t.Accepted :=
  ⟨⟨hnd, initSubclass_eq_ok_iff.2 ⟨hnames, rfl⟩⟩, hone⟩

/-- The first member of an enum wrapper is its zero. -/
def FieldType.ZeroFirst : FieldType → Prop
  | .enum t => ∃ name rest, t.members = (name, 0) :: rest
  | _ => True

/-- The schemas the wrappers are meant for. -/
def MessageType.Supported (t : MessageType) : Prop :=
  t.Everywhere FieldType.ZeroFirst MessageType.Accepted

/-- The loop of `__new__` sets every field to what its descriptor makes of its argument. -/
theorem Fields.new_eq_ok {kwargs : Str → FieldType → Option PyVal} :
    ∀ {fields : Fields} {attrs : List (Str × PyVal)}, fields.names.Nodup →
      fields.new kwargs = .ok attrs →
      ∀ field ∈ fields.toList, ∃ v, field.type.set (kwargs field.name field.type) = .ok v ∧
        dictGet? id attrs field.name = some v
  | .nil, _, _, _ => by simp [Fields.toList]
  | .cons name oneof type rest, attrs, hnd, h => by
      obtain ⟨hnot, hrest⟩ := List.nodup_cons.1 hnd
      rw [Fields.new, bind_eq_ok] at h
      obtain ⟨v, hv, h⟩ := h
      rw [bind_eq_ok] at h
      obtain ⟨attrs', hattrs, h⟩ := h
      cases h
      refine List.forall_mem_cons.2 ⟨⟨v, hv, if_pos rfl⟩, fun field hmem => ?_⟩
      have hne : name ≠ field.name := fun heq => hnot (List.mem_map.2 ⟨field, hmem, heq.symm⟩)
      obtain ⟨x, hx, hget⟩ := Fields.new_eq_ok hrest hattrs field hmem
      exact ⟨x, hx, (if_neg hne).trans hget⟩

theorem Fields.new_ok {kwargs : Str → FieldType → Option PyVal} :
    ∀ {fields : Fields}, (∀ field ∈ fields.toList,
      ∃ v, field.type.set (kwargs field.name field.type) = .ok v) →
      ∃ attrs, fields.new kwargs = .ok attrs
  | .nil, _ => ⟨[], rfl⟩
  | .cons name oneof type rest, h => by
      rw [Fields.toList, List.forall_mem_cons] at h
      obtain ⟨⟨v, hv⟩, hrest⟩ := h
      obtain ⟨attrs, hattrs⟩ := Fields.new_ok hrest
      exact ⟨(name, v) :: attrs, by rw [Fields.new, hv, ok_bind, hattrs, ok_bind]⟩

/-- Where every descriptor takes its argument and stores something with `R`, so does `__new__`. -/
theorem Fields.new_forall {fields : Fields} (hnd : fields.names.Nodup)
    {kwargs : Str → FieldType → Option PyVal} {R : Field → PyVal → Prop}
    (h : ∀ field ∈ fields.toList, ∃ x,
      field.type.set (kwargs field.name field.type) = .ok x ∧ R field x) :
    ∃ attrs, fields.new kwargs = .ok attrs ∧ ∀ field ∈ fields.toList, ∃ x,
      dictGet? id attrs field.name = some x ∧ R field x := by
  obtain ⟨attrs, hnew⟩ : ∃ attrs, fields.new kwargs = .ok attrs :=
    Fields.new_ok (fun field hmem => (h field hmem).imp (fun x hx => hx.1))
  refine ⟨attrs, hnew, fun field hmem => ?_⟩
  obtain ⟨x, hset, hR⟩ := h field hmem
  obtain ⟨x', hset', hget⟩ := Fields.new_eq_ok hnd hnew field hmem
  rw [hset] at hset'
  cases hset'
  exact ⟨x, hget, hR⟩

/-! ## Arguments -/

/-- Every wrapper instance that the value is or has among its parts meets `P`. -/
inductive PyVal.Carries (P : PyVal → Prop) : PyVal → Prop
  | atom (a : Atom) : Carries P (.atom a)
  | list {xs : List PyVal} (h : ∀ x ∈ xs, Carries P x) : Carries P (.list xs)
  | dict {kvs : List (Atom × PyVal)} (h : ∀ e ∈ kvs, Carries P e.2) : Carries P (.dict kvs)
  | pb {proto : Str} {pbFields : List (Str × PyVal)} (h : ∀ e ∈ pbFields, Carries P e.2) :
      Carries P (.pb proto pbFields)
  | inst {cls : MessageType} {sub : Option Str} {attrs : List (Str × PyVal)}
      (h : P (.inst cls sub attrs)) : Carries P (.inst cls sub attrs)

theorem PyVal.Carries.imp {P P' : PyVal → Prop} (himp : ∀ v, P v → P' v) {v : PyVal}
    (h : v.Carries P) : v.Carries P' := by
  induction h with
  | atom a => exact .atom a
  | list _ ih => exact .list ih
  | dict _ ih => exact .dict ih
  | pb _ ih => exact .pb ih
  | inst h => exact .inst (himp _ h)

theorem PyVal.Carries.iter {P : PyVal → Prop} {v : PyVal} {xs : List PyVal} (h : v.Carries P)
    (hiter : v.iter = .ok xs) : ∀ x ∈ xs, x.Carries P := by
  cases h with
  | atom a =>
      cases a with
      | str s =>
          cases hiter
          simp only [List.mem_map, forall_exists_index, and_imp, forall_apply_eq_imp_iff₂]
          exact fun _ _ => .atom _
      | bytes s =>
          cases hiter
          simp only [List.mem_map, forall_exists_index, and_imp, forall_apply_eq_imp_iff₂]
          exact fun _ _ => .atom _
      | _ => cases hiter
  | list h =>
      cases hiter
      exact h
  | dict h =>
      cases hiter
      simp only [List.mem_map, forall_exists_index, and_imp, forall_apply_eq_imp_iff₂]
      exact fun _ _ => .atom _
  | pb h => cases hiter
  | inst h => cases hiter

theorem PyVal.Carries.items {P : PyVal → Prop} {v : PyVal} {kvs : List (Atom × PyVal)}
    (h : v.Carries P) (hitems : v.items = .ok kvs) : ∀ e ∈ kvs, e.2.Carries P := by
  cases h with
  | dict h =>
      cases hitems
      exact h
  | _ => cases hitems

theorem FieldType.carries_pbDefault (P : PyVal → Prop) (type : FieldType) :
    type.pbDefault.Carries P := by
  cases type with
  | scalar t => exact .atom _
  | enum t => exact .atom _
  | message t => exact .pb (by simp)
  | repeatedScalar t => exact .list (by simp)
  | repeatedComposite t => exact .list (by simp)
  | scalarMap key t => exact .dict (by simp)
  | messageMap key t => exact .dict (by simp)

/-! ## The invariant of the wrappers -/

/-- A property of values holds of the instance, if its class has `P` and `Q` everywhere. -/
def ValidFor (S : ValueSpec) (P : FieldType → Prop) (Q : MessageType → Prop) (v : PyVal) : Prop :=
  ∀ cls sub attrs, v = .inst cls sub attrs → cls.Everywhere P Q → cls.Sat S v

/-- The descriptor stores only values with the property, when the instances it is given have it. -/
def FieldType.SetsValidFor (S : ValueSpec) (P : FieldType → Prop) (Q : MessageType → Prop)
    (type : FieldType) : Prop :=
  ∀ v x, (∀ y, v = some y → y.Carries (ValidFor S P Q)) → type.set v = .ok x → type.Sat S x

/-- The fields of an instance hold what their descriptors let through. -/
abbrev Valid (v : PyVal) : Prop := ValidFor setSpec FieldType.ZeroFirst MessageType.Accepted v

/-- What a property of values has to admit, to hold of whatever the descriptors store. -/
structure ValueSpec.Admits (S : ValueSpec) (Q : MessageType → Prop) : Prop where
  scalar : ∀ t a, t.isInstance a = true → S.scalar t a
  element : ∀ t a, t.isExact a = true → S.element t a
  enum : ∀ t n, n ∈ t.values → S.enum t (.enumMember t n)
  new : ∀ t sub kwargs attrs, t.fields.new kwargs = .ok attrs → S.message t (.inst t sub attrs)
  assign : ∀ t sub attrs field x, field ∈ t.fields.toList → S.message t (.inst t sub attrs) →
    S.message t (.inst t sub (dictSet id attrs field.name x))
  getattr : ∀ v name type, S.getattr v name type = v.attr name
  nodup : ∀ t, Q t → t.fields.names.Nodup

theorem admits_setSpec : setSpec.Admits MessageType.Accepted where
  scalar _ _ h := h
  element _ _ h := h
  enum _ n h := ⟨n, h, rfl⟩
  new _ _ _ _ _ := decide_eq_true rfl
  assign _ _ _ _ _ _ _ := decide_eq_true rfl
  getattr _ _ _ := rfl
  nodup _ h := h.nodup

section Admits

variable {S : ValueSpec} {P : FieldType → Prop} {Q : MessageType → Prop}

/-- An instance with attributes made by `__new__` from valid arguments is valid. -/
theorem MessageType.sat_new (hS : S.Admits Q) {t : MessageType} (ht : Q t)
    (ih : ∀ field ∈ t.fields.toList, field.type.SetsValidFor S P Q)
    {kwargs : Str → FieldType → Option PyVal}
    (hargs : ∀ name type y, kwargs name type = some y → y.Carries (ValidFor S P Q))
    {attrs : List (Str × PyVal)} (hnew : t.fields.new kwargs = .ok attrs) (sub : Option Str) :
    t.Sat S (.inst t sub attrs) := by
  refine MessageType.sat_iff.2 ⟨hS.new t sub kwargs attrs hnew, fun field hmem => ?_⟩
  obtain ⟨x, hset, hget⟩ := Fields.new_eq_ok (hS.nodup t ht) hnew field hmem
  refine ⟨x, ?_, ih field hmem _ x (fun y => hargs field.name field.type y) hset⟩
  rw [hS.getattr]
  exact hget

/-- An instance stays valid when one of its fields is given another value that is. -/
theorem MessageType.sat_dictSet (hS : S.Admits Q) {t : MessageType} (ht : Q t) {sub : Option Str}
    {attrs : List (Str × PyVal)} (h : t.Sat S (.inst t sub attrs)) {field : Field}
    (hfield : field ∈ t.fields.toList) {x : PyVal} (hx : field.type.Sat S x) :
    t.Sat S (.inst t sub (dictSet id attrs field.name x)) := by
  obtain ⟨hmessage, hattrs⟩ := MessageType.sat_iff.1 h
  refine MessageType.sat_iff.2 ⟨hS.assign t sub attrs field x hfield hmessage,
    fun field' hmem => ?_⟩
  simp only [hS.getattr, PyVal.attr, dictGet?_dictSet, id_eq]
  by_cases hname : field.name = field'.name
  · obtain rfl : field = field' := List.inj_on_of_nodup_map (hS.nodup t ht) hfield hmem hname
    exact ⟨x, if_pos rfl, hx⟩
  · rw [if_neg hname]
    obtain ⟨y, hy, hsat⟩ := hattrs field' hmem
    rw [hS.getattr] at hy
    exact ⟨y, hy, hsat⟩

theorem carries_asKwargs {P : PyVal → Prop} {kvs : List (Atom × PyVal)}
    (h : ∀ e ∈ kvs, e.2.Carries P) {kwargs : List (Str × PyVal)} (hkw : asKwargs kvs = .ok kwargs) :
    ∀ e ∈ kwargs, e.2.Carries P := by
  refine mapM_forall hkw (fun e hmem y hy => ?_)
  obtain ⟨k, v⟩ := e
  cases k with
  | str name =>
      cases hy
      exact h _ hmem
  | _ => cases hy

theorem carries_dictGet? {P : PyVal → Prop} {kvs : List (Str × PyVal)}
    (h : ∀ e ∈ kvs, e.2.Carries P) {name : Str} {v : PyVal}
    (hget : dictGet? id kvs name = some v) : v.Carries P := by
  obtain ⟨k, hmem⟩ := mem_of_dictGet? hget
  exact h _ hmem

/-- `convert` returns an instance of its class. -/
theorem MessageType.isWrapper_convert {t : MessageType} {v x : PyVal} (h : t.convert v = .ok x) :
    x.isWrapper t = true := by
  rw [MessageType.convert_eq] at h
  split at h
  · cases h
  · split at h
    · next hwrapper =>
        cases h
        exact hwrapper
    · split at h
      · obtain ⟨kwargs, -, h⟩ := bind_eq_ok.1 h
        obtain ⟨attrs, -, h⟩ := bind_eq_ok.1 h
        cases h
        exact decide_eq_true rfl
      · split at h
        · obtain ⟨attrs, -, h⟩ := bind_eq_ok.1 h
          cases h
          exact decide_eq_true rfl
        · cases h
      · cases h

theorem MessageType.sat_convert (hS : S.Admits Q) {t : MessageType} (ht : t.Everywhere P Q)
    (ih : ∀ field ∈ t.fields.toList, field.type.SetsValidFor S P Q) {v x : PyVal}
    (hv : v.Carries (ValidFor S P Q)) (h : t.convert v = .ok x) : t.Sat S x := by
  rw [MessageType.convert_eq] at h
  split at h
  · cases h
  · split at h
    · next hwrapper =>
        cases h
        cases v with
        | inst cls sub attrs =>
            obtain rfl : cls = t := of_decide_eq_true hwrapper
            cases hv with
            | inst hvalid => exact hvalid _ _ _ rfl ht
        | _ => cases hwrapper
    · cases hv with
      | dict hkvs =>
          obtain ⟨kwargs, hkw, h⟩ := bind_eq_ok.1 h
          obtain ⟨attrs, hnew, h⟩ := bind_eq_ok.1 h
          cases h
          refine MessageType.sat_new hS ht.here ih (fun name type y hget => ?_) hnew none
          exact carries_dictGet? (carries_asKwargs hkvs hkw) hget
      | pb hfields =>
          simp only at h
          split at h
          · obtain ⟨attrs, hnew, h⟩ := bind_eq_ok.1 h
            cases h
            refine MessageType.sat_new hS ht.here ih (fun name type y hget => ?_) hnew none
            -- a field is read as it is set, or as its default
            cases hget
            rw [pbGetattr]
            cases hset : dictGet? id _ name with
            | none => exact type.carries_pbDefault _
            | some v => exact carries_dictGet? hfields hset
          · cases h
      | atom a => cases h
      | list _ => cases h
      | inst _ => cases h

theorem MessageType.sat_convertEntry (hS : S.Admits Q) {t : MessageType} (ht : t.Everywhere P Q)
    (ih : ∀ field ∈ t.fields.toList, field.type.SetsValidFor S P Q) {v x : PyVal}
    (hv : v.Carries (ValidFor S P Q))
    (h : t.convertEntry (fun entry => t.convert entry) v = .ok x) : t.Sat S x := by
  rw [MessageType.convertEntry] at h
  split at h
  · next hwrapper =>
      cases h
      cases v with
      | inst cls sub attrs =>
          obtain rfl : cls = t := of_decide_eq_true hwrapper
          cases hv with
          | inst hvalid => exact hvalid _ _ _ rfl ht
      | _ => cases hwrapper
  · split at h
    · exact MessageType.sat_convert hS ht ih hv h
    · cases h

theorem EnumType.sat_ofValue (hS : S.Admits Q) {t : EnumType} {n : ℤ} {x : PyVal}
    (h : t.ofValue n = .ok x) : (FieldType.enum t).Sat S x := by
  rw [EnumType.ofValue] at h
  split at h
  · next hmem =>
      cases h
      exact ⟨_, rfl, hS.enum t n (by simpa using hmem)⟩
  · cases h

theorem EnumType.sat_convert (hS : S.Admits Q) {t : EnumType} {v x : PyVal}
    (h : t.convert v = .ok x) : (FieldType.enum t).Sat S x := by
  unfold EnumType.convert at h
  split at h
  · cases h
  · split at h
    · exact EnumType.sat_ofValue hS h
    · exact EnumType.sat_ofValue hS h
    · exact EnumType.sat_ofValue hS h
    · next s =>
        split at h
        · next n hlookup =>
            cases h
            obtain ⟨name, hmem⟩ := mem_of_dictGet? hlookup
            exact ⟨_, rfl, hS.enum t n (List.mem_map.2 ⟨(name, n), hmem, rfl⟩)⟩
        · cases h
    · cases h

/-- The entries of a converted map. -/
theorem mapConvert_forall {key : KeyType} {convertValue : PyVal → Except PyExc PyVal}
    {C R : PyVal → Prop} {v x : PyVal} (hv : v.Carries C)
    (hR : ∀ y z, y.Carries C → convertValue y = .ok z → R z)
    (h : mapConvert key convertValue v = .ok x) :
    ∃ kvs, x = .dict kvs ∧ DistinctKeys Atom.canon kvs ∧
      ∀ e ∈ kvs, key.scalar.isExact e.1 = true ∧ R e.2 := by
  obtain ⟨kvs, entries, hitems, hentries, rfl⟩ := mapConvert_eq_ok.1 h
  refine ⟨_, rfl, distinctKeys_dictUpdate distinctKeys_nil entries, ?_⟩
  refine @dictUpdate_forall _ _ _ _ _ (fun k => key.scalar.isExact k = true) R _ _ (by simp) ?_
  refine mapM_forall hentries (fun e hmem e' he' => ?_)
  obtain ⟨hkey, y, hy, rfl⟩ := KeyType.checkEntry_eq_ok.1 he'
  exact ⟨hkey, hR _ y (hv.items hitems e hmem) hy⟩

/-- The elements of a converted list. -/
theorem repeatedConvert_forall {convertEntry : PyVal → Except PyExc PyVal} {C R : PyVal → Prop}
    {v x : PyVal} (hv : v.Carries C)
    (hR : ∀ y z, y.Carries C → convertEntry y = .ok z → R z)
    (h : repeatedConvert convertEntry v = .ok x) : ∃ xs, x = .list xs ∧ ∀ y ∈ xs, R y := by
  obtain ⟨xs, ys, hiter, hys, rfl⟩ := repeatedConvert_eq_ok.1 h
  exact ⟨ys, rfl, mapM_forall hys (fun y hmem z => hR y z (hv.iter hiter y hmem))⟩

theorem ScalarType.setsValid (hS : S.Admits Q) (t : ScalarType) :
    (FieldType.scalar t).SetsValidFor S P Q := by
  intro v x _ h
  cases v with
  | none =>
      cases h
      have hdefault : t.isInstance t.default = true := by cases t <;> rfl
      exact ⟨t.default, rfl, hS.scalar t _ hdefault⟩
  | some v =>
      obtain ⟨a, -, hcheck, rfl⟩ := PyVal.check_eq_ok.1 h
      exact ⟨a, rfl, hS.scalar t a hcheck⟩

theorem EnumType.setsValid (hS : S.Admits Q) (t : EnumType) :
    (FieldType.enum t).SetsValidFor S P Q := by
  intro v x _ h
  cases v with
  | none =>
      simp only [FieldType.set, EnumType.first] at h
      split at h
      · next name n rest hmembers =>
          cases h
          have hmem : n ∈ t.values := by simp [EnumType.values, hmembers]
          exact ⟨_, rfl, hS.enum t n hmem⟩
      · cases h
  | some v => exact EnumType.sat_convert hS h

theorem ScalarType.repeated_setsValid (hS : S.Admits Q) (t : ScalarType) :
    (FieldType.repeatedScalar t).SetsValidFor S P Q := by
  intro v x hv h
  cases v with
  | none =>
      cases h
      exact ⟨[], rfl, by simp⟩
  | some v =>
      refine repeatedConvert_forall (hv v rfl) ?_ h
      intro y z _ hz
      obtain ⟨a, -, hcheck, rfl⟩ := PyVal.check_eq_ok.1 hz
      exact ⟨a, rfl, hS.element t a hcheck⟩

theorem ScalarType.map_setsValid (hS : S.Admits Q) (key : KeyType) (t : ScalarType) :
    (FieldType.scalarMap key t).SetsValidFor S P Q := by
  intro v x hv h
  cases v with
  | none =>
      cases h
      exact ⟨[], rfl, distinctKeys_nil, by simp⟩
  | some v =>
      have hvalues : ∀ y z, y.Carries (ValidFor S P Q) → t.checkInstance y = .ok z →
          ∃ a, z = .atom a ∧ S.scalar t a := by
        intro y z _ hz
        obtain ⟨a, -, hcheck, rfl⟩ := PyVal.check_eq_ok.1 hz
        exact ⟨a, rfl, hS.scalar t a hcheck⟩
      obtain ⟨kvs, rfl, hd, hkvs⟩ := mapConvert_forall (hv v rfl) hvalues h
      exact ⟨kvs, rfl, hd, fun e he => ⟨hS.element _ _ (hkvs e he).1, (hkvs e he).2⟩⟩

section Composite

variable {t : MessageType} (hS : S.Admits Q) (ht : t.Everywhere P Q)
  (ih : ∀ field ∈ t.fields.toList, field.type.SetsValidFor S P Q)

include hS ht ih

theorem MessageType.message_setsValid : (FieldType.message t).SetsValidFor S P Q := by
  intro v x hv h
  cases v with
  | none =>
      -- the class without arguments
      rw [FieldType.set, MessageType.new_eq, bind_eq_ok] at h
      obtain ⟨attrs, hnew, h⟩ := h
      cases h
      exact MessageType.sat_new hS ht.here ih (fun _ _ _ hnone => by cases hnone) hnew none
  | some v => exact MessageType.sat_convert hS ht ih (hv v rfl) h

theorem MessageType.repeated_setsValid :
    (FieldType.repeatedComposite t).SetsValidFor S P Q := by
  intro v x hv h
  cases v with
  | none =>
      cases h
      exact ⟨[], rfl, by simp⟩
  | some v =>
      exact repeatedConvert_forall (hv v rfl) (fun y z => MessageType.sat_convertEntry hS ht ih) h

theorem MessageType.map_setsValid (key : KeyType) :
    (FieldType.messageMap key t).SetsValidFor S P Q := by
  intro v x hv h
  cases v with
  | none =>
      cases h
      exact ⟨[], rfl, distinctKeys_nil, by simp⟩
  | some v =>
      obtain ⟨kvs, rfl, hd, hkvs⟩ :=
        mapConvert_forall (hv v rfl) (fun y z => MessageType.sat_convertEntry hS ht ih) h
      exact ⟨kvs, rfl, hd, fun e he => ⟨hS.element _ _ (hkvs e he).1, (hkvs e he).2⟩⟩

end Composite

/-- **Every descriptor stores what a property admits that it lets through**, at any depth. -/
theorem MessageType.setsValidFor (hS : S.Admits Q) {t : MessageType} (ht : t.Everywhere P Q) :
    ∀ field ∈ t.fields.toList, field.type.SetsValidFor S P Q := by
  have hboth : ∀ t : MessageType, t.Everywhere P Q →
      t.Everywhere P Q ∧ ∀ field ∈ t.fields.toList, field.type.SetsValidFor S P Q := by
    refine @MessageType.everywhere_induction _ _ (FieldType.SetsValidFor S P Q) _ ?scalar ?enum
      ?message ?repeatedScalar ?repeatedComposite ?scalarMap ?messageMap ?mk
    case scalar => exact fun t _ => t.setsValid hS
    case enum => exact fun t _ => t.setsValid hS
    case message => exact fun t _ ih => MessageType.message_setsValid hS ih.1 ih.2
    case repeatedScalar => exact fun t _ => t.repeated_setsValid hS
    case repeatedComposite => exact fun t _ ih => MessageType.repeated_setsValid hS ih.1 ih.2
    case scalarMap => exact fun key t _ => t.map_setsValid hS key
    case messageMap => exact fun key t _ ih => MessageType.map_setsValid hS ih.1 ih.2 key
    case mk => exact fun t ht ih => ⟨ht, ih⟩
  exact (hboth t ht).2

end Admits

/-! ## Instances built by the API -/

/-- What one call gives whose arguments carry only instances with `P`. -/
inductive APICall (P : PyVal → Prop) : PyVal → Prop
  /-- the constructor of a class or of a subclass that adds no field -/
  | new {cls : MessageType} {sub : Option Str} {kwargs : List (Str × PyVal)}
      {attrs : List (Str × PyVal)} (hargs : ∀ e ∈ kwargs, e.2.Carries P)
      (h : cls.fields.new (fun name _ => dictGet? id kwargs name) = .ok attrs) :
      APICall P (.inst cls sub attrs)
  | convert {cls : MessageType} {v w : PyVal} (hv : v.Carries P) (h : cls.convert v = .ok w) :
      APICall P w
  /-- `self.field = v` -/
  | assign {cls : MessageType} {sub : Option Str} {attrs : List (Str × PyVal)} {field : Field}
      {v x : PyVal} (hself : P (.inst cls sub attrs)) (hfield : field ∈ cls.fields.toList)
      (hv : v.Carries P) (h : field.type.set (some v) = .ok x) :
      APICall P (.inst cls sub (dictSet id attrs field.name x))

/-- Instances built by at most `n` calls, each on instances built before. -/
def Built : ℕ → PyVal → Prop
  | 0, _ => False
  | n + 1, w => APICall (Built n) w

/-- One call on valid instances gives a valid instance. -/
theorem validFor_apiCall {S : ValueSpec} {P : FieldType → Prop} {Q : MessageType → Prop}
    (hS : S.Admits Q) {C : PyVal → Prop} (hC : ∀ v, C v → ValidFor S P Q v) {w : PyVal}
    (h : APICall C w) : ValidFor S P Q w := by
  cases h with
  | new hargs h =>
      rintro _ _ _ ⟨⟩ hcls
      refine MessageType.sat_new hS hcls.here (MessageType.setsValidFor hS hcls)
        (fun name _ y hget => ?_) h _
      exact (carries_dictGet? hargs hget).imp hC
  | @convert cls v w hv h =>
      rintro cls' sub attrs rfl hcls
      obtain rfl : cls' = cls := of_decide_eq_true (MessageType.isWrapper_convert h)
      exact MessageType.sat_convert hS hcls (MessageType.setsValidFor hS hcls) (hv.imp hC) h
  | @assign cls sub attrs field v x hself hfield hv h =>
      rintro _ _ _ ⟨⟩ hcls
      have hx : field.type.Sat S x := MessageType.setsValidFor hS hcls field hfield (some v) x
        (by rintro _ ⟨⟩; exact hv.imp hC) h
      exact MessageType.sat_dictSet hS hcls.here (hC _ hself cls sub attrs rfl hcls) hfield hx

/-- **An instance built by the API is valid.** -/
theorem valid_of_built : ∀ (n : ℕ) {w : PyVal}, Built n w → Valid w
  | 0, _, h => h.elim
  | n + 1, _, h => validFor_apiCall admits_setSpec (fun _ => valid_of_built n) h

end IotLoggingServer
