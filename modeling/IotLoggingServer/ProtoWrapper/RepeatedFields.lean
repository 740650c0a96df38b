import Mathlib.Logic.Relation
import IotLoggingServer.ProtoWrapper.Containers
import IotLoggingServer.ProtoWrapper.RoundTrip

set_option autoImplicit false

/-! # The repeated fields of an instance (`proto_wrapper.py`)

`deepcopy` copies an instance field by field and gives the copies to the constructor, so that it
fails where a field holds what its descriptor does not take. The containers of the repeated fields
are changed in place, past the descriptors: as long as every operation puts in what `convert` leaves
as it is, each container can be assigned to its own field and the instance can be copied
(`repeated_fields_hold`). -/

namespace IotLoggingServer

/-! ## `__deepcopy__` -/

mutual

/-- `deepcopy` of the value of a field. A container is built anew by its `append`, a map by item
    assignment. -/
def FieldType.deepcopy : FieldType → PyVal → Except PyExc PyVal
  | .message t, v => t.deepcopy v
  | .repeatedScalar t, .list xs => do .ok (.list (← xs.mapM (ContainerType.scalar t).appended))
  | .repeatedComposite t, .list xs => do
    .ok (.list (← xs.mapM (fun x => do (ContainerType.composite t).appended (← t.deepcopy x))))
  | .messageMap _ t, .dict kvs => do
    .ok (.dict (← kvs.mapM (fun e => do .ok (e.1, ← t.deepcopy e.2))))
  | _, v => .ok v

/-- `__deepcopy__` -/
def MessageType.deepcopy : MessageType → PyVal → Except PyExc PyVal
  | .mk cls proto fields, .inst cls' sub attrs =>
    if cls' = .mk cls proto fields then do
      let copied ← fields.deepcopy (dictGet? id attrs)
      .ok (.inst cls' sub (← fields.new (fun name _ => dictGet? id copied name)))
    else .ok (.inst cls' sub attrs)
  | _, v => .ok v

/-- The loop of `__deepcopy__` over the fields. -/
def Fields.deepcopy : Fields → (Str → Option PyVal) → Except PyExc (List (Str × PyVal))
  | .nil, _ => .ok []
  | .cons name _ type rest, attr =>
    match attr name with
    | none => .error .attributeError
    | some v => do
      let copied ← type.deepcopy v
      .ok ((name, copied) :: (← rest.deepcopy attr))

end

theorem MessageType.deepcopy_inst (t : MessageType) (sub : Option Str)
    (attrs : List (Str × PyVal)) : t.deepcopy (.inst t sub attrs) = (do
      let copied ← t.fields.deepcopy (dictGet? id attrs)
      .ok (.inst t sub (← t.fields.new (fun name _ => dictGet? id copied name)))) := by
  cases t with
  | mk cls proto fields => rw [MessageType.deepcopy, if_pos rfl]; rfl

/-! ## What the fields hold -/

/-- No name hides the `convert` that the descriptor of the field calls. -/
def FieldType.ConvertVisible : FieldType → Prop
  | .enum t => t.hasMember "convert" = false
  | .message t => t.hasField "convert" = false
  | _ => True

/-- What the descriptors let through, in instances with one attribute for each field. -/
def heldSpec : ValueSpec :=
  { setSpec with
    message := fun t v => ∃ sub attrs, v = .inst t sub attrs ∧ attrs.map Prod.fst = t.fields.names }

/-- `__new__` gives every field an attribute, in the order of the fields. -/
theorem Fields.names_new {kwargs : Str → FieldType → Option PyVal} :
    ∀ {fields : Fields} {attrs : List (Str × PyVal)}, fields.new kwargs = .ok attrs →
      attrs.map Prod.fst = fields.names
  | .nil, _, h => by
      cases h
      rfl
  | .cons name oneof type rest, attrs, h => by
      rw [Fields.new, bind_eq_ok] at h
      obtain ⟨v, -, h⟩ := h
      obtain ⟨attrs', hattrs, h⟩ := bind_eq_ok.1 h
      cases h
      rw [List.map_cons, Fields.names_new hattrs]
      rfl

theorem admits_heldSpec : heldSpec.Admits MessageType.AcceptedClass where
  scalar _ _ h := h
  element _ _ h := h
  enum _ n h := ⟨n, h, rfl⟩
  new _ sub _ attrs h := ⟨sub, attrs, rfl, Fields.names_new h⟩
  assign t sub attrs field x hfield h := by
    obtain ⟨_, _, heq, hnames⟩ := h
    cases heq
    refine ⟨sub, _, rfl, ?_⟩
    have hmem : id field.name ∈ dictKeys id attrs := by
      show field.name ∈ attrs.map Prod.fst
      rw [hnames]
      exact List.mem_map.2 ⟨field, hfield, rfl⟩
    exact (dictKeys_dictSet_of_mem hmem x).trans hnames
  getattr _ _ _ := rfl
  nodup _ h := h.nodup

/-- The instance holds what its descriptors let through, at any depth. -/
abbrev Held (v : PyVal) : Prop := ValidFor heldSpec FieldType.ConvertVisible
  MessageType.AcceptedClass v

/-! ## What is held is set and copied as it is -/

/-- The type of an element that `convert` leaves as it is. -/
def ContainerType.Element : ContainerType → PyVal → Prop
  | .scalar t, v => ∃ a, v = .atom a ∧ t.isExact a = true
  | .composite t, v => t.Sat heldSpec v

theorem ContainerType.sat_field {k : ContainerType} {v : PyVal} :
    k.field.Sat heldSpec v ↔ ∃ c, v = .list c ∧ ∀ x ∈ c, k.Element x := by
  cases k <;> exact Iff.rfl

theorem MessageType.isWrapper_of_sat {t : MessageType} {v : PyVal} (h : t.Sat heldSpec v) :
    v.isWrapper t = true := by
  obtain ⟨sub, attrs, rfl, -⟩ := (MessageType.sat_iff.1 h).1
  exact decide_eq_true rfl

theorem ContainerType.convertEntry_of_element {k : ContainerType} {v : PyVal} (h : k.Element v) :
    k.convertEntry v = .ok v := by
  cases k with
  | scalar t =>
      obtain ⟨a, rfl, hexact⟩ := h
      exact PyVal.check_eq_ok.2 ⟨a, rfl, hexact, rfl⟩
  | composite t => exact convertEntry_of_isWrapper (MessageType.isWrapper_of_sat h)

theorem ContainerType.appended_of_element {k : ContainerType} {v : PyVal} (h : k.Element v) :
    k.appended v = .ok v := by
  cases k with
  | scalar t =>
      obtain ⟨a, rfl, hexact⟩ := h
      exact PyVal.check_eq_ok.2 ⟨a, rfl, ScalarType.isInstance_of_isExact hexact, rfl⟩
  | composite t => exact convertEntry_of_isWrapper (MessageType.isWrapper_of_sat h)

/-- The container of a repeated field is set as it is. -/
theorem ContainerType.set_list {k : ContainerType} {c : List PyVal} (h : ∀ x ∈ c, k.Element x) :
    k.field.set (some (.list c)) = .ok (.list c) := by
  have hself := mapM_eq_self_iff.2 (fun x hx => ContainerType.convertEntry_of_element (h x hx))
  rw [ContainerType.set_field]
  exact repeatedConvert_eq_ok.2 ⟨c, c, rfl, hself, rfl⟩

theorem mapConvert_self {key : KeyType} {convertValue : PyVal → Except PyExc PyVal}
    {kvs : List (Atom × PyVal)} (hd : DistinctKeys Atom.canon kvs)
    (h : ∀ e ∈ kvs, key.scalar.isExact e.1 = true ∧ convertValue e.2 = .ok e.2) :
    mapConvert key convertValue (.dict kvs) = .ok (.dict kvs) :=
  mapConvert_of_distinct hd (mapM_eq_self_iff.2
    (fun e he => KeyType.checkEntry_eq_ok.2 ⟨(h e he).1, e.2, (h e he).2, rfl⟩))

/-- **A descriptor sets a value that it holds as it is.** -/
theorem FieldType.set_of_sat {type : FieldType} (htype : type.ConvertVisible) {v : PyVal}
    (h : type.Sat heldSpec v) : type.set (some v) = .ok v := by
  cases type with
  | scalar t =>
      obtain ⟨a, rfl, hinst⟩ := h
      exact PyVal.check_eq_ok.2 ⟨a, rfl, hinst, rfl⟩
  | enum t =>
      obtain ⟨a, rfl, n, hn, rfl⟩ := h
      have hmem : t.values.contains n = true := by simpa using hn
      show t.convert (.atom (.enumMember t n)) = _
      unfold EnumType.convert EnumType.ofValue
      rw [htype, if_neg Bool.false_ne_true]
      exact if_pos hmem
  | message t =>
      show t.convert v = .ok v
      rw [MessageType.convert_eq, htype, if_neg Bool.false_ne_true,
        if_pos (MessageType.isWrapper_of_sat h)]
  | repeatedScalar t =>
      obtain ⟨c, rfl, hc⟩ := (@ContainerType.sat_field (.scalar t) v).1 h
      exact ContainerType.set_list hc
  | repeatedComposite t =>
      obtain ⟨c, rfl, hc⟩ := (@ContainerType.sat_field (.composite t) v).1 h
      exact ContainerType.set_list hc
  | scalarMap key t =>
      obtain ⟨kvs, rfl, hd, hkvs⟩ := h
      refine mapConvert_self hd (fun e he => ⟨(hkvs e he).1, ?_⟩)
      obtain ⟨a, ha, hinst⟩ := (hkvs e he).2
      rw [ha]
      exact PyVal.check_eq_ok.2 ⟨a, rfl, hinst, rfl⟩
  | messageMap key t =>
      obtain ⟨kvs, rfl, hd, hkvs⟩ := h
      refine mapConvert_self hd (fun e he => ⟨(hkvs e he).1, ?_⟩)
      exact if_pos (MessageType.isWrapper_of_sat (hkvs e he).2)

/-- The attributes of an instance are found by their names. -/
theorem dictGet?_of_names {fields : Fields} (hnd : fields.names.Nodup)
    {attrs : List (Str × PyVal)} (hnames : attrs.map Prod.fst = fields.names) :
    ∀ e ∈ attrs, dictGet? id attrs e.1 = some e.2 := by
  have hd : DistinctKeys id attrs := by
    show (attrs.map Prod.fst).Nodup
    rw [hnames]
    exact hnd
  exact fun e he => dictGet?_of_mem hd he

/-- The loop of `__deepcopy__` gives the attributes themselves, if `deepcopy` gives every value. -/
theorem Fields.deepcopy_eq {attr : Str → Option PyVal} : ∀ {fields : Fields}
    {attrs : List (Str × PyVal)}, attrs.map Prod.fst = fields.names →
    (∀ e ∈ attrs, attr e.1 = some e.2) →
    (∀ field ∈ fields.toList, ∀ v, attr field.name = some v → field.type.deepcopy v = .ok v) →
    fields.deepcopy attr = .ok attrs
  | .nil, attrs, hnames, _, _ => by
      obtain rfl : attrs = [] := List.map_eq_nil_iff.1 hnames
      rfl
  | .cons name oneof type rest, attrs, hnames, hattrs, hcopy => by
      rcases attrs with _ | ⟨⟨name', v⟩, attrs⟩
      · cases hnames
      · obtain ⟨rfl, hrest⟩ := List.cons.inj hnames
        rw [List.forall_mem_cons] at hattrs
        rw [Fields.toList, List.forall_mem_cons] at hcopy
        rw [Fields.deepcopy, hattrs.1]
        show (do
          let copied ← type.deepcopy v
          .ok ((name', copied) :: (← rest.deepcopy attr))) = _
        rw [hcopy.1 v hattrs.1, ok_bind, Fields.deepcopy_eq hrest hattrs.2 hcopy.2]
        rfl

/-- The loop of `__new__` gives the attributes themselves, if the descriptors set every value. -/
theorem Fields.new_eq {kwargs : Str → FieldType → Option PyVal} : ∀ {fields : Fields}
    {attrs : List (Str × PyVal)}, attrs.map Prod.fst = fields.names →
    (∀ e ∈ attrs, ∀ type, kwargs e.1 type = some e.2) →
    (∀ field ∈ fields.toList, ∀ v, kwargs field.name field.type = some v →
      field.type.set (some v) = .ok v) →
    fields.new kwargs = .ok attrs
  | .nil, attrs, hnames, _, _ => by
      obtain rfl : attrs = [] := List.map_eq_nil_iff.1 hnames
      rfl
  | .cons name oneof type rest, attrs, hnames, hattrs, hset => by
      rcases attrs with _ | ⟨⟨name', v⟩, attrs⟩
      · cases hnames
      · obtain ⟨rfl, hrest⟩ := List.cons.inj hnames
        rw [List.forall_mem_cons] at hattrs
        rw [Fields.toList, List.forall_mem_cons] at hset
        rw [Fields.new, hattrs.1 type, hset.1 v (hattrs.1 type), ok_bind,
          Fields.new_eq hrest hattrs.2 hset.2]
        rfl

/-- **An instance that holds what its descriptors let through is copied as it is.** -/
theorem MessageType.deepcopy_of_sat {t : MessageType}
    (ht : t.Everywhere FieldType.ConvertVisible MessageType.AcceptedClass) {v : PyVal}
    (h : t.Sat heldSpec v) : t.deepcopy v = .ok v := by
  revert v
  refine @MessageType.everywhere_induction _ _
    (fun type => ∀ {v}, type.Sat heldSpec v →
      type.deepcopy v = .ok v ∧ type.set (some v) = .ok v)
    (fun t => ∀ {v}, t.Sat heldSpec v → t.deepcopy v = .ok v) ?scalar ?enum ?message
    ?repeatedScalar ?repeatedComposite ?scalarMap ?messageMap ?mk t ht
  case scalar => exact fun t htype v h => ⟨rfl, FieldType.set_of_sat htype h⟩
  case enum => exact fun t htype v h => ⟨rfl, FieldType.set_of_sat htype h⟩
  case message => exact fun t htype ih v h => ⟨ih h, FieldType.set_of_sat htype h⟩
  case repeatedScalar =>
    intro t htype v h
    refine ⟨?_, FieldType.set_of_sat htype h⟩
    obtain ⟨c, rfl, hc⟩ := (@ContainerType.sat_field (.scalar t) v).1 h
    have hself := mapM_eq_self_iff.2 (fun x hx => ContainerType.appended_of_element (hc x hx))
    rw [FieldType.deepcopy, hself, ok_bind]
  case repeatedComposite =>
    intro t htype ih v h
    refine ⟨?_, FieldType.set_of_sat htype h⟩
    obtain ⟨c, rfl, hc⟩ := (@ContainerType.sat_field (.composite t) v).1 h
    have hself : c.mapM (fun x => do (ContainerType.composite t).appended (← t.deepcopy x))
        = .ok c := by
      refine mapM_eq_self_iff.2 (fun x hx => ?_)
      rw [ih (hc x hx), ok_bind]
      exact ContainerType.appended_of_element (hc x hx)
    rw [FieldType.deepcopy, hself, ok_bind]
  case scalarMap => exact fun key t htype v h => ⟨rfl, FieldType.set_of_sat htype h⟩
  case messageMap =>
    intro key t htype ih v h
    refine ⟨?_, FieldType.set_of_sat htype h⟩
    obtain ⟨kvs, rfl, -, hkvs⟩ := h
    have hself : kvs.mapM (fun e => do .ok (e.1, ← t.deepcopy e.2)) = .ok kvs := by
      refine mapM_eq_self_iff.2 (fun e he => ?_)
      rw [ih (hkvs e he).2, ok_bind]
    rw [FieldType.deepcopy, hself, ok_bind]
  case mk =>
    intro t ht ih v h
    obtain ⟨⟨sub, attrs, rfl, hnames⟩, hattrs⟩ := MessageType.sat_iff.1 h
    have hget := dictGet?_of_names ht.here.nodup hnames
    -- what a field holds is its attribute
    have hfield : ∀ field ∈ t.fields.toList, ∀ v, dictGet? id attrs field.name = some v →
        field.type.deepcopy v = .ok v ∧ field.type.set (some v) = .ok v := by
      intro field hmem v hv
      obtain ⟨x, hx, hsat⟩ := hattrs field hmem
      obtain rfl : x = v := Option.some.inj (hx.symm.trans hv)
      exact ih field hmem hsat
    rw [MessageType.deepcopy_inst,
      Fields.deepcopy_eq hnames hget (fun field hmem v hv => (hfield field hmem v hv).1), ok_bind,
      Fields.new_eq hnames (fun e he _ => hget e he)
        (fun field hmem v hv => (hfield field hmem v hv).2)]
    rfl

/-! ## Operations on the fields of an instance -/

/-- The operation puts into a container with `c` only what `convert` leaves as it is. -/
def Operation.Proper (k : ContainerType) (c : List PyVal) (op : Operation) : Prop :=
  op.Puts k (fun v => k.convertEntry v = .ok v) c

/-- The instances that the operation is given meet `P`. -/
def Operation.GivenOnly (P : PyVal → Prop) (k : ContainerType) (c : List PyVal)
    (op : Operation) : Prop := ∀ v, op.Given k c v → v.Carries P

/-- An operation that meets `C` is performed on a repeated field of an instance; it may raise. -/
inductive Operates (C : ContainerType → List PyVal → Operation → Prop) : PyVal → PyVal → Prop
  | mk {cls : MessageType} {sub : Option Str} {attrs : List (Str × PyVal)} {field : Field}
      {k : ContainerType} {c : List PyVal} {op : Operation} {fuel : ℕ}
      {r : Option PyExc × List PyVal} (hfield : field ∈ cls.fields.toList)
      (htype : field.type = k.field) (hget : dictGet? id attrs field.name = some (.list c))
      (hC : C k c op) (hrun : op.run k fuel c = some r) :
      Operates C (.inst cls sub attrs) (.inst cls sub (dictSet id attrs field.name (.list r.2)))

/-- The operation is proper, and given instances with `P`. -/
def Operation.ProperOn (P : PyVal → Prop) (k : ContainerType) (c : List PyVal)
    (op : Operation) : Prop := op.GivenOnly P k c ∧ op.Proper k c

/-- Instances reached by at most `n` calls of the API and proper operations on repeated fields, each
    on instances reached before. -/
def Reached : ℕ → PyVal → Prop
  | 0, _ => False
  | n + 1, w => APICall (Reached n) w ∨
      ∃ v, Reached n v ∧ Operates (Operation.ProperOn (Reached n)) v w

/-- To append to scalars is proper unless a value of a subtype gets past the check. -/
theorem Operation.proper_append_scalar {t : ScalarType} {c : List PyVal} {a : Atom} :
    (Operation.append (.atom a)).Proper (.scalar t) c ↔
      (t.isInstance a = true → t.isExact a = true) := by
  constructor
  · intro h hinst
    have happended : (ContainerType.scalar t).appended (.atom a) = .ok (.atom a) :=
      PyVal.check_eq_ok.2 ⟨a, rfl, hinst, rfl⟩
    obtain ⟨_, ⟨⟩, hexact, -⟩ := PyVal.check_eq_ok.1 (h _ happended)
    exact hexact
  · intro h x hx
    obtain ⟨_, ⟨⟩, hinst, rfl⟩ := (@PyVal.check_eq_ok t.isInstance (.atom a) x).1 hx
    exact PyVal.check_eq_ok.2 ⟨a, rfl, h hinst, rfl⟩

/-- To append messages is always proper. -/
theorem Operation.proper_append_composite (t : MessageType) (c : List PyVal) (object : PyVal) :
    (Operation.append object).Proper (.composite t) c := fun _ hx =>
  ContainerType.convertEntry_of_isWrapper (ContainerType.isWrapper_of_convertEntry hx)

theorem Operation.proper_extend_composite (t : MessageType) (c : List PyVal)
    (argument : Argument) : (Operation.extend argument).Proper (.composite t) c := fun _ _ _ hx =>
  ContainerType.convertEntry_of_isWrapper (ContainerType.isWrapper_of_convertEntry hx)

/-! ## The containers hold what `convert` leaves as it is -/

section Invariant

variable {k : ContainerType}
  (hk : k.field.Everywhere FieldType.ConvertVisible MessageType.AcceptedClass)

include hk

theorem ContainerType.element_of_convertEntry {v x : PyVal} (hv : v.Carries Held)
    (h : k.convertEntry v = .ok x) : k.Element x := by
  cases k with
  | scalar t =>
      obtain ⟨a, -, hexact, rfl⟩ := PyVal.check_eq_ok.1 h
      exact ⟨a, rfl, hexact⟩
  | composite t =>
      exact MessageType.sat_convertEntry admits_heldSpec hk.2
        (MessageType.setsValidFor admits_heldSpec hk.2) hv h

theorem ContainerType.element_of_appended {v x : PyVal} (hv : v.Carries Held)
    (h : k.appended v = .ok x) (hself : k.convertEntry x = .ok x) : k.Element x := by
  cases k with
  | scalar t =>
      obtain ⟨a, -, -, rfl⟩ := PyVal.check_eq_ok.1 h
      exact ContainerType.element_of_convertEntry hk (.atom a) hself
  | composite t => exact ContainerType.element_of_convertEntry hk hv h

/-- A proper operation puts in elements of the type. -/
theorem Operation.puts_element {op : Operation} {c : List PyVal}
    (hgiven : op.GivenOnly Held k c) (h : op.Proper k c) : op.Puts k k.Element c := by
  cases op with
  | append object =>
      exact fun x hx => ContainerType.element_of_appended hk (hgiven object rfl) hx (h x hx)
  | extend argument =>
      exact fun v hv x hx =>
        ContainerType.element_of_appended hk (hgiven v hv) hx (h v hv x hx)
  | insert index object =>
      exact fun i hi => ContainerType.element_of_convertEntry hk (hgiven object rfl) (h i hi)
  | setItem index object =>
      exact fun i hi => ContainerType.element_of_convertEntry hk (hgiven object rfl) (h i hi)
  | setSlice slice argument =>
      intro target values htarget hgives hfits v hv
      exact ContainerType.element_of_convertEntry hk (hgiven v ⟨values, hgives, hv⟩)
        (h target values htarget hgives hfits v hv)
  | iadd argument =>
      rcases h with h | ⟨values, hgives, hvalues⟩
      · exact .inl (fun v hv => ContainerType.element_of_convertEntry hk (hgiven v hv) (h v hv))
      · refine .inr ⟨values, hgives, fun v hv => ?_⟩
        obtain ⟨x, hx, -⟩ := hvalues v hv
        have hdrawn := LiveIter.drawn_of_gives hgives (List.forall₂_same.2 (fun _ _ => rfl)) v hv
        exact ⟨x, hx, ContainerType.element_of_convertEntry hk (hgiven v hdrawn) hx⟩

end Invariant

/-- A proper operation on what is held leaves what can be held. -/
theorem held_of_operates {P : PyVal → Prop} (hP : ∀ v, P v → Held v) {w w' : PyVal}
    (hw : Held w) (h : Operates (Operation.ProperOn P) w w') : Held w' := by
  cases h with
  | @mk cls sub attrs field k c op fuel r hfield htype hget hproper hrun =>
      rintro _ _ _ ⟨⟩ hcls
      have hsat := hw cls sub attrs rfl hcls
      have hk : k.field.Everywhere FieldType.ConvertVisible MessageType.AcceptedClass :=
        htype ▸ hcls.field field hfield
      -- the container before the operation
      obtain ⟨x, hx, hfieldSat⟩ := (MessageType.sat_iff.1 hsat).2 field hfield
      obtain rfl : x = .list c := Option.some.inj (hx.symm.trans hget)
      rw [htype] at hfieldSat
      obtain ⟨_, ⟨⟩, hc⟩ := ContainerType.sat_field.1 hfieldSat
      have hputs := Operation.puts_element hk (fun v hv => (hproper.1 v hv).imp hP) hproper.2
      have hafter : ∀ v ∈ r.2, k.Element v :=
        Operation.run_forall (fun v hv => ContainerType.convertEntry_of_element hv) hc hputs hrun
      refine MessageType.sat_dictSet admits_heldSpec hcls.here hsat hfield ?_
      rw [htype]
      exact ContainerType.sat_field.2 ⟨r.2, rfl, hafter⟩

theorem held_of_reached : ∀ (n : ℕ) {w : PyVal}, Reached n w → Held w
  | 0, _, h => h.elim
  | n + 1, _, .inl h => validFor_apiCall admits_heldSpec (fun _ => held_of_reached n) h
  | n + 1, _, .inr ⟨_, hv, h⟩ =>
    held_of_operates (fun _ => held_of_reached n) (held_of_reached n hv) h

/-- The value is of the element type of the container. -/
def ContainerType.IsElement : ContainerType → PyVal → Prop
  | .scalar t, v => ∃ a, v = .atom a ∧ t.isExact a = true
  | .composite t, v => v.isWrapper t = true

/-- What is expected of the repeated fields of an instance: every container holds elements of its
    type and is set as it is when it is assigned to its own field, and the instance is copied as it
    is. -/
structure MessageType.RepeatedHold (t : MessageType) (w : PyVal) : Prop where
  sets : ∀ field ∈ t.fields.toList, ∀ k : ContainerType, field.type = k.field → ∃ c,
    w.attr field.name = some (.list c) ∧ (∀ v ∈ c, k.IsElement v) ∧
      repeatedConvert k.convertEntry (.list c) = .ok (.list c) ∧
      field.type.set (some (.list c)) = .ok (.list c)
  copies : t.deepcopy w = .ok w

theorem MessageType.repeatedHold_of_sat {t : MessageType}
    (ht : t.Everywhere FieldType.ConvertVisible MessageType.AcceptedClass) {w : PyVal}
    (h : t.Sat heldSpec w) : t.RepeatedHold w where
  sets := by
    intro field hfield k htype
    obtain ⟨x, hx, hsat⟩ := (MessageType.sat_iff.1 h).2 field hfield
    rw [htype] at hsat
    obtain ⟨c, rfl, hc⟩ := ContainerType.sat_field.1 hsat
    have hset := ContainerType.set_list hc
    refine ⟨c, hx, fun v hv => ?_, ?_, ?_⟩
    · cases k with
      | scalar t => exact hc v hv
      | composite t => exact MessageType.isWrapper_of_sat (hc v hv)
    · rw [← ContainerType.set_field]
      exact hset
    · rw [htype]
      exact hset
  copies := MessageType.deepcopy_of_sat ht h

/-- **The repeated fields hold what `convert` leaves as it is**, in every state of a run of proper
    operations, whether or not they raise. -/
theorem repeated_fields_hold {n m : ℕ} {cls : MessageType} {sub : Option Str}
    {attrs : List (Str × PyVal)} {w : PyVal}
    (hcls : cls.Everywhere FieldType.ConvertVisible MessageType.AcceptedClass)
    (hstart : Reached n (.inst cls sub attrs))
    (hrun : Relation.ReflTransGen (Operates (Operation.ProperOn (Reached m)))
      (.inst cls sub attrs) w) : cls.RepeatedHold w := by
  have hheld : (∃ sub attrs, w = .inst cls sub attrs) ∧ Held w := by
    induction hrun with
    | refl => exact ⟨⟨sub, attrs, rfl⟩, held_of_reached n hstart⟩
    | tail _ hstep ih =>
        obtain ⟨⟨sub', attrs', rfl⟩, hheld⟩ := ih
        refine ⟨?_, held_of_operates (fun _ => held_of_reached m) hheld hstep⟩
        cases hstep
        exact ⟨_, _, rfl⟩
  obtain ⟨⟨sub', attrs', rfl⟩, hheld⟩ := hheld
  exact MessageType.repeatedHold_of_sat hcls (hheld cls sub' attrs' rfl hcls)

/-! ## A run that is proper, and one that is not -/

def listMessage : MessageType :=
  .mk "ListMessage".toList "ListMessage".toList
    (.cons "ints".toList none (.repeatedScalar (.int .int32)) .nil)

def listInstance (c : List PyVal) : PyVal := .inst listMessage none [("ints".toList, .list c)]

theorem listMessage_everywhere :
    listMessage.Everywhere FieldType.ConvertVisible MessageType.AcceptedClass :=
  ⟨⟨by decide, initSubclass_eq_ok_iff.2 ⟨by decide, rfl⟩⟩, trivial, trivial⟩

theorem apiCall_listInstance (P : PyVal → Prop) : APICall P (listInstance []) :=
  @APICall.new _ listMessage none [] _ (by simp) rfl

theorem operates_ints {C : ContainerType → List PyVal → Operation → Prop} {c : List PyVal}
    {op : Operation} {raised : Option PyExc} {c' : List PyVal} (hC : C (.scalar (.int .int32)) c op)
    (fuel : ℕ) (hrun : op.run (.scalar (.int .int32)) fuel c = some (raised, c')) :
    Operates C (listInstance c) (listInstance c') :=
  @Operates.mk C listMessage none _ ⟨"ints".toList, none, .repeatedScalar (.int .int32)⟩
    _ _ _ _ _ (.head _) rfl rfl hC hrun

def boxMessage : MessageType :=
  .mk "Box".toList "Box".toList
    (.cons "ints".toList none (.repeatedScalar (.int .int32))
      (.cons "parts".toList none (.repeatedComposite listMessage) .nil))

def boxInstance (ints parts : List PyVal) : PyVal :=
  .inst boxMessage none [("ints".toList, .list ints), ("parts".toList, .list parts)]

theorem boxMessage_everywhere :
    boxMessage.Everywhere FieldType.ConvertVisible MessageType.AcceptedClass :=
  ⟨⟨by decide, initSubclass_eq_ok_iff.2 ⟨by decide, rfl⟩⟩, trivial,
    ⟨trivial, listMessage_everywhere⟩, trivial⟩

section Box

variable {C : ContainerType → List PyVal → Operation → Prop} {ints parts c : List PyVal}
  {op : Operation} {raised : Option PyExc}

theorem operates_box_ints (hC : C (.scalar (.int .int32)) ints op) (fuel : ℕ)
    (hrun : op.run (.scalar (.int .int32)) fuel ints = some (raised, c)) :
    Operates C (boxInstance ints parts) (boxInstance c parts) :=
  @Operates.mk C boxMessage none _ ⟨"ints".toList, none, .repeatedScalar (.int .int32)⟩
    _ _ _ _ _ (.head _) rfl rfl hC hrun

theorem operates_box_parts (hC : C (.composite listMessage) parts op) (fuel : ℕ)
    (hrun : op.run (.composite listMessage) fuel parts = some (raised, c)) :
    Operates C (boxInstance ints parts) (boxInstance ints c) :=
  @Operates.mk C boxMessage none _ ⟨"parts".toList, none, .repeatedComposite listMessage⟩
    _ _ _ _ _ (.tail _ (.head _)) rfl rfl hC hrun

end Box

/-- `w.ints.append(1)`, `w.ints.append("x")`, which raises, `w.parts.extend([part, 2])`, which
    raises at its second element, and `w.parts.append(part)`. -/
theorem repeated_fields_hold_example : boxMessage.RepeatedHold
    (boxInstance [.atom (.int 1)] [listInstance [], listInstance []]) := by
  have hpart : (listInstance []).Carries (Reached 1) := .inst (.inl (apiCall_listInstance _))
  have hone : Operation.ProperOn (Reached 1) (.scalar (.int .int32)) []
      (.append (.atom (.int 1))) := by
    refine ⟨?_, Operation.proper_append_scalar.2 (fun _ => rfl)⟩
    rintro _ rfl
    exact .atom _
  have htext : Operation.ProperOn (Reached 1) (.scalar (.int .int32)) [.atom (.int 1)]
      (.append (.atom (.str "x".toList))) := by
    refine ⟨?_, Operation.proper_append_scalar.2 (fun h => by cases h)⟩
    rintro _ rfl
    exact .atom _
  have hparts : Operation.ProperOn (Reached 1) (.composite listMessage) []
      (.extend (.other (.ofList [listInstance [], .atom (.int 2)] none))) := by
    refine ⟨fun v hv => ?_, Operation.proper_extend_composite _ _ _⟩
    have hmem : v ∈ [listInstance [], .atom (.int 2)] := LiveIter.mem_of_drawn_ofList hv
    rcases List.mem_cons.1 hmem with rfl | hmem
    · exact hpart
    · rw [List.mem_singleton.1 hmem]
      exact .atom _
  have hpart' : Operation.ProperOn (Reached 1) (.composite listMessage) [listInstance []]
      (.append (listInstance [])) := by
    refine ⟨?_, Operation.proper_append_composite _ _ _⟩
    rintro _ rfl
    exact hpart
  have hstart : Reached 1 (boxInstance [] []) :=
    .inl (@APICall.new _ boxMessage none [] _ (by simp) rfl)
  have hrun : Relation.ReflTransGen (Operates (Operation.ProperOn (Reached 1)))
      (boxInstance [] []) (boxInstance [.atom (.int 1)] [listInstance [], listInstance []]) := by
    refine .head (operates_box_ints hone 0 rfl) ?_
    refine .head (operates_box_ints htext 0 rfl) ?_
    refine .head (operates_box_parts hparts 2 rfl) ?_
    exact .single (operates_box_parts hpart' 0 rfl)
  exact @repeated_fields_hold 1 1 _ _ _ _ boxMessage_everywhere hstart hrun

/-- `w.ints.append(True)` is accepted, and then the container neither converts nor is copied. -/
theorem not_repeated_fields_hold : ¬ ∀ (n m : ℕ) (cls : MessageType) (sub : Option Str)
    (attrs : List (Str × PyVal)) (w : PyVal),
    cls.Everywhere FieldType.ConvertVisible MessageType.AcceptedClass →
    Built n (.inst cls sub attrs) →
    Relation.ReflTransGen (Operates (fun k c op => op.GivenOnly (Built m) k c))
      (.inst cls sub attrs) w → cls.RepeatedHold w := by
  intro h
  have hgiven : (Operation.append (.atom (.bool true))).GivenOnly (Built 0)
      (.scalar (.int .int32)) [] := by
    rintro _ rfl
    exact .atom _
  have hhold := h 1 0 listMessage none _ _ listMessage_everywhere (apiCall_listInstance _)
    (.single (operates_ints hgiven 0 rfl))
  obtain ⟨c, hget, -, hconvert, -⟩ := hhold.sets _ (.head _) (.scalar (.int .int32)) rfl
  cases hget
  cases hconvert

end IotLoggingServer
