import IotLoggingServer.ProtoWrapper.Message

set_option autoImplicit false

/-! # The wrappers (`proto_wrapper.py`)

The constructor, `convert`, `export_pb` and `==` of a wrapper class, by recursion on its message
type: one clause per field descriptor. The classes are those that `__init_subclass__` accepts, whose
`_fields` are all their fields. A method is looked up on the class or the instance, so a field or an
enum member of that name hides it, and calling it raises. -/

namespace IotLoggingServer

/-! ## `EnumWrapper` -/

def EnumType.values (t : EnumType) : List ℤ := t.members.map Prod.snd

/-- The enum has a member of that name, which then hides the attribute of the class. -/
def EnumType.hasMember (t : EnumType) (name : String) : Bool :=
  (t.members.map Prod.fst).contains name.toList

/-- `cls()`: the first member. -/
def EnumType.first (t : EnumType) : Except PyExc PyVal :=
  match t.members with
  | (_, n) :: _ => .ok (.atom (.enumMember t n))
  | [] => .error (.other 0)

/-- `cls(value)` -/
def EnumType.ofValue (t : EnumType) (n : ℤ) : Except PyExc PyVal :=
  if t.values.contains n then .ok (.atom (.enumMember t n))
  else .error (.valueError ((toString n).toList ++ " is not a valid ".toList ++ t.name) none)

def EnumType.convert (t : EnumType) (v : PyVal) : Except PyExc PyVal :=
  if t.hasMember "convert" then .error .typeError
  else
    match v with
    | .atom (.bool b) => t.ofValue b.toInt
    | .atom (.int n) => t.ofValue n
    | .atom (.enumMember _ n) => t.ofValue n
    | .atom (.str s) =>
      match dictGet? id t.members s with
      | some n => .ok (.atom (.enumMember t n))
      | none => .error (.keyError s)
    | _ => .error .typeError

theorem EnumType.convert_of_mem {t : EnumType} (hname : t.hasMember "convert" = false) {n : ℤ}
    (hn : n ∈ t.values) : t.convert (.atom (.int n)) = .ok (.atom (.enumMember t n)) := by
  have hmem : t.values.contains n = true := by simpa using hn
  unfold EnumType.convert EnumType.ofValue
  rw [hname, if_neg Bool.false_ne_true]
  exact if_pos hmem

theorem EnumType.convert_of_not_mem {t : EnumType} {n : ℤ} (hn : n ∉ t.values) :
    ∃ e, t.convert (.atom (.int n)) = .error e := by
  have hmem : ¬ t.values.contains n = true := by simpa using hn
  unfold EnumType.convert EnumType.ofValue
  split
  · exact ⟨_, rfl⟩
  · exact ⟨_, if_neg hmem⟩

/-! ## The containers' `convert` -/

/-- `for _entry in v` -/
def PyVal.iter : PyVal → Except PyExc (List PyVal)
  | .list xs => .ok xs
  | .dict kvs => .ok (kvs.map (fun e => .atom e.1))
  | .atom (.str s) => .ok (s.map (fun c => .atom (.str [c])))
  | .atom (.bytes s) => .ok (s.map (fun b => .atom (.int b.toNat)))
  | _ => .error .typeError

/-- `v.items()` -/
def PyVal.items : PyVal → Except PyExc (List (Atom × PyVal))
  | .dict kvs => .ok kvs
  | _ => .error .attributeError

/-- The value, if it passes the type check. -/
def PyVal.check (check : Atom → Bool) : PyVal → Except PyExc PyVal
  | .atom a => if check a then .ok (.atom a) else .error .typeError
  | _ => .error .typeError

def ScalarType.checkExact (t : ScalarType) : PyVal → Except PyExc PyVal := PyVal.check t.isExact

def ScalarType.checkInstance (t : ScalarType) : PyVal → Except PyExc PyVal :=
  PyVal.check t.isInstance

/-- A map's entry, with the check of the key. -/
def KeyType.checkEntry (key : KeyType) (convertValue : PyVal → Except PyExc PyVal)
    (e : Atom × PyVal) : Except PyExc (Atom × PyVal) :=
  if key.scalar.isExact e.1 then do .ok (e.1, ← convertValue e.2) else .error .typeError

/-- A message of a container: an instance of the wrapper is taken as it is, a message converted. -/
def MessageType.convertEntry (converterType : MessageType) (convert : PyVal → Except PyExc PyVal)
    (entry : PyVal) : Except PyExc PyVal :=
  if entry.isWrapper converterType then .ok entry
  else if entry.isProto converterType then convert entry
  else .error .typeError

/-- `RepeatedScalarContainer.convert` and `RepeatedCompositeContainer.convert` -/
def repeatedConvert (convertEntry : PyVal → Except PyExc PyVal) (v : PyVal) :
    Except PyExc PyVal := do
  let entries ← v.iter
  .ok (.list (← entries.mapM convertEntry))

/-- `ScalarMapContainer.convert` and `MessageMapContainer.convert` -/
def mapConvert (key : KeyType) (convertValue : PyVal → Except PyExc PyVal) (v : PyVal) :
    Except PyExc PyVal := do
  let items ← v.items
  .ok (.dict (dictUpdate Atom.canon [] (← items.mapM (key.checkEntry convertValue))))

theorem PyVal.check_eq_ok {check : Atom → Bool} {v x : PyVal} :
    v.check check = .ok x ↔ ∃ a, v = .atom a ∧ check a = true ∧ x = .atom a := by
  cases v with
  | atom a =>
      simp only [PyVal.check, PyVal.atom.injEq, exists_eq_left']
      split
      · next h => simp [h, eq_comm]
      · next h => simp [h]
  | _ => simp [PyVal.check]

theorem ScalarType.checkInstance_of_holds {t : ScalarType} {a : Atom} (h : t.Holds a) :
    t.checkInstance (.atom a) = .ok (.atom a) :=
  PyVal.check_eq_ok.2 ⟨a, rfl, ScalarType.isInstance_of_isExact h.1, rfl⟩

theorem ScalarType.checkExact_of_holds {t : ScalarType} {a : Atom} (h : t.Holds a) :
    t.checkExact (.atom a) = .ok (.atom a) :=
  PyVal.check_eq_ok.2 ⟨a, rfl, h.1, rfl⟩

theorem KeyType.checkEntry_eq_ok {key : KeyType} {convertValue : PyVal → Except PyExc PyVal}
    {e e' : Atom × PyVal} : key.checkEntry convertValue e = .ok e' ↔
      key.scalar.isExact e.1 = true ∧ ∃ v, convertValue e.2 = .ok v ∧ e' = (e.1, v) := by
  unfold KeyType.checkEntry
  split
  · next hkey =>
      rw [bind_eq_ok]
      exact ⟨fun ⟨v, hv, h⟩ => ⟨hkey, v, hv, by cases h; rfl⟩,
        fun ⟨_, v, hv, h⟩ => ⟨v, hv, by rw [h]⟩⟩
  · next hkey => exact iff_of_false (fun h => by cases h) (fun h => hkey h.1)

theorem repeatedConvert_eq_ok {convertEntry : PyVal → Except PyExc PyVal} {v x : PyVal} :
    repeatedConvert convertEntry v = .ok x ↔
      ∃ xs ys, v.iter = .ok xs ∧ xs.mapM convertEntry = .ok ys ∧ x = .list ys := by
  rw [repeatedConvert, bind_eq_ok]
  constructor
  · rintro ⟨xs, hxs, h⟩
    obtain ⟨ys, hys, h⟩ := bind_eq_ok.1 h
    cases h
    exact ⟨xs, ys, hxs, hys, rfl⟩
  · rintro ⟨xs, ys, hxs, hys, rfl⟩
    exact ⟨xs, hxs, bind_eq_ok.2 ⟨ys, hys, rfl⟩⟩

theorem mapConvert_eq_ok {key : KeyType} {convertValue : PyVal → Except PyExc PyVal}
    {v x : PyVal} : mapConvert key convertValue v = .ok x ↔
      ∃ kvs entries, v.items = .ok kvs ∧ kvs.mapM (key.checkEntry convertValue) = .ok entries ∧
        x = .dict (dictUpdate Atom.canon [] entries) := by
  rw [mapConvert, bind_eq_ok]
  constructor
  · rintro ⟨kvs, hkvs, h⟩
    obtain ⟨entries, hentries, h⟩ := bind_eq_ok.1 h
    cases h
    exact ⟨kvs, entries, hkvs, hentries, rfl⟩
  · rintro ⟨kvs, entries, hkvs, hentries, rfl⟩
    exact ⟨kvs, hkvs, bind_eq_ok.2 ⟨entries, hentries, rfl⟩⟩

/-! ## The constructor and `convert` -/

/-- `**v`: the keys have to be strings. -/
def asKwargs (kvs : List (Atom × PyVal)) : Except PyExc (List (Str × PyVal)) :=
  kvs.mapM (fun e =>
    match e.1 with
    | .str name => .ok (name, e.2)
    | _ => .error .typeError)

mutual

/-- `__set__` of the field's descriptor: the value that is stored; `none` is `_DEFAULT_VALUE`. -/
def FieldType.set : FieldType → Option PyVal → Except PyExc PyVal
  | .scalar t, none => .ok (.atom t.default)
  | .scalar t, some v => t.checkInstance v
  | .enum t, none => t.first
  | .enum t, some v => t.convert v
  | .message t, none => t.new (fun _ _ => none)
  | .message t, some v => t.convert v
  | .repeatedScalar _, none => .ok (.list [])
  | .repeatedScalar t, some v => repeatedConvert t.checkExact v
  | .repeatedComposite _, none => .ok (.list [])
  | .repeatedComposite t, some v =>
    repeatedConvert (t.convertEntry (fun entry => t.convert entry)) v
  | .scalarMap _ _, none => .ok (.dict [])
  | .scalarMap key t, some v => mapConvert key t.checkInstance v
  | .messageMap _ _, none => .ok (.dict [])
  | .messageMap key t, some v => mapConvert key (t.convertEntry (fun entry => t.convert entry)) v

/-- `cls(**kwargs)` -/
def MessageType.new : MessageType → (Str → FieldType → Option PyVal) → Except PyExc PyVal
  | .mk cls proto fields, kwargs => do
    .ok (.inst (.mk cls proto fields) none (← fields.new kwargs))

def MessageType.convert : MessageType → PyVal → Except PyExc PyVal
  | .mk cls proto fields, v =>
    if (MessageType.mk cls proto fields).hasField "convert" then .error .typeError
    else if v.isWrapper (.mk cls proto fields) then .ok v
    else
      match v with
      | .dict kvs => do
        let kwargs ← asKwargs kvs
        .ok (.inst (.mk cls proto fields) none
          (← fields.new (fun name _ => dictGet? id kwargs name)))
      | .pb proto' pbFields =>
        if proto' = proto then do
          .ok (.inst (.mk cls proto fields) none
            (← fields.new (fun name type => some (pbGetattr pbFields name type))))
        else .error .typeError
      | _ => .error .typeError

/-- The loop of `__new__` over the fields. -/
def Fields.new : Fields → (Str → FieldType → Option PyVal) → Except PyExc (List (Str × PyVal))
  | .nil, _ => .ok []
  | .cons name _ type rest, kwargs => do
    let v ← type.set (kwargs name type)
    .ok ((name, v) :: (← rest.new kwargs))

end

theorem MessageType.new_eq (t : MessageType) (kwargs : Str → FieldType → Option PyVal) :
    t.new kwargs = (do .ok (.inst t none (← t.fields.new kwargs))) := by
  cases t
  rfl

theorem MessageType.convert_eq (t : MessageType) (v : PyVal) :
    t.convert v = if t.hasField "convert" then .error .typeError
      else if v.isWrapper t then .ok v
      else
        match v with
        | .dict kvs => do
          let kwargs ← asKwargs kvs
          .ok (.inst t none (← t.fields.new (fun name _ => dictGet? id kwargs name)))
        | .pb proto' pbFields =>
          if proto' = t.proto then do
            .ok (.inst t none
              (← t.fields.new (fun name type => some (pbGetattr pbFields name type))))
          else .error .typeError
        | _ => .error .typeError := by
  cases t
  rfl

/-- `convert` of a message of the class's own protobuf type reads all its fields. -/
theorem MessageType.convert_pb {t : MessageType} (hname : t.hasField "convert" = false)
    (pbFields : List (Str × PyVal)) :
    t.convert (.pb t.proto pbFields) = (do
      .ok (.inst t none (← t.fields.new (fun name type => some (pbGetattr pbFields name type))))) :=
  by simp only [MessageType.convert_eq, hname, PyVal.isWrapper, if_neg Bool.false_ne_true, if_true]

/-! ## `export_pb` -/

/-- Assignment of a scalar to a protobuf field. -/
def PbRuntime.assignTo (rt : PbRuntime) (t : ScalarType) : PyVal → Except PyExc PyVal
  | .atom a => do .ok (.atom (← rt.assign t a))
  | _ => .error .typeError

theorem PbRuntime.assignTo_of_holds (rt : PbRuntime) {t : ScalarType} {a : Atom} (h : t.Holds a) :
    rt.assignTo t (.atom a) = .ok (.atom a) := by
  rw [PbRuntime.assignTo, rt.assign_of_holds _ _ h, ok_bind]

/-- A map's entry with its key and value as the protobuf container takes them. -/
def KeyType.exportEntry (rt : PbRuntime) (key : KeyType) (exportValue : PyVal → Except PyExc PyVal)
    (e : Atom × PyVal) : Except PyExc (Atom × PyVal) := do
  let k ← rt.assign key.scalar e.1
  .ok (k, ← exportValue e.2)

/-- `getattr(self, name)` of a wrapper instance. -/
def PyVal.attr : PyVal → Str → Option PyVal
  | .inst _ _ attrs, name => dictGet? id attrs name
  | _, _ => none

mutual

/-- `export_to_pb` of the field's descriptor: what goes into the protobuf field. -/
def FieldType.exportToPb (rt : PbRuntime) : FieldType → PyVal → Except PyExc PyVal
  | .scalar t, v => rt.assignTo t v
  | .enum t, .atom (.enumMember _ n) =>
    if t.hasMember "export_to_pb" || t.hasMember "export_pb" then .error .typeError
    else rt.assignTo (.int .int32) (.atom (.int n))
  | .message t, v =>
    if t.hasField "export_to_pb" || t.hasField "CopyFrom" then .error .typeError
    else t.exportPb rt v
  | .repeatedScalar t, .list xs => do .ok (.list (← xs.mapM (rt.assignTo t)))
  | .repeatedComposite t, .list xs => do .ok (.list (← xs.mapM (fun x => t.exportPb rt x)))
  | .scalarMap key t, .dict kvs => do
    .ok (.dict (← kvs.mapM (key.exportEntry rt (rt.assignTo t))))
  | .messageMap key t, .dict kvs => do
    .ok (.dict (← kvs.mapM (key.exportEntry rt (fun v =>
      if t.hasField "CopyFrom" then .error .typeError else t.exportPb rt v))))
  | _, _ => .error .attributeError

def MessageType.exportPb (rt : PbRuntime) : MessageType → PyVal → Except PyExc PyVal
  | .mk cls proto fields, self =>
    if (MessageType.mk cls proto fields).hasField "export_pb" then .error .typeError
    else if self.isWrapper (.mk cls proto fields) then do
      .ok (.pb proto (← fields.exportPb rt fields self.attr []))
    else .error .attributeError

/-- The loop of `export_pb` over the fields, of which `all` are those of the message. -/
def Fields.exportPb (rt : PbRuntime) : Fields → Fields → (Str → Option PyVal) →
    List (Str × PyVal) → Except PyExc (List (Str × PyVal))
  | .nil, _, _, pbFields => .ok pbFields
  | .cons name _ type rest, all, attr, pbFields =>
    match attr name with
    | none => .error .attributeError
    | some v => do
      let exported ← type.exportToPb rt v
      rest.exportPb rt all attr
        (pbSet all pbFields name (pbStore (pbGetattr pbFields name type) exported))

end

theorem EnumType.exportToPb_eq (rt : PbRuntime) {t : EnumType}
    (hto : t.hasMember "export_to_pb" = false) (hpb : t.hasMember "export_pb" = false) (n : ℤ) :
    (FieldType.enum t).exportToPb rt (.atom (.enumMember t n))
      = rt.assignTo (.int .int32) (.atom (.int n)) := by
  rw [FieldType.exportToPb, hto, hpb]
  rfl

theorem MessageType.exportPb_eq (rt : PbRuntime) (t : MessageType) (self : PyVal) :
    t.exportPb rt self = if t.hasField "export_pb" then .error .typeError
      else if self.isWrapper t then do
        .ok (.pb t.proto (← t.fields.exportPb rt t.fields self.attr []))
      else .error .attributeError := by
  cases t
  rfl

theorem MessageType.exportPb_inst (rt : PbRuntime) {t : MessageType}
    (hname : t.hasField "export_pb" = false) (sub : Option Str) (attrs : List (Str × PyVal)) :
    t.exportPb rt (.inst t sub attrs) = (do
      .ok (.pb t.proto (← t.fields.exportPb rt t.fields (dictGet? id attrs) []))) := by
  have hwrapper : (PyVal.inst t sub attrs).isWrapper t = true := decide_eq_true rfl
  rw [MessageType.exportPb_eq, hname, if_neg Bool.false_ne_true, if_pos hwrapper]
  rfl

theorem Fields.exportPb_cons (rt : PbRuntime) {name : Str} {oneof : Option Str}
    {type : FieldType} {rest all : Fields} {attr : Str → Option PyVal}
    {pbFields : List (Str × PyVal)} {v : PyVal} (hv : attr name = some v) :
    (Fields.cons name oneof type rest).exportPb rt all attr pbFields = (do
      let exported ← type.exportToPb rt v
      rest.exportPb rt all attr
        (pbSet all pbFields name (pbStore (pbGetattr pbFields name type) exported))) := by
  rw [Fields.exportPb, hv]

/-! ## Equality

Wrapper instances are compared class by class and field by field, and so is what reading the fields
of protobuf messages gives. -/

/-- What is compared of two messages. -/
structure Comparison where
  sameClass : PyVal → PyVal → Bool
  getattr : PyVal → Str → FieldType → Option PyVal

def PyVal.atomEq : PyVal → PyVal → Bool
  | .atom a, .atom b => a.eq b
  | _, _ => false

/-- `dict.__eq__` -/
def dictEq (eq : PyVal → PyVal → Bool) (kvs kvs' : List (Atom × PyVal)) : Bool :=
  decide (kvs.length = kvs'.length) && kvs.all (fun e =>
    match dictGet? Atom.canon kvs' e.1 with
    | some v => eq e.2 v
    | none => false)

mutual

def FieldType.eq (c : Comparison) : FieldType → PyVal → PyVal → Bool
  | .scalar _, a, b => a.atomEq b
  | .enum _, a, b => a.atomEq b
  | .message t, a, b => t.eq c a b
  | .repeatedScalar _, .list xs, .list ys => xs.isEqv ys PyVal.atomEq
  | .repeatedComposite t, .list xs, .list ys => xs.isEqv ys (fun x y => t.eq c x y)
  | .scalarMap _ _, .dict kvs, .dict kvs' => dictEq PyVal.atomEq kvs kvs'
  | .messageMap _ t, .dict kvs, .dict kvs' => dictEq (fun x y => t.eq c x y) kvs kvs'
  | _, _, _ => false

/-- `__eq__` -/
def MessageType.eq (c : Comparison) : MessageType → PyVal → PyVal → Bool
  | .mk _ _ fields, a, b => c.sameClass a b && fields.eq c (c.getattr a) (c.getattr b)

def Fields.eq (c : Comparison) : Fields → (Str → FieldType → Option PyVal) →
    (Str → FieldType → Option PyVal) → Bool
  | .nil, _, _ => true
  | .cons name _ type rest, a, b =>
    (match a name type, b name type with
      | some x, some y => type.eq c x y
      | _, _ => false) && rest.eq c a b

end

theorem MessageType.eq_eq (c : Comparison) (t : MessageType) (a b : PyVal) :
    t.eq c a b = (c.sameClass a b && t.fields.eq c (c.getattr a) (c.getattr b)) := by
  cases t
  rfl

/-- `==` of wrapper instances without NaN. Whether a list or a dictionary equals itself where it
    holds a NaN depends on the identity of the float, which values do not have here. -/
def instEq : Comparison where
  sameClass
    | .inst cls sub _, .inst cls' sub' _ => decide (cls = cls') && decide (sub = sub')
    | _, _ => false
  getattr v name _ := v.attr name

/-- Protobuf messages that read the same: every field has equal values, a field that is not set
    reading as its default. Protobuf's own `==` is another relation: it also looks at which fields
    are set, and it tells `0.0` from `-0.0`. -/
def readEq : Comparison where
  sameClass
    | .pb proto _, .pb proto' _ => decide (proto = proto')
    | _, _ => false
  getattr
    | .pb _ pbFields, name, type => some (pbGetattr pbFields name type)
    | _, _, _ => none

/-! ## Well-known types -/

/-- `Duration(MessageWrapper[_Duration])` -/
def duration : MessageType :=
  .mk "Duration".toList "google.protobuf.Duration".toList
    (.cons "seconds".toList none (.scalar (.int .int64)) <|
     .cons "nanos".toList none (.scalar (.int .int32)) .nil)

end IotLoggingServer
