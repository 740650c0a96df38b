import IotLoggingServer.Lib.Dict
import IotLoggingServer.Python

set_option autoImplicit false

/-! # Message types and the values they hold (`proto_wrapper.py`)

A wrapper class annotates the fields of one protobuf message type. The classes a class refers to
exist before it, so a class unfolds to a finite tree of field types; this file defines these trees,
the Python values that protobuf messages and wrapper instances store, and the check that
`__init_subclass__` makes of a class (`initSubclass_eq_ok_iff`). -/

namespace IotLoggingServer

/-! ## Python values -/

/-- A Python `float`. -/
inductive PyFloat
  | nan
  | inf
  | negInf
  | negZero
  | finite (x : ℚ)
  deriving DecidableEq, Repr

/-- An enum wrapper class: its member names with their values, in the order of definition. -/
structure EnumType where
  name : Str
  members : List (Str × ℤ)
  deriving DecidableEq, Repr

/-- A value without parts; a member of an enum wrapper is known by its value. -/
inductive Atom
  | null
  | bool (b : Bool)
  | int (n : ℤ)
  | float (x : PyFloat)
  | str (s : Str)
  | bytes (s : List UInt8)
  | enumMember (cls : EnumType) (value : ℤ)
  deriving DecidableEq, Repr

/-- Equal numbers of any type have one canonical form; every other value is its own. -/
def Atom.canon : Atom → Atom
  | .bool b => .float (.finite b.toInt)
  | .int n => .float (.finite n)
  | .enumMember _ n => .float (.finite n)
  | .float .negZero => .float (.finite 0)
  | a => a

/-- `a == b`; a NaN equals nothing. -/
def Atom.eq (a b : Atom) : Bool :=
  decide (a.canon = b.canon) && decide (a ≠ .float .nan)

theorem Atom.eq_of_canon {a b : Atom} (h : a.canon = b.canon) (hb : b ≠ .float .nan) :
    a.eq b = true := by
  have ha : a ≠ .float .nan := by
    rintro rfl
    cases b with
    | float x => cases x <;> first | exact hb rfl | cases h
    | _ => cases h
  rw [Atom.eq, decide_eq_true h, decide_eq_true ha]
  rfl

theorem Atom.eq_refl {a : Atom} (ha : a ≠ .float .nan) : a.eq a = true := Atom.eq_of_canon rfl ha

/-! ## Field types -/

/-- The integer types of proto3, by their range. -/
inductive IntKind
  | int32
  | int64
  | uint32
  | uint64
  deriving DecidableEq, Repr

def IntKind.InRange : IntKind → ℤ → Prop
  | .int32, n => -2 ^ 31 ≤ n ∧ n < 2 ^ 31
  | .int64, n => -2 ^ 63 ≤ n ∧ n < 2 ^ 63
  | .uint32, n => 0 ≤ n ∧ n < 2 ^ 32
  | .uint64, n => 0 ≤ n ∧ n < 2 ^ 64

instance : (kind : IntKind) → (n : ℤ) → Decidable (kind.InRange n)
  | .int32, _ => inferInstanceAs (Decidable (_ ∧ _))
  | .int64, _ => inferInstanceAs (Decidable (_ ∧ _))
  | .uint32, _ => inferInstanceAs (Decidable (_ ∧ _))
  | .uint64, _ => inferInstanceAs (Decidable (_ ∧ _))

/-- A scalar field; the wrapper annotates it as `int`, `float`, `str`, `bytes` or `bool`. -/
inductive ScalarType
  | int (kind : IntKind)
  | double
  | str
  | bytes
  | bool
  deriving DecidableEq, Repr

/-- `type(v) is field_type` -/
def ScalarType.isExact : ScalarType → Atom → Bool
  | .int _, .int _ => true
  | .double, .float _ => true
  | .str, .str _ => true
  | .bytes, .bytes _ => true
  | .bool, .bool _ => true
  | _, _ => false

/-- `isinstance(v, field_type)`: booleans and enum members are integers too. -/
def ScalarType.isInstance : ScalarType → Atom → Bool
  | .int _, .bool _ => true
  | .int _, .enumMember _ _ => true
  | t, a => t.isExact a

theorem ScalarType.isInstance_of_isExact {t : ScalarType} {a : Atom} (h : t.isExact a = true) :
    t.isInstance a = true := by
  unfold ScalarType.isInstance
  split
  · rfl
  · rfl
  · exact h

/-- `field_type()` -/
def ScalarType.default : ScalarType → Atom
  | .int _ => .int 0
  | .double => .float (.finite 0)
  | .str => .str []
  | .bytes => .bytes []
  | .bool => .bool false

/-- A map is keyed by `int`, `str` or `bool`. -/
inductive KeyType
  | int (kind : IntKind)
  | str
  | bool
  deriving DecidableEq, Repr

def KeyType.scalar : KeyType → ScalarType
  | .int kind => .int kind
  | .str => .str
  | .bool => .bool

/-- Equal keys of one type are the same. -/
theorem KeyType.eq_of_canon {key : KeyType} {a b : Atom} (ha : key.scalar.isExact a = true)
    (hb : key.scalar.isExact b = true) (h : a.canon = b.canon) : a = b := by
  cases key with
  | int kind =>
      cases a <;> cases ha
      cases b <;> cases hb
      simpa [Atom.canon] using h
  | str =>
      cases a <;> cases ha
      cases b <;> cases hb
      exact h
  | bool =>
      cases a <;> cases ha
      cases b <;> cases hb
      next x y => cases x <;> cases y <;> first | rfl | exact absurd h (by decide)

mutual

/-- The annotation of a field, with the protobuf type behind it. -/
inductive FieldType
  | scalar (type : ScalarType)
  | enum (type : EnumType)
  | message (type : MessageType)
  | repeatedScalar (type : ScalarType)
  | repeatedComposite (type : MessageType)
  | scalarMap (key : KeyType) (value : ScalarType)
  | messageMap (key : KeyType) (value : MessageType)

/-- A wrapper class `cls` for the protobuf message type `proto`. -/
inductive MessageType
  | mk (cls proto : Str) (fields : Fields)

/-- The annotated fields in their order, each with the oneof group it is in. -/
inductive Fields
  | nil
  | cons (name : Str) (oneof : Option Str) (type : FieldType) (rest : Fields)

end

deriving instance DecidableEq, Repr for FieldType, MessageType, Fields

structure Field where
  name : Str
  oneof : Option Str
  type : FieldType

def Fields.toList : Fields → List Field
  | .nil => []
  | .cons name oneof type rest => ⟨name, oneof, type⟩ :: rest.toList

def Fields.names (fields : Fields) : List Str := fields.toList.map Field.name

def MessageType.cls : MessageType → Str
  | .mk cls _ _ => cls

def MessageType.proto : MessageType → Str
  | .mk _ proto _ => proto

def MessageType.fields : MessageType → Fields
  | .mk _ _ fields => fields

/-- The type has a field of that name, which then hides the attribute of its class. -/
def MessageType.hasField (t : MessageType) (name : String) : Bool :=
  t.fields.names.contains name.toList

/-- Any value the wrappers are given or hold. `list` stands for every iterable that is none of the
    others. A `pb` is a message of a protobuf type with the fields that are set on it, an `inst` a
    wrapper instance with its attributes, of the class `cls` or of a proper subclass `sub` of it
    that adds no field. -/
inductive PyVal
  | atom (a : Atom)
  | list (xs : List PyVal)
  | dict (kvs : List (Atom × PyVal))
  | pb (proto : Str) (fields : List (Str × PyVal))
  | inst (cls : MessageType) (sub : Option Str) (attrs : List (Str × PyVal))

/-- `isinstance(v, W)` -/
def PyVal.isWrapper (t : MessageType) : PyVal → Bool
  | .inst cls _ _ => decide (cls = t)
  | _ => false

/-- `isinstance(v, W._proto_class)` -/
def PyVal.isProto (t : MessageType) : PyVal → Bool
  | .pb proto _ => decide (proto = t.proto)
  | _ => false

/-! ## The class check -/

def getFieldAttrn (fname : Str) : Str := "_attr_".toList ++ fname

/-- `calculate_slots` of a protobuf message type with these fields. -/
def calculateSlots (fieldNames : List Str) : List Str := fieldNames.map getFieldAttrn

/-- `_field_name.startswith("_")` -/
def isPrivate (fieldName : Str) : Bool := "_".toList.isPrefixOf fieldName

/-- `__init_subclass__` of a class with these annotations and slots: the `_fields` of the class. -/
def initSubclass (annotations slots : List Str) : Except PyExc (List Str) :=
  let fields := annotations.filter (fun fieldName => !isPrivate fieldName)
  if (slots.filter (fun slot => !(fields.map getFieldAttrn).contains slot)).isEmpty then .ok fields
  else .error (.valueError "invalid slots detected".toList none)

theorem getFieldAttrn_injective : Function.Injective getFieldAttrn :=
  fun _ _ h => List.append_cancel_left h

/-- A class that annotates the fields of its message type is accepted iff no field name starts with
    an underscore, and then has all of them as its `_fields`. -/
theorem initSubclass_eq_ok_iff {names fields : List Str} :
    initSubclass names (calculateSlots names) = .ok fields ↔
      (∀ name ∈ names, isPrivate name = false) ∧ fields = names := by
  have hslots : ((calculateSlots names).filter (fun slot => !((names.filter
      (fun fieldName => !isPrivate fieldName)).map getFieldAttrn).contains slot)).isEmpty = true ↔
      ∀ name ∈ names, isPrivate name = false := by
    simp only [calculateSlots, List.isEmpty_iff, List.filter_eq_nil_iff, List.mem_map,
      forall_exists_index, and_imp, forall_apply_eq_imp_iff₂, List.contains_eq_mem,
      getFieldAttrn_injective.eq_iff, exists_eq_right, List.mem_filter, Bool.not_eq_true',
      decide_eq_false_iff_not, not_not]
    exact ⟨fun h name hmem => (h name hmem).2, fun h name hmem => ⟨hmem, h name hmem⟩⟩
  have hinit : initSubclass names (calculateSlots names)
      = if ∀ name ∈ names, isPrivate name = false then
          .ok (names.filter (fun fieldName => !isPrivate fieldName))
        else .error (.valueError "invalid slots detected".toList none) := if_congr hslots rfl rfl
  rw [hinit]
  by_cases hall : ∀ name ∈ names, isPrivate name = false
  · have hfields : names.filter (fun fieldName => !isPrivate fieldName) = names :=
      List.filter_eq_self.2 (fun name hmem => by rw [hall name hmem]; rfl)
    rw [if_pos hall, hfields, Except.ok.injEq]
    exact ⟨fun h => ⟨hall, h.symm⟩, fun h => h.2.symm⟩
  · rw [if_neg hall]
    exact iff_of_false (fun h => by cases h) (fun h => hall h.1)

end IotLoggingServer
