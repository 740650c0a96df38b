import IotLoggingServer.ProtoWrapper.Schema

set_option autoImplicit false

/-! # Protobuf messages

A message keeps the fields that are set on it; reading any other gives the default of its type. What
a scalar field does with the value assigned to it is left to the protobuf runtime (`PbRuntime`),
which takes every value of the field's own type and never stores another value than it is given. -/

namespace IotLoggingServer

/-! ## Scalars -/

def ScalarType.InRange : ScalarType → Atom → Prop
  | .int kind, .int n => kind.InRange n
  | _, _ => True

instance (t : ScalarType) (a : Atom) : Decidable (t.InRange a) := by
  unfold ScalarType.InRange
  split <;> infer_instance

/-- A value that a protobuf field of this type can have. -/
def ScalarType.Holds (t : ScalarType) (a : Atom) : Prop := t.isExact a = true ∧ t.InRange a

instance (t : ScalarType) (a : Atom) : Decidable (t.Holds a) := inferInstanceAs (Decidable (_ ∧ _))

/-- Every default can be stored. -/
theorem ScalarType.holds_default (t : ScalarType) : t.Holds t.default := by
  cases t with
  | int kind => cases kind <;> decide
  | _ => decide

theorem ScalarType.default_ne_nan (t : ScalarType) : t.default ≠ .float .nan := by
  cases t <;> simp [ScalarType.default]

/-- Assignment to the scalar fields of messages, to the elements of their lists and to the keys and
    values of their maps. -/
structure PbRuntime where
  assign : ScalarType → Atom → Except PyExc Atom
  /-- a value of the field's own type is stored as it is -/
  assign_of_holds : ∀ t a, t.Holds a → assign t a = .ok a
  /-- of what the annotated type admits, only what the field can hold is stored, and unchanged -/
  assign_eq_ok : ∀ t a b, t.isInstance a = true → assign t a = .ok b →
    t.Holds b ∧ b.canon = a.canon

/-- `a.__index__()` -/
def Atom.index? : Atom → Option ℤ
  | .bool b => some b.toInt
  | .int n => some n
  | .enumMember _ n => some n
  | _ => none

/-- Assignment that takes for an integer whatever has an `__index__`, but for the booleans. -/
def indexAssign (t : ScalarType) (a : Atom) : Except PyExc Atom :=
  match t, a, a.index? with
  | .int _, .bool _, _ => .error .typeError
  | .int kind, _, some n =>
    if kind.InRange n then .ok (.int n) else .error (.valueError "Value out of range".toList none)
  | t, a, _ => if t.Holds a then .ok a else .error .typeError

theorem indexAssign_of_holds {t : ScalarType} {a : Atom} (h : t.Holds a) :
    indexAssign t a = .ok a := by
  cases t with
  | int kind =>
      cases a with
      | int n => exact if_pos h.2
      | _ => cases h.1
  | _ => exact if_pos h

theorem indexAssign_eq_ok {t : ScalarType} {a b : Atom} (hinst : t.isInstance a = true)
    (h : indexAssign t a = .ok b) : t.Holds b ∧ b.canon = a.canon := by
  have hexact : ∀ {t : ScalarType}, (if t.Holds a then Except.ok a else .error .typeError)
      = (.ok b : Except PyExc Atom) → t.Holds b ∧ b.canon = a.canon := by
    intro t h
    split at h
    · next hholds =>
        cases h
        exact ⟨hholds, rfl⟩
    · cases h
  cases t with
  | int kind =>
      -- an integer, or the number of an enum member
      have hindex : ∀ n : ℤ, (if kind.InRange n then Except.ok (Atom.int n)
          else .error (PyExc.valueError "Value out of range".toList none)) = .ok b →
          (ScalarType.int kind).Holds b ∧ b.canon = .float (.finite n) := by
        intro n h
        split at h
        · next hrange =>
            cases h
            exact ⟨⟨rfl, hrange⟩, rfl⟩
        · cases h
      cases a with
      | bool b => cases h
      | int n => exact hindex n h
      | enumMember cls n => exact hindex n h
      | _ => cases hinst
  | _ => exact hexact h

def indexRuntime : PbRuntime where
  assign := indexAssign
  assign_of_holds := fun _ _ h => indexAssign_of_holds h
  assign_eq_ok := fun _ _ _ hinst h => indexAssign_eq_ok hinst h

/-! ## Fields -/

/-- What reading a field gives that is not set. -/
def FieldType.pbDefault : FieldType → PyVal
  | .scalar t => .atom t.default
  | .enum _ => .atom (.int 0)
  | .message t => .pb t.proto []
  | .repeatedScalar _ => .list []
  | .repeatedComposite _ => .list []
  | .scalarMap _ _ => .dict []
  | .messageMap _ _ => .dict []

/-- `getattr(msg, name)` of a message with the given set fields. -/
def pbGetattr (pbFields : List (Str × PyVal)) (name : Str) (type : FieldType) : PyVal :=
  (dictGet? id pbFields name).getD type.pbDefault

/-- The oneof group a field is in. -/
def Fields.oneofOf (fields : Fields) (name : Str) : Option Str :=
  (fields.toList.find? (fun field => decide (field.name = name))).bind Field.oneof

/-- Two fields are members of one oneof group. -/
def Fields.sameOneof (fields : Fields) (name name' : Str) : Bool :=
  match fields.oneofOf name with
  | some group => decide (name' ≠ name) && decide (fields.oneofOf name' = some group)
  | none => false

/-- A field is set, and the other members of its oneof are cleared. -/
def pbSet (fields : Fields) (pbFields : List (Str × PyVal)) (name : Str) (v : PyVal) :
    List (Str × PyVal) :=
  dictSet id (pbFields.filter (fun e => !fields.sameOneof name e.1)) name v

/-- What a field holds after an export to it: lists are appended to and maps updated, anything else
    is replaced. -/
def pbStore : PyVal → PyVal → PyVal
  | .list xs, .list ys => .list (xs ++ ys)
  | .dict kvs, .dict entries => .dict (dictUpdate Atom.canon kvs entries)
  | _, v => v

end IotLoggingServer
