import IotLoggingServer.Python

set_option autoImplicit false

/-! # Loaded config files and `chain_query` (`_utils.py`) -/

namespace IotLoggingServer

/-- What `json.loads` and `yaml.safe_load` make of a config file. -/
inductive Value
  | str (s : Str)
  | int (n : ℤ)
  | float (x : ℚ)
  | bool (b : Bool)
  | null
  | list (items : List Value)
  | dict (entries : List (Str × Value))

/-- `bool(value)`. -/
def Value.truthy : Value → Bool
  | .str s => !s.isEmpty
  | .int n => decide (n ≠ 0)
  | .float x => decide (x ≠ 0)
  | .bool b => b
  | .null => false
  | .list items => !items.isEmpty
  | .dict entries => !entries.isEmpty

/-- `value[key]`. -/
def Value.getItem (key : Str) : Value → Except PyExc Value
  | .dict entries =>
    match entries.lookup key with
    | some v => .ok v
    | none => .error (.keyError key)
  | _ => .error .typeError

/-- The successive lookups of `chain_query`. -/
def Value.getItems (value : Value) : List Str → Except PyExc Value
  | [] => .ok value
  | key :: rest =>
    match value.getItem key with
    | .ok v => v.getItems rest
    | .error e => .error e

/-- `chain_query` without a default: whatever went wrong, a `ValueError` that names the paths. -/
def chainQuery (obj : Value) (paths : List Str) : Except PyExc Value :=
  match obj.getItems paths with
  | .ok v => .ok v
  | .error _ => .error (.chainQueryError paths)

/-- `chain_query` with a default. -/
def chainQueryD (obj : Value) (paths : List Str) (default : Value) : Value :=
  match obj.getItems paths with
  | .ok v => v
  | .error _ => default

/-- A field that a config model declares as `str`. -/
def Value.asStr (field : String) : Value → Except PyExc Str
  | .str s => .ok s
  | _ => .error (.validationError field)

end IotLoggingServer
