import IotLoggingServer.Lib.Utf8
import Mathlib.Data.Rat.Floor

set_option autoImplicit false

/-! # The Python the modules share

Strings are lists of code points, `int` is `ℤ`, and a `float` where its value matters is the
rational it denotes. Exceptions are kept by class; those the package raises itself carry the text it
builds for them. -/

namespace IotLoggingServer

/-- A Python `str`, code point by code point. -/
abbrev Str := List Char

/-- `awscrt.exceptions.AwsCrtError`. -/
structure AwsCrtError where
  code : ℤ
  name : Str
  message : Str
  deriving DecidableEq, Repr

/-- The `__cause__` of an exception, as far as the package looks at one. -/
inductive Cause
  | awsCrtError (err : AwsCrtError)
  | other
  deriving DecidableEq, Repr

/-- Exceptions, by class. `other` stands for every class no code of the package tells apart. -/
inductive PyExc
  | typeError
  | attributeError
  | overflowError
  | assertionError (msg : Str)
  | keyError (msg : Str)
  | valueError (msg : Str) (cause : Option Cause)
  | chainQueryError (paths : List Str)
  | unicodeDecodeError (object : List UInt8) (start stop : ℕ) (reason : Str)
  | validationError (field : String)
  | awsCrtError (err : AwsCrtError)
  | resourceNotFound
  | resourceAlreadyExists
  | other (tag : ℕ)
  deriving DecidableEq, Repr

/-! ## Raising

A block of statements that may raise is a `do` block in `Except PyExc`. -/

section Raising

variable {ε α β : Type}

@[simp] theorem ok_bind (a : α) (f : α → Except ε β) : (Except.ok a >>= f) = f a := rfl

@[simp] theorem error_bind (e : ε) (f : α → Except ε β) :
    (Except.error e >>= f) = Except.error e := rfl

theorem bind_eq_ok {x : Except ε α} {f : α → Except ε β} {b : β} :
    (x >>= f) = .ok b ↔ ∃ a, x = .ok a ∧ f a = .ok b := by
  cases x with
  | ok a => simp
  | error e => simp

end Raising

/-! ## Numbers and strings -/

/-- `int(x)` of a float: truncation towards zero. -/
def truncate (x : ℚ) : ℤ := if 0 ≤ x then ⌊x⌋ else ⌈x⌉

/-- A Python number that is an `int` or a (finite) `float`. -/
inductive Num
  | int (n : ℤ)
  | float (x : ℚ)
  deriving DecidableEq, Repr

/-- The number denoted. -/
def Num.val : Num → ℚ
  | .int n => n
  | .float x => x

/-- What `time.sleep(t)` raises, if anything. -/
def sleepError (t : Num) : Option PyExc :=
  if t.val < 0 then some (.valueError "sleep length must be non-negative".toList none) else none

/-- `s.removeprefix(p)`. -/
def removePrefix (p s : Str) : Str := if p.isPrefixOf s then s.drop p.length else s

/-- The `reason` of a `UnicodeDecodeError`. -/
def decodeReason : Utf8.Reason → Str
  | .invalidStart => "invalid start byte".toList
  | .invalidContinuation => "invalid continuation byte".toList
  | .unexpectedEnd => "unexpected end of data".toList

/-- `data.decode()`. -/
def decodeUtf8 (data : List UInt8) : Except PyExc Str :=
  match Utf8.decode data with
  | .ok s => .ok s
  | .error e => .error (.unicodeDecodeError data e.start e.stop (decodeReason e.reason))

/-- UTF-8 length of a string. -/
def utf8Length (s : Str) : ℕ := (s.map Char.utf8Size).sum

theorem decodeUtf8_encode (s : Str) : decodeUtf8 (Utf8.encode s) = .ok s := by
  rw [decodeUtf8, Utf8.decode_eq_ok.2 rfl]

theorem decodeUtf8_of_not_utf8 {data : List UInt8} (h : ¬ ∃ s, data = Utf8.encode s) :
    ∃ start stop reason, decodeUtf8 data = .error (.unicodeDecodeError data start stop reason) := by
  unfold decodeUtf8
  cases hdecode : Utf8.decode data with
  | ok s => exact absurd ⟨s, Utf8.decode_eq_ok.1 hdecode⟩ h
  | error e => exact ⟨_, _, _, rfl⟩

theorem removePrefix_append (p s : Str) : removePrefix p (p ++ s) = s := by
  simp [removePrefix]

theorem removePrefix_of_not_prefix {p s : Str} (h : ¬ p <+: s) : removePrefix p s = s := by
  unfold removePrefix
  rw [if_neg (fun hp => h (List.isPrefixOf_iff_prefix.1 hp))]

/-! ## Files -/

/-- The files, by what the methods of `pathlib.Path` make of them. -/
structure FileSystem where
  isFile : Str → Except PyExc Bool
  readText : Str → Except PyExc Str
  readBytes : Str → Except PyExc (List UInt8)

/-- A file is the same in both. -/
@[mk_iff]
structure FileSystem.SameFile (fs fs' : FileSystem) (file : Str) : Prop where
  isFile : fs'.isFile file = fs.isFile file
  readText : fs'.readText file = fs.readText file
  readBytes : fs'.readBytes file = fs.readBytes file

end IotLoggingServer
