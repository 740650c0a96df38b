import Mathlib.Data.Nat.Notation
import Mathlib.Tactic.SplitIfs

set_option autoImplicit false

/-! # UTF-8

`encode` writes characters as bytes; `decode` reads bytes strictly and reports the first place where
they are no UTF-8. The decoder goes byte by byte; between the bytes of a character it keeps what it
has of the character and the range its next byte must be in. It reads exactly what the encoder
writes (`decode_eq_ok`). -/

namespace IotLoggingServer

namespace Utf8

/-! ## Encoding -/

/-- A continuation byte with these six bits. -/
def continuation (bits : ℕ) : UInt8 := UInt8.ofNat (0x80 + bits)

def encode (s : List Char) : List UInt8 := s.flatMap String.utf8EncodeChar

/-- The bytes of a character, without the masks that its bounds make idle. -/
theorem utf8EncodeChar_eq (c : Char) :
    String.utf8EncodeChar c =
      if c.toNat < 0x80 then [UInt8.ofNat c.toNat]
      else if c.toNat < 0x800 then
        [UInt8.ofNat (0xC0 + c.toNat / 64), continuation (c.toNat % 64)]
      else if c.toNat < 0x10000 then
        [UInt8.ofNat (0xE0 + c.toNat / 4096), continuation (c.toNat / 64 % 64),
          continuation (c.toNat % 64)]
      else
        [UInt8.ofNat (0xF0 + c.toNat / 262144), continuation (c.toNat / 4096 % 64),
          continuation (c.toNat / 64 % 64), continuation (c.toNat % 64)] := by
  have hvalid : c.toNat.isValidChar := c.valid
  have hval : c.val.toNat = c.toNat := rfl
  have htwo : c.toNat < 0x800 → c.toNat / 64 % 0x20 + 0xC0 = 0xC0 + c.toNat / 64 := by omega
  have hthree : c.toNat < 0x10000 → c.toNat / 4096 % 0x10 + 0xE0 = 0xE0 + c.toNat / 4096 := by omega
  unfold Nat.isValidChar at hvalid
  have hfour : c.toNat / 262144 % 0x08 + 0xF0 = 0xF0 + c.toNat / 262144 := by omega
  simp only [String.utf8EncodeChar, hval, continuation, Nat.add_comm 0x80, Nat.le_iff_lt_add_one]
  split_ifs with h₁ h₂ h₃
  · rfl
  · rw [htwo h₂]
  · rw [hthree h₃]
  · rw [hfour]

/-! ## Decoding -/

inductive Reason
  | invalidStart
  | invalidContinuation
  | unexpectedEnd
  deriving DecidableEq, Repr

/-- The bytes from `start` up to `stop` begin no character. -/
structure Error where
  start : ℕ
  stop : ℕ
  reason : Reason
  deriving DecidableEq, Repr

/-- A character of which some bytes are read. -/
structure Pending where
  start : ℕ
  /-- its bits so far -/
  value : ℕ
  /-- how many bytes follow the next one -/
  more : ℕ
  /-- the range of the next byte: from `low`, below `high` -/
  low : ℕ
  high : ℕ
  deriving DecidableEq, Repr

/-- What the first byte of a longer character says about the rest. The ranges leave out what has a
    shorter form, the surrogates, and what lies beyond the last character. -/
def lead (start b : ℕ) : Option Pending :=
  if b < 0xC2 then none
  else if b < 0xE0 then some ⟨start, b - 0xC0, 0, 0x80, 0xC0⟩
  else if b < 0xF0 then
    some ⟨start, b - 0xE0, 1, if b = 0xE0 then 0xA0 else 0x80, if b = 0xED then 0xA0 else 0xC0⟩
  else if b < 0xF5 then
    some ⟨start, b - 0xF0, 2, if b = 0xF0 then 0x90 else 0x80, if b = 0xF4 then 0x90 else 0xC0⟩
  else none

/-- The character with the bits of one more byte. -/
def Pending.push (p : Pending) (b : ℕ) : ℕ := p.value * 64 + (b - 0x80)

/-- Decode from position `pos`, in the middle of a character if one is pending. -/
def decodeFrom : ℕ → Option Pending → List UInt8 → Except Error (List Char)
  | _, none, [] => .ok []
  | pos, some p, [] => .error ⟨p.start, pos, .unexpectedEnd⟩
  | pos, none, b :: rest =>
    if b.toNat < 0x80 then (decodeFrom (pos + 1) none rest).map (Char.ofNat b.toNat :: ·)
    else
      match lead pos b.toNat with
      | none => .error ⟨pos, pos + 1, .invalidStart⟩
      | some p => decodeFrom (pos + 1) (some p) rest
  | pos, some p, b :: rest =>
    if p.low ≤ b.toNat ∧ b.toNat < p.high then
      match p.more with
      | 0 => (decodeFrom (pos + 1) none rest).map (Char.ofNat (p.push b.toNat) :: ·)
      | more + 1 => decodeFrom (pos + 1) (some ⟨p.start, p.push b.toNat, more, 0x80, 0xC0⟩) rest
    else .error ⟨p.start, pos, .invalidContinuation⟩

def decode (bs : List UInt8) : Except Error (List Char) := decodeFrom 0 none bs

/-! ## What is decoded was encoded -/

theorem continuation_toNat {b : UInt8} (hlow : 0x80 ≤ b.toNat) :
    continuation (b.toNat - 0x80) = b := by
  rw [continuation, Nat.add_sub_cancel' hlow, UInt8.ofNat_toNat]

theorem toNat_ofNat_of_valid {n : ℕ} (h : n.isValidChar) : (Char.ofNat n).toNat = n := by
  rw [Char.ofNat, dif_pos h]
  rfl

/-- `pre` is what was read of the pending character: 1 of 2 bytes, 1 or 2 of 3, or 1 to 3 of 4. -/
inductive Pending.After : Pending → List UInt8 → Prop
  | oneOfTwo {start v : ℕ} (h : 2 ≤ v ∧ v < 32) :
      After ⟨start, v, 0, 0x80, 0xC0⟩ [UInt8.ofNat (0xC0 + v)]
  | oneOfThree {start v : ℕ} (h : v < 16) :
      After ⟨start, v, 1, if v = 0 then 0xA0 else 0x80, if v = 13 then 0xA0 else 0xC0⟩
        [UInt8.ofNat (0xE0 + v)]
  | twoOfThree {start v : ℕ} (h : 32 ≤ v ∧ v < 1024 ∧ (v < 864 ∨ 896 ≤ v)) :
      After ⟨start, v, 0, 0x80, 0xC0⟩ [UInt8.ofNat (0xE0 + v / 64), continuation (v % 64)]
  | oneOfFour {start v : ℕ} (h : v < 5) :
      After ⟨start, v, 2, if v = 0 then 0x90 else 0x80, if v = 4 then 0x90 else 0xC0⟩
        [UInt8.ofNat (0xF0 + v)]
  | twoOfFour {start v : ℕ} (h : 16 ≤ v ∧ v < 272) :
      After ⟨start, v, 1, 0x80, 0xC0⟩ [UInt8.ofNat (0xF0 + v / 64), continuation (v % 64)]
  | threeOfFour {start v : ℕ} (h : 1024 ≤ v ∧ v < 17408) :
      After ⟨start, v, 0, 0x80, 0xC0⟩
        [UInt8.ofNat (0xF0 + v / 4096), continuation (v / 64 % 64), continuation (v % 64)]

theorem lead_after {start : ℕ} {b : UInt8} {p : Pending} (h : lead start b.toNat = some p) :
    p.After [b] := by
  have hof : ∀ base ≤ b.toNat, UInt8.ofNat (base + (b.toNat - base)) = b := by
    intro base hle
    rw [Nat.add_sub_cancel' hle, UInt8.ofNat_toNat]
  unfold lead at h
  split at h
  · cases h
  split at h
  · cases h
    have hread := @Pending.After.oneOfTwo start (b.toNat - 0xC0) (by omega)
    rwa [hof 0xC0 (by omega)] at hread
  split at h
  · cases h
    have hread := @Pending.After.oneOfThree start (b.toNat - 0xE0) (by omega)
    rw [hof 0xE0 (by omega)] at hread
    have h₀ : b.toNat - 0xE0 = 0 ↔ b.toNat = 0xE0 := by omega
    have h₁ : b.toNat - 0xE0 = 13 ↔ b.toNat = 0xED := by omega
    simpa only [h₀, h₁] using hread
  split at h
  · cases h
    have hread := @Pending.After.oneOfFour start (b.toNat - 0xF0) (by omega)
    rw [hof 0xF0 (by omega)] at hread
    have h₀ : b.toNat - 0xF0 = 0 ↔ b.toNat = 0xF0 := by omega
    have h₁ : b.toNat - 0xF0 = 4 ↔ b.toNat = 0xF4 := by omega
    simpa only [h₀, h₁] using hread
  · cases h

/-- Every pending character waits for a continuation byte. -/
theorem Pending.After.range {p : Pending} {pre : List UInt8} (h : p.After pre) :
    0x80 ≤ p.low ∧ p.high ≤ 0xC0 := by
  cases h with
  | oneOfThree h => dsimp only; split_ifs <;> omega
  | oneOfFour h => dsimp only; split_ifs <;> omega
  | _ => dsimp only; omega

/-! The bits above a continuation byte are those read before it. -/

theorem shifted_mod {v bits : ℕ} (h : bits < 64) : (v * 64 + bits) % 64 = bits := by
  omega

theorem shifted_div {v bits : ℕ} (h : bits < 64) : (v * 64 + bits) / 64 = v := by
  omega

theorem shifted_div_4096 {v bits : ℕ} (h : bits < 64) : (v * 64 + bits) / 4096 = v / 64 := by
  omega

theorem shifted_div_262144 {v bits : ℕ} (h : bits < 64) :
    (v * 64 + bits) / 262144 = v / 4096 := by
  omega

/-- A byte the pending character accepts has six bits of its own. -/
theorem Pending.After.bits_lt {p : Pending} {pre : List UInt8} (h : p.After pre) {b : UInt8}
    (hhigh : b.toNat < p.high) : b.toNat - 128 < 64 := by
  have hrange := h.range
  omega

/-- One more byte, with more to follow. -/
theorem Pending.After.push_more {p : Pending} {pre : List UInt8} (h : p.After pre) {b : UInt8}
    (hlow : p.low ≤ b.toNat) (hhigh : b.toNat < p.high) {more : ℕ} (hmore : p.more = more + 1) :
    Pending.After ⟨p.start, p.push b.toNat, more, 0x80, 0xC0⟩ (pre ++ [b]) := by
  have hb := continuation_toNat (Nat.le_trans h.range.1 hlow)
  have hbits := h.bits_lt hhigh
  cases h with
  | oneOfTwo h => cases hmore
  | twoOfThree h => cases hmore
  | threeOfFour h => cases hmore
  | @oneOfThree start v h =>
      obtain rfl : more = 0 := by simpa using hmore.symm
      dsimp only at hlow hhigh
      have hread := @twoOfThree start (v * 64 + (b.toNat - 128))
        (by split_ifs at * <;> omega)
      rwa [shifted_div hbits, shifted_mod hbits, hb] at hread
  | @oneOfFour start v h =>
      obtain rfl : more = 1 := by simpa using hmore.symm
      dsimp only at hlow hhigh
      have hread := @twoOfFour start (v * 64 + (b.toNat - 128))
        (by split_ifs at * <;> omega)
      rwa [shifted_div hbits, shifted_mod hbits, hb] at hread
  | @twoOfFour start v h =>
      obtain rfl : more = 0 := by simpa using hmore.symm
      dsimp only at hlow hhigh
      have hread := @threeOfFour start (v * 64 + (b.toNat - 128)) (by omega)
      rwa [shifted_div_4096 hbits, shifted_div hbits, shifted_mod hbits, hb] at hread

/-- The last byte: what was read is the encoding of a character. -/
theorem Pending.After.push_last {p : Pending} {pre : List UInt8} (h : p.After pre) {b : UInt8}
    (hlow : p.low ≤ b.toNat) (hhigh : b.toNat < p.high) (hmore : p.more = 0) :
    pre ++ [b] = String.utf8EncodeChar (Char.ofNat (p.push b.toNat)) := by
  have hb := continuation_toNat (Nat.le_trans h.range.1 hlow)
  have hbits := h.bits_lt hhigh
  cases h with
  | oneOfThree h => cases hmore
  | oneOfFour h => cases hmore
  | twoOfFour h => cases hmore
  | @oneOfTwo start v h =>
      dsimp only [push] at hlow hhigh ⊢
      have hvalid : (v * 64 + (b.toNat - 128)).isValidChar := by
        unfold Nat.isValidChar
        omega
      rw [utf8EncodeChar_eq, toNat_ofNat_of_valid hvalid, if_neg (by omega), if_pos (by omega),
        shifted_div hbits, shifted_mod hbits, hb]
      rfl
  | @twoOfThree start v h =>
      dsimp only [push] at hlow hhigh ⊢
      have hvalid : (v * 64 + (b.toNat - 128)).isValidChar := by
        unfold Nat.isValidChar
        omega
      rw [utf8EncodeChar_eq, toNat_ofNat_of_valid hvalid, if_neg (by omega), if_neg (by omega),
        if_pos (by omega), shifted_div_4096 hbits, shifted_div hbits, shifted_mod hbits, hb]
      rfl
  | @threeOfFour start v h =>
      dsimp only [push] at hlow hhigh ⊢
      have hvalid : (v * 64 + (b.toNat - 128)).isValidChar := by
        unfold Nat.isValidChar
        omega
      rw [utf8EncodeChar_eq, toNat_ofNat_of_valid hvalid, if_neg (by omega), if_neg (by omega),
        if_neg (by omega), shifted_div_262144 hbits, shifted_div_4096 hbits, shifted_div hbits,
        shifted_mod hbits, hb]
      rfl

theorem map_cons_eq_ok {c : Char} {x : Except Error (List Char)} {s : List Char} :
    x.map (c :: ·) = .ok s ↔ ∃ rest, x = .ok rest ∧ s = c :: rest := by
  cases x with
  | error e => simp [Except.map]
  | ok rest => simp [Except.map, eq_comm]

/-- What decoding reads, after the bytes of a pending character, encodes back to the bytes. -/
theorem encode_of_decodeFrom {bs : List UInt8} {s : List Char} :
    ∀ {pos : ℕ}, (decodeFrom pos none bs = .ok s → bs = encode s) ∧
      ∀ {p : Pending} {pre : List UInt8}, p.After pre →
        decodeFrom pos (some p) bs = .ok s → pre ++ bs = encode s := by
  induction bs generalizing s with
  | nil =>
      intro pos
      refine ⟨fun h => ?_, fun _ h => ?_⟩
      · rw [decodeFrom] at h
        cases h
        rfl
      · rw [decodeFrom] at h
        cases h
  | cons b rest ih =>
      intro pos
      refine ⟨fun h => ?_, fun {p pre} hp h => ?_⟩
      · rw [decodeFrom] at h
        split at h
        · next hascii =>
            obtain ⟨tail, htail, rfl⟩ := map_cons_eq_ok.1 h
            have hvalid : b.toNat.isValidChar := by
              unfold Nat.isValidChar
              omega
            have hhead : String.utf8EncodeChar (Char.ofNat b.toNat) = [b] := by
              rw [utf8EncodeChar_eq, toNat_ofNat_of_valid hvalid, if_pos hascii, UInt8.ofNat_toNat]
            rw [ih.1 htail, encode, encode, List.flatMap_cons, hhead]
            rfl
        · split at h
          · cases h
          · next p hlead => simpa using ih.2 (lead_after hlead) h
      · rw [decodeFrom] at h
        split at h
        · next hin =>
            split at h
            · next hmore =>
                obtain ⟨tail, htail, rfl⟩ := map_cons_eq_ok.1 h
                rw [ih.1 htail, encode, encode, List.flatMap_cons,
                  ← hp.push_last hin.1 hin.2 hmore, List.append_assoc]
                rfl
            · next more hmore =>
                have hread := ih.2 (hp.push_more hin.1 hin.2 hmore) h
                rwa [List.append_assoc] at hread
        · cases h

/-! ## What was encoded is decoded -/

theorem ofNat_toNat_lt {n : ℕ} (h : n < 256) : (UInt8.ofNat n).toNat = n := by
  rw [UInt8.toNat_ofNat', Nat.mod_eq_of_lt h]

theorem decodeFrom_pending {pos : ℕ} {p : Pending} {bits : ℕ} {rest : List UInt8} (h : bits < 64)
    (hlow : p.low ≤ 0x80 + bits) (hhigh : 0x80 + bits < p.high) :
    decodeFrom pos (some p) (continuation bits :: rest) =
      match p.more with
      | 0 => (decodeFrom (pos + 1) none rest).map (Char.ofNat (p.value * 64 + bits) :: ·)
      | more + 1 =>
        decodeFrom (pos + 1) (some ⟨p.start, p.value * 64 + bits, more, 0x80, 0xC0⟩) rest := by
  have hnat : (continuation bits).toNat = 0x80 + bits := ofNat_toNat_lt (by omega)
  have hpush : p.push (0x80 + bits) = p.value * 64 + bits := by
    unfold Pending.push
    omega
  rw [decodeFrom, hnat, if_pos ⟨hlow, hhigh⟩, hpush]

/-! After the second byte a continuation byte may be any. -/

theorem decodeFrom_last {pos start v bits : ℕ} {rest : List UInt8} (h : bits < 64) :
    decodeFrom pos (some ⟨start, v, 0, 0x80, 0xC0⟩) (continuation bits :: rest) =
      (decodeFrom (pos + 1) none rest).map (Char.ofNat (v * 64 + bits) :: ·) :=
  decodeFrom_pending h (Nat.le_add_right _ _) (Nat.add_lt_add_left h 0x80)

theorem decodeFrom_more {pos start v more bits : ℕ} {rest : List UInt8} (h : bits < 64) :
    decodeFrom pos (some ⟨start, v, more + 1, 0x80, 0xC0⟩) (continuation bits :: rest) =
      decodeFrom (pos + 1) (some ⟨start, v * 64 + bits, more, 0x80, 0xC0⟩) rest :=
  decodeFrom_pending h (Nat.le_add_right _ _) (Nat.add_lt_add_left h 0x80)

theorem decodeFrom_utf8EncodeChar (c : Char) (rest : List UInt8) (pos : ℕ) :
    ∃ pos', decodeFrom pos none (String.utf8EncodeChar c ++ rest) =
      (decodeFrom pos' none rest).map (c :: ·) := by
  have hvalid : c.toNat.isValidChar := c.valid
  have hc : Char.ofNat c.toNat = c := Char.ofNat_toNat c
  have hfirst : c.toNat / 262144 * 64 + c.toNat / 4096 % 64 = c.toNat / 4096 := by omega
  have hmid : c.toNat / 4096 * 64 + c.toNat / 64 % 64 = c.toNat / 64 := by omega
  have hsum : c.toNat / 64 * 64 + c.toNat % 64 = c.toNat := by omega
  have hbits (n : ℕ) : n % 64 < 64 := Nat.mod_lt n (by decide)
  unfold Nat.isValidChar at hvalid
  rw [utf8EncodeChar_eq]
  split_ifs with h₁ h₂ h₃
  · refine ⟨pos + 1, ?_⟩
    rw [List.singleton_append, decodeFrom, ofNat_toNat_lt (by omega), if_pos h₁, hc]
  · refine ⟨pos + 2, ?_⟩
    rw [List.cons_append, List.singleton_append, decodeFrom, ofNat_toNat_lt (by omega),
      if_neg (by omega), lead, if_neg (by omega), if_pos (by omega)]
    dsimp only
    rw [decodeFrom_last (hbits _), Nat.add_sub_cancel_left, hsum, hc]
  · refine ⟨pos + 3, ?_⟩
    rw [List.cons_append, List.cons_append, List.singleton_append, decodeFrom,
      ofNat_toNat_lt (by omega), if_neg (by omega), lead, if_neg (by omega), if_neg (by omega),
      if_pos (by omega)]
    dsimp only
    -- the second byte is not any: the character is neither overlong nor a surrogate
    rw [decodeFrom_pending (hbits _) (by dsimp only; split_ifs <;> omega)
      (by dsimp only; split_ifs <;> omega)]
    dsimp only
    rw [decodeFrom_last (hbits _), Nat.add_sub_cancel_left, hmid, hsum, hc]
  · refine ⟨pos + 4, ?_⟩
    rw [List.cons_append, List.cons_append, List.cons_append, List.singleton_append, decodeFrom,
      ofNat_toNat_lt (by omega), if_neg (by omega), lead, if_neg (by omega), if_neg (by omega),
      if_neg (by omega), if_pos (by omega)]
    dsimp only
    rw [decodeFrom_pending (hbits _) (by dsimp only; split_ifs <;> omega)
      (by dsimp only; split_ifs <;> omega)]
    dsimp only
    rw [decodeFrom_more (hbits _), decodeFrom_last (hbits _), Nat.add_sub_cancel_left, hfirst,
      hmid, hsum, hc]

theorem decodeFrom_encode (s : List Char) (pos : ℕ) : decodeFrom pos none (encode s) = .ok s := by
  induction s generalizing pos with
  | nil => rfl
  | cons c s ih =>
      obtain ⟨pos', h⟩ := decodeFrom_utf8EncodeChar c (encode s) pos
      rw [encode, List.flatMap_cons, ← encode, h, ih pos']
      rfl

/-- **Decoding inverts encoding.** Bytes decode to a text exactly when they are its encoding. -/
theorem decode_eq_ok {bs : List UInt8} {s : List Char} : decode bs = .ok s ↔ bs = encode s := by
  constructor
  · intro h
    exact encode_of_decodeFrom.1 h
  · rintro rfl
    exact decodeFrom_encode s 0

example : decode [0xE2, 0x82, 0xAC, 0x21] = .ok ['€', '!'] := by rfl

end Utf8

end IotLoggingServer
