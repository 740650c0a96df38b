import Mathlib.Algebra.Order.Group.Int
import Mathlib.Tactic.Ring

set_option autoImplicit false

/-! # Integers in two parts

An integer is kept as a multiple of a base and a rest. `split` rounds the multiple down, so that the
rest is never negative; `addLow` adds to the rest and carries into the multiple. A row of additions
is one split of the total (`foldl_addLow`), which leaves two parts of one sign unless the total is
negative and no multiple of the base (`sameSign_split_iff`). -/

namespace IotLoggingServer

/-- `high` times the base, and `low`. -/
@[ext]
structure TwoPart where
  high : ℤ
  low : ℤ
  deriving DecidableEq, Repr

namespace TwoPart

def value (base : ℤ) (p : TwoPart) : ℤ := p.high * base + p.low

def split (base n : ℤ) : TwoPart := ⟨n / base, n % base⟩

def addLow (base : ℤ) (p : TwoPart) (n : ℤ) : TwoPart :=
  ⟨p.high + (p.low + n) / base, (p.low + n) % base⟩

/-- No part is negative while the other is positive. -/
def SameSign (p : TwoPart) : Prop := (0 ≤ p.high ∧ 0 ≤ p.low) ∨ (p.high ≤ 0 ∧ p.low ≤ 0)

variable {base : ℤ}

/-! ## One number -/

@[simp] theorem value_split (n : ℤ) : (split base n).value base = n :=
  Int.ediv_mul_add_emod n base

theorem abs_low_split (hbase : 0 < base) (n : ℤ) : |(split base n).low| < base := by
  have hnonneg : 0 ≤ n % base := Int.emod_nonneg n (ne_of_gt hbase)
  rw [split, abs_of_nonneg hnonneg]
  exact Int.emod_lt_of_pos n hbase

/-- The rest is not negative, so the multiple may only be if there is no rest. -/
theorem sameSign_split_iff (hbase : 0 < base) (n : ℤ) :
    (split base n).SameSign ↔ 0 ≤ n ∨ base ∣ n := by
  have hlow : 0 ≤ n % base := Int.emod_nonneg n (ne_of_gt hbase)
  have hhigh : 0 ≤ n / base ↔ 0 ≤ n := Int.ediv_nonneg_iff_of_pos hbase
  unfold SameSign split
  dsimp only
  rw [Int.dvd_iff_emod_eq_zero, ← hhigh]
  omega

/-! ## Additions -/

theorem addLow_eq_split (hbase : base ≠ 0) (p : TwoPart) (n : ℤ) :
    p.addLow base n = split base (p.value base + n) := by
  have hsum : p.value base + n = p.low + n + p.high * base := by
    unfold value
    ring
  rw [addLow, split, hsum, Int.add_mul_ediv_right _ _ hbase, Int.add_mul_emod_self_right,
    Int.add_comm p.high]

theorem value_addLow (hbase : base ≠ 0) (p : TwoPart) (n : ℤ) :
    (p.addLow base n).value base = p.value base + n := by
  rw [addLow_eq_split hbase, value_split]

theorem addLow_right_comm (hbase : base ≠ 0) (p : TwoPart) (n m : ℤ) :
    (p.addLow base n).addLow base m = (p.addLow base m).addLow base n := by
  simp only [addLow_eq_split hbase, value_split, Int.add_right_comm]

/-- A row of additions is one split of the total. -/
theorem foldl_addLow (hbase : base ≠ 0) (p : TwoPart) {ns : List ℤ} (hns : ns ≠ []) :
    ns.foldl (addLow base) p = split base (p.value base + ns.sum) := by
  induction ns generalizing p with
  | nil => exact absurd rfl hns
  | cons n rest ih =>
      rw [List.foldl_cons, List.sum_cons, ← Int.add_assoc, ← value_addLow hbase]
      cases rest with
      | nil => rw [List.foldl_nil, List.sum_nil, Int.add_zero, value_addLow hbase,
          addLow_eq_split hbase]
      | cons m rest => exact ih _ (List.cons_ne_nil m rest)

theorem value_foldl_addLow (hbase : base ≠ 0) (p : TwoPart) (ns : List ℤ) :
    (ns.foldl (addLow base) p).value base = p.value base + ns.sum := by
  cases ns with
  | nil => exact (Int.add_zero _).symm
  | cons n rest => rw [foldl_addLow hbase p (List.cons_ne_nil n rest), value_split]

end TwoPart

end IotLoggingServer
