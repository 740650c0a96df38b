import Mathlib.Data.List.Basic

set_option autoImplicit false

/-! # Splitting at a separator

`cut sep s` splits at the first separator; `splitMax sep n s` splits at the first `n` separators, if
there are that many, and leaves the rest in the last piece. -/

namespace IotLoggingServer

variable {α : Type} [DecidableEq α]

/-- What comes before the first separator, and what comes after it if there is one. -/
def cut (sep : α) : List α → List α × Option (List α)
  | [] => ([], none)
  | c :: s =>
    if c = sep then ([], some s)
    else ((c :: (cut sep s).1), (cut sep s).2)

/-- The pieces between the separators, at most `n` of which are used. -/
def splitMax (sep : α) : ℕ → List α → List (List α)
  | 0, s => [s]
  | n + 1, s =>
    match cut sep s with
    | (piece, none) => [piece]
    | (piece, some rest) => piece :: splitMax sep n rest

theorem cut_append {sep : α} {a : List α} (ha : sep ∉ a) (b : List α) :
    cut sep (a ++ sep :: b) = (a, some b) := by
  induction a with
  | nil => simp [cut]
  | cons c a ih =>
      rw [List.mem_cons, not_or] at ha
      simp [cut, ih ha.2, Ne.symm ha.1]

theorem cut_of_not_mem {sep : α} {a : List α} (ha : sep ∉ a) : cut sep a = (a, none) := by
  induction a with
  | nil => rfl
  | cons c a ih =>
      rw [List.mem_cons, not_or] at ha
      simp [cut, ih ha.2, Ne.symm ha.1]

theorem splitMax_append {sep : α} {a : List α} (ha : sep ∉ a) (n : ℕ) (b : List α) :
    splitMax sep (n + 1) (a ++ sep :: b) = a :: splitMax sep n b := by
  simp [splitMax, cut_append ha]

theorem splitMax_of_not_mem {sep : α} {a : List α} (ha : sep ∉ a) (n : ℕ) :
    splitMax sep n a = [a] := by
  cases n with
  | zero => rfl
  | succ n => simp [splitMax, cut_of_not_mem ha]

/-- **There is a piece for each separator used, and one more.** -/
theorem splitMax_length (sep : α) (n : ℕ) (s : List α) :
    (splitMax sep n s).length = min n (s.count sep) + 1 := by
  induction n generalizing s with
  | zero => simp [splitMax]
  | succ n ih =>
      by_cases hmem : sep ∈ s
      · obtain ⟨a, b, rfl, ha⟩ := List.eq_append_cons_of_mem hmem
        have hcount : (a ++ sep :: b).count sep = b.count sep + 1 := by
          simp [List.count_eq_zero_of_not_mem ha]
        rw [splitMax_append ha, List.length_cons, ih, hcount]
        omega
      · rw [splitMax_of_not_mem hmem, List.count_eq_zero_of_not_mem hmem]
        simp

end IotLoggingServer
