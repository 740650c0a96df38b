import Mathlib.Data.List.Basic

set_option autoImplicit false

/-! # Properties of every step of a run

A run of a deterministic machine is a start state and a list of actions. `EveryStep step P s as`
says that each step of the run meets `P`, which sees the state the step is taken in. Two step
properties that agree wherever an invariant holds agree over whole runs, as soon as one of them
keeps the invariant (`everyStep_iff`).

The rest is about where a run leads: an invariant of the steps holds at its end
(`foldl_invariant`), and a goal is reached once the run has taken more ticks than a rank allows that
each tick lowers and nothing else raises (`reaches_of_rank`). -/

namespace IotLoggingServer

variable {σ α : Type} {step : σ → α → σ} {Inv : σ → Prop} {P Q : σ → α → Prop}

/-- Every step of the run from `s` meets `P`. -/
def EveryStep (step : σ → α → σ) (P : σ → α → Prop) : σ → List α → Prop
  | _, [] => True
  | s, a :: rest => P s a ∧ EveryStep step P (step s a) rest

/-- Where `Q` keeps an invariant under which it implies `P`, it implies `P` over a whole run. -/
theorem EveryStep.imp (hPQ : ∀ s a, Inv s → Q s a → P s a)
    (hstep : ∀ s a, Inv s → Q s a → Inv (step s a)) (actions : List α) :
    ∀ s, Inv s → EveryStep step Q s actions → EveryStep step P s actions := by
  induction actions with
  | nil => intro s _ _; trivial
  | cons a rest ih =>
      rintro s hs ⟨hQ, hrest⟩
      exact ⟨hPQ s a hs hQ, ih (step s a) (hstep s a hs hQ) hrest⟩

/-- **Step properties that agree under an invariant agree over runs.** -/
theorem everyStep_iff (hiff : ∀ s a, Inv s → (P s a ↔ Q s a))
    (hstep : ∀ s a, Inv s → Q s a → Inv (step s a)) {s : σ} (hs : Inv s) (actions : List α) :
    EveryStep step P s actions ↔ EveryStep step Q s actions := by
  constructor
  · refine EveryStep.imp (fun s a hs => (hiff s a hs).1) (fun s a hs hP => ?_) actions s hs
    exact hstep s a hs ((hiff s a hs).1 hP)
  · exact EveryStep.imp (fun s a hs => (hiff s a hs).2) hstep actions s hs

/-! ## Where a run leads -/

theorem foldl_invariant (hstep : ∀ s a, Inv s → Inv (step s a)) (actions : List α) :
    ∀ s, Inv s → Inv (actions.foldl step s) := by
  induction actions with
  | nil => intro s hs; exact hs
  | cons a rest ih => intro s hs; exact ih (step s a) (hstep s a hs)

/-- An invariant that the steps of a run keep as far as they meet `P`. -/
theorem EveryStep.foldl_invariant (hstep : ∀ s a, Inv s → P s a → Inv (step s a))
    (actions : List α) :
    ∀ s, Inv s → EveryStep step P s actions → Inv (actions.foldl step s) := by
  induction actions with
  | nil => intro s hs _; exact hs
  | cons a rest ih =>
      rintro s hs ⟨hP, hrest⟩
      exact ih (step s a) (hstep s a hs hP) hrest

/-- **A rank bounds the ticks to a goal.** While the goal is not reached, a tick lowers the rank and
    no other action raises it; so more ticks than the rank lead to the goal, whatever happens
    between them. -/
theorem reaches_of_rank {Done : σ → Prop} {tick : α → Bool} {rank : σ → ℕ}
    (hinv : ∀ s a, Inv s → Inv (step s a)) (hdone : ∀ s a, Done s → Done (step s a))
    (htick : ∀ s a, Inv s → ¬ Done s → tick a = true →
      Done (step s a) ∨ rank (step s a) < rank s)
    (hother : ∀ s a, Inv s → ¬ Done s → tick a = false → rank (step s a) ≤ rank s)
    (actions : List α) :
    ∀ s, Inv s → rank s < actions.countP tick → Done (actions.foldl step s) := by
  induction actions with
  | nil => intro s _ hlt; simp at hlt
  | cons a rest ih =>
      intro s hs hlt
      rw [List.foldl_cons]
      by_cases hd : Done s
      · exact foldl_invariant hdone rest _ (hdone s a hd)
      · rw [List.countP_cons] at hlt
        cases ha : tick a with
        | true =>
            rcases htick s a hs hd ha with hreached | hlower
            · exact foldl_invariant hdone rest _ hreached
            · simp only [ha, if_true] at hlt
              exact ih _ (hinv s a hs) (by omega)
        | false =>
            have hle := hother s a hs hd ha
            simp only [ha, Bool.false_eq_true, if_false] at hlt
            exact ih _ (hinv s a hs) (by omega)

end IotLoggingServer
