import Mathlib.Algebra.Order.Monoid.Defs
import Mathlib.Algebra.Order.Monoid.Unbundled.Basic

set_option autoImplicit false

/-! # Retry loops

A *call* runs from a state and either does not return (`none`) or returns a value or an exception
and the state it leaves. `retryLoop attempt again pause` repeats `attempt` until it yields a value
or an exception that `again` does not want retried; `pause` runs between two attempts. Both are told
how many attempts failed before.

The loop takes fuel, since nothing forces it to stop. `RetryRun` says how a run of the loop that did
return went, one constructor for each way an iteration can go (`retryLoop_sound`), and where `again`
refuses from some count on, the loop returns (`retryLoop_returns`). -/

namespace IotLoggingServer

variable {σ ε α : Type}

/-- A call from a state; `none` is a call that does not return. -/
abbrev Call (σ ε α : Type) : Type := σ → Option (Except ε α × σ)

/-- Repeat `attempt` while it raises what `again` wants retried, with `pause` in between. -/
def retryLoop (attempt : Call σ ε α) (again : ℕ → ε → Bool) (pause : ℕ → Call σ ε Unit) :
    ℕ → ℕ → Call σ ε α
  | 0, _, _ => none
  | fuel + 1, count, s =>
    match attempt s with
    | none => none
    | some (.ok v, s₁) => some (.ok v, s₁)
    | some (.error e, s₁) =>
      if again count e then
        match pause count s₁ with
        | none => none
        | some (.ok _, s₂) => retryLoop attempt again pause fuel (count + 1) s₂
        | some (.error e', s₂) => some (.error e', s₂)
      else some (.error e, s₁)

/-- How a returning retry loop went, from the iteration after `count` failed attempts. -/
inductive RetryRun (attempt : Call σ ε α) (again : ℕ → ε → Bool) (pause : ℕ → Call σ ε Unit) :
    ℕ → σ → Except ε α → σ → Prop
  | value {count : ℕ} {s s₁ : σ} {v : α} :
      attempt s = some (.ok v, s₁) → RetryRun attempt again pause count s (.ok v) s₁
  | giveUp {count : ℕ} {s s₁ : σ} {e : ε} :
      attempt s = some (.error e, s₁) → again count e = false →
      RetryRun attempt again pause count s (.error e) s₁
  | pauseRaises {count : ℕ} {s s₁ s₂ : σ} {e e' : ε} :
      attempt s = some (.error e, s₁) → again count e = true →
      pause count s₁ = some (.error e', s₂) →
      RetryRun attempt again pause count s (.error e') s₂
  | next {count : ℕ} {s s₁ s₂ s₃ : σ} {e : ε} {u : Unit} {r : Except ε α} :
      attempt s = some (.error e, s₁) → again count e = true →
      pause count s₁ = some (.ok u, s₂) →
      RetryRun attempt again pause (count + 1) s₂ r s₃ →
      RetryRun attempt again pause count s r s₃

variable {attempt : Call σ ε α} {again : ℕ → ε → Bool} {pause : ℕ → Call σ ε Unit}

theorem retryLoop_sound (fuel : ℕ) :
    ∀ (count : ℕ) (s s' : σ) (r : Except ε α),
      retryLoop attempt again pause fuel count s = some (r, s') →
      RetryRun attempt again pause count s r s' := by
  induction fuel with
  | zero => intro count s s' r h; simp [retryLoop] at h
  | succ fuel ih =>
      intro count s s' r h
      simp only [retryLoop] at h
      split at h
      · simp at h
      · next v s₁ hatt =>
          cases h
          exact RetryRun.value hatt
      · next e s₁ hatt =>
          split at h
          · next hagain =>
              split at h
              · simp at h
              · next u s₂ hpause => exact RetryRun.next hatt hagain hpause (ih _ _ _ _ h)
              · next e' s₂ hpause =>
                  cases h
                  exact RetryRun.pauseRaises hatt hagain hpause
          · next hagain =>
              cases h
              exact RetryRun.giveUp hatt (by simpa using hagain)

/-- Iterations that fail and are retried, taken together. -/
theorem retryLoop_skip {count k : ℕ} {before after : ℕ → σ}
    (hatt : ∀ i < k, ∃ e, attempt (before i) = some (.error e, after i) ∧
      again (count + i) e = true)
    (hpause : ∀ i < k, ∃ u, pause (count + i) (after i) = some (.ok u, before (i + 1)))
    (fuel : ℕ) :
    retryLoop attempt again pause (k + fuel) count (before 0) =
      retryLoop attempt again pause fuel (count + k) (before k) := by
  induction k generalizing fuel with
  | zero => rw [Nat.zero_add, Nat.add_zero]
  | succ k ih =>
      obtain ⟨e, he, hagain⟩ := hatt k (Nat.lt_succ_self k)
      obtain ⟨u, hu⟩ := hpause k (Nat.lt_succ_self k)
      have hfirst := ih (fun i hi => hatt i (Nat.lt_succ_of_lt hi))
        (fun i hi => hpause i (Nat.lt_succ_of_lt hi)) (fuel + 1)
      rw [Nat.add_right_comm, Nat.add_assoc, hfirst, retryLoop, he]
      simp only [hagain, if_true, hu]
      rfl

/-- An attempt that is not to be retried ends the loop. -/
theorem retryLoop_stop {count : ℕ} {s s₁ : σ} {r : Except ε α} (hatt : attempt s = some (r, s₁))
    (hstop : ∀ e, r = .error e → again count e = false) (fuel : ℕ) :
    retryLoop attempt again pause (fuel + 1) count s = some (r, s₁) := by
  rw [retryLoop, hatt]
  cases r with
  | ok v => rfl
  | error e => simp only [hstop e rfl, if_neg Bool.false_ne_true]

/-- **A loop that may not retry after `bound` failures returns**, as soon as its fuel exceeds the
    retries it has left, whenever an attempt and a pause always return. -/
theorem retryLoop_returns {bound : ℕ} (hatt : ∀ s, (attempt s).isSome)
    (hpause : ∀ count s, (pause count s).isSome) (hbound : ∀ e, again bound e = false)
    (fuel : ℕ) :
    ∀ (count : ℕ) (s : σ), count ≤ bound → bound - count < fuel →
      ∃ r s', retryLoop attempt again pause fuel count s = some (r, s') := by
  induction fuel with
  | zero => intro count s _ hfuel; omega
  | succ fuel ih =>
      intro count s hcount hfuel
      obtain ⟨⟨r, s₁⟩, hs⟩ := Option.isSome_iff_exists.1 (hatt s)
      cases r with
      | ok v => exact ⟨.ok v, s₁, by simp [retryLoop, hs]⟩
      | error e =>
          by_cases hagain : again count e = true
          · have hne : count ≠ bound := by
              rintro rfl
              rw [hbound e] at hagain
              exact Bool.false_ne_true hagain
            obtain ⟨⟨p, s₂⟩, hp⟩ := Option.isSome_iff_exists.1 (hpause count s₁)
            cases p with
            | error e' => exact ⟨.error e', s₂, by simp [retryLoop, hs, hagain, hp]⟩
            | ok u =>
                obtain ⟨r, s', hr⟩ := ih (count + 1) s₂ (by omega) (by omega)
                exact ⟨r, s', by simp [retryLoop, hs, hagain, hp, hr]⟩
          · exact ⟨.error e, s₁, by simp [retryLoop, hs, hagain]⟩

/-- What attempts and pauses do to the state, a run does, if it can be done one after the other. -/
theorem RetryRun.relates {R : σ → σ → Prop} (htrans : ∀ s s₁ s₂, R s s₁ → R s₁ s₂ → R s s₂)
    (hattempt : ∀ s r s₁, attempt s = some (r, s₁) → R s s₁)
    (hpause : ∀ count s r s₁, pause count s = some (r, s₁) → R s s₁) {count : ℕ} {s s' : σ}
    {r : Except ε α} (h : RetryRun attempt again pause count s r s') : R s s' := by
  induction h with
  | value hatt => exact hattempt _ _ _ hatt
  | giveUp hatt _ => exact hattempt _ _ _ hatt
  | pauseRaises hatt _ hp => exact htrans _ _ _ (hattempt _ _ _ hatt) (hpause _ _ _ _ hp)
  | next hatt _ hp _ ih =>
      exact htrans _ _ _ (htrans _ _ _ (hattempt _ _ _ hatt) (hpause _ _ _ _ hp)) ih

/-- The cost of `k` attempts, each with the pause after it, and of one attempt more. -/
def retryCost {M : Type} [Add M] (a : M) (p : ℕ → M) : ℕ → ℕ → M
  | _, 0 => a
  | count, k + 1 => a + p count + retryCost a p (count + 1) k

section Cost

variable {M : Type} [AddCommMonoid M] {cost : σ → M} {a : M} {p : ℕ → M}

/-- **What a run without success costs.** Where every attempt raises and costs `a`, every pause
    returns, the one after `i` failures at the cost of `p i`, and exactly the first `count + k`
    failures are retried, a run from `count` failures on costs `k` attempts with their pauses and
    one attempt more. -/
theorem RetryRun.cost_eq
    (hattempt : ∀ s r s₁, attempt s = some (r, s₁) → r.isOk = false ∧ cost s₁ = cost s + a)
    (hpause : ∀ count s r s₁, pause count s = some (r, s₁) →
      r.isOk = true ∧ cost s₁ = cost s + p count)
    {count : ℕ} {s s' : σ} {r : Except ε α} (h : RetryRun attempt again pause count s r s') :
    ∀ k, (∀ i e, again i e = true ↔ i < count + k) → cost s' = cost s + retryCost a p count k := by
  induction h with
  | value hatt => exact absurd (hattempt _ _ _ hatt).1 (by simp [Except.isOk, Except.toBool])
  | @giveUp count s s₁ e hatt hstop =>
      intro k hk
      cases k with
      | zero => exact (hattempt _ _ _ hatt).2
      | succ k =>
          have hagain : again count e = true := (hk count e).2 (by omega)
          rw [hstop] at hagain
          cases hagain
  | pauseRaises _ _ hp => exact absurd (hpause _ _ _ _ hp).1 (by simp [Except.isOk, Except.toBool])
  | @next count s s₁ s₂ s₃ e u r hatt hagain hp _ ih =>
      intro k hk
      cases k with
      | zero => exact absurd ((hk count e).1 hagain) (by omega)
      | succ k =>
          have hrest := ih k (fun i e => by rw [hk, Nat.add_right_comm, Nat.add_assoc])
          rw [hrest, (hpause _ _ _ _ hp).2, (hattempt _ _ _ hatt).2, retryCost, add_assoc,
            add_assoc, add_assoc]

variable [PartialOrder M] [IsOrderedAddMonoid M]

theorem le_retryCost (ha : 0 ≤ a) (hp : ∀ i, 0 ≤ p i) (count k : ℕ) :
    a ≤ retryCost a p count k ∧ (0 < k → a + p count ≤ retryCost a p count k) := by
  induction k generalizing count with
  | zero => exact ⟨le_rfl, fun h => absurd h (lt_irrefl 0)⟩
  | succ k ih =>
      have hrest : 0 ≤ retryCost a p (count + 1) k := ha.trans (ih (count + 1)).1
      have hle : a + p count ≤ retryCost a p count (k + 1) := le_add_of_nonneg_right hrest
      exact ⟨(le_add_of_nonneg_right (hp count)).trans hle, fun _ => hle⟩

/-- **What a run costs.** Where no attempt costs more than `a`, the pause after `i` failures no more
    than `p i`, and nothing is retried after `count + k` failures, a run from `count` failures on
    costs at most `k` attempts with their pauses and one attempt more. -/
theorem RetryRun.cost_le (ha : 0 ≤ a) (hp : ∀ i, 0 ≤ p i)
    (hattempt : ∀ s r s₁, attempt s = some (r, s₁) → cost s₁ ≤ cost s + a)
    (hpause : ∀ count s r s₁, pause count s = some (r, s₁) → cost s₁ ≤ cost s + p count)
    {count : ℕ} {s s' : σ} {r : Except ε α} (h : RetryRun attempt again pause count s r s') :
    ∀ k, (∀ e, again (count + k) e = false) → cost s' ≤ cost s + retryCost a p count k := by
  have hpos : ∀ {count k : ℕ} {e : ε}, again count e = true →
      (∀ e, again (count + k) e = false) → ∃ k', k = k' + 1 := by
    intro count k e hagain hk
    cases k with
    | zero => exact absurd hagain (by simp [show again count e = false from hk e])
    | succ k => exact ⟨k, rfl⟩
  induction h with
  | value hatt =>
      intro k _
      exact (hattempt _ _ _ hatt).trans (add_le_add_right (le_retryCost ha hp _ k).1 _)
  | giveUp hatt _ =>
      intro k _
      exact (hattempt _ _ _ hatt).trans (add_le_add_right (le_retryCost ha hp _ k).1 _)
  | @pauseRaises count s s₁ s₂ e e' hatt hagain hpa =>
      intro k hk
      obtain ⟨k, rfl⟩ := hpos hagain hk
      calc cost s₂ ≤ cost s₁ + p count := hpause _ _ _ _ hpa
        _ ≤ cost s + a + p count := add_le_add_left (hattempt _ _ _ hatt) _
        _ = cost s + (a + p count) := add_assoc _ _ _
        _ ≤ cost s + retryCost a p count (k + 1) :=
          add_le_add_right ((le_retryCost ha hp count (k + 1)).2 (Nat.succ_pos k)) _
  | @next count s s₁ s₂ s₃ e u r hatt hagain hpa _ ih =>
      intro k hk
      obtain ⟨k, rfl⟩ := hpos hagain hk
      have hrest := ih k (fun e => by rw [Nat.add_right_comm, Nat.add_assoc]; exact hk e)
      calc cost s₃ ≤ cost s₂ + retryCost a p (count + 1) k := hrest
        _ ≤ cost s + a + p count + retryCost a p (count + 1) k :=
          add_le_add_left ((hpause _ _ _ _ hpa).trans (add_le_add_left (hattempt _ _ _ hatt) _)) _
        _ = cost s + retryCost a p count (k + 1) := by
          rw [retryCost, add_assoc, add_assoc, add_assoc]

end Cost

/-- **The log of a run is the logs of its attempts.** Where each attempt appends `emit t` to the log
    for some `t` that accounts for its result, and a pause neither raises nor touches the log, a run
    is a list of failed attempts that were retried and a last one that was not. -/
theorem RetryRun.attempts {τ ℓ : Type} {log : σ → List ℓ} {emit : τ → List ℓ}
    {Good : τ → Except ε α → Prop}
    (hattempt : ∀ s r s₁, attempt s = some (r, s₁) → ∃ t, Good t r ∧ log s₁ = log s ++ emit t)
    (hpause : ∀ count s r s₁, pause count s = some (r, s₁) → r.isOk = true ∧ log s₁ = log s)
    {count : ℕ} {s s' : σ} {r : Except ε α} (h : RetryRun attempt again pause count s r s') :
    ∃ ts t, log s' = log s ++ (ts ++ [t]).flatMap emit ∧ Good t r ∧
      (∀ i (hi : i < ts.length), ∃ e, Good ts[i] (.error e) ∧ again (count + i) e = true) ∧
      (∀ e, r = .error e → again (count + ts.length) e = false) := by
  induction h with
  | value hatt =>
      obtain ⟨t, hgood, hlog⟩ := hattempt _ _ _ hatt
      exact ⟨[], t, by simpa using hlog, hgood, by simp, by simp⟩
  | giveUp hatt hagain =>
      obtain ⟨t, hgood, hlog⟩ := hattempt _ _ _ hatt
      refine ⟨[], t, by simpa using hlog, hgood, by simp, ?_⟩
      intro e' he'
      cases he'
      exact hagain
  | pauseRaises _ _ hp => exact absurd (hpause _ _ _ _ hp).1 (by simp [Except.isOk, Except.toBool])
  | next hatt hagain hp _ ih =>
      obtain ⟨t₀, hgood₀, hlog₀⟩ := hattempt _ _ _ hatt
      obtain ⟨ts, t, hlog, hgood, hts, hlast⟩ := ih
      refine ⟨t₀ :: ts, t, ?_, hgood, ?_, ?_⟩
      · rw [hlog, (hpause _ _ _ _ hp).2, hlog₀]
        simp
      · intro i hi
        cases i with
        | zero => exact ⟨_, hgood₀, hagain⟩
        | succ i =>
            obtain ⟨e, hge, hae⟩ := hts i (by simpa using hi)
            rw [Nat.add_right_comm] at hae
            exact ⟨e, hge, hae⟩
      · intro e he
        have hstop := hlast e he
        rwa [Nat.add_right_comm] at hstop

end IotLoggingServer
