import IotLoggingServer.Lib.Retry
import IotLoggingServer.Python

set_option autoImplicit false

/-! # Helpers (`_utils.py`): the `retry` decorator

The pause after `count` failures is `min(backoff_factor * 2**count, backoff_max)`. Where the retries
have a limit and the factor is an integer, the calls and pauses of the decorated function are known
one by one (`retry_limited`). Where they have none, it gives up all the same once a float factor
meets a power of two that no float can hold (`retry_neverGivesUp_iff`). -/

namespace IotLoggingServer

/-- The keyword arguments of `retry`, with its defaults. -/
structure RetryArgs where
  backoffFactor : Num := .float (1 / 10)
  backoffMax : ℤ := 6
  maxRetry : ℤ := 6
  /-- `isinstance(e, retry_on_exceptions)` -/
  retryOnExceptions : PyExc → Bool := fun _ => true

/-- The first integer too large for `float(n)`. -/
def floatOverflow : ℕ := 2 ^ 1024

/-- `backoff_factor * (2**retry_count)`: a float factor first converts the integer to a float. -/
def backoff (factor : Num) (retryCount : ℕ) : Except PyExc Num :=
  match factor with
  | .int n => .ok (.int (n * 2 ^ retryCount))
  | .float x =>
    if floatOverflow ≤ 2 ^ retryCount then .error .overflowError
    else .ok (.float (x * 2 ^ retryCount))

/-- `min(backoff_factor * (2**retry_count), backoff_max)`. -/
def RetryArgs.sleepTime (args : RetryArgs) (retryCount : ℕ) : Except PyExc Num :=
  match backoff args.backoffFactor retryCount with
  | .ok t => .ok (if (args.backoffMax : ℚ) < t.val then .int args.backoffMax else t)
  | .error e => .error e

/-- `max_retry <= 0 or _retry_count < max_retry`, for an exception the decorator handles. -/
def RetryArgs.again (args : RetryArgs) (retryCount : ℕ) (e : PyExc) : Bool :=
  args.retryOnExceptions e && (decide (args.maxRetry ≤ 0) || decide (retryCount < args.maxRetry))

variable {σ α : Type}

/-- The sleep between two calls; it raises where computing or taking the pause does. -/
def RetryArgs.pause (args : RetryArgs) (sleep : Num → Call σ PyExc Unit) (retryCount : ℕ) :
    Call σ PyExc Unit := fun s =>
  match args.sleepTime retryCount with
  | .ok t => sleep t s
  | .error e => some (.error e, s)

/-- `retry(func, **args)`: the decorated function. -/
def retry (args : RetryArgs) (sleep : Num → Call σ PyExc Unit) (fuel : ℕ)
    (func : Call σ PyExc α) : Call σ PyExc α :=
  retryLoop func args.again (args.pause sleep) fuel 0

theorem floatOverflow_le_iff {count : ℕ} : floatOverflow ≤ 2 ^ count ↔ 1024 ≤ count := by
  rw [floatOverflow, Nat.pow_le_pow_iff_right (by decide)]

/-- A pause can be computed from an integer factor, and from a float one up to count 1023. -/
theorem backoff_ok {factor : Num} (hfactor : 0 ≤ factor.val) {count : ℕ}
    (h : (∃ m, factor = .int m) ∨ count < 1024) :
    ∃ t, backoff factor count = .ok t ∧ 0 ≤ t.val := by
  cases factor with
  | int m =>
      refine ⟨_, rfl, ?_⟩
      simp only [Num.val] at hfactor ⊢
      push_cast
      exact mul_nonneg hfactor (pow_nonneg (by decide) count)
  | float x =>
      have hcount : ¬ floatOverflow ≤ 2 ^ count := by
        rw [floatOverflow_le_iff]
        rcases h with ⟨m, hm⟩ | hlt
        · cases hm
        · omega
      refine ⟨.float (x * 2 ^ count), by rw [backoff, if_neg hcount], ?_⟩
      exact mul_nonneg hfactor (pow_nonneg (by decide) count)

/-- The cap keeps a pause that could be computed, and keeps it from being negative. -/
theorem RetryArgs.sleepTime_ok {args : RetryArgs} (hfactor : 0 ≤ args.backoffFactor.val)
    (hmax : 0 ≤ args.backoffMax) {count : ℕ}
    (h : (∃ m, args.backoffFactor = .int m) ∨ count < 1024) :
    ∃ t, args.sleepTime count = .ok t ∧ 0 ≤ t.val := by
  obtain ⟨t, ht, hnonneg⟩ := backoff_ok hfactor h
  rw [RetryArgs.sleepTime, ht]
  refine ⟨_, rfl, ?_⟩
  split
  · simpa [Num.val] using hmax
  · exact hnonneg

/-- The pause after call `i` for an integer factor. -/
def RetryArgs.boundedPause (args : RetryArgs) (factor : ℤ) (i : ℕ) : ℤ :=
  min (factor * 2 ^ i) args.backoffMax

section IntegerFactor

variable {args : RetryArgs} {factor : ℤ}

theorem RetryArgs.sleepTime_eq (hfactor : args.backoffFactor = .int factor) (i : ℕ) :
    args.sleepTime i = .ok (.int (args.boundedPause factor i)) := by
  rw [RetryArgs.sleepTime, hfactor]
  simp only [backoff, Num.val, Int.cast_lt, RetryArgs.boundedPause]
  split
  · next hlt => rw [min_eq_right (le_of_lt hlt)]
  · next hge => rw [min_eq_left (not_lt.1 hge)]

/-- The pauses never decrease. -/
theorem RetryArgs.boundedPause_le (hnonneg : 0 ≤ factor) {i j : ℕ} (hij : i ≤ j) :
    args.boundedPause factor i ≤ args.boundedPause factor j := by
  apply min_le_min_right
  exact mul_le_mul_of_nonneg_left (pow_le_pow_right₀ (by decide) hij) hnonneg

/-- An integer backoff never fails to compute a pause, and no pause is negative. -/
theorem RetryArgs.sleepTime_int (hfactor : args.backoffFactor = .int factor)
    (hnonneg : 0 ≤ factor) (hmax : 0 ≤ args.backoffMax) (count : ℕ) :
    ∃ t, args.sleepTime count = .ok t ∧ 0 ≤ t.val := by
  refine ⟨_, args.sleepTime_eq hfactor count, Int.cast_nonneg (le_min ?_ hmax)⟩
  exact mul_nonneg hnonneg (pow_nonneg (by decide) count)

end IntegerFactor

/-- A bounded retry does not retry once `max_retry` attempts failed. -/
theorem RetryArgs.again_maxRetry {args : RetryArgs} {m : ℕ} (hm : args.maxRetry = m) (hpos : 0 < m)
    (e : PyExc) : args.again m e = false := by
  have hne : ¬ args.maxRetry ≤ 0 := by omega
  simp [RetryArgs.again, hm, hpos.ne']

/-- One that handles every exception retries the first `max_retry` failures. -/
theorem RetryArgs.again_iff {args : RetryArgs} {m : ℕ} (hm : args.maxRetry = m) (hpos : 0 < m)
    (hall : args.retryOnExceptions = fun _ => true) (count : ℕ) (e : PyExc) :
    args.again count e = true ↔ count < m := by
  simp only [RetryArgs.again, hm, hall, Bool.true_and, Bool.or_eq_true, decide_eq_true_eq]
  omega

/-! ## Calls and pauses

The decorated function is known by the outcomes of its calls; the log keeps what it does. -/

inductive RetryEvent
  | call
  | sleep (t : Num)
  deriving DecidableEq, Repr

def callCount (log : List RetryEvent) : ℕ := log.count .call

/-- A function whose calls, counted from 0, have these outcomes. -/
def scriptedCall (outcomes : ℕ → Except PyExc α) : Call (List RetryEvent) PyExc α := fun log =>
  some (outcomes (callCount log), log ++ [.call])

/-- `time.sleep`: it returns unless it raises for a negative argument. -/
def loggedSleep (t : Num) : Call (List RetryEvent) PyExc Unit := fun log =>
  match sleepError t with
  | some e => some (.error e, log)
  | none => some (.ok (), log ++ [.sleep t])

/-- Call `i` raises an exception that the wrapper handles. -/
def Handled (args : RetryArgs) (outcomes : ℕ → Except PyExc α) (i : ℕ) : Prop :=
  ∃ e, outcomes i = .error e ∧ args.retryOnExceptions e = true

/-- A handled exception is retried while the limit, if there is one, is not reached. -/
theorem again_of_handled {args : RetryArgs} {outcomes : ℕ → Except PyExc α} {i : ℕ}
    (h : Handled args outcomes i) (hi : args.maxRetry ≤ 0 ∨ (i : ℤ) < args.maxRetry) :
    ∃ e, outcomes i = .error e ∧ args.again i e = true := by
  obtain ⟨e, he, hhandled⟩ := h
  refine ⟨e, he, ?_⟩
  simpa [RetryArgs.again, hhandled] using hi

/-- No other exception is retried. -/
theorem again_of_unhandled {args : RetryArgs} {outcomes : ℕ → Except PyExc α} {i : ℕ}
    (h : ¬ Handled args outcomes i) : ∀ e, outcomes i = .error e → args.again i e = false := by
  intro e he
  have hunhandled : args.retryOnExceptions e = false :=
    Bool.eq_false_of_not_eq_true (fun hhandled => h ⟨e, he, hhandled⟩)
  simp [RetryArgs.again, hunhandled]

/-- `k` calls, each with its pause after it. -/
def retryLog (pauses : ℕ → Num) (k : ℕ) : List RetryEvent :=
  (List.range k).flatMap (fun i => [.call, .sleep (pauses i)])

theorem retryLog_succ (pauses : ℕ → Num) (k : ℕ) :
    retryLog pauses (k + 1) = (retryLog pauses k ++ [.call]) ++ [.sleep (pauses k)] := by
  simp [retryLog, List.range_succ]

theorem callCount_retryLog (pauses : ℕ → Num) (k : ℕ) : callCount (retryLog pauses k) = k := by
  induction k with
  | zero => rfl
  | succ k ih =>
      rw [retryLog_succ, callCount, List.count_append, List.count_append, ← callCount, ih]
      rfl

/-- With the call that the pauses lead to. -/
theorem callCount_retryLog_call (pauses : ℕ → Num) (k : ℕ) :
    callCount (retryLog pauses k ++ [.call]) = k + 1 := by
  rw [callCount, List.count_append, ← callCount, callCount_retryLog]
  rfl

/-- The pause after call `i`, where it can be computed. -/
def RetryArgs.pauseAt (args : RetryArgs) (i : ℕ) : Num :=
  match args.sleepTime i with
  | .ok t => t
  | .error _ => .int 0

/-- The decorated function after `k` handled failures. -/
theorem retry_skip {args : RetryArgs} {outcomes : ℕ → Except PyExc α} {k : ℕ}
    (hfail : ∀ i < k, ∃ e, outcomes i = .error e ∧ args.again i e = true)
    (hpause : ∀ i < k, ∃ t, args.sleepTime i = .ok t ∧ 0 ≤ t.val) (fuel : ℕ) :
    retry args loggedSleep (k + fuel) (scriptedCall outcomes) [] =
      retryLoop (scriptedCall outcomes) args.again (args.pause loggedSleep) fuel k
        (retryLog args.pauseAt k) := by
  have hskip := @retryLoop_skip (List RetryEvent) PyExc α (scriptedCall outcomes) args.again
    (args.pause loggedSleep) 0 k (retryLog args.pauseAt)
    (fun i => retryLog args.pauseAt i ++ [.call])
  rw [Nat.zero_add] at hskip
  refine hskip ?_ ?_ fuel
  · intro i hi
    obtain ⟨e, he, hagain⟩ := hfail i hi
    refine ⟨e, ?_, by rwa [Nat.zero_add]⟩
    rw [scriptedCall, callCount_retryLog, he]
  · intro i hi
    obtain ⟨t, ht, hnonneg⟩ := hpause i hi
    have hat : args.pauseAt i = t := by rw [RetryArgs.pauseAt, ht]
    refine ⟨(), ?_⟩
    rw [Nat.zero_add, RetryArgs.pause, ht, retryLog_succ, hat]
    simp only [loggedSleep, sleepError, if_neg (not_lt.2 hnonneg)]

/-- The decorated function ends with the first call that is not retried. -/
theorem retry_ends {args : RetryArgs} {outcomes : ℕ → Except PyExc α} {k : ℕ}
    (hfail : ∀ i < k, ∃ e, outcomes i = .error e ∧ args.again i e = true)
    (hpause : ∀ i < k, ∃ t, args.sleepTime i = .ok t ∧ 0 ≤ t.val)
    (hlast : ∀ e, outcomes k = .error e → args.again k e = false) {fuel : ℕ} (hfuel : k < fuel) :
    retry args loggedSleep fuel (scriptedCall outcomes) [] =
      some (outcomes k, retryLog args.pauseAt k ++ [.call]) := by
  obtain ⟨fuel, rfl⟩ := Nat.exists_eq_add_of_lt hfuel
  have hatt : scriptedCall outcomes (retryLog args.pauseAt k)
      = some (outcomes k, retryLog args.pauseAt k ++ [.call]) := by
    rw [scriptedCall, callCount_retryLog]
  rw [Nat.add_assoc, retry_skip hfail hpause]
  exact retryLoop_stop hatt hlast fuel

/-! ## Retrying without a limit -/

section Unlimited

variable {args : RetryArgs} {outcomes : ℕ → Except PyExc α} {n : ℕ} {v : α}

/-- The wrapper returns `v` after `n + 1` calls. -/
def ReturnsAfter (args : RetryArgs) (outcomes : ℕ → Except PyExc α) (n : ℕ) (v : α) : Prop :=
  ∃ fuel₀, ∀ fuel ≥ fuel₀, ∃ log,
    retry args loggedSleep fuel (scriptedCall outcomes) [] = some (.ok v, log) ∧
      callCount log = n + 1

theorem returnsAfter_of_pauses (hagain : ∀ i < n, ∃ e, outcomes i = .error e ∧
      args.again i e = true) (hvalue : outcomes n = .ok v)
    (hpause : ∀ i < n, ∃ t, args.sleepTime i = .ok t ∧ 0 ≤ t.val) :
    ReturnsAfter args outcomes n v := by
  refine ⟨n + 1, fun fuel hfuel => ⟨retryLog args.pauseAt n ++ [.call], ?_, ?_⟩⟩
  · rw [← hvalue]
    exact retry_ends hagain hpause (fun e he => by rw [hvalue] at he; cases he) hfuel
  · exact callCount_retryLog_call args.pauseAt n

/-- After 1024 pauses, the next one cannot be computed from a float factor. -/
theorem retry_overflow {x : ℚ} (hfactor : args.backoffFactor = .float x)
    (hagain : ∀ i < n, ∃ e, outcomes i = .error e ∧ args.again i e = true) (hn : 1024 < n)
    (hpause : ∀ i < 1024, ∃ t, args.sleepTime i = .ok t ∧ 0 ≤ t.val) (fuel : ℕ) :
    retry args loggedSleep (1024 + (fuel + 1)) (scriptedCall outcomes) [] =
      some (.error .overflowError, retryLog args.pauseAt 1024 ++ [.call]) := by
  obtain ⟨e, he, hretry⟩ := hagain 1024 hn
  have hsleep : args.sleepTime 1024 = .error .overflowError := by
    rw [RetryArgs.sleepTime, hfactor, backoff]
    simp only [floatOverflow_le_iff.2 (Nat.le_refl 1024), if_true]
  rw [retry_skip (fun i hi => hagain i (Nat.lt_trans hi hn)) hpause, retryLoop, scriptedCall,
    callCount_retryLog, he]
  simp only [hretry, if_true, RetryArgs.pause, hsleep]

theorem not_returnsAfter {x : ℚ} (hfactor : args.backoffFactor = .float x) (hx : 0 ≤ x)
    (hbackoff : 0 ≤ args.backoffMax)
    (hagain : ∀ i < n, ∃ e, outcomes i = .error e ∧ args.again i e = true) (hn : 1024 < n) :
    ¬ ReturnsAfter args outcomes n v := by
  have hpause : ∀ i < 1024, ∃ t, args.sleepTime i = .ok t ∧ 0 ≤ t.val := by
    intro i hi
    exact args.sleepTime_ok (by rwa [hfactor]) hbackoff (Or.inr hi)
  intro h
  obtain ⟨fuel₀, hreturns⟩ := h
  obtain ⟨log, hlog, -⟩ := hreturns (1024 + (fuel₀ + 1)) (by omega)
  rw [retry_overflow hfactor hagain hn hpause] at hlog
  cases hlog

/-- **Unlimited retry gives up exactly where a float backoff overflows.** A function that fails `n`
    times and then returns is called until it returns iff the factor is an integer or there are at
    most 1024 failures: the power of two that a float factor is multiplied by is itself converted to
    a float, before it is capped. -/
theorem retry_neverGivesUp_iff (hmax : args.maxRetry ≤ 0) (hfactor : 0 ≤ args.backoffFactor.val)
    (hbackoff : 0 ≤ args.backoffMax)
    (hfail : ∀ i < n, ∃ e, outcomes i = .error e ∧ args.retryOnExceptions e = true)
    (hvalue : outcomes n = .ok v) :
    ReturnsAfter args outcomes n v ↔ (∃ m, args.backoffFactor = .int m) ∨ n ≤ 1024 := by
  have hagain := fun i hi => again_of_handled (hfail i hi) (Or.inl hmax)
  constructor
  · intro h
    by_contra hnot
    rw [not_or, not_le] at hnot
    obtain ⟨hfloat, hn⟩ := hnot
    cases hcases : args.backoffFactor with
    | int m => exact hfloat ⟨m, hcases⟩
    | float x =>
        rw [hcases] at hfactor
        exact not_returnsAfter hcases hfactor hbackoff hagain hn h
  · intro h
    apply returnsAfter_of_pauses hagain hvalue
    intro i hi
    apply args.sleepTime_ok hfactor hbackoff
    rcases h with hint | hn
    · exact Or.inl hint
    · exact Or.inr (by omega)

end Unlimited

/-- Failing `n` times, then returning. -/
def failing (n i : ℕ) : Except PyExc ℕ := if i < n then .error (.other 0) else .ok i

theorem failing_handled (n : ℕ) : ∀ i < n, ∃ e, failing n i = .error e ∧
    ({ maxRetry := 0 } : RetryArgs).retryOnExceptions e = true := by
  intro i hi
  exact ⟨.other 0, if_pos hi, rfl⟩

theorem retry_neverGivesUp_iff_example :
    ReturnsAfter { maxRetry := 0 } (failing 3) 3 3 ↔
      (∃ m, Num.float (1 / 10) = .int m) ∨ 3 ≤ 1024 :=
  @retry_neverGivesUp_iff ℕ { maxRetry := 0 } (failing 3) 3 3 (le_refl 0)
    (by simp only [Num.val]; norm_num) (by decide) (failing_handled 3) rfl

/-- With the default arguments but no limit, 1025 failures are one too many. -/
theorem not_retry_neverGivesUp : ¬ ReturnsAfter { maxRetry := 0 } (failing 1025) 1025 1025 :=
  not_returnsAfter rfl (by norm_num) (by decide)
    (fun i hi => again_of_handled (failing_handled 1025 i hi) (Or.inl (le_refl 0))) (by decide)

/-! ## Retrying with a limit -/

/-- The pauses of a log, in order. -/
def sleeps (log : List RetryEvent) : List Num :=
  log.filterMap (fun
    | .call => none
    | .sleep t => some t)

theorem sleeps_retryLog (pauses : ℕ → Num) (k : ℕ) :
    sleeps (retryLog pauses k) = (List.range k).map pauses := by
  induction k with
  | zero => rfl
  | succ k ih =>
      unfold sleeps at ih ⊢
      simp [retryLog_succ, ih, List.range_succ]

theorem sleeps_retryLog_call (pauses : ℕ → Num) (k : ℕ) :
    sleeps (retryLog pauses k ++ [.call]) = (List.range k).map pauses := by
  rw [← sleeps_retryLog]
  simp [sleeps]

section Limited

variable {args : RetryArgs} {outcomes : ℕ → Except PyExc α} {factor : ℤ}

/-- Call `k` is the first that does not raise an exception that the wrapper handles. -/
def FirstUnhandled (args : RetryArgs) (outcomes : ℕ → Except PyExc α) (k : ℕ) : Prop :=
  (∀ i < k, Handled args outcomes i) ∧ ¬ Handled args outcomes k

/-- The wrapper makes the calls up to `last` and ends as that one does; `log` is what it did. -/
structure EndsAfter (args : RetryArgs) (factor : ℤ) (outcomes : ℕ → Except PyExc α) (last : ℕ)
    (log : List RetryEvent) : Prop where
  ends : ∃ fuel₀, ∀ fuel ≥ fuel₀,
    retry args loggedSleep fuel (scriptedCall outcomes) [] = some (outcomes last, log)
  calls : callCount log = last + 1
  /-- one pause between a call and the next, and none after the last -/
  pauses : log = retryLog (fun i => .int (args.boundedPause factor i)) last ++ [.call]
  sorted : (sleeps log).Pairwise (fun t t' => t.val ≤ t'.val)
  capped : ∀ t ∈ sleeps log, t.val ≤ args.backoffMax

theorem endsAfter_of_calls (hfactor : args.backoffFactor = .int factor) (hnonneg : 0 ≤ factor)
    (hmax : 0 ≤ args.backoffMax) {last : ℕ}
    (hagain : ∀ i < last, ∃ e, outcomes i = .error e ∧ args.again i e = true)
    (hlast : ∀ e, outcomes last = .error e → args.again last e = false) :
    ∃ log, EndsAfter args factor outcomes last log := by
  have hsleep := args.sleepTime_eq hfactor
  have hpauses : args.pauseAt = fun i => .int (args.boundedPause factor i) := by
    funext i
    rw [RetryArgs.pauseAt, hsleep]
  have hpause := fun i (_ : i < last) => args.sleepTime_int hfactor hnonneg hmax i
  refine ⟨retryLog (fun i => .int (args.boundedPause factor i)) last ++ [.call], ?_⟩
  constructor
  · refine ⟨last + 1, fun fuel hfuel => ?_⟩
    rw [← hpauses]
    exact retry_ends hagain hpause hlast hfuel
  · exact callCount_retryLog_call _ last
  · rfl
  · rw [sleeps_retryLog_call, List.pairwise_map]
    refine List.pairwise_lt_range.imp (fun hij => ?_)
    exact Int.cast_le.2 (args.boundedPause_le hnonneg (le_of_lt hij))
  · rw [sleeps_retryLog_call]
    intro t ht
    obtain ⟨i, -, rfl⟩ := List.mem_map.1 ht
    exact Int.cast_le.2 (min_le_right _ _)

/-- Before the first unhandled call all are handled. -/
theorem handled_of_firstUnhandled {m : ℕ}
    (h : ∀ k, FirstUnhandled args outcomes k → m < k) : ∀ i ≤ m, Handled args outcomes i := by
  intro i
  induction i using Nat.strong_induction_on with
  | h i ih =>
      intro hi
      by_contra hnot
      have hlt := h i ⟨fun j hj => ih j hj (by omega), hnot⟩
      omega

/-- **A retry with a limit makes the calls and pauses it should.** It ends with the first call that
    returns or raises what is not handled, if that comes within the limit, and otherwise with the
    handled exception of the last call it may make; between two calls it pauses once, longer each
    time up to the cap. -/
theorem retry_limited (hretry : 1 ≤ args.maxRetry) (hfactor : args.backoffFactor = .int factor)
    (hnonneg : 0 ≤ factor) (hmax : 0 ≤ args.backoffMax) :
    (∀ k : ℕ, FirstUnhandled args outcomes k → (k : ℤ) ≤ args.maxRetry →
      ∃ log, EndsAfter args factor outcomes k log) ∧
    ((∀ k : ℕ, FirstUnhandled args outcomes k → args.maxRetry < k) →
      Handled args outcomes args.maxRetry.toNat ∧
        ∃ log, EndsAfter args factor outcomes args.maxRetry.toNat log) := by
  have hm : args.maxRetry = (args.maxRetry.toNat : ℤ) := (Int.toNat_of_nonneg (by omega)).symm
  constructor
  · intro k hk hle
    apply endsAfter_of_calls hfactor hnonneg hmax
    · intro i hi
      exact again_of_handled (hk.1 i hi) (Or.inr (by omega))
    · exact again_of_unhandled hk.2
  · intro hafter
    have hhandled := @handled_of_firstUnhandled α args outcomes args.maxRetry.toNat
      (fun k hk => by have hlt := hafter k hk; omega)
    refine ⟨hhandled _ (Nat.le_refl _), ?_⟩
    apply endsAfter_of_calls hfactor hnonneg hmax
    · intro i hi
      exact again_of_handled (hhandled i (by omega)) (Or.inr (by omega))
    · exact fun e _ => RetryArgs.again_maxRetry hm (by omega) e

end Limited

theorem retry_limited_example :
    ∃ log, EndsAfter { backoffFactor := .int 1, maxRetry := 3 } 1 (failing 2) 2 log := by
  refine (retry_limited (by decide) rfl (by decide) (by decide)).1 2 ⟨?_, ?_⟩ (by decide)
  · intro i hi
    exact ⟨.other 0, if_pos hi, rfl⟩
  · rintro ⟨e, he, -⟩
    cases he

end IotLoggingServer
