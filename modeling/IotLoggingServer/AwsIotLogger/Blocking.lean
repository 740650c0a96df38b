import IotLoggingServer.StreamService

set_option autoImplicit false

/-! # How long an upload blocks the uploader

The pauses of `_create_log_stream` and `put_log_events` nest: each of the seven rounds of a put may
sleep through sixteen pauses of its creates. Whatever the service answers, an upload sleeps for at
most 2928 seconds (`upload_slept_le`), and a run for at most that for each batch handed over; for a
missing log group it is exactly that (`slept_le`). -/

namespace IotLoggingServer

/-- The time slept so far, in seconds. -/
def World.slept (w : World) : ℚ := (w.sleeps.map Num.val).sum

/-- The longest pauses of one call of `_create_log_stream`: 2, 4, 8 and 16 seconds, then twelve
    times 32. -/
def createPauses : ℚ := 414

/-- The longest pauses of one call of `put_log_events`: 2 and 4 seconds, then four times 6, and in
    each of its seven rounds those of the creates. -/
def putPauses : ℚ := 30 + 7 * createPauses

section Pause

variable {args : RetryArgs} {n : ℤ}

/-- A pause returns, and takes the time computed for it. -/
theorem pause_slept (hfactor : args.backoffFactor = .int n) {count : ℕ} {w w' : World} {r : Answer}
    (hn : 0 ≤ n) (hmax : 0 ≤ args.backoffMax) (h : args.pause timeSleep count w = some (r, w')) :
    r.isOk = true ∧ w'.slept = w.slept + (args.boundedPause n count : ℤ) := by
  have hnonneg : ¬ (Num.int (args.boundedPause n count)).val < 0 := by
    obtain ⟨t, ht, hpos⟩ := args.sleepTime_int hfactor hn hmax count
    rw [args.sleepTime_eq hfactor, Except.ok.injEq] at ht
    rw [ht]
    exact not_lt.2 hpos
  simp only [RetryArgs.pause, args.sleepTime_eq hfactor, timeSleep, sleepError, if_neg hnonneg,
    Option.some.injEq, Prod.mk.injEq] at h
  obtain ⟨rfl, rfl⟩ := h
  exact ⟨rfl, by simp [World.slept, Num.val]⟩

theorem boundedPause_nonneg (hn : 0 ≤ n) (hmax : 0 ≤ args.backoffMax) (count : ℕ) :
    (0 : ℚ) ≤ (args.boundedPause n count : ℤ) :=
  Int.cast_nonneg (le_min (mul_nonneg hn (pow_nonneg (by decide) count)) hmax)

end Pause

theorem retryCost_create :
    retryCost (0 : ℚ) (fun i => (createRetryArgs.boundedPause 2 i : ℤ)) 0 16 = createPauses := by
  norm_num [retryCost, RetryArgs.boundedPause, createRetryArgs, createPauses]

theorem retryCost_put :
    retryCost createPauses (fun i => (putRetryArgs.boundedPause 2 i : ℤ)) 0 6 = putPauses := by
  norm_num [retryCost, RetryArgs.boundedPause, putRetryArgs, putPauses, createPauses]

/-! ## At most -/

theorem AwsClient.call_slept {client : AwsClient} {call : ClientCall} {w w' : World} {a : Answer}
    (h : client.call call w = (a, w')) : w'.slept = w.slept := by
  cases h
  rfl

theorem createLogStreamBody_slept {client : AwsClient} {g s : Str} {w w' : World} {r : Answer}
    (h : createLogStreamBody client g s w = some (r, w')) : w'.slept = w.slept := by
  unfold createLogStreamBody at h
  split at h
  all_goals
    next hcall =>
      cases h
      exact AwsClient.call_slept hcall

theorem createLogStream_slept {client : AwsClient} {g s : Str} {w w' : World} {r : Answer}
    (h : createLogStream client g s w = some (r, w')) : w'.slept ≤ w.slept + createPauses := by
  have hcost := @RetryRun.cost_le World PyExc Unit (createLogStreamBody client g s)
    createRetryArgs.again (createRetryArgs.pause timeSleep) ℚ _ World.slept 0
    (fun i => (createRetryArgs.boundedPause 2 i : ℤ)) _ _ le_rfl
    (boundedPause_nonneg (by decide) (by decide))
    (fun _ _ _ hbody => by rw [createLogStreamBody_slept hbody, add_zero])
    (fun _ _ _ _ hp => (pause_slept rfl (by decide) (by decide) hp).2.le) _ _ _ _
    (retryLoop_sound _ _ _ _ _ h) 16 (createRetryArgs.again_maxRetry rfl (by decide))
  rwa [retryCost_create] at hcost

theorem putLogEventsBody_slept {client : AwsClient} {g s : Str} {msgs : List LogMessage}
    {w w' : World} {r : Answer} (h : putLogEventsBody client g s msgs w = some (r, w')) :
    w'.slept ≤ w.slept + createPauses := by
  have hpos : (0 : ℚ) ≤ createPauses := by norm_num [createPauses]
  unfold putLogEventsBody at h
  split at h
  · next hcall =>
      cases h
      rw [AwsClient.call_slept hcall]
      exact le_add_of_nonneg_right hpos
  · next hcall =>
      split at h
      · cases h
      · next hcreate =>
          cases h
          rw [← AwsClient.call_slept hcall]
          exact createLogStream_slept hcreate
      · next hcreate =>
          cases h
          rw [← AwsClient.call_slept hcall]
          exact createLogStream_slept hcreate
  · next hcall =>
      cases h
      rw [AwsClient.call_slept hcall]
      exact le_add_of_nonneg_right hpos

/-- An upload sleeps for 2928 seconds at most. -/
theorem AwsClient.upload_slept_le (client : AwsClient) (call : PutCall) (w : World) :
    (client.upload call w).2.slept ≤ w.slept + putPauses := by
  have hcost := @RetryRun.cost_le World PyExc Unit
    (putLogEventsBody client call.logGroupName call.logStreamName call.logs)
    putRetryArgs.again (putRetryArgs.pause timeSleep) ℚ _ World.slept createPauses
    (fun i => (putRetryArgs.boundedPause 2 i : ℤ)) _ _ (by norm_num [createPauses])
    (boundedPause_nonneg (by decide) (by decide)) (fun _ _ _ => putLogEventsBody_slept)
    (fun _ _ _ _ hp => (pause_slept rfl (by decide) (by decide) hp).2.le) _ _ _ _
    (retryLoop_sound _ _ _ _ _ (client.putLogEvents_upload call w)) 6
    (putRetryArgs.again_maxRetry rfl (by decide))
  rwa [retryCost_put] at hcost

/-! ## A missing group -/

section Missing

variable {client : AwsClient} {group : Str} {w w' : World} {r : Answer}

theorem MissingGroup.createLogStream_slept (h : MissingGroup client group) {stream : Str}
    (hcreate : createLogStream client group stream w = some (r, w')) :
    w'.slept = w.slept + createPauses := by
  have hcost := @RetryRun.cost_eq World PyExc Unit (createLogStreamBody client group stream)
    createRetryArgs.again (createRetryArgs.pause timeSleep) ℚ _ World.slept 0
    (fun i => (createRetryArgs.boundedPause 2 i : ℤ))
    (fun w r w' hbody => by
      obtain ⟨r', w'', hbody', -, hok⟩ := createLogStreamBody_spec client group stream w
      rw [createLogStreamBody_slept hbody, add_zero]
      rw [hbody] at hbody'
      cases hbody'
      cases r with
      | error e => exact ⟨rfl, rfl⟩
      | ok u =>
          have hexists := hok.1 rfl
          rw [h.create] at hexists
          cases hexists)
    (fun _ _ _ _ => pause_slept rfl (by decide) (by decide)) _ _ _ _
    (retryLoop_sound _ _ _ _ _ hcreate) 16 (createRetryArgs.again_iff rfl (by decide) rfl)
  rwa [retryCost_create] at hcost

theorem MissingGroup.putLogEventsBody_slept (h : MissingGroup client group) {stream : Str}
    {msgs : List LogMessage} (hput : putLogEventsBody client group stream msgs w = some (r, w')) :
    r.isOk = false ∧ w'.slept = w.slept + createPauses := by
  have hcall : client.call (.putLogEvents ⟨group, stream, msgs⟩) w =
      (.error .resourceNotFound, (client.call (.putLogEvents ⟨group, stream, msgs⟩) w).2) :=
    Prod.ext (h.put _ _ _) rfl
  rw [← AwsClient.call_slept hcall]
  simp only [putLogEventsBody] at hput
  rw [hcall] at hput
  dsimp only at hput
  split at hput
  · cases hput
  · next hcreate =>
      cases hput
      exact ⟨rfl, h.createLogStream_slept hcreate⟩
  · next hcreate =>
      cases hput
      exact ⟨rfl, h.createLogStream_slept hcreate⟩

/-- An upload for a missing group sleeps through every pause there is. -/
theorem MissingGroup.upload_slept {call : PutCall} (h : MissingGroup client call.logGroupName)
    (w : World) : (client.upload call w).2.slept = w.slept + putPauses := by
  have hcost := @RetryRun.cost_eq World PyExc Unit
    (putLogEventsBody client call.logGroupName call.logStreamName call.logs)
    putRetryArgs.again (putRetryArgs.pause timeSleep) ℚ _ World.slept createPauses
    (fun i => (putRetryArgs.boundedPause 2 i : ℤ)) (fun _ _ _ => h.putLogEventsBody_slept)
    (fun _ _ _ _ => pause_slept rfl (by decide) (by decide)) _ _ _ _
    (retryLoop_sound _ _ _ _ _ (client.putLogEvents_upload call w)) 6
    (putRetryArgs.again_iff rfl (by decide) rfl)
  rwa [retryCost_put] at hcost

end Missing

/-! ## Runs -/

theorem putPauses_eq : putPauses = 2928 := by norm_num [putPauses, createPauses]

/-- **However the service fails, a run sleeps for at most 2928 seconds for each batch it hands
    over**, and for exactly that if the log groups of all of them are missing. -/
theorem LoggingSystem.slept_le (self : LoggingSystem) (maxsize : ℤ)
    (actions : List SystemAction) :
    let s := self.run maxsize actions
    s.world.slept ≤ 2928 * s.server.handed.length ∧
    ((∀ call ∈ s.server.handed, MissingGroup self.client call.logGroupName) →
      s.world.slept = 2928 * s.server.handed.length) := by
  refine @foldl_invariant _ _ self.step (fun s => s.world.slept ≤ 2928 * s.server.handed.length ∧
    ((∀ call ∈ s.server.handed, MissingGroup self.client call.logGroupName) →
      s.world.slept = 2928 * s.server.handed.length)) (fun s a hs => ?_) actions _ ?_
  · rcases self.step_cases s a with ⟨b, -, hhanded, hworld⟩ |
      ⟨today, batch, rest, outcome, -, -, hhanded, hworld⟩
    · rwa [hworld, hhanded]
    · generalize self.server.iotLogger.putCall today.strftime batch = call at hhanded hworld
      rw [hworld, hhanded, List.length_append, List.length_singleton, Nat.cast_add, Nat.cast_one,
        mul_add, mul_one, ← putPauses_eq]
      rw [← putPauses_eq] at hs
      refine ⟨(self.client.upload_slept_le call s.world).trans (add_le_add_left hs.1 _),
        fun hmissing => ?_⟩
      rw [List.forall_mem_append, List.forall_mem_singleton] at hmissing
      rw [hmissing.2.upload_slept, hs.2 hmissing.1]
  · simp [SystemState.start, ServerState.start, World.slept]

/-- A server that uploads two batches for groups that do not exist. -/
theorem slept_le_example :
    ((⟨exampleServer, missingService⟩ : LoggingSystem).run 8 exampleSystemActions).world.slept =
      5856 := by
  have hslept := ((⟨exampleServer, missingService⟩ : LoggingSystem).slept_le 8
    exampleSystemActions).2 (fun _ _ => missingGroup_missingService _)
  have hhanded : ((⟨exampleServer, missingService⟩ : LoggingSystem).run 8
      exampleSystemActions).server.handed.length = 2 := by
    decide
  rw [hslept, hhanded]
  norm_num

end IotLoggingServer
