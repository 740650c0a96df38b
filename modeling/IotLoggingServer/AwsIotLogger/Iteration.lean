import IotLoggingServer.AwsIotLogger.Thread

set_option autoImplicit false

/-! # One iteration of the uploader's main loop

The thread is run step by step while producers put entries in the queue before each of its steps
and the AWS client answers as it likes. A rank that every step but the sleep lowers bounds the steps
of an iteration, whatever arrives meanwhile: the merge loop is bounded by a count, and no more
batches are uploaded than entries were merged. -/

namespace IotLoggingServer

/-- What surrounds the thread at its `i`-th step: the entries producers try to put just before it,
    the client (should the step call it), and the date. -/
structure Surroundings where
  arrivals : ℕ → List LogEntry
  client : ℕ → AwsClient
  today : ℕ → Str

/-- Producers put `entries`; what does not fit is dropped. -/
def LogsQueue.arrive (q : LogsQueue) (entries : List LogEntry) : LogsQueue :=
  entries.foldl (fun q e => (q.putNowait e).getD q) q

/-- How the decorated `put_log_events` ends for this client. -/
def putOutcome (client : AwsClient) (call : PutCall) : Answer :=
  ((putLogEvents client call.logGroupName call.logStreamName call.logs ⟨[], []⟩).get (by
    obtain ⟨r, w', _, hrun, _⟩ :=
      putLogEvents_spec client call.logGroupName call.logStreamName call.logs ⟨[], []⟩
    simp [hrun])).1

/-- The thread as it runs: its state, the queue, and what it did so far. -/
structure ThreadRun where
  thread : ThreadState
  queue : LogsQueue
  events : List ThreadEvent

/-- The run from the top of the loop with queue `q`. -/
def ThreadRun.start (q : LogsQueue) : ThreadRun := ⟨.top, q, []⟩

def AWSIoTLogger.runStep (self : AWSIoTLogger) (env : Surroundings) (i : ℕ) (r : ThreadRun) :
    ThreadRun :=
  let res := self.step (env.today i) (putOutcome (env.client i))
    (LogsQueue.arrive r.queue (env.arrivals i)) r.thread
  ⟨res.1, res.2.1, r.events ++ res.2.2.toList⟩

/-- `k` steps, the first of them being the `i`-th of the iteration. -/
def AWSIoTLogger.runSteps (self : AWSIoTLogger) (env : Surroundings) :
    ℕ → ℕ → ThreadRun → ThreadRun
  | _, 0, r => r
  | i, k + 1, r => self.runSteps env (i + 1) k (self.runStep env i r)

/-- `r` is the run of one iteration: from the top of the loop to its next visit there. -/
structure AWSIoTLogger.Iteration (self : AWSIoTLogger) (env : Surroundings) (q : LogsQueue)
    (r : ThreadRun) : Prop where
  run : ∃ k, 0 < k ∧ r = self.runSteps env 0 k (ThreadRun.start q) ∧
    ∀ j, 0 < j → j < k → (self.runSteps env 0 j (ThreadRun.start q)).thread ≠ .top
  top : r.thread = .top

/-- The iteration from queue `q` comes back to the top of the loop, and took an entry if there was
    one to take. -/
def AWSIoTLogger.KeepsDraining (self : AWSIoTLogger) (env : Surroundings) (q : LogsQueue) : Prop :=
  ∃ r, self.Iteration env q r ∧ (q.items ≠ [] → ∃ e, ThreadEvent.got e ∈ r.events)

/-! ## Arrivals -/

theorem LogsQueue.arrive_items (entries : List LogEntry) :
    ∀ q : LogsQueue, ∃ more, (LogsQueue.arrive q entries).items = q.items ++ more := by
  induction entries with
  | nil => intro q; exact ⟨[], by simp [LogsQueue.arrive]⟩
  | cons e rest ih =>
      intro q
      cases hput : q.putNowait e with
      | none =>
          obtain ⟨more, hmore⟩ := ih q
          exact ⟨more, by simpa [LogsQueue.arrive, hput] using hmore⟩
      | some q' =>
          obtain ⟨more, hmore⟩ := ih q'
          have hitems : q'.items = q.items ++ [e] := by
            rw [(PyQueue.putNowait_eq_some.1 hput).2]
          refine ⟨e :: more, ?_⟩
          rw [hitems] at hmore
          simpa [LogsQueue.arrive, hput] using hmore

/-! ## The rank of a thread state -/

/-- An upper bound on the steps to the next sleep, in a thread merging up to `limit` entries. -/
def ThreadState.rank (limit : ℤ) : ThreadState → ℕ
  | .merging n d => 2 * (limit - n).toNat + d.items.length + 3
  | .uploading items => items.length + 2
  | .sleeping => 1
  | .raised _ => 0

theorem appendEntry_length_le {κ μ : Type} [DecidableEq κ] (k : κ) (m : μ)
    (bs : List (κ × List μ)) : (appendEntry k m bs).length ≤ bs.length + 1 := by
  induction bs with
  | nil => simp [appendEntry]
  | cons b rest ih =>
      simp only [appendEntry]
      split
      · simp
      · simp only [List.length_cons]
        omega

variable (self : AWSIoTLogger) (env : Surroundings)

/-- A thread that is not about to sleep comes nearer to it, and is neither gone nor at the top. -/
theorem AWSIoTLogger.runStep_rank (i : ℕ) (r : ThreadRun) (hsleep : r.thread ≠ .sleeping)
    (hgone : ∀ e, r.thread ≠ .raised e) :
    (self.runStep env i r).thread.rank self.maxLogsPerMerge
        < r.thread.rank self.maxLogsPerMerge ∧
      (self.runStep env i r).thread ≠ .top ∧
      ∀ e, (self.runStep env i r).thread ≠ .raised e := by
  simp only [AWSIoTLogger.runStep]
  rcases self.step_cases (env.today i) (putOutcome (env.client i))
      (LogsQueue.arrive r.queue (env.arrivals i)) r.thread with
    ⟨n, d, e, rest, ht, hn, _, hstep⟩ | ⟨n, d, ht, _, hstep⟩ | ⟨b, rest, ht, hstep⟩ |
    ⟨ht, hstep⟩ | ⟨ht, _⟩ | ⟨e, ht | ⟨ht, _⟩, _⟩
  · have hlen := appendEntry_length_le e.source e.message d.items
    rw [hstep, ht]
    refine ⟨?_, by simp [ThreadState.top], by simp⟩
    simp only [ThreadState.rank, Groups.append]
    omega
  · rw [hstep, ht]
    exact ⟨by simp only [ThreadState.rank]; omega, by simp [ThreadState.top], by simp⟩
  · rw [hstep, ht]
    exact ⟨by simp [ThreadState.rank], by simp [ThreadState.top], by simp⟩
  · rw [hstep, ht]
    exact ⟨by simp [ThreadState.rank], by simp [ThreadState.top], by simp⟩
  · exact absurd ht hsleep
  · exact absurd ht (hgone e)
  · exact absurd ht hsleep

/-- Where sleeping does not raise, a living thread comes back to the top. -/
theorem AWSIoTLogger.runSteps_returns (hint : 0 ≤ self.interval) (bound : ℕ) :
    ∀ (i : ℕ) (r : ThreadRun), r.thread.rank self.maxLogsPerMerge ≤ bound →
      (∀ e, r.thread ≠ .raised e) →
      ∃ k, 0 < k ∧ (self.runSteps env i k r).thread = .top ∧
        ∀ j, 0 < j → j < k → (self.runSteps env i j r).thread ≠ .top := by
  induction bound with
  | zero =>
      intro i r hrank hgone
      cases hr : r.thread with
      | raised e => exact absurd hr (hgone e)
      | _ => simp [hr, ThreadState.rank] at hrank
  | succ bound ih =>
      intro i r hrank hgone
      by_cases hsleep : r.thread = .sleeping
      · refine ⟨1, Nat.one_pos, ?_, fun j hj hjk => absurd hj (by omega)⟩
        simp only [AWSIoTLogger.runSteps, AWSIoTLogger.runStep, hsleep]
        rw [self.step_sleep _ _ _ hint]
      · obtain ⟨hlt, hntop, hngone⟩ := self.runStep_rank env i r hsleep hgone
        obtain ⟨k, hk, htop, hfirst⟩ := ih (i + 1) (self.runStep env i r) (by omega) hngone
        refine ⟨k + 1, Nat.succ_pos k, htop, fun j hj hjk => ?_⟩
        obtain ⟨j, rfl⟩ := Nat.exists_eq_succ_of_ne_zero hj.ne'
        by_cases hj0 : j = 0
        · subst hj0
          exact hntop
        · exact hfirst j (Nat.pos_of_ne_zero hj0) (by omega)

/-! ## Events of a run -/

theorem AWSIoTLogger.runSteps_events (k : ℕ) :
    ∀ (i : ℕ) (r : ThreadRun), r.events <+: (self.runSteps env i k r).events := by
  induction k with
  | zero => intro i r; exact List.prefix_rfl
  | succ k ih =>
      intro i r
      exact (List.prefix_append _ _).trans (ih (i + 1) (self.runStep env i r))

/-- With a limit of zero or less no entry is ever taken. -/
theorem AWSIoTLogger.runSteps_no_got (hlimit : self.maxLogsPerMerge ≤ 0) (k : ℕ) :
    ∀ (i : ℕ) (r : ThreadRun), (∀ e, ThreadEvent.got e ∉ r.events) →
      ∀ e, ThreadEvent.got e ∉ (self.runSteps env i k r).events := by
  induction k with
  | zero => intro i r h; exact h
  | succ k ih =>
      intro i r h
      refine ih (i + 1) _ (fun e he => ?_)
      rcases List.mem_append.1 he with he | he
      · exact h e he
      · rcases self.step_cases (env.today i) (putOutcome (env.client i))
            (LogsQueue.arrive r.queue (env.arrivals i)) r.thread with
          ⟨n, d, e', rest, _, hn, _, _⟩ | ⟨n, d, _, _, hstep⟩ | ⟨b, rest, _, hstep⟩ |
          ⟨_, hstep⟩ | ⟨_, _, hstep⟩ | ⟨e', _, hstep⟩
        · omega
        all_goals simp [hstep] at he

/-- The loop is re-entered only from a sleep that returned. -/
theorem AWSIoTLogger.runStep_top {i : ℕ} {r : ThreadRun}
    (h : (self.runStep env i r).thread = .top) : 0 ≤ self.interval := by
  simp only [AWSIoTLogger.runStep] at h
  rcases self.step_cases (env.today i) (putOutcome (env.client i))
      (LogsQueue.arrive r.queue (env.arrivals i)) r.thread with
    ⟨n, d, e, rest, _, _, _, hstep⟩ | ⟨n, d, _, _, hstep⟩ | ⟨b, rest, _, hstep⟩ |
    ⟨_, hstep⟩ | ⟨_, hint, _⟩ | ⟨e, _, hstep⟩
  · simp [hstep, ThreadState.top] at h
  · simp [hstep, ThreadState.top] at h
  · simp [hstep, ThreadState.top] at h
  · simp [hstep, ThreadState.top] at h
  · exact hint
  · simp [hstep, ThreadState.top] at h

theorem AWSIoTLogger.runSteps_top (k : ℕ) :
    ∀ (i : ℕ) (r : ThreadRun), 0 < k → (self.runSteps env i k r).thread = .top →
      0 ≤ self.interval := by
  induction k with
  | zero => intro i r hk; omega
  | succ k ih =>
      intro i r _ h
      by_cases hk : k = 0
      · subst hk
        exact self.runStep_top env h
      · exact ih (i + 1) _ (Nat.pos_of_ne_zero hk) h

/-! ## Progress -/

/-- The first step of an iteration takes the head of a queue that was not empty. -/
theorem AWSIoTLogger.runStep_start_got (i : ℕ) {q : LogsQueue} {e : LogEntry}
    {rest : List LogEntry} (hq : q.items = e :: rest) (hlimit : 1 ≤ self.maxLogsPerMerge) :
    ThreadEvent.got e ∈ (self.runStep env i (ThreadRun.start q)).events := by
  obtain ⟨more, hmore⟩ := LogsQueue.arrive_items (env.arrivals i) q
  have hitems : (LogsQueue.arrive q (env.arrivals i)).items = e :: (rest ++ more) := by
    rw [hmore, hq, List.cons_append]
  have hpos : ((0 : ℕ) : ℤ) < self.maxLogsPerMerge := by omega
  simp only [AWSIoTLogger.runStep, ThreadRun.start, ThreadState.top]
  rw [self.step_get _ _ _ hpos hitems]
  simp

/-- **Progress of one iteration, exactly**: it ends iff the interval can be slept, and then drains
    what it finds iff the merge limit is positive. -/
theorem AWSIoTLogger.keepsDraining_iff (q : LogsQueue) :
    self.KeepsDraining env q ↔
      0 ≤ self.interval ∧ (q.items = [] ∨ 1 ≤ self.maxLogsPerMerge) := by
  constructor
  · rintro ⟨r, ⟨⟨k, hk, rfl, -⟩, htop⟩, hgot⟩
    refine ⟨self.runSteps_top env k 0 _ hk htop, ?_⟩
    by_cases hq : q.items = []
    · exact Or.inl hq
    · right
      by_contra hlimit
      obtain ⟨e, he⟩ := hgot hq
      exact self.runSteps_no_got env (by omega) k 0 _ (by simp [ThreadRun.start]) e he
  · rintro ⟨hint, hdrain⟩
    obtain ⟨k, hk, htop, hfirst⟩ := self.runSteps_returns env hint
      ((ThreadRun.start q).thread.rank self.maxLogsPerMerge) 0 (ThreadRun.start q) le_rfl
      (by simp [ThreadRun.start, ThreadState.top])
    refine ⟨_, ⟨⟨k, hk, rfl, hfirst⟩, htop⟩, fun hne => ?_⟩
    obtain ⟨e, rest, hq⟩ := List.exists_cons_of_ne_nil hne
    have hlimit : 1 ≤ self.maxLogsPerMerge := hdrain.resolve_left hne
    obtain ⟨k, rfl⟩ := Nat.exists_eq_succ_of_ne_zero hk.ne'
    exact ⟨e, (self.runSteps_events env k 1 _).subset
      (self.runStep_start_got env 0 hq hlimit)⟩

omit self in
/-- The thread the server starts keeps draining iff the configured interval is not negative and the
    configured merge limit is positive, or there is nothing to drain. -/
theorem startAwsIotLoggerThread_keepsDraining (sessionConfig : IoTSessionConfig)
    (serverCfg : ConfigurableLoggingServerConfig) (q : LogsQueue) :
    (startAwsIotLoggerThread sessionConfig serverCfg).KeepsDraining env q ↔
      0 ≤ serverCfg.uploadInterval ∧ (q.items = [] ∨ 1 ≤ serverCfg.maxLogsPerMerge) := by
  rw [AWSIoTLogger.keepsDraining_iff]
  have hmin : 1 ≤ min serverCfg.maxLogsPerMerge maxLogsPerPut ↔ 1 ≤ serverCfg.maxLogsPerMerge := by
    simp [maxLogsPerPut]
  simp only [startAwsIotLoggerThread, AWSIoTLogger.init, hmin]

/-- The settings admit a merge limit of zero, and then an entry waits forever. -/
theorem not_startAwsIotLoggerThread_keepsDraining :
    ¬ ∀ (sessionConfig : IoTSessionConfig) (serverCfg : ConfigurableLoggingServerConfig)
        (env : Surroundings) (q : LogsQueue),
      (startAwsIotLoggerThread sessionConfig serverCfg).KeepsDraining env q := by
  intro h
  have hkeeps := h ⟨[], [], [], [], [], [], [], [], none⟩ { maxLogsPerMerge := 0 }
    ⟨fun _ => [], fun _ _ _ => .ok (), fun _ => []⟩
    ⟨4096, [⟨.log, "autoware".toList, ⟨1, "hello".toList⟩⟩]⟩
  obtain ⟨_, hq | hlimit⟩ := (AWSIoTLogger.keepsDraining_iff _ _ _).1 hkeeps
  · simp at hq
  · simp [startAwsIotLoggerThread, AWSIoTLogger.init, maxLogsPerPut] at hlimit

end IotLoggingServer
