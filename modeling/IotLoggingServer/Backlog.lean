import IotLoggingServer.AwsIotLogger.Iteration
import IotLoggingServer.Delivery
import IotLoggingServer.Lib.Runs

set_option autoImplicit false

/-! # The backlog of the server

How many logs wait in the server, and how long. The queue never holds more than its capacity, and a
log is refused for want of room exactly when that many accepted logs have not been taken yet
(`backpressure`). Every accepted log is handed over after a number of the uploader's steps that
depends on the logs before it and the merge limit alone, whatever is submitted meanwhile
(`bounded_waiting`). -/

namespace IotLoggingServer

/-! ## The queue and its capacity -/

section Capacity

variable (self : LogProxyServer) (s : ServerState)

/-- A submission is queued only where there is room. -/
theorem LogProxyServer.step_room {a : Action} (ha : ∀ today outcome, a ≠ .uploader today outcome) :
    (self.step s a).queue = s.queue ∨ ¬ s.queue.isFull ∧
      ∃ e, (self.step s a).queue = { s.queue with items := s.queue.items ++ [e] } := by
  cases a with
  | http now request =>
      simp only [LogProxyServer.step, Servicer.httpPutLog, Servicer.putLog_eq]
      split
      · next hok => exact Or.inr ⟨(Servicer.admission_eq_noFailure.1 hok).2.2, _, rfl⟩
      · exact Or.inl rfl
  | grpc now request =>
      simp only [LogProxyServer.step, Servicer.grpcPutLog, Servicer.putLog_eq]
      split
      · next hok => exact Or.inr ⟨(Servicer.admission_eq_noFailure.1 hok).2.2, _, rfl⟩
      · exact Or.inl rfl
  | tee now formatted =>
      cases formatted with
      | none => exact Or.inl rfl
      | some message =>
          cases hput : s.queue.putNowait (self.teeHandler.entry now message) with
          | none => exact Or.inl (by simp [LogProxyServer.step, LogTeeHandler.emit, hput])
          | some q' =>
              obtain ⟨hroom, rfl⟩ := PyQueue.putNowait_eq_some.1 hput
              exact Or.inr ⟨hroom, self.teeHandler.entry now message,
                by simp [LogProxyServer.step, LogTeeHandler.emit, hput]⟩
  | uploader today outcome => exact absurd rfl (ha today outcome)

/-- The queue keeps its capacity, and never holds more. -/
structure ServerState.Fits (maxsize : ℤ) (s : ServerState) : Prop where
  maxsize_eq : s.queue.maxsize = maxsize
  length_le : 0 < maxsize → (s.queue.items.length : ℤ) ≤ maxsize

theorem ServerState.Fits.step {maxsize : ℤ} {s : ServerState} (h : s.Fits maxsize) (a : Action) :
    (self.step s a).Fits maxsize := by
  obtain ⟨hmax, hle⟩ := h
  by_cases ha : ∃ today outcome, a = .uploader today outcome
  · obtain ⟨today, outcome, rfl⟩ := ha
    rcases self.step_uploader s today outcome with ⟨n, d, e, rest, _, _, hq, hstep⟩ |
      ⟨n, d, _, _, hstep⟩ | ⟨batch, rest, _, hstep⟩ | ⟨_, hstep⟩ | ⟨_, _, hstep⟩ | ⟨e, _, hstep⟩
    · rw [hstep]
      refine ⟨hmax, fun hpos => ?_⟩
      have hlength := hle hpos
      rw [hq, List.length_cons] at hlength
      simp only
      omega
    all_goals
      rw [hstep]
      exact ⟨hmax, hle⟩
  · rw [not_exists] at ha
    have hsubmit : ∀ today outcome, a ≠ .uploader today outcome := fun today outcome heq =>
      ha today ⟨outcome, heq⟩
    rcases self.step_room s hsubmit with hq | ⟨hroom, e, hq⟩
    · exact ⟨by rw [hq, hmax], by rwa [hq]⟩
    · refine ⟨by rw [hq]; exact hmax, fun hpos => ?_⟩
      rw [hq]
      simp only [PyQueue.isFull, hmax, not_and, not_le] at hroom
      simp only [List.length_append, List.length_singleton]
      have hlt := hroom hpos
      omega

theorem LogProxyServer.fits_run (maxsize : ℤ) (actions : List Action) :
    (self.run maxsize actions).Fits maxsize := by
  have hstart : (ServerState.start maxsize).Fits maxsize :=
    ⟨rfl, fun hpos => by simpa [ServerState.start] using hpos.le⟩
  exact @foldl_invariant _ _ self.step (ServerState.Fits maxsize)
    (fun _ a hs => ServerState.Fits.step self hs a) actions _ hstart

end Capacity

/-- The backlog: the accepted logs that the uploader has not taken. -/
def LogProxyServer.backlog (self : LogProxyServer) (s : ServerState) : ℕ :=
  (self.acceptedEntries s).length - s.dequeued.length

theorem LogProxyServer.Inv.backlog_eq {self : LogProxyServer} {s : ServerState} (h : self.Inv s) :
    self.backlog s = s.queue.items.length := by
  rw [LogProxyServer.backlog, h.conserved, List.length_append]
  omega

/-- **Backpressure, exactly.** With a bounded queue at most `maxsize` accepted logs wait at any
    time. A request that is otherwise in order is refused for want of room iff exactly that many
    wait, and a record of the server's own is dropped iff it does not format or that many wait. -/
theorem LogProxyServer.backpressure (self : LogProxyServer) (maxsize : ℤ) (hmax : 0 < maxsize)
    (actions : List Action) :
    let s := self.run maxsize actions
    (self.backlog s : ℤ) ≤ maxsize ∧
    (∀ now request, (self.servicer.httpPutLog s.queue now request).1 = .serviceUnavailable ↔
      request.text ≠ [] ∧ self.servicer.refuses request.ecuId = false ∧
        (self.backlog s : ℤ) = maxsize) ∧
    (∀ now request, (self.servicer.grpcPutLog s.queue now request).1.code = .serverQueueFull ↔
      request.message ≠ [] ∧ self.servicer.refuses request.ecuId = false ∧
        (self.backlog s : ℤ) = maxsize) ∧
    ∀ now formatted, (self.teeHandler.emit s.queue now formatted).1 = false ↔
      formatted = none ∨ (self.backlog s : ℤ) = maxsize := by
  intro s
  obtain ⟨hsize, hle⟩ := self.fits_run maxsize actions
  have hbacklog : self.backlog s = s.queue.items.length :=
    (self.inv_run maxsize actions).backlog_eq
  have hlength : (s.queue.items.length : ℤ) ≤ maxsize := hle hmax
  have hfull : s.queue.isFull ↔ (self.backlog s : ℤ) = maxsize := by
    rw [PyQueue.isFull, hsize, hbacklog]
    omega
  have hcode : ∀ ecuId message, self.servicer.admission s.queue ecuId message = .serverQueueFull ↔
      message ≠ [] ∧ self.servicer.refuses ecuId = false ∧ (self.backlog s : ℤ) = maxsize := by
    intro ecuId message
    rw [← hfull]
    unfold Servicer.admission
    by_cases hmsg : message = []
    · simp [hmsg]
    · by_cases href : self.servicer.refuses ecuId = true
      · simp [hmsg, href]
      · by_cases hq : s.queue.isFull <;> simp [hmsg, href, hq]
  have hstatus : ∀ code, httpStatus code = .serviceUnavailable ↔ code = .serverQueueFull := by
    intro code
    cases code <;> simp [httpStatus]
  refine ⟨by rwa [hbacklog], fun now request => ?_, fun now request => ?_,
    fun now formatted => ?_⟩
  · simp only [Servicer.httpPutLog, Servicer.putLog_eq]
    rw [hstatus, hcode]
  · simp only [Servicer.grpcPutLog, Servicer.putLog_eq]
    exact hcode _ _
  · rw [← hfull]
    cases formatted with
    | none => simp [LogTeeHandler.emit]
    | some message =>
        simp only [LogTeeHandler.emit, PyQueue.putNowait, reduceCtorEq, false_or]
        by_cases hq : s.queue.isFull <;> simp [hq]

/-- A queue of one, and two posts. -/
theorem backpressure_example :
    (exampleServer.servicer.httpPutLog (exampleServer.run 1
      [.http 7 ⟨"autoware".toList, "up".toList⟩]).queue 8 ⟨"autoware".toList, "on".toList⟩).1
        = .serviceUnavailable :=
  ((exampleServer.backpressure 1 (by decide) _).2.1 8 _).2 (by decide)

/-! ## Who is still there -/

theorem merge_length_le (entries : List LogEntry) :
    (merge entries).items.length ≤ entries.length := by
  induction entries using List.reverseRecOn with
  | nil => simp [merge]
  | append_singleton entries e ih =>
      rw [merge_append, List.length_append, List.length_singleton]
      exact (appendEntry_length_le e.source e.message (merge entries).items).trans (by omega)

/-- The most entries an iteration takes. -/
def AWSIoTLogger.mergeLimit (self : AWSIoTLogger) : ℕ := self.maxLogsPerMerge.toNat

/-- A server whose uploader is still there, and has not overstepped its limit. -/
structure LogProxyServer.Alive (server : LogProxyServer) (s : ServerState) : Prop where
  inv : server.Inv s
  current_le : s.current.length ≤ server.iotLogger.mergeLimit
  /-- what is left to upload is a part of what the iteration took -/
  left_le : ∀ items, s.thread = .uploading items → items.length ≤ (merge s.current).items.length
  not_raised : ∀ e, s.thread ≠ .raised e

theorem LogProxyServer.alive_start (self : LogProxyServer) (maxsize : ℤ) :
    self.Alive (ServerState.start maxsize) where
  inv := self.inv_start maxsize
  current_le := Nat.zero_le _
  left_le := by simp [ServerState.start, ThreadState.top]
  not_raised := by simp [ServerState.start, ThreadState.top]

theorem LogProxyServer.Alive.step {self : LogProxyServer} {s : ServerState} (h : self.Alive s)
    (hint : 0 ≤ self.iotLogger.interval) (a : Action) : self.Alive (self.step s a) := by
  have hinv := h.inv.step a
  rcases self.step_cases s a with ⟨sub, hstep⟩ | ⟨today, outcome, rfl⟩
  · rw [hstep] at hinv ⊢
    exact ⟨hinv, h.current_le, h.left_le, h.not_raised⟩
  · rcases self.step_uploader s today outcome with ⟨n, d, e, rest, ht, hn, _, hstep⟩ |
      ⟨n, d, ht, _, hstep⟩ | ⟨batch, rest, ht, hstep⟩ | ⟨_, hstep⟩ | ⟨_, _, hstep⟩ |
      ⟨e, hraised, hstep⟩
    · -- the limit leaves room for the entry taken
      have hmerged := h.inv.merged
      simp only [ServerState.Merged, ht] at hmerged
      rw [hstep] at hinv ⊢
      refine ⟨hinv, ?_, by simp, by simp⟩
      simp only [List.length_append, List.length_singleton, AWSIoTLogger.mergeLimit]
      omega
    · have hmerged := h.inv.merged
      simp only [ServerState.Merged, ht] at hmerged
      rw [hstep] at hinv ⊢
      refine ⟨hinv, h.current_le, fun items hitems => ?_, by simp⟩
      cases hitems
      rw [hmerged.2.1]
    · have hleft := h.left_le _ ht
      rw [hstep] at hinv ⊢
      refine ⟨hinv, h.current_le, fun items hitems => ?_, by simp⟩
      cases hitems
      rw [List.length_cons] at hleft
      exact Nat.le_of_succ_le hleft
    · rw [hstep] at hinv ⊢
      exact ⟨hinv, Nat.zero_le _, by simp, by simp⟩
    · rw [hstep] at hinv ⊢
      exact ⟨hinv, h.current_le, by simp [ThreadState.top], by simp [ThreadState.top]⟩
    · rcases hraised with ht | ⟨_, hneg⟩
      · exact absurd ht (h.not_raised e)
      · omega

theorem LogProxyServer.alive_run (self : LogProxyServer) (hint : 0 ≤ self.iotLogger.interval)
    (maxsize : ℤ) (actions : List Action) : self.Alive (self.run maxsize actions) :=
  @foldl_invariant _ _ self.step self.Alive (fun _ a hs => hs.step hint a) actions _
    (self.alive_start maxsize)

/-! ## How long a log waits -/

/-- A step of the uploader. -/
def Action.isUploader : Action → Bool
  | .uploader _ _ => true
  | _ => false

/-- The iterations, after the one under way, until the `i`-th accepted log is taken. -/
def ServerState.iterationsLeft (limit i : ℕ) (s : ServerState) : ℕ :=
  if i < s.dequeued.length then 0
  else match s.thread with
    | .merging n _ => (i - s.dequeued.length + n) / limit
    | _ => (i - s.dequeued.length) / limit + 1

/-- A bound on the uploader's steps until the `i`-th accepted log is handed over: those left of the
    iteration under way, and `2 * limit + 3` for each further one. -/
def LogProxyServer.waitRank (self : LogProxyServer) (i : ℕ) (s : ServerState) : ℕ :=
  s.thread.rank self.iotLogger.maxLogsPerMerge +
    s.iterationsLeft self.iotLogger.mergeLimit i * (2 * self.iotLogger.mergeLimit + 3)

/-- The `i`-th accepted log was taken in an iteration that is over. -/
def ServerState.HandedOver (i : ℕ) (s : ServerState) : Prop := i < s.drained.flatten.length

theorem ServerState.dequeued_length (s : ServerState) :
    s.dequeued.length = s.drained.flatten.length + s.current.length := by
  rw [ServerState.dequeued, List.length_append]

section Waiting

variable {self : LogProxyServer} {s : ServerState} {i : ℕ}

theorem ServerState.HandedOver.step (h : s.HandedOver i) (a : Action) :
    (self.step s a).HandedOver i := by
  rcases self.step_cases s a with ⟨sub, hstep⟩ | ⟨today, outcome, rfl⟩
  · rw [hstep]
    exact h
  · rcases self.step_uploader s today outcome with ⟨n, d, e, rest, _, _, _, hstep⟩ |
      ⟨n, d, _, _, hstep⟩ | ⟨batch, rest, _, hstep⟩ | ⟨_, hstep⟩ | ⟨_, _, hstep⟩ | ⟨e, _, hstep⟩
    · rwa [hstep]
    · rwa [hstep]
    · rwa [hstep]
    · rw [hstep, ServerState.HandedOver, List.flatten_append, List.length_append]
      exact Nat.lt_add_right _ h
    · rwa [hstep]
    · rwa [hstep]

/-- Submissions keep nobody waiting longer: they queue up at the end. -/
theorem LogProxyServer.waitRank_submit {a : Action} (ha : a.isUploader = false) :
    self.waitRank i (self.step s a) = self.waitRank i s := by
  rcases self.step_cases s a with ⟨sub, hstep⟩ | ⟨today, outcome, rfl⟩
  · rw [hstep]
    rfl
  · simp [Action.isUploader] at ha

/-- A step that shortens the iteration under way and adds no other shortens the wait. -/
theorem LogProxyServer.waitRank_lt {s' : ServerState}
    (hthread : s'.thread.rank self.iotLogger.maxLogsPerMerge
      < s.thread.rank self.iotLogger.maxLogsPerMerge)
    (hleft : s'.iterationsLeft self.iotLogger.mergeLimit i
      ≤ s.iterationsLeft self.iotLogger.mergeLimit i) :
    self.waitRank i s' < self.waitRank i s :=
  Nat.add_lt_add_of_lt_of_le hthread (Nat.mul_le_mul_right _ hleft)

/-- **Each step of the uploader brings an accepted log nearer to its upload.** -/
theorem LogProxyServer.Alive.waitRank_uploader (h : self.Alive s)
    (hlimit : 1 ≤ self.iotLogger.maxLogsPerMerge) (hi : i < (self.acceptedEntries s).length)
    (hint : 0 ≤ self.iotLogger.interval) (today : Str) (outcome : PutCall → Answer) :
    (self.step s (.uploader today outcome)).HandedOver i ∨
      self.waitRank i (self.step s (.uploader today outcome)) < self.waitRank i s := by
  have hcast : (self.iotLogger.mergeLimit : ℤ) = self.iotLogger.maxLogsPerMerge :=
    Int.toNat_of_nonneg (by omega)
  have hmerged := h.inv.merged
  rcases self.step_uploader s today outcome with ⟨n, d, e, rest, ht, hn, _, hstep⟩ |
    ⟨n, d, ht, hend, hstep⟩ | ⟨batch, rest, ht, hstep⟩ | ⟨ht, hstep⟩ | ⟨ht, _, hstep⟩ |
    ⟨e, hraised, hstep⟩
  · -- the queue moves up by one, and so does the count of the merge
    have hlen := appendEntry_length_le e.source e.message d.items
    right
    rw [hstep]
    apply LogProxyServer.waitRank_lt
    · simp only [ht, ThreadState.rank, Groups.append]
      omega
    · simp only [ServerState.iterationsLeft, ht, ServerState.dequeued_length, List.length_append,
        List.length_singleton]
      split_ifs with hnew hold hold
      · exact le_rfl
      · exact Nat.zero_le _
      · omega
      · exact (congrArg (· / _) (by omega)).le
  · right
    rw [hstep]
    apply LogProxyServer.waitRank_lt
    · simp only [ht, ThreadState.rank]
      omega
    · simp only [ServerState.iterationsLeft, ht, ServerState.dequeued_length]
      split_ifs with htaken
      · exact le_rfl
      · -- a log still waits, so the merge ended at its limit
        have hne : s.queue.items ≠ [] := by
          intro hnil
          rw [h.inv.conserved, hnil, List.append_nil, ServerState.dequeued_length] at hi
          exact htaken hi
        have hfull := hend.resolve_right hne
        rw [← Nat.add_div_right _ (by omega)]
        exact Nat.div_le_div_right (by omega)
  · right
    rw [hstep]
    apply LogProxyServer.waitRank_lt
    · simp only [ht, ThreadState.rank, List.length_cons]
      omega
    · simp only [ServerState.iterationsLeft, ht, ServerState.dequeued_length, le_refl]
  · by_cases htaken : i < s.dequeued.length
    · left
      rw [hstep, ServerState.HandedOver]
      simpa [ServerState.dequeued_length] using htaken
    · right
      rw [hstep]
      apply LogProxyServer.waitRank_lt
      · simp only [ht, ThreadState.rank, List.length_nil]
        omega
      · simp [ServerState.iterationsLeft, ht, ServerState.dequeued_length]
  · simp only [ServerState.Merged, ht] at hmerged
    by_cases htaken : i < s.dequeued.length
    · left
      rw [hstep, ServerState.HandedOver]
      simpa [ServerState.dequeued_length, hmerged.2] using htaken
    · -- the sleep ends an iteration and begins the next
      right
      rw [hstep]
      have htaken' : ¬ i < s.drained.flatten.length + s.current.length := by
        rwa [← ServerState.dequeued_length]
      simp only [LogProxyServer.waitRank, ServerState.iterationsLeft, ht, ThreadState.rank,
        ThreadState.top, ServerState.dequeued_length, htaken', if_false, Groups.items_empty,
        List.length_nil, Nat.cast_zero, sub_zero, Nat.add_zero, AWSIoTLogger.mergeLimit,
        Nat.add_mul, Nat.one_mul]
      omega
  · rcases hraised with ht | ⟨_, hneg⟩
    · exact absurd ht (h.not_raised e)
    · omega

theorem LogProxyServer.acceptedEntries_step (a : Action) :
    self.acceptedEntries s <+: self.acceptedEntries (self.step s a) := by
  rcases self.step_cases s a with ⟨sub, hstep⟩ | ⟨today, outcome, rfl⟩
  · rw [hstep, LogProxyServer.acceptedEntries, ServerState.submit,
      LogProxyServer.acceptedEntries, List.filterMap_append]
    exact List.prefix_append _ _
  · have hentries : self.acceptedEntries s =
        self.acceptedEntries (self.step s (.uploader today outcome)) := by
      rw [LogProxyServer.acceptedEntries, LogProxyServer.acceptedEntries,
        self.step_uploader_history]
    exact ⟨[], by rw [List.append_nil, hentries]⟩

/-- What is left of the iteration under way is at most a whole one. -/
theorem LogProxyServer.Alive.rank_le (h : self.Alive s) :
    s.thread.rank self.iotLogger.maxLogsPerMerge ≤ 2 * self.iotLogger.mergeLimit + 3 := by
  have hcurrent := h.current_le
  have hmerge := merge_length_le s.current
  have hmerged := h.inv.merged
  cases ht : s.thread with
  | merging n d =>
      simp only [ServerState.Merged, ht] at hmerged
      obtain ⟨-, hd, hn⟩ := hmerged
      simp only [ThreadState.rank, AWSIoTLogger.mergeLimit] at hcurrent ⊢
      rw [hd]
      omega
  | uploading items =>
      have hleft := h.left_le items ht
      simp only [ThreadState.rank]
      omega
  | sleeping =>
      simp only [ThreadState.rank]
      omega
  | raised e =>
      simp only [ThreadState.rank]
      omega

/-- With `waiting` logs in the queue, at most `waiting / limit + 1` further iterations are left. -/
theorem LogProxyServer.Alive.iterationsLeft_le (h : self.Alive s)
    (hlimit : 0 < self.iotLogger.mergeLimit) (hi : i < (self.acceptedEntries s).length) :
    s.iterationsLeft self.iotLogger.mergeLimit i ≤
      self.backlog s / self.iotLogger.mergeLimit + 1 := by
  have hwaiting : i < s.dequeued.length + self.backlog s := by
    rw [h.inv.backlog_eq, ← List.length_append, ← h.inv.conserved]
    exact hi
  have hcurrent := h.current_le
  have hmerged := h.inv.merged
  unfold ServerState.iterationsLeft
  rw [← Nat.add_div_right (self.backlog s) hlimit]
  split_ifs with htaken
  · exact Nat.zero_le _
  · split
    · next n d ht =>
        simp only [ServerState.Merged, ht] at hmerged
        exact Nat.div_le_div_right (by omega)
    · rw [← Nat.add_div_right _ hlimit]
      exact Nat.div_le_div_right (by omega)

end Waiting

/-- What an iteration that is over took was handed over in it. -/
theorem LogProxyServer.Alive.handed_of_drained {self : LogProxyServer} {s : ServerState}
    (h : self.Alive s) {e : LogEntry} (he : e ∈ s.drained.flatten) :
    ∃ call ∈ s.handed, call.source = e.source ∧ e.message ∈ call.logs := by
  have hstart : s.mergedBatches <+: s.handedBatches := by
    have hmerged := h.inv.merged
    cases ht : s.thread with
    | merging n d =>
        simp only [ServerState.Merged, ht] at hmerged
        exact hmerged.1 ▸ List.prefix_rfl
    | uploading items =>
        simp only [ServerState.Merged, ht] at hmerged
        have hleft := h.left_le items ht
        have hlength := congrArg List.length hmerged
        rw [List.length_append, List.length_append] at hlength
        exact List.prefix_of_prefix_length_le (List.prefix_append _ _)
          (hmerged ▸ List.prefix_append _ _) (by omega)
    | sleeping =>
        simp only [ServerState.Merged, ht] at hmerged
        exact hmerged.1 ▸ List.prefix_rfl
    | raised e' =>
        simp only [ServerState.Merged, ht] at hmerged
        exact hmerged.1 ▸ List.prefix_rfl
  have hflat : e.keyed ∈ flatten s.mergedBatches :=
    (flatten_flatMap_merge s.drained).mem_iff.2 (List.mem_map.2 ⟨e, he, rfl⟩)
  obtain ⟨batch, hbatch, hmem⟩ := List.mem_flatMap.1 hflat
  obtain ⟨m, hm, hkey⟩ := List.mem_map.1 hmem
  obtain ⟨call, hcall, rfl⟩ := List.mem_map.1 (hstart.subset hbatch)
  have hsource : call.source = e.source := congrArg Prod.fst hkey
  have hmessage : m = e.message := congrArg Prod.snd hkey
  exact ⟨call, hcall, hsource, hmessage ▸ hm⟩

/-- **No accepted log waits for ever.** With an interval that can be slept and a positive merge
    limit, once the uploader has taken more than `(backlog / limit + 2) * (2 * limit + 3)` further
    steps, every log accepted before them has been taken, in order, and handed over under its
    source, whatever was submitted in between. -/
theorem LogProxyServer.bounded_waiting (self : LogProxyServer)
    (hint : 0 ≤ self.iotLogger.interval) (hlimit : 1 ≤ self.iotLogger.maxLogsPerMerge)
    (maxsize : ℤ) (actions more : List Action)
    (hmany : (self.backlog (self.run maxsize actions) / self.iotLogger.mergeLimit + 2) *
      (2 * self.iotLogger.mergeLimit + 3) < more.countP Action.isUploader) :
    let s := self.run maxsize actions
    let s' := self.run maxsize (actions ++ more)
    self.acceptedEntries s <+: s'.drained.flatten ∧
      ∀ e ∈ self.acceptedEntries s, ∃ call ∈ s'.handed,
        call.source = e.source ∧ e.message ∈ call.logs := by
  intro s s'
  have hs' : s' = more.foldl self.step s := by
    rw [show s' = _ from List.foldl_append]
    rfl
  have halive : self.Alive s := self.alive_run hint maxsize actions
  have hposlimit : 0 < self.iotLogger.mergeLimit := by
    rw [AWSIoTLogger.mergeLimit]
    omega
  have hall : ∀ i < (self.acceptedEntries s).length, s'.HandedOver i := by
    intro i hi
    have hrank : self.waitRank i s < more.countP Action.isUploader := by
      calc self.waitRank i s
          ≤ (2 * self.iotLogger.mergeLimit + 3) +
              (self.backlog s / self.iotLogger.mergeLimit + 1) *
                (2 * self.iotLogger.mergeLimit + 3) :=
            Nat.add_le_add halive.rank_le
              (Nat.mul_le_mul_right _ (halive.iterationsLeft_le hposlimit hi))
        _ = (self.backlog s / self.iotLogger.mergeLimit + 2) *
              (2 * self.iotLogger.mergeLimit + 3) := by ring
        _ < more.countP Action.isUploader := hmany
    rw [hs']
    refine @reaches_of_rank _ _ self.step
      (fun s => self.Alive s ∧ i < (self.acceptedEntries s).length) (ServerState.HandedOver i)
      Action.isUploader (self.waitRank i) ?_ (fun s a h => h.step a) ?_ ?_ more s ⟨halive, hi⟩ hrank
    · rintro t a ⟨ht, hlt⟩
      exact ⟨ht.step hint a, lt_of_lt_of_le hlt (LogProxyServer.acceptedEntries_step a).length_le⟩
    · rintro t a ⟨ht, hlt⟩ - ha
      cases a with
      | uploader today outcome => exact ht.waitRank_uploader hlimit hlt hint today outcome
      | _ => simp [Action.isUploader] at ha
    · rintro t a - - ha
      exact (LogProxyServer.waitRank_submit ha).le
  have halive' : self.Alive s' := self.alive_run hint maxsize (actions ++ more)
  have hlength : (self.acceptedEntries s).length ≤ s'.drained.flatten.length := by
    by_contra hlt
    exact lt_irrefl _ (hall s'.drained.flatten.length (by omega))
  -- both are beginnings of what the longer run accepts
  have hgrows : self.acceptedEntries s <+: self.acceptedEntries s' := by
    rw [hs']
    exact @foldl_invariant _ _ self.step
      (fun t => self.acceptedEntries s <+: self.acceptedEntries t)
      (fun t a ht => ht.trans (LogProxyServer.acceptedEntries_step a)) more s List.prefix_rfl
  have hdrained : s'.drained.flatten <+: self.acceptedEntries s' := by
    rw [halive'.inv.conserved, ServerState.dequeued, List.append_assoc]
    exact List.prefix_append _ _
  have hstart := List.prefix_of_prefix_length_le hgrows hdrained hlength
  exact ⟨hstart, fun e he => halive'.handed_of_drained (hstart.subset he)⟩

/-- A server that takes one log at a time. -/
def slowServer : LogProxyServer where
  servicer := Servicer.init none
  teeHandler := ⟨"iot_logging_server".toList⟩
  iotLogger := startAwsIotLoggerThread
    ⟨[], [], [], [], "thing".toList, "profile".toList, [], [], none⟩ { maxLogsPerMerge := 1 }

theorem bounded_waiting_example :
    ∃ call ∈ (slowServer.run 8 ([.http 7 ⟨"autoware".toList, "up".toList⟩] ++
        List.replicate 16 (.uploader "2024/01/01".toList (fun _ => .error (.other 0))))).handed,
      call.source = (.log, "autoware".toList) ∧ (⟨7000, "up".toList⟩ : LogMessage) ∈ call.logs :=
  (slowServer.bounded_waiting (by decide) (by decide) 8 [.http 7 ⟨"autoware".toList, "up".toList⟩]
    (List.replicate 16 (.uploader "2024/01/01".toList (fun _ => .error (.other 0))))
    (by decide)).2 ⟨.log, "autoware".toList, ⟨7000, "up".toList⟩⟩ (by decide)

end IotLoggingServer
