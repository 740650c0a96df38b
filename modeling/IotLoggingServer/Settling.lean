import IotLoggingServer.OwnLogs

set_option autoImplicit false

/-! # The server settles

Each batch that is uploaded may log as much as any other, so that what was sent to the server can
leave more of its own logs in the queue than one upload makes. Once nothing is sent any more they
get fewer: an iteration that takes more logs than an upload makes leaves less than it found. From
any state reached, and whatever the service answers, the server settles to one upload's own logs and
stays there (`settles`). -/

namespace IotLoggingServer

variable (self : TeeingSystem) (records : ℕ)

/-! ## What there is left to do -/

def TeeingSystem.isOwn (self : TeeingSystem) (source : Source) : Bool :=
  decide (source = self.ownSource)

/-- The logs in the queue and those merged so far, with what their uploads may log. The server's own
    logs make one batch, which is not counted while they are merged. -/
def TeeingSystem.load (s : SystemState) : ℕ :=
  s.server.queue.items.length +
    records * s.server.queue.items.countP (fun e => !self.isOwn e.source) +
    match s.server.thread with
    | .merging n d => n + records * d.items.countP (fun b => !self.isOwn b.1)
    | .uploading items => records * items.length + 1
    | .sleeping => 1
    | .raised _ => 0

/-- Nothing but own logs is queued or being merged. -/
def TeeingSystem.onlyOwn (s : SystemState) : Bool :=
  s.server.queue.items.all (fun e => self.isOwn e.source) &&
    match s.server.thread with
    | .merging _ d => d.items.all (fun b => self.isOwn b.1)
    | _ => true

/-- The load, and as long as there are other logs what a last iteration with them may leave. -/
def TeeingSystem.work (s : SystemState) : ℕ :=
  self.load records s + if self.onlyOwn s then 0 else records * records + 2

/-- A bound on the uploader's steps until the server has settled. -/
def TeeingSystem.settleRank (s : SystemState) : ℕ :=
  self.work records s * (2 * self.server.iotLogger.mergeLimit + 4) +
    s.server.thread.rank self.server.iotLogger.maxLogsPerMerge

/-! ## Each step brings it nearer -/

section Step

variable {self : TeeingSystem} {records : ℕ} {s s' : SystemState}

theorem TeeingSystem.settleRank_lt_of_le (hwork : self.work records s' ≤ self.work records s)
    (hrank : s'.server.thread.rank self.server.iotLogger.maxLogsPerMerge <
      s.server.thread.rank self.server.iotLogger.maxLogsPerMerge) :
    self.settleRank records s' < self.settleRank records s :=
  Nat.add_lt_add_of_le_of_lt (Nat.mul_le_mul_right _ hwork) hrank

theorem TeeingSystem.settleRank_lt_of_lt (hwork : self.work records s' < self.work records s)
    (ht : s'.server.thread = .top) : self.settleRank records s' < self.settleRank records s := by
  have hrank : s'.server.thread.rank self.server.iotLogger.maxLogsPerMerge <
      2 * self.server.iotLogger.mergeLimit + 4 := by
    rw [ht]
    simp [ThreadState.top, ThreadState.rank, AWSIoTLogger.mergeLimit, Groups.empty]
  have hmul := Nat.mul_le_mul_right (2 * self.server.iotLogger.mergeLimit + 4) hwork
  rw [Nat.succ_mul] at hmul
  unfold TeeingSystem.settleRank
  omega

theorem TeeingSystem.onlyOwn_iff : self.onlyOwn s = true ↔
    (∀ e ∈ s.server.queue.items, e.source = self.ownSource) ∧
      ∀ n d, s.server.thread = .merging n d → ∀ b ∈ d.items, b.1 = self.ownSource := by
  unfold TeeingSystem.onlyOwn TeeingSystem.isOwn
  rw [Bool.and_eq_true, List.all_eq_true]
  simp only [decide_eq_true_eq]
  refine and_congr_right fun _ => ?_
  cases s.server.thread with
  | merging n d =>
      simp only [List.all_eq_true, decide_eq_true_eq]
      refine ⟨fun h n' d' heq => ?_, fun h => h n d rfl⟩
      cases heq
      exact h
  | _ => simp

/-- Own logs stay by themselves if only own logs are queued, outside the merge loop. -/
theorem TeeingSystem.onlyOwn_append {more : List LogEntry}
    (hqueue : s'.server.queue.items = s.server.queue.items ++ more)
    (hmore : ∀ e ∈ more, e.source = self.ownSource)
    (hthread : ∀ n d, s'.server.thread = .merging n d → d.items = [])
    (h : self.onlyOwn s = true) : self.onlyOwn s' = true := by
  rw [TeeingSystem.onlyOwn_iff] at h ⊢
  refine ⟨?_, fun n d ht => by simp [hthread n d ht]⟩
  rw [hqueue]
  exact List.forall_mem_append.2 ⟨h.1, hmore⟩

/-- If own logs stay by themselves, the work falls with the load. -/
theorem TeeingSystem.work_add_load_le (hown : self.onlyOwn s = true → self.onlyOwn s' = true) :
    self.work records s' + self.load records s ≤ self.work records s + self.load records s' := by
  unfold TeeingSystem.work
  by_cases honly : self.onlyOwn s = true
  · rw [if_pos honly, if_pos (hown honly)]
    omega
  · rw [if_neg honly]
    split <;> omega

theorem TeeingSystem.work_le (hload : self.load records s' ≤ self.load records s)
    (hown : self.onlyOwn s = true → self.onlyOwn s' = true) :
    self.work records s' ≤ self.work records s := by
  have hwork := @TeeingSystem.work_add_load_le self records s s' hown
  omega

/-- A log that is merged starts one batch at most, and its place in the queue paid for that. -/
theorem TeeingSystem.settleRank_take {n : ℕ} {d : Groups Source LogMessage} {e : LogEntry}
    {rest : List LogEntry} (ht : s.server.thread = .merging n d)
    (hn : (n : ℤ) < self.server.iotLogger.maxLogsPerMerge)
    (hq : s.server.queue.items = e :: rest)
    (hthread : s'.server.thread = .merging (n + 1) (d.append e.source e.message))
    (hqueue : s'.server.queue.items = rest) :
    self.settleRank records s' < self.settleRank records s := by
  have hlength := appendEntry_length_le e.source e.message d.items
  have hcount := countP_appendEntry_le (fun k => !self.isOwn k) e.source e.message d.items
  refine TeeingSystem.settleRank_lt_of_le (TeeingSystem.work_le ?_ ?_) ?_
  · have hmul := Nat.mul_le_mul_left records hcount
    rw [Nat.mul_add] at hmul
    unfold TeeingSystem.load
    rw [hthread, hqueue, ht, hq, List.length_cons, List.countP_cons, Nat.mul_add]
    simp only [Groups.append]
    omega
  · rw [TeeingSystem.onlyOwn_iff, TeeingSystem.onlyOwn_iff, hthread, hqueue, hq,
      List.forall_mem_cons]
    rintro ⟨⟨he, hrest⟩, hd⟩
    refine ⟨hrest, fun n' d' heq => ?_⟩
    cases heq
    rw [he]
    exact Groups.append_keys (hd n d ht) _
  · rw [hthread, ht]
    simp only [ThreadState.rank, Groups.append]
    omega

/-- A merge that took more than an upload may log leaves less load, since its own logs are one
    batch. -/
theorem TeeingSystem.settleRank_merged {n : ℕ} {d : Groups Source LogMessage}
    (ht : s.server.thread = .merging n d) (hmany : records < n)
    (hthread : s'.server.thread = .uploading d.items) (hqueue : s'.server.queue = s.server.queue) :
    self.settleRank records s' < self.settleRank records s := by
  have hbatches := Nat.mul_le_mul_left records (d.length_le_countP self.ownSource)
  rw [Nat.mul_add] at hbatches
  refine TeeingSystem.settleRank_lt_of_le (TeeingSystem.work_le ?_ ?_) ?_
  · unfold TeeingSystem.load TeeingSystem.isOwn
    rw [hthread, hqueue, ht]
    simp only
    omega
  · refine TeeingSystem.onlyOwn_append ?_ (List.forall_mem_nil _) (by simp [hthread])
    rw [hqueue, List.append_nil]
  · rw [hthread, ht]
    simp only [ThreadState.rank]
    omega

/-- A merge that took less emptied the queue, so that only what it logs will be left. -/
theorem TeeingSystem.settleRank_emptied {n : ℕ} {d : Groups Source LogMessage}
    (halive : self.server.Alive s.server) (ht : s.server.thread = .merging n d)
    (hfew : n ≤ records) (hempty : s.server.queue.items = [])
    (hthread : s'.server.thread = .uploading d.items) (hqueue : s'.server.queue = s.server.queue) :
    self.SelfFed records records s' ∨ self.settleRank records s' < self.settleRank records s := by
  by_cases honly : self.onlyOwn s = true
  · have hkeys := (TeeingSystem.onlyOwn_iff.1 honly).2 n d ht
    have hone := Groups.length_le_one hkeys
    refine Or.inl ⟨by simp [hqueue, hempty], ?_⟩
    rw [hthread, hqueue, hempty]
    refine ⟨hkeys, hone, ?_⟩
    calc List.length [] + records * d.items.length
        ≤ 0 + records * 1 := Nat.add_le_add_left (Nat.mul_le_mul_left _ hone) _
      _ = records := by omega
  · have hnow : self.onlyOwn s' = true := by
      rw [TeeingSystem.onlyOwn_iff, hthread, hqueue, hempty]
      simp
    have hmerged := halive.inv.merged
    simp only [ServerState.Merged, ht] at hmerged
    have hbatches : d.items.length ≤ records := by
      have hle := merge_length_le s.server.current
      rw [← hmerged.2.1, ← hmerged.2.2] at hle
      omega
    refine Or.inr (TeeingSystem.settleRank_lt_of_le ?_ ?_)
    · have hmul := Nat.mul_le_mul_left records hbatches
      unfold TeeingSystem.work
      rw [if_pos hnow, if_neg honly]
      unfold TeeingSystem.load
      rw [hthread, hqueue, hempty]
      simp only [List.length_nil, List.countP_nil]
      omega
    · rw [hthread, ht]
      simp only [ThreadState.rank]
      omega

/-- The records of an upload take the place that its batch had in the load. -/
theorem TeeingSystem.settleRank_put {s₁ : SystemState} {batch : Source × List LogMessage}
    {rest : List (Source × List LogMessage)} {k : ℕ}
    (ht : s.server.thread = .uploading (batch :: rest))
    (hthread : s₁.server.thread = .uploading rest)
    (hqueue : s₁.server.queue = s.server.queue) (hteed : self.Teed s₁ s' k) (hk : k ≤ records) :
    self.settleRank records s' < self.settleRank records s := by
  obtain ⟨hsame, more, hmore, hown, hle, -⟩ := hteed
  rw [hqueue] at hmore
  rw [hthread] at hsame
  have hnone : more.countP (fun e => !self.isOwn e.source) = 0 := by
    rw [List.countP_eq_zero]
    intro e he
    simp [TeeingSystem.isOwn, hown e he]
  refine TeeingSystem.settleRank_lt_of_le (TeeingSystem.work_le ?_ ?_) ?_
  · unfold TeeingSystem.load
    rw [hsame, hmore, ht, List.length_append, List.countP_append, hnone]
    simp only [List.length_cons, Nat.mul_add]
    omega
  · exact TeeingSystem.onlyOwn_append (by rw [hmore]) hown (by simp [hsame])
  · rw [hsame, ht]
    simp [ThreadState.rank]

/-- **Each step of the uploader settles the server or brings that nearer.** -/
theorem TeeingSystem.settleRank_uploader (halive : self.server.Alive s.server)
    (hint : 0 ≤ self.server.iotLogger.interval)
    (hlimit : (records : ℤ) < self.server.iotLogger.maxLogsPerMerge)
    (hrecords : ∀ call w,
      (self.records w.calls (self.client.uploadCalls call w)).length ≤ records)
    (now : ℚ) (today : UtcDate) :
    let s' := self.step s now (.uploader today)
    self.SelfFed records records s' ∨ self.settleRank records s' < self.settleRank records s := by
  intro s'
  rcases self.step_uploader now s today with
    ⟨n, d, e, rest, ht, hn, hq, hthread, hqueue⟩ | ⟨n, d, ht, hend, hthread, hqueue⟩ |
    ⟨batch, rest, s₁, ht, hthread, hqueue, hteed⟩ | ⟨ht, hthread, hqueue⟩ |
    ⟨ht, -, hthread, hqueue⟩ | ⟨e, ht, hthread, hqueue⟩
  · exact Or.inr (TeeingSystem.settleRank_take ht hn hq hthread (by rw [hqueue]))
  · by_cases hmany : records < n
    · exact Or.inr (TeeingSystem.settleRank_merged ht hmany hthread hqueue)
    · -- the limit was not reached
      have hempty : s.server.queue.items = [] := hend.resolve_left (by omega)
      exact TeeingSystem.settleRank_emptied halive ht (not_lt.1 hmany) hempty hthread hqueue
  · exact Or.inr (TeeingSystem.settleRank_put ht hthread hqueue hteed (hrecords _ _))
  · -- nothing is left to upload
    refine Or.inr (TeeingSystem.settleRank_lt_of_le (TeeingSystem.work_le ?_ ?_) ?_)
    · unfold TeeingSystem.load
      rw [hthread, hqueue, ht]
      simp
    · refine TeeingSystem.onlyOwn_append ?_ (List.forall_mem_nil _) (fun n d heq => ?_)
      · rw [hqueue, List.append_nil]
      · rw [hthread] at heq
        cases heq
    · rw [hthread, ht]
      simp [ThreadState.rank]
  · -- the next iteration begins
    refine Or.inr (TeeingSystem.settleRank_lt_of_lt ?_ hthread)
    have hload : self.load records s' + 1 = self.load records s := by
      unfold TeeingSystem.load
      rw [hthread, hqueue, ht]
      simp [ThreadState.top, Groups.empty]
    have hown : self.onlyOwn s = true → self.onlyOwn s' = true := by
      refine TeeingSystem.onlyOwn_append ?_ (List.forall_mem_nil _) (fun n d heq => ?_)
      · rw [hqueue, List.append_nil]
      · rw [hthread] at heq
        cases heq
        rfl
    have hwork := @TeeingSystem.work_add_load_le self records s s' hown
    omega
  · rcases ht with ht | ⟨-, hneg⟩
    · exact absurd ht (halive.not_raised e)
    · omega

end Step

/-! ## Settled for good -/

theorem LoggingSystem.alive_step (self : LoggingSystem) (hint : 0 ≤ self.server.iotLogger.interval)
    {s : SystemState} (h : self.server.Alive s.server) (a : SystemAction) :
    self.server.Alive (self.step s a).server := by
  rcases self.step_cases s a with ⟨b, hstep, -⟩ | ⟨today, batch, rest, outcome, -, hstep, -⟩
  · rw [hstep]
    exact h.step hint b
  · rw [hstep]
    exact h.step hint _

section Settles

variable {self : TeeingSystem} {records : ℕ} (hint : 0 ≤ self.server.iotLogger.interval)
  (hlimit : (records : ℤ) < self.server.iotLogger.maxLogsPerMerge)
  (hrecords : ∀ call w,
    (self.records w.calls (self.client.uploadCalls call w)).length ≤ records)

include hint in
theorem TeeingSystem.alive_step {s : SystemState} (h : self.server.Alive s.server) (now : ℚ)
    (a : SystemAction) : self.server.Alive (self.step s now a).server :=
  @foldl_invariant _ _ (self.tee now) (fun s => self.server.Alive s.server)
    (fun _ _ hs => self.toLoggingSystem.alive_step hint hs _) _ _
    (self.toLoggingSystem.alive_step hint h a)

include hint hlimit hrecords

/-- From any state, enough steps of the uploader by itself settle the server. -/
theorem TeeingSystem.selfFed_of_rank {s : SystemState} (h : self.server.Alive s.server)
    (uploads : List (ℚ × UtcDate)) (hmany : self.settleRank records s < uploads.length) :
    self.SelfFed records records
      (uploads.foldl (fun s a => self.step s a.1 (.uploader a.2)) s) := by
  refine @reaches_of_rank _ _ (fun s (a : ℚ × UtcDate) => self.step s a.1 (.uploader a.2))
    (fun s => self.server.Alive s.server) (self.SelfFed records records) (fun _ => true)
    (self.settleRank records) (fun s a hs => TeeingSystem.alive_step hint hs a.1 _)
    (fun s a hs => hs.uploader le_rfl hlimit.le hrecords a.1 a.2) (fun s a hs _ _ => ?_)
    (fun s a _ _ hno => absurd hno (by simp)) uploads s h (by simpa using hmany)
  exact TeeingSystem.settleRank_uploader hs hint hlimit hrecords a.1 a.2

end Settles

/-- **Whatever was sent to it, the server settles once nothing more is sent.** If the merge limit is
    above what one upload may log, then after any run more of the uploader's steps than the rank of
    the state reached are enough, whatever the service answers to them: from then on no more logs
    are queued than one upload may log and one for each record logged for another reason. -/
theorem TeeingSystem.settles (self : TeeingSystem) {c : ℕ}
    (hcredentials : ∀ calls call, (self.credentialErrors calls call).length ≤ c)
    (hlimit : (self.uploadRecords c : ℤ) < self.server.iotLogger.maxLogsPerMerge)
    (hint : 0 ≤ self.server.iotLogger.interval) (maxsize : ℤ)
    (actions : List (ℚ × SystemAction)) (uploads : List (ℚ × UtcDate))
    (hmany : self.settleRank (self.uploadRecords c) (self.run maxsize actions) < uploads.length)
    (later : List (ℚ × SystemAction)) (hown : ∀ a ∈ later, a.2.isRequest = false) :
    (self.run maxsize (actions ++ uploads.map (fun a => (a.1, .uploader a.2)) ++
      later)).server.queue.items.length ≤
        self.uploadRecords c + later.countP (fun a => a.2.isTee) := by
  have hrecords : ∀ call w, (self.records w.calls (self.client.uploadCalls call w)).length ≤
      self.uploadRecords c := fun call w => self.upload_records_le call w hcredentials
  have halive : self.server.Alive (self.run maxsize actions).server := by
    obtain ⟨all, hrun⟩ := self.run_refines maxsize actions
    obtain ⟨serverActions, hserver⟩ := self.toLoggingSystem.run_refines maxsize all
    rw [hrun, hserver]
    exact self.server.alive_run hint maxsize serverActions
  have hsettled := TeeingSystem.selfFed_of_rank hint hlimit hrecords halive uploads hmany
  have hlater := TeeingSystem.SelfFed.foldl hlimit.le hrecords later hown le_rfl hsettled
  have hrun : self.run maxsize (actions ++ uploads.map (fun a => (a.1, .uploader a.2)) ++ later) =
      later.foldl (fun s a => self.step s a.1 a.2) (uploads.foldl
        (fun s a => self.step s a.1 (.uploader a.2)) (self.run maxsize actions)) := by
    unfold TeeingSystem.run
    rw [List.foldl_append, List.foldl_append, List.foldl_map]
  rw [hrun]
  exact hlater.length_le

/-- A request and a teed record, and then the uploader by itself. -/
theorem settles_example :
    ((exampleTeeingSystem exampleServer).run 4096
      ([(7, .http 7 ⟨"autoware".toList, "up".toList⟩), (8, .tee 8 (some "started".toList))] ++
        (List.replicate 15000000 (9, exampleDate)).map (fun a => (a.1, .uploader a.2)) ++
        [])).server.queue.items.length ≤ 119 := by
  have hrank : (exampleTeeingSystem exampleServer).settleRank
      ((exampleTeeingSystem exampleServer).uploadRecords 0)
      ((exampleTeeingSystem exampleServer).run 4096 [(7, .http 7 ⟨"autoware".toList, "up".toList⟩),
        (8, .tee 8 (some "started".toList))]) < 15000000 := by
    decide +kernel
  exact (exampleTeeingSystem exampleServer).settles (fun _ _ => le_rfl) (by decide) (by decide) 4096
    _ (List.replicate 15000000 (9, exampleDate)) (by rwa [List.length_replicate]) [] (by simp)

end IotLoggingServer
