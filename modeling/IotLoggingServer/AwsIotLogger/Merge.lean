import IotLoggingServer.AwsIotLogger.Iteration

set_option autoImplicit false

/-! # What one merge takes and where it goes

While nothing arrives, the merge loop takes the head of the queue up to its limit and leaves the
rest. The upload loop then hands over one batch for each source among the entries taken, in order of
first appearance, and a batch holds the messages of its source in order (`merge_partitions`). The
log group and the log stream of a batch determine its source (`putCall_target_inj`). -/

namespace IotLoggingServer

/-! ## The keys of a grouping -/

theorem eraseDups_concat {κ : Type} [DecidableEq κ] [BEq κ] [LawfulBEq κ] (ks : List κ) (k : κ) :
    (ks ++ [k]).eraseDups = if k ∈ ks then ks.eraseDups else ks.eraseDups ++ [k] := by
  rw [List.eraseDups_append]
  by_cases hk : k ∈ ks
  · simp [hk, List.removeAll]
  · simp [hk, List.removeAll, List.eraseDups_cons]

/-- The keys of a dictionary stand in the order of their first insertion. -/
theorem Groups.keys_ofList {κ μ : Type} [DecidableEq κ] [BEq κ] [LawfulBEq κ]
    (xs : List (κ × μ)) :
    (Groups.ofList xs).items.map Prod.fst = (xs.map Prod.fst).eraseDups := by
  induction xs using List.reverseRecOn with
  | nil => rfl
  | append_singleton xs x ih =>
      have hmem : x.1 ∈ (xs.map Prod.fst).eraseDups ↔ x.1 ∈ xs.map Prod.fst := List.mem_eraseDups
      rw [Groups.ofList_concat, List.map_append, List.map_singleton, eraseDups_concat]
      show (appendEntry x.1 x.2 (Groups.ofList xs).items).map Prod.fst = _
      rw [appendEntry_keys, ih]
      simp only [hmem]

/-! ## What a run did -/

/-- The entries a run took from the queue. -/
def gotEntries (events : List ThreadEvent) : List LogEntry :=
  events.filterMap (fun event => match event with
    | .got entry => some entry
    | _ => none)

/-- The batches a run handed over. -/
def putCalls (events : List ThreadEvent) : List PutCall :=
  events.filterMap (fun event => match event with
    | .put call => some call
    | _ => none)

theorem gotEntries_append (events events' : List ThreadEvent) :
    gotEntries (events ++ events') = gotEntries events ++ gotEntries events' :=
  List.filterMap_append

theorem putCalls_append (events events' : List ThreadEvent) :
    putCalls (events ++ events') = putCalls events ++ putCalls events' :=
  List.filterMap_append

theorem gotEntries_map_got (entries : List LogEntry) :
    gotEntries (entries.map .got) = entries := by
  induction entries with
  | nil => rfl
  | cons e rest ih => exact congrArg (e :: ·) ih

theorem putCalls_map_got (entries : List LogEntry) : putCalls (entries.map .got) = [] := by
  induction entries with
  | nil => rfl
  | cons e rest ih => exact ih

theorem gotEntries_map_put (calls : List PutCall) : gotEntries (calls.map .put) = [] := by
  induction calls with
  | nil => rfl
  | cons c rest ih => exact ih

theorem putCalls_map_put (calls : List PutCall) : putCalls (calls.map .put) = calls := by
  induction calls with
  | nil => rfl
  | cons c rest ih => exact congrArg (c :: ·) ih

variable (self : AWSIoTLogger) (env : Surroundings)

theorem AWSIoTLogger.runSteps_add (j k : ℕ) :
    ∀ (i : ℕ) (r : ThreadRun),
      self.runSteps env i (j + k) r = self.runSteps env (i + j) k (self.runSteps env i j r) := by
  induction j with
  | zero => intro i r; rw [Nat.zero_add, Nat.add_zero]; rfl
  | succ j ih =>
      intro i r
      rw [Nat.add_right_comm, AWSIoTLogger.runSteps, ih, AWSIoTLogger.runSteps, Nat.add_assoc,
        Nat.add_comm 1]

/-! ## The merge loop -/

/-- The run in the merge loop, with `taken` taken and `rest` left. -/
def mergeRun (maxsize : ℤ) (taken rest : List LogEntry) : ThreadRun :=
  ⟨.merging taken.length (merge taken), ⟨maxsize, rest⟩, taken.map .got⟩

/-- One turn of the merge loop. -/
theorem AWSIoTLogger.runStep_merge {i : ℕ} (hquiet : env.arrivals i = []) {maxsize : ℤ}
    {taken rest : List LogEntry} {e : LogEntry}
    (hlimit : (taken.length : ℤ) < self.maxLogsPerMerge) :
    self.runStep env i (mergeRun maxsize taken (e :: rest)) =
      mergeRun maxsize (taken ++ [e]) rest := by
  have hstep : self.step (env.today i) (putOutcome (env.client i)) ⟨maxsize, e :: rest⟩
      (.merging taken.length (merge taken)) =
        (.merging (taken.length + 1) ((merge taken).append e.source e.message),
          ⟨maxsize, rest⟩, some (.got e)) := self.step_get _ _ _ hlimit rfl
  rw [AWSIoTLogger.runStep, hquiet]
  simp only [mergeRun, LogsQueue.arrive, List.foldl_nil, hstep]
  simp [merge_append]

/-- The turns of the merge loop, taken together. -/
theorem AWSIoTLogger.runSteps_merge (maxsize : ℤ) (entries : List LogEntry) :
    ∀ (i : ℕ) (taken rest : List LogEntry),
      (∀ j < entries.length, env.arrivals (i + j) = [] ∧
        ((taken.length + j : ℕ) : ℤ) < self.maxLogsPerMerge) →
      self.runSteps env i entries.length (mergeRun maxsize taken (entries ++ rest)) =
        mergeRun maxsize (taken ++ entries) rest := by
  induction entries with
  | nil => intro i taken rest _; rw [List.append_nil]; rfl
  | cons e entries ih =>
      intro i taken rest h
      obtain ⟨hquiet, hlimit⟩ := h 0 (Nat.succ_pos _)
      have hfirst : self.runStep env i (mergeRun maxsize taken (e :: (entries ++ rest))) =
          mergeRun maxsize (taken ++ [e]) (entries ++ rest) :=
        self.runStep_merge env hquiet hlimit
      rw [List.length_cons, AWSIoTLogger.runSteps, List.cons_append, hfirst, ih]
      · rw [List.append_assoc, List.singleton_append]
      · intro j hj
        have hnext := h (j + 1) (Nat.succ_lt_succ hj)
        rw [List.length_append, List.length_singleton, Nat.add_assoc, Nat.add_assoc, Nat.add_comm 1]
        exact hnext

/-- The end of the merge loop: at the limit, or with nothing left to take. -/
theorem AWSIoTLogger.runStep_merged {i : ℕ} (hquiet : env.arrivals i = []) {maxsize : ℤ}
    {taken rest : List LogEntry} (h : self.maxLogsPerMerge ≤ taken.length ∨ rest = []) :
    self.runStep env i (mergeRun maxsize taken rest) =
      ⟨.uploading (merge taken).items, ⟨maxsize, rest⟩, taken.map .got⟩ := by
  have hstep : self.step (env.today i) (putOutcome (env.client i)) ⟨maxsize, rest⟩
      (.merging taken.length (merge taken)) =
        (.uploading (merge taken).items, ⟨maxsize, rest⟩, none) := self.step_merged _ _ _ h
  rw [AWSIoTLogger.runStep, hquiet]
  simp only [mergeRun, LogsQueue.arrive, List.foldl_nil, hstep, Option.toList_none, List.append_nil]

/-- How many entries a merge takes from a queue it has to itself. -/
def AWSIoTLogger.takes (q : LogsQueue) : ℕ := min q.items.length self.maxLogsPerMerge.toNat

/-- In the merge loop, `j` entries in. -/
theorem AWSIoTLogger.runSteps_draining (q : LogsQueue)
    (hquiet : ∀ i ≤ self.takes q, env.arrivals i = []) {j : ℕ} (hj : j ≤ self.takes q) :
    self.runSteps env 0 j (ThreadRun.start q) =
      mergeRun q.maxsize (q.items.take j) (q.items.drop j) := by
  have htakes : self.takes q = min q.items.length self.maxLogsPerMerge.toNat := rfl
  have hlength : (q.items.take j).length = j := by
    rw [List.length_take]
    omega
  have hstart : ThreadRun.start q = mergeRun q.maxsize [] (q.items.take j ++ q.items.drop j) := by
    rw [List.take_append_drop]
    rfl
  have hmerge := self.runSteps_merge env q.maxsize (q.items.take j) 0 [] (q.items.drop j) (by
    intro m hm
    rw [hlength] at hm
    rw [List.length_nil, Nat.zero_add]
    exact ⟨hquiet m (by omega), by omega⟩)
  rw [hlength] at hmerge
  rw [hstart, hmerge, List.nil_append]

/-- The merge loop from the top: it takes the head of the queue, and leaves the rest. -/
theorem AWSIoTLogger.runSteps_drain (q : LogsQueue)
    (hquiet : ∀ i ≤ self.takes q, env.arrivals i = []) :
    self.runSteps env 0 (self.takes q + 1) (ThreadRun.start q) =
      ⟨.uploading (merge (q.items.take (self.takes q))).items,
        { q with items := q.items.drop (self.takes q) },
        (q.items.take (self.takes q)).map .got⟩ := by
  have hend : self.maxLogsPerMerge ≤ (q.items.take (self.takes q)).length ∨
      q.items.drop (self.takes q) = [] := by
    rw [List.length_take, List.drop_eq_nil_iff, AWSIoTLogger.takes]
    omega
  rw [AWSIoTLogger.runSteps_add, self.runSteps_draining env q hquiet le_rfl, Nat.zero_add]
  exact self.runStep_merged env (hquiet _ le_rfl) hend

/-! ## The upload loop -/

/-- One turn of the upload loop, whatever arrives before it. -/
theorem AWSIoTLogger.runStep_upload (i : ℕ) (batch : Source × List LogMessage)
    (rest : List (Source × List LogMessage)) (q : LogsQueue) (events : List ThreadEvent) :
    self.runStep env i ⟨.uploading (batch :: rest), q, events⟩ =
      ⟨.uploading rest, LogsQueue.arrive q (env.arrivals i),
        events ++ [.put (self.putCall (env.today i) batch)]⟩ := by
  simp only [AWSIoTLogger.runStep, AWSIoTLogger.step_put, Option.toList_some]

/-- The turns of the upload loop, taken together: a call for each batch, on the day of its turn. -/
theorem AWSIoTLogger.runSteps_upload (items : List (Source × List LogMessage)) :
    ∀ (i : ℕ) (rest : List (Source × List LogMessage)) (q : LogsQueue)
      (events : List ThreadEvent), ∃ q' more calls,
      self.runSteps env i items.length ⟨.uploading (items ++ rest), q, events⟩ =
        ⟨.uploading rest, q', events ++ calls.map .put⟩ ∧
      q'.items = q.items ++ more ∧
      List.Forall₂ (fun batch call => ∃ j, call = self.putCall (env.today j) batch) items
        calls := by
  induction items with
  | nil =>
      intro i rest q events
      refine ⟨q, [], [], ?_, (List.append_nil _).symm, .nil⟩
      rw [List.map_nil, List.append_nil]
      rfl
  | cons batch items ih =>
      intro i rest q events
      obtain ⟨first, hfirst⟩ := LogsQueue.arrive_items (env.arrivals i) q
      obtain ⟨q', more, calls, hrun, hqueue, hcalls⟩ :=
        ih (i + 1) rest (LogsQueue.arrive q (env.arrivals i))
          (events ++ [.put (self.putCall (env.today i) batch)])
      refine ⟨q', first ++ more, self.putCall (env.today i) batch :: calls, ?_, ?_,
        .cons ⟨i, rfl⟩ hcalls⟩
      · rw [List.length_cons, AWSIoTLogger.runSteps, List.cons_append,
          AWSIoTLogger.runStep_upload, hrun, List.append_assoc]
        rfl
      · rw [hqueue, hfirst, List.append_assoc]

theorem AWSIoTLogger.runStep_uploaded (i : ℕ) (q : LogsQueue) (events : List ThreadEvent) :
    self.runStep env i ⟨.uploading [], q, events⟩ =
      ⟨.sleeping, LogsQueue.arrive q (env.arrivals i), events ++ [.uploaded]⟩ := by
  simp only [AWSIoTLogger.runStep, AWSIoTLogger.step_uploaded, Option.toList_some]

/-! ## Where a batch goes -/

theorem IoTSessionConfig.logGroup_ne (config : IoTSessionConfig) :
    config.awsCloudwatchOtaclientLogsLogGroup ≠ config.awsCloudwatchOtaclientMetricsLogGroup := by
  intro h
  have hsuffix := List.append_cancel_left h
  exact absurd hsuffix (by decide)

theorem AWSIoTLogger.logGroupName_metrics_iff (logGroupType : LogGroupType) :
    self.logGroupName logGroupType = self.sessionConfig.awsCloudwatchOtaclientMetricsLogGroup ↔
      logGroupType = .metrics := by
  cases logGroupType with
  | metrics => simp [AWSIoTLogger.logGroupName]
  | log => simp [AWSIoTLogger.logGroupName, self.sessionConfig.logGroup_ne]

theorem AWSIoTLogger.logGroupName_logs_iff (logGroupType : LogGroupType) :
    self.logGroupName logGroupType = self.sessionConfig.awsCloudwatchOtaclientLogsLogGroup ↔
      logGroupType = .log := by
  cases logGroupType with
  | metrics => simp [AWSIoTLogger.logGroupName, self.sessionConfig.logGroup_ne.symm]
  | log => simp [AWSIoTLogger.logGroupName]

/-- On one day, the log group and the log stream determine the source. -/
theorem AWSIoTLogger.putCall_target_inj (today : Str) (batch batch' : Source × List LogMessage) :
    ((self.putCall today batch).logGroupName = (self.putCall today batch').logGroupName ∧
      (self.putCall today batch).logStreamName = (self.putCall today batch').logStreamName) ↔
    batch.1 = batch'.1 := by
  constructor
  · intro h
    obtain ⟨hgroup, hstream⟩ := h
    have hsuffix : batch.1.2 = batch'.1.2 := List.append_cancel_left hstream
    have htype : batch.1.1 = batch'.1.1 := by
      cases htype : batch'.1.1 with
      | metrics =>
          rw [← self.logGroupName_metrics_iff, ← (self.logGroupName_metrics_iff _).2 htype]
          exact hgroup
      | log =>
          rw [← self.logGroupName_logs_iff, ← (self.logGroupName_logs_iff _).2 htype]
          exact hgroup
    exact Prod.ext htype hsuffix
  · intro h
    simp only [AWSIoTLogger.putCall, h, and_self]

/-! ## The iteration -/

/-- A run that takes `taken` and hands it over by source. -/
structure AWSIoTLogger.Partitions (self : AWSIoTLogger) (env : Surroundings)
    (taken : List LogEntry) (r : ThreadRun) : Prop where
  drained : gotEntries r.events = taken
  /-- one call for each source, in order of first appearance -/
  sources : (putCalls r.events).map PutCall.source = (taken.map LogEntry.source).eraseDups
  /-- the messages of the source, in order -/
  logs : ∀ call ∈ putCalls r.events, call.logs = select call.source (taken.map LogEntry.keyed)
  logs_ne : ∀ call ∈ putCalls r.events, call.logs ≠ []
  logs_le : ∀ call ∈ putCalls r.events, call.logs.length ≤ 10000
  metrics : ∀ call ∈ putCalls r.events,
    call.logGroupName = self.sessionConfig.awsCloudwatchOtaclientMetricsLogGroup ↔
      call.source.1 = .metrics
  group : ∀ call ∈ putCalls r.events,
    call.logGroupName = self.sessionConfig.awsCloudwatchOtaclientLogsLogGroup ↔
      call.source.1 = .log
  stream : ∀ call ∈ putCalls r.events, ∃ j, call.logStreamName =
    getLogStreamName (env.today j) self.sessionConfig.thingName call.source.2

/-- Each call comes from a batch, and they stand in the same order. -/
theorem calls_of_forall₂ {items : List (Source × List LogMessage)} {calls : List PutCall}
    (h : List.Forall₂ (fun batch call => ∃ j, call = self.putCall (env.today j) batch) items
      calls) :
    calls.map PutCall.source = items.map Prod.fst ∧
      ∀ call ∈ calls, ∃ batch ∈ items, ∃ j, call = self.putCall (env.today j) batch := by
  induction h with
  | nil => exact ⟨rfl, by simp⟩
  | cons hcall hrest ih =>
      obtain ⟨j, rfl⟩ := hcall
      obtain ⟨hsources, hmem⟩ := ih
      refine ⟨by rw [List.map_cons, List.map_cons, hsources]; rfl, ?_⟩
      intro call hcall
      rcases List.mem_cons.1 hcall with rfl | hcall
      · exact ⟨_, List.mem_cons_self, j, rfl⟩
      · obtain ⟨batch, hbatch, hj⟩ := hmem call hcall
        exact ⟨batch, List.mem_cons_of_mem _ hbatch, hj⟩

theorem AWSIoTLogger.partitions_of_calls {taken : List LogEntry} (htaken : taken.length ≤ 10000)
    {calls : List PutCall} (hcalls : List.Forall₂
      (fun batch call => ∃ j, call = self.putCall (env.today j) batch) (merge taken).items
      calls) {thread : ThreadState} {q : LogsQueue} :
    self.Partitions env taken ⟨thread, q, taken.map .got ++ calls.map .put ++ [.uploaded]⟩ := by
  have hput : putCalls (taken.map .got ++ calls.map .put ++ [.uploaded]) = calls := by
    rw [putCalls_append, putCalls_append, putCalls_map_got, putCalls_map_put, List.nil_append]
    exact List.append_nil calls
  have hgot : gotEntries (taken.map .got ++ calls.map .put ++ [.uploaded]) = taken := by
    rw [gotEntries_append, gotEntries_append, gotEntries_map_got, gotEntries_map_put,
      List.append_nil]
    exact List.append_nil taken
  obtain ⟨hsources, hbatch⟩ := calls_of_forall₂ self env hcalls
  have hlogs : ∀ call ∈ calls, call.logs = select call.source (taken.map LogEntry.keyed) ∧
      call.logs ≠ [] := by
    intro call hcall
    obtain ⟨batch, hmem, j, rfl⟩ := hbatch call hcall
    exact Groups.mem_ofList.1 hmem
  constructor
  · exact hgot
  · have hkeys : (taken.map LogEntry.keyed).map Prod.fst = taken.map LogEntry.source :=
      List.map_map
    rw [hput, hsources, merge, Groups.keys_ofList, hkeys]
  · rw [hput]
    intro call hcall
    exact (hlogs call hcall).1
  · rw [hput]
    intro call hcall
    exact (hlogs call hcall).2
  · rw [hput]
    intro call hcall
    rw [(hlogs call hcall).1, select, List.length_map]
    have hle := List.length_filter_le (fun x => x.1 = call.source) (taken.map LogEntry.keyed)
    rw [List.length_map] at hle
    exact Nat.le_trans hle htaken
  · rw [hput]
    intro call hcall
    obtain ⟨batch, -, j, rfl⟩ := hbatch call hcall
    exact self.logGroupName_metrics_iff _
  · rw [hput]
    intro call hcall
    obtain ⟨batch, -, j, rfl⟩ := hbatch call hcall
    exact self.logGroupName_logs_iff _
  · rw [hput]
    intro call hcall
    obtain ⟨batch, -, j, rfl⟩ := hbatch call hcall
    exact ⟨j, rfl⟩

/-- **One merge partitions what it drains.** While nothing arrives, an iteration takes the first
    entries of the queue, as many as there are, as the limit allows and at most 10000, and leaves
    the rest as it was; then it hands over one batch for each source among them, in order of first
    appearance, with the messages of that source in order, under the group of its type and a stream
    that ends in its suffix. -/
theorem merge_partitions (sessionConfig : IoTSessionConfig) (maxLogsPerMerge interval : ℤ)
    (env : Surroundings) (q : LogsQueue) {n : ℕ}
    (hn : n = min q.items.length (min maxLogsPerMerge 10000).toNat)
    (hquiet : ∀ i ≤ n, env.arrivals i = []) :
    let self := AWSIoTLogger.init sessionConfig maxLogsPerMerge interval
    (self.runSteps env 0 (n + 1) (ThreadRun.start q)).queue =
        { q with items := q.items.drop n } ∧
      (∃ k > n, (self.runSteps env 0 k (ThreadRun.start q)).thread = .sleeping ∧
        (∀ j < k, (self.runSteps env 0 j (ThreadRun.start q)).thread ≠ .sleeping) ∧
        (∃ more, (self.runSteps env 0 k (ThreadRun.start q)).queue.items =
          q.items.drop n ++ more) ∧
        self.Partitions env (q.items.take n) (self.runSteps env 0 k (ThreadRun.start q))) ∧
      ∀ (today : Str) (batch batch' : Source × List LogMessage),
        ((self.putCall today batch).logGroupName = (self.putCall today batch').logGroupName ∧
          (self.putCall today batch).logStreamName = (self.putCall today batch').logStreamName) ↔
        batch.1 = batch'.1 := by
  intro self
  have htakes : self.takes q = n := hn.symm
  have hdrain := self.runSteps_drain env q (by rwa [htakes])
  rw [htakes] at hdrain
  refine ⟨by rw [hdrain], ?_, self.putCall_target_inj⟩
  have hlength : (q.items.take n).length ≤ 10000 := by
    rw [List.length_take]
    omega
  -- after the drain the upload loop runs through the batches, then the thread is about to sleep
  obtain ⟨q', more, calls, hupload, hqueue, hcalls⟩ := self.runSteps_upload env
    (merge (q.items.take n)).items (n + 1) [] { q with items := q.items.drop n }
    ((q.items.take n).map .got)
  obtain ⟨later, hlater⟩ := LogsQueue.arrive_items
    (env.arrivals (n + 1 + (merge (q.items.take n)).items.length)) q'
  rw [List.append_nil] at hupload
  have hsleeping : self.runSteps env 0 (n + 1 + ((merge (q.items.take n)).items.length + 1))
      (ThreadRun.start q) =
        ⟨.sleeping, LogsQueue.arrive q' (env.arrivals
          (n + 1 + (merge (q.items.take n)).items.length)),
          (q.items.take n).map .got ++ calls.map .put ++ [.uploaded]⟩ := by
    rw [AWSIoTLogger.runSteps_add, hdrain, Nat.zero_add, AWSIoTLogger.runSteps_add, hupload]
    exact self.runStep_uploaded env _ q' _
  refine ⟨_, ?_, by rw [hsleeping], ?_, ⟨more ++ later, ?_⟩, ?_⟩
  · omega
  · intro j hj
    by_cases hjn : j ≤ n
    · rw [self.runSteps_draining env q (by rwa [htakes]) (by rwa [htakes])]
      simp [mergeRun]
    · obtain ⟨m, rfl⟩ := Nat.exists_eq_add_of_le (Nat.lt_of_not_le hjn)
      obtain ⟨q'', more'', calls'', huploading, -, -⟩ := self.runSteps_upload env
        ((merge (q.items.take n)).items.take m) (n + 1)
        ((merge (q.items.take n)).items.drop m) { q with items := q.items.drop n }
        ((q.items.take n).map .got)
      have hm : ((merge (q.items.take n)).items.take m).length = m := by
        rw [List.length_take]
        omega
      rw [List.take_append_drop, hm] at huploading
      rw [AWSIoTLogger.runSteps_add, hdrain, Nat.zero_add, huploading]
      simp
  · rw [hsleeping, hlater, hqueue, List.append_assoc]
  · rw [hsleeping]
    exact self.partitions_of_calls env hlength hcalls

/-- A limit of two, and three entries of two sources. -/
theorem merge_partitions_example :
    ((AWSIoTLogger.init ⟨[], [], [], [], [], [], [], [], none⟩ 2 60).runSteps
      ⟨fun _ => [], fun _ _ _ => .ok (), fun _ => []⟩ 0 3
      (ThreadRun.start ⟨10, [⟨.log, ['a'], ⟨1, ['x']⟩⟩, ⟨.metrics, ['a'], ⟨2, ['y']⟩⟩,
        ⟨.log, ['a'], ⟨3, ['z']⟩⟩]⟩)).queue = ⟨10, [⟨.log, ['a'], ⟨3, ['z']⟩⟩]⟩ :=
  (merge_partitions ⟨[], [], [], [], [], [], [], [], none⟩ 2 60
    ⟨fun _ => [], fun _ _ _ => .ok (), fun _ => []⟩
    ⟨10, [⟨.log, ['a'], ⟨1, ['x']⟩⟩, ⟨.metrics, ['a'], ⟨2, ['y']⟩⟩, ⟨.log, ['a'], ⟨3, ['z']⟩⟩]⟩
    (by decide) (fun _ _ => rfl)).1

end IotLoggingServer
