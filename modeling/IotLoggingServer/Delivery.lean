import IotLoggingServer.LogProxyServer

set_option autoImplicit false

/-! # From acceptance to upload

Results about whole runs of the server, read off its invariant: no accepted log is lost, duplicated
or reordered on its way to `put_log_events` (`no_log_lost`), and nothing the request handlers refuse
gets there (`admission_over_runs`). -/

namespace IotLoggingServer

/-! ## The batches of finished iterations -/

theorem contents_flatMap_merge (k : Source) (drained : List (List LogEntry)) :
    contents k (drained.flatMap (fun entries => (merge entries).items))
      = select k (drained.flatten.map LogEntry.keyed) := by
  induction drained with
  | nil => rfl
  | cons entries rest ih =>
      rw [List.flatMap_cons, contents_append, List.flatten_cons, List.map_append, select_append, ih,
        merge, Groups.contents_ofList]

theorem flatten_flatMap_merge (drained : List (List LogEntry)) :
    (flatten (drained.flatMap (fun entries => (merge entries).items))).Perm
      (drained.flatten.map LogEntry.keyed) := by
  induction drained with
  | nil => exact List.Perm.refl _
  | cons entries rest ih =>
      rw [List.flatMap_cons, flatten_append, List.flatten_cons, List.map_append]
      exact (Groups.flatten_ofList _).append ih

/-- Between two iterations everything taken has been handed over. -/
theorem LogProxyServer.Inv.iterationEnd {self : LogProxyServer} {s : ServerState} (h : self.Inv s)
    (hend : s.thread.iterationEnd) : s.handedBatches = s.mergedBatches ∧ s.current = [] := by
  have hmerged := h.merged
  rcases hend with ht | ht | ⟨e, ht⟩
  · simp only [ServerState.Merged, ht, ThreadState.top] at hmerged
    exact ⟨hmerged.1, List.length_eq_zero_iff.1 hmerged.2.2.symm⟩
  · simpa only [ServerState.Merged, ht] using hmerged
  · simpa only [ServerState.Merged, ht] using hmerged

/-- What has been handed over is the beginning of what the merges make of the entries taken. -/
theorem LogProxyServer.Inv.handed_prefix {self : LogProxyServer} {s : ServerState}
    (h : self.Inv s) :
    s.handedBatches <+: (s.drained ++ [s.current]).flatMap (fun es => (merge es).items) := by
  have hmerged := h.merged
  have hsplit : (s.drained ++ [s.current]).flatMap (fun es => (merge es).items)
      = s.mergedBatches ++ (merge s.current).items := by
    simp [ServerState.mergedBatches]
  rw [hsplit]
  cases ht : s.thread with
  | merging n d =>
      simp only [ServerState.Merged, ht] at hmerged
      exact hmerged.1 ▸ List.prefix_append _ _
  | uploading items =>
      simp only [ServerState.Merged, ht] at hmerged
      exact ⟨items, hmerged⟩
  | sleeping =>
      simp only [ServerState.Merged, ht] at hmerged
      exact hmerged.1 ▸ List.prefix_append _ _
  | raised e =>
      simp only [ServerState.Merged, ht] at hmerged
      exact hmerged.1 ▸ List.prefix_append _ _

/-- In every state, a message handed over was taken from the queue under the same source. -/
theorem LogProxyServer.Inv.mem_dequeued {self : LogProxyServer} {s : ServerState}
    (h : self.Inv s) {call : PutCall} (hcall : call ∈ s.handed) {m : LogMessage}
    (hm : m ∈ call.logs) : ∃ e ∈ s.dequeued, e.keyed = (call.source, m) := by
  have hbatch : (call.source, call.logs) ∈ s.handedBatches := List.mem_map.2 ⟨call, hcall, rfl⟩
  have hmem : (call.source, m) ∈
      flatten ((s.drained ++ [s.current]).flatMap (fun es => (merge es).items)) :=
    List.mem_flatMap.2 ⟨_, h.handed_prefix.subset hbatch, List.mem_map.2 ⟨m, hm, rfl⟩⟩
  have hkeyed := (flatten_flatMap_merge (s.drained ++ [s.current])).mem_iff.1 hmem
  obtain ⟨e, he, hkey⟩ := List.mem_map.1 hkeyed
  exact ⟨e, by simpa [ServerState.dequeued] using he, hkey⟩

/-! ## No log is lost -/

/-- **No accepted log is lost, duplicated or reordered.** In every reachable state the accepted
    entries are those taken from the queue followed by those in it. Whenever the uploader is between
    two iterations, the batches handed over hold every entry taken exactly once, and those under one
    source hold that source's entries in the order of acceptance. Nothing but accepted entries is
    ever handed over. -/
theorem LogProxyServer.no_log_lost (self : LogProxyServer) (maxsize : ℤ) (actions : List Action) :
    let s := self.run maxsize actions
    self.acceptedEntries s = s.dequeued ++ s.queue.items ∧
    (s.thread.iterationEnd →
      (flatten s.handedBatches).Perm (s.dequeued.map LogEntry.keyed) ∧
      ∀ source, contents source s.handedBatches
        = select source (s.dequeued.map LogEntry.keyed)) ∧
    ∀ call ∈ s.handed, ∀ m ∈ call.logs,
      ∃ sub ∈ s.history, ∃ e, self.accepted sub = some e ∧ e.keyed = (call.source, m) := by
  intro s
  have hinv : self.Inv s := self.inv_run maxsize actions
  refine ⟨hinv.conserved, fun hend => ?_, fun call hcall m hm => ?_⟩
  · obtain ⟨hhanded, hcur⟩ := hinv.iterationEnd hend
    have hdeq : s.dequeued = s.drained.flatten := by simp [ServerState.dequeued, hcur]
    rw [hhanded, hdeq]
    exact ⟨flatten_flatMap_merge s.drained, fun k => contents_flatMap_merge k s.drained⟩
  · obtain ⟨e, he, hkey⟩ := hinv.mem_dequeued hcall hm
    have hacc : e ∈ self.acceptedEntries s := by
      rw [hinv.conserved]
      exact List.mem_append_left _ he
    obtain ⟨sub, hsub, hsome⟩ := List.mem_filterMap.1 hacc
    exact ⟨sub, hsub, e, hsome, hkey⟩

/-- A server for one ECU, with the default settings. -/
def exampleServer : LogProxyServer where
  servicer := Servicer.init (some ⟨"autoware".toList, []⟩)
  teeHandler := ⟨"iot_logging_server".toList⟩
  iotLogger := startAwsIotLoggerThread
    ⟨[], [], [], [], "thing".toList, "profile".toList, [], [], none⟩ {}

/-- A post that is accepted, one that is not, and one iteration of the uploader. -/
def exampleActions : List Action :=
  [.http 7 ⟨"autoware".toList, "up".toList⟩, .http 7 ⟨"ghost".toList, "boo".toList⟩] ++
    List.replicate 4 (.uploader "2024/01/01".toList (fun _ => .error (.other 0)))

theorem no_log_lost_example :
    contents (.log, "autoware".toList) (exampleServer.run 1 exampleActions).handedBatches
      = [⟨7000, "up".toList⟩] := by
  have hend : (exampleServer.run 1 exampleActions).thread.iterationEnd := Or.inr (Or.inl rfl)
  rw [((exampleServer.no_log_lost 1 exampleActions).2.1 hend).2]
  decide

/-! ## Admission over runs -/

/-- An id of the main ECU or of a secondary, with a message. -/
def ECUInfo.Admits (info : ECUInfo) (ecuId message : Str) : Prop :=
  (ecuId = info.ecuId ∨ ∃ c ∈ info.secondaries, c.ecuId = ecuId) ∧ message ≠ []

/-- The codes each status stands for. -/
def HTTPStatus.Reports : HTTPStatus → ErrorCode → Prop
  | .ok, code => code = .noFailure
  | .serviceUnavailable, code => code = .serverQueueFull
  | .badRequest, code => code = .noMessage ∨ code = .notAllowedEcuId

/-- A request, as opposed to a teed record. -/
def Action.IsTee : Action → Prop
  | .tee _ _ => True
  | _ => False

theorem LogProxyServer.run_concat (self : LogProxyServer) (maxsize : ℤ) (actions : List Action)
    (a : Action) :
    self.run maxsize (actions ++ [a]) = self.step (self.run maxsize actions) a := by
  simp [LogProxyServer.run]

/-- The thread submits nothing. -/
theorem LogProxyServer.step_uploader_history (self : LogProxyServer) (s : ServerState)
    (today : Str) (outcome : PutCall → Answer) :
    (self.step s (.uploader today outcome)).history = s.history := by
  simp only [LogProxyServer.step]
  rcases (self.iotLogger.step today outcome s.queue s.thread).2.2 with _ | ⟨e | c | _⟩ <;> rfl

/-- What a servicer with an `ecu_info.yaml` does not refuse. -/
theorem Servicer.admits_of_not_refuses {info : ECUInfo} {ecuId message : Str}
    (hmsg : message ≠ []) (href : (Servicer.init (some info)).refuses ecuId = false) :
    info.Admits ecuId message := by
  refine ⟨ECUInfo.mem_ecuIdSet.1 ?_, hmsg⟩
  by_contra hnot
  simp [(Servicer.refuses_init info ecuId).2 hnot] at href

/-- Without teed records, all a run accepts is admitted by the `ecu_info.yaml`. -/
theorem LogProxyServer.accepted_admits (info : ECUInfo) (teeHandler : LogTeeHandler)
    (iotLogger : AWSIoTLogger) (maxsize : ℤ) (actions : List Action)
    (hreq : ∀ a ∈ actions, ¬ a.IsTee) :
    let server : LogProxyServer := ⟨Servicer.init (some info), teeHandler, iotLogger⟩
    ∀ e ∈ server.acceptedEntries (server.run maxsize actions),
      info.Admits e.ecuId e.message.message := by
  intro server
  induction actions using List.reverseRecOn with
  | nil => simp [LogProxyServer.run, ServerState.start, LogProxyServer.acceptedEntries]
  | append_singleton actions a ih =>
      have hprev := ih (fun b hb => hreq b (List.mem_append_left _ hb))
      have hlast : ¬ a.IsTee := hreq a (by simp)
      rw [server.run_concat]
      -- a submission of what the servicer does not refuse keeps the accepted entries admitted
      have hsubmit : ∀ (sub : Submission) {ecuId text : Str},
          (∀ e ∈ server.accepted sub, e.ecuId = ecuId ∧ e.message.message = text ∧
            text ≠ [] ∧ server.servicer.refuses ecuId = false) →
          ∀ e ∈ server.acceptedEntries ((server.run maxsize actions).submit sub
            (server.accepted sub)), info.Admits e.ecuId e.message.message := by
        intro sub ecuId text hsub e he
        simp only [LogProxyServer.acceptedEntries, ServerState.submit, List.filterMap_append,
          List.mem_append] at he
        rcases he with he | he
        · exact hprev e he
        · obtain ⟨sub', hsub', hsome⟩ := List.mem_filterMap.1 he
          rw [List.mem_singleton.1 hsub'] at hsome
          obtain ⟨hid, hmsg, hne, href⟩ := hsub e hsome
          rw [hid, hmsg]
          exact Servicer.admits_of_not_refuses hne href
      cases a with
      | http now request =>
          obtain ⟨sub, hstep, hacc⟩ := server.step_http (server.run maxsize actions) now request
          rw [hstep]
          exact hsubmit sub hacc
      | grpc now request =>
          obtain ⟨sub, hstep, hacc⟩ := server.step_grpc (server.run maxsize actions) now request
          rw [hstep]
          exact hsubmit sub hacc
      | tee now formatted => exact absurd trivial hlast
      | uploader today outcome =>
          rw [LogProxyServer.acceptedEntries, server.step_uploader_history]
          exact hprev

/-- The status is the report of the code, for every code `_put_log` answers with. -/
theorem httpStatus_reports (self : Servicer) (q : LogsQueue) (ecuId message : Str) :
    (httpStatus (self.admission q ecuId message)).Reports (self.admission q ecuId message) := by
  unfold Servicer.admission
  split
  · simp [httpStatus, HTTPStatus.Reports]
  · split
    · simp [httpStatus, HTTPStatus.Reports]
    · split <;> simp [httpStatus, HTTPStatus.Reports]

/-- **Admission control over whole runs, and the two front ends agree.** With an `ecu_info.yaml`,
    whatever requests come in between whatever steps of the uploader, all that is ever queued or
    handed over has a known id and a message. A request queues exactly its own entry, at the tail,
    if it is answered NO_FAILURE (200), and nothing otherwise. A post and a plain gRPC put at the
    same clock reading leave the same queue and report the same outcome. -/
theorem LogProxyServer.admission_over_runs (ecuInfo : Option ECUInfo) (teeHandler : LogTeeHandler)
    (iotLogger : AWSIoTLogger) (maxsize : ℤ) (actions : List Action)
    (hreq : ∀ a ∈ actions, ¬ a.IsTee) :
    let server : LogProxyServer := ⟨Servicer.init ecuInfo, teeHandler, iotLogger⟩
    let s := server.run maxsize actions
    (∀ info, ecuInfo = some info →
      (∀ e ∈ s.dequeued ++ s.queue.items, info.Admits e.ecuId e.message.message) ∧
      ∀ call ∈ s.handed, ∀ m ∈ call.logs, info.Admits call.source.2 m.message) ∧
    (∀ (q : LogsQueue) (now : ℚ) (request : HTTPRequest),
      (server.servicer.httpPutLog q now request).2
        = if (server.servicer.httpPutLog q now request).1 = .ok then
            { q with items := q.items ++ [logEntry now request.ecuId .log none request.text] }
          else q) ∧
    (∀ (q : LogsQueue) (now : ℚ) (request : PutLogRequest),
      (server.servicer.grpcPutLog q now request).2
        = if (server.servicer.grpcPutLog q now request).1.code = .noFailure then
            { q with items := q.items ++ [logEntry now request.ecuId request.logType
              (some request.timestamp) request.message] }
          else q) ∧
    ∀ (q : LogsQueue) (now : ℚ) (ecuId message : Str) (level : LogLevel),
      (server.servicer.httpPutLog q now ⟨ecuId, message⟩).2
        = (server.servicer.grpcPutLog q now ⟨ecuId, .log, 0, level, message⟩).2 ∧
      (server.servicer.httpPutLog q now ⟨ecuId, message⟩).1.Reports
        (server.servicer.grpcPutLog q now ⟨ecuId, .log, 0, level, message⟩).1.code := by
  intro server s
  refine ⟨?_, ?_, ?_, ?_⟩
  · rintro info rfl
    have hinv : server.Inv s := server.inv_run maxsize actions
    have hacc : ∀ e ∈ s.dequeued ++ s.queue.items, info.Admits e.ecuId e.message.message := by
      rw [← hinv.conserved]
      exact LogProxyServer.accepted_admits info teeHandler iotLogger maxsize actions hreq
    refine ⟨hacc, fun call hcall m hm => ?_⟩
    obtain ⟨e, he, hkey⟩ := hinv.mem_dequeued hcall hm
    have hsource : e.source = call.source := congrArg Prod.fst hkey
    have hmessage : e.message = m := congrArg Prod.snd hkey
    rw [← hsource, ← hmessage]
    exact hacc e (List.mem_append_left _ he)
  · intro q now request
    simp only [Servicer.httpPutLog, Servicer.putLog_eq, httpStatus_admission]
  · intro q now request
    simp only [Servicer.grpcPutLog, Servicer.putLog_eq]
  · intro q now ecuId message level
    simp only [Servicer.httpPutLog, Servicer.grpcPutLog, Servicer.putLog_eq]
    exact ⟨rfl, httpStatus_reports _ _ _ _⟩

theorem admission_over_runs_example :
    (exampleServer.run 1 exampleActions).handed.length = 1 ∧
    ∀ call ∈ (exampleServer.run 1 exampleActions).handed, ∀ m ∈ call.logs,
      ECUInfo.Admits ⟨"autoware".toList, []⟩ call.source.2 m.message :=
  ⟨by decide, ((LogProxyServer.admission_over_runs (some ⟨"autoware".toList, []⟩) _ _ 1
    exampleActions (by simp [exampleActions, Action.IsTee])).1 _ rfl).2⟩

end IotLoggingServer
