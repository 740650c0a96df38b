import IotLoggingServer.StreamService
import IotLoggingServer.V1.Messages

set_option autoImplicit false

/-! # The whole, down to the messages

The logging system as its clients see it: a gRPC call is a protobuf message in and a protobuf
message, or an exception, out.

A run over messages is a run of the logging system on the requests that are converted, with the same
replies (`run_decodes`), so that what clients were told, what the service was called with and what
is still queued account for each other (`acknowledged_exactly_once`). -/

namespace IotLoggingServer

/-! ## The whole over messages -/

structure WireSystem extends LoggingSystem where
  rt : PbRuntime

/-- What can happen next, with the messages of the gRPC calls. -/
inductive WireAction
  | http (now : ℚ) (request : HTTPRequest)
  | putLog (now : ℚ) (m : PutLogMessage)
  | check (m : HealthCheckMessage)
  | tee (now : ℚ) (formatted : Option Str)
  | uploader (today : UtcDate)

/-- A log offered to the server or a health check, with the reply. -/
inductive Exchange
  | http (now : ℚ) (request : HTTPRequest) (reply : HTTPStatus)
  | putLog (now : ℚ) (m : PutLogMessage) (reply : Except PyExc PyVal)
  | check (m : HealthCheckMessage) (reply : Except PyExc PyVal)
  | tee (now : ℚ) (formatted : Option Str) (queued : Bool)

structure WireState where
  queue : LogsQueue
  thread : ThreadState
  world : World
  /-- every exchange so far -/
  exchanges : List Exchange

def WireState.start (maxsize : ℤ) : WireState := ⟨⟨maxsize, []⟩, .top, ⟨[], []⟩, []⟩

def WireSystem.step (self : WireSystem) (s : WireState) : WireAction → WireState
  | .http now request =>
    let res := self.server.servicer.httpPutLog s.queue now request
    { s with queue := res.2, exchanges := s.exchanges ++ [.http now request res.1] }
  | .putLog now m =>
    let res := OTAClientIoTLoggingServiceV1.putLog self.rt self.server.servicer s.queue now
      (.pb "PutLogRequest".toList m.pbFields)
    { s with queue := res.2, exchanges := s.exchanges ++ [.putLog now m res.1] }
  | .check m =>
    let reply := OTAClientIoTLoggingServiceV1.check self.rt self.server.servicer
      (.pb "HealthCheckRequest".toList m.pbFields)
    { s with exchanges := s.exchanges ++ [.check m reply] }
  | .tee now formatted =>
    let res := self.server.teeHandler.emit s.queue now formatted
    { s with
      queue := res.2
      exchanges := s.exchanges ++ [.tee now formatted (LogsQueue.acceptsRecord s.queue formatted)] }
  | .uploader today =>
    match self.server.iotLogger.nextCall today s.thread with
    | none =>
      let res := self.server.iotLogger.step today.strftime (fun _ => .ok ()) s.queue s.thread
      { s with thread := res.1, queue := res.2.1 }
    | some call =>
      let upload := self.client.upload call s.world
      let res := self.server.iotLogger.step today.strftime (fun _ => upload.1) s.queue s.thread
      { s with thread := res.1, queue := res.2.1, world := upload.2 }

def WireSystem.run (self : WireSystem) (maxsize : ℤ) (actions : List WireAction) : WireState :=
  actions.foldl self.step (WireState.start maxsize)

/-! ## A run over messages is a run of the logging system -/

/-- The action an action over messages amounts to, if it gets that far. -/
def WireAction.decode : WireAction → Option SystemAction
  | .http now request => some (.http now request)
  | .putLog now m => m.decode.map (.grpc now)
  | .check _ => none
  | .tee now formatted => some (.tee now formatted)
  | .uploader today => some (.uploader today)

/-- The submission an exchange amounts to, if it got that far. -/
def Exchange.submission : Exchange → Option Submission
  | .http now request reply => some (.http now request reply)
  | .putLog now m reply => do
    let request ← m.decode
    let code ← ErrorCode.ofValue (← responseCode reply)
    some (.grpc now request { code })
  | .check _ _ => none
  | .tee now formatted queued => some (.tee now formatted queued)

/-- A gRPC exchange ends as it should: an unknown enum value raises, a request that is converted is
    answered by its response message, and a health check by SERVING. -/
def Exchange.Proper : Exchange → Prop
  | .putLog _ m reply =>
    if m.decode.isSome then ∃ code : ErrorCode, reply = .ok (.pb "PutLogResponse".toList
      [("code".toList, .atom (.int code.value)), ("message".toList, .atom (.str []))])
    else ∃ e, reply = .error e
  | .check _ reply => reply = .ok (.pb "HealthCheckResponse".toList
      [("status".toList, .atom (.int ServiceStatus.serving.value))])
  | _ => True

/-- The code's state is that of the logging system, and the exchanges are its submissions. -/
structure WireState.Decodes (s : WireState) (s' : SystemState) : Prop where
  queue : s.queue = s'.server.queue
  thread : s.thread = s'.server.thread
  world : s.world = s'.world
  history : s.exchanges.filterMap Exchange.submission = s'.server.history
  proper : ∀ x ∈ s.exchanges, x.Proper

section Record

variable (s : ServerState) (event : Option ThreadEvent)

@[simp] theorem ServerState.record_queue : (s.record event).queue = s.queue := by
  rcases event with _ | _ | _ | _ <;> rfl

@[simp] theorem ServerState.record_thread : (s.record event).thread = s.thread := by
  rcases event with _ | _ | _ | _ <;> rfl

@[simp] theorem ServerState.record_history : (s.record event).history = s.history := by
  rcases event with _ | _ | _ | _ <;> rfl

end Record

section Decodes

variable {self : WireSystem} {s : WireState} {s' : SystemState}

/-- An action that is not converted leaves all but the exchanges as it is. -/
theorem WireState.Decodes.step_none (h : s.Decodes s') {a : WireAction} (ha : a.decode = none) :
    (self.step s a).Decodes s' := by
  obtain ⟨hqueue, hthread, hworld, hhistory, hproper⟩ := h
  cases a with
  | putLog now m =>
      rcases OTAClientIoTLoggingServiceV1.putLog_message self.rt self.server.servicer s.queue now m
        with ⟨request, hdecode, -⟩ | ⟨hdecode, e, hput⟩
      · rw [WireAction.decode, hdecode] at ha
        cases ha
      · have hsubmission : Exchange.submission (.putLog now m (.error e)) = none := by
          simp [Exchange.submission, hdecode]
        simp only [WireSystem.step, hput]
        refine ⟨hqueue, hthread, hworld, ?_, ?_⟩
        · rw [List.filterMap_append, List.filterMap_cons_none hsubmission, List.filterMap_nil,
            List.append_nil, hhistory]
        · rw [List.forall_mem_append, List.forall_mem_singleton]
          exact ⟨hproper, by simp [Exchange.Proper, hdecode]⟩
  | check m =>
      simp only [WireSystem.step, OTAClientIoTLoggingServiceV1.check_message]
      refine ⟨hqueue, hthread, hworld, ?_, ?_⟩
      · rw [List.filterMap_append, List.filterMap_cons_none rfl, List.filterMap_nil,
          List.append_nil, hhistory]
      · rw [List.forall_mem_append, List.forall_mem_singleton]
        exact ⟨hproper, rfl⟩
  | http now request => cases ha
  | tee now formatted => cases ha
  | uploader today => cases ha

/-- An action that is converted is a step of the logging system. -/
theorem WireState.Decodes.step_some (h : s.Decodes s') {a : WireAction} {b : SystemAction}
    (ha : a.decode = some b) : (self.step s a).Decodes (self.toLoggingSystem.step s' b) := by
  obtain ⟨hqueue, hthread, hworld, hhistory, hproper⟩ := h
  cases a with
  | http now request =>
      cases ha
      refine ⟨?_, hthread, hworld, ?_, ?_⟩
      · simp only [WireSystem.step, LoggingSystem.step, LogProxyServer.step, hqueue]
      · simp only [WireSystem.step, LoggingSystem.step, LogProxyServer.step, List.filterMap_append,
          hhistory, hqueue]
        rfl
      · simp only [WireSystem.step, List.forall_mem_append, List.forall_mem_singleton]
        exact ⟨hproper, trivial⟩
  | putLog now m =>
      rcases OTAClientIoTLoggingServiceV1.putLog_message self.rt self.server.servicer s.queue now m
        with ⟨request, hdecode, hput⟩ | ⟨hdecode, -⟩
      · rw [WireAction.decode, hdecode] at ha
        cases ha
        have hresponse : (self.server.servicer.grpcPutLog s.queue now request).1 =
            { code := (self.server.servicer.grpcPutLog s.queue now request).1.code } := rfl
        simp only [WireSystem.step, hput]
        refine ⟨?_, hthread, hworld, ?_, ?_⟩
        · simp only [LoggingSystem.step, LogProxyServer.step, hqueue]
        · have hsubmission : Exchange.submission (.putLog now m (.ok (.pb "PutLogResponse".toList
              [("code".toList, .atom (.int
                (self.server.servicer.grpcPutLog s.queue now request).1.code.value)),
              ("message".toList, .atom (.str []))]))) =
              some (.grpc now request (self.server.servicer.grpcPutLog s.queue now request).1) := by
            simp only [Exchange.submission, hdecode, Option.bind_eq_bind, Option.bind_some]
            exact congrArg (fun code : Option ErrorCode => code.bind (fun code =>
              some (Submission.grpc now request { code }))) (ErrorCode.ofValue_value _)
          rw [List.filterMap_append, List.filterMap_cons_some hsubmission, List.filterMap_nil,
            hhistory, hqueue]
          rfl
        · simp only [List.forall_mem_append, List.forall_mem_singleton]
          exact ⟨hproper, by simp [Exchange.Proper, hdecode]⟩
      · rw [WireAction.decode, hdecode] at ha
        cases ha
  | check m => cases ha
  | tee now formatted =>
      cases ha
      refine ⟨?_, hthread, hworld, ?_, ?_⟩
      · simp only [WireSystem.step, LoggingSystem.step, LogProxyServer.step, hqueue]
      · simp only [WireSystem.step, LoggingSystem.step, LogProxyServer.step, List.filterMap_append,
          hhistory, hqueue]
        rfl
      · simp only [WireSystem.step, List.forall_mem_append, List.forall_mem_singleton]
        exact ⟨hproper, trivial⟩
  | uploader today =>
      cases ha
      cases hcall : self.server.iotLogger.nextCall today s.thread with
      | none =>
          have hcall' := hthread ▸ hcall
          simp only [WireSystem.step, LoggingSystem.step, hcall, hcall', LogProxyServer.step]
          refine ⟨?_, ?_, hworld, ?_, hproper⟩
          · simp only [ServerState.record_queue, hqueue, hthread]
          · simp only [ServerState.record_thread, hqueue, hthread]
          · simp only [ServerState.record_history, hhistory]
      | some call =>
          have hcall' := hthread ▸ hcall
          simp only [WireSystem.step, LoggingSystem.step, hcall, hcall', LogProxyServer.step]
          refine ⟨?_, ?_, ?_, ?_, hproper⟩
          · simp only [ServerState.record_queue, hqueue, hthread, hworld]
          · simp only [ServerState.record_thread, hqueue, hthread, hworld]
          · simp only [hworld]
          · simp only [ServerState.record_history, hhistory]

end Decodes

/-- **A run over messages is a run of the logging system on what is converted.** It ends in the same
    state with the same replies; in between, a `PutLog` with an unknown enum value raises, a health
    check is answered by SERVING, and neither changes anything. -/
theorem WireSystem.run_decodes (self : WireSystem) (maxsize : ℤ) (actions : List WireAction) :
    (self.run maxsize actions).Decodes
      (self.toLoggingSystem.run maxsize (actions.filterMap WireAction.decode)) := by
  induction actions using List.reverseRecOn with
  | nil => exact ⟨rfl, rfl, rfl, rfl, by simp [WireSystem.run, WireState.start]⟩
  | append_singleton actions a ih =>
      rw [WireSystem.run, List.foldl_append, List.filterMap_append]
      cases ha : a.decode with
      | none =>
          rw [List.filterMap_cons_none ha, List.filterMap_nil, List.append_nil]
          exact ih.step_none ha
      | some b =>
          rw [List.filterMap_cons_some ha, List.filterMap_nil, LoggingSystem.run_concat]
          exact ih.step_some ha

/-! ## What clients were told -/

/-- The entry a client or the tee handler was told is queued, read off the messages alone. -/
def WireSystem.acknowledged (self : WireSystem) : Exchange → Option LogEntry
  | .http now request reply =>
    if reply = .ok then some ⟨.log, request.ecuId, stamp now none, request.text⟩ else none
  | .putLog now m reply =>
    if responseCode reply = some ErrorCode.noFailure.value then
      some (promisedEntry now m.ecuId m.logType m.timestamp m.message)
    else none
  | .check _ _ => none
  | .tee now formatted queued =>
    if queued then formatted.map (self.server.teeHandler.entry now) else none

theorem promisedEntry_eq (now : ℚ) (ecuId : Str) (logType : LogType) (timestamp : ℤ)
    (message : Str) : promisedEntry now ecuId logType.value timestamp message =
      logEntry now ecuId logType (some timestamp) message := by
  cases logType <;> rfl

/-- A proper exchange acknowledges what the submission it amounts to is accepted as. -/
theorem WireSystem.acknowledged_eq (self : WireSystem) {x : Exchange} (h : x.Proper) :
    self.acknowledged x = x.submission.bind self.server.accepted := by
  cases x with
  | http now request reply => rfl
  | check m reply => rfl
  | tee now formatted queued => rfl
  | putLog now m reply =>
      simp only [Exchange.Proper] at h
      cases hdecode : m.decode with
      | none =>
          rw [hdecode] at h
          obtain ⟨e, rfl⟩ := h
          simp [WireSystem.acknowledged, Exchange.submission, responseCode, hdecode]
      | some request =>
          rw [hdecode] at h
          obtain ⟨code, rfl⟩ := h
          obtain ⟨hlogType, -, hrequest⟩ := PutLogMessage.decode_eq_some.1 hdecode
          have hcode : responseCode (.ok (.pb "PutLogResponse".toList
              [("code".toList, .atom (.int code.value)), ("message".toList, .atom (.str []))])) =
              some code.value := rfl
          have hentry : promisedEntry now m.ecuId m.logType m.timestamp m.message =
              logEntry now request.ecuId request.logType (some request.timestamp)
                request.message := by
            rw [← promisedEntry_eq, hrequest, hlogType]
          simp only [WireSystem.acknowledged, Exchange.submission, hdecode, hcode, hentry,
            Option.bind_eq_bind, Option.bind_some, ErrorCode.ofValue_value,
            LogProxyServer.accepted]
          have hvalue : some code.value = some ErrorCode.noFailure.value ↔
              code = .noFailure := by
            cases code <;> simp [ErrorCode.value]
          simp only [hvalue]

theorem WireSystem.acknowledged_accepted (self : WireSystem) {s : WireState} {s' : SystemState}
    (h : s.Decodes s') :
    s.exchanges.filterMap self.acknowledged = self.server.acceptedEntries s'.server := by
  rw [LogProxyServer.acceptedEntries, ← h.history, List.filterMap_filterMap]
  exact List.filterMap_congr (fun x hx => self.acknowledged_eq (h.proper x hx))

/-- The logs the service stores under a source, read off the calls made to it. -/
def WireSystem.storedUnder (self : WireSystem) (s : WireState) (source : Source) :
    List LogMessage :=
  contents (self.server.iotLogger.undatedTarget source)
    (s.world.storedBatches.map (fun b => (b.1.undated, b.2)))

/-- What an iteration took from a source was put in one request. -/
theorem LoggingSystem.share_put (self : LoggingSystem) (source : Source) (maxsize : ℤ)
    (actions : List SystemAction) (hend : (self.run maxsize actions).server.thread.iterationEnd)
    {entries : List LogEntry} (hentries : entries ∈ (self.run maxsize actions).server.drained)
    (hshare : select source (entries.map LogEntry.keyed) ≠ []) :
    ∃ request ∈ (self.run maxsize actions).world.puts,
      request.logGroupName = self.server.iotLogger.logGroupName source.1 ∧
      request.logEvents = select source (entries.map LogEntry.keyed) := by
  obtain ⟨hhanded, -⟩ := (self.inv_server maxsize actions).iterationEnd hend
  have hbatch : (source, select source (entries.map LogEntry.keyed)) ∈
      (self.run maxsize actions).server.handedBatches := by
    rw [hhanded, ServerState.mergedBatches]
    exact List.mem_flatMap.2 ⟨entries, hentries, Groups.mem_ofList.2 ⟨rfl, hshare⟩⟩
  obtain ⟨call, hcall, heq⟩ := List.mem_map.1 hbatch
  obtain ⟨today, htarget⟩ := (self.uploads_run maxsize actions).targets call hcall
  have hsource : call.source = source := congrArg Prod.fst heq
  refine ⟨call.request, self.puts_run maxsize actions call hcall, ?_, congrArg Prod.snd heq⟩
  rw [← hsource]
  exact congrArg Prod.fst htarget

/-- **From the messages in to the calls out, nothing is lost, doubled or reordered.** At the end of
    every iteration, if the service keeps the streams of a source's group and no put to the group
    broke its limits, the logs of the source that were acknowledged are those stored under it and
    those still queued. -/
theorem WireSystem.acknowledged_exactly_once (self : WireSystem) (source : Source)
    (hservice : KeepsStreams self.client (self.server.iotLogger.logGroupName source.1))
    (maxsize : ℤ) (actions : List WireAction)
    (hend : (self.run maxsize actions).thread.iterationEnd)
    (hlimits : ∀ request ∈ (self.run maxsize actions).world.puts,
      request.logGroupName = self.server.iotLogger.logGroupName source.1 →
      WithinLimits request.logEvents) :
    let s := self.run maxsize actions
    select source ((s.exchanges.filterMap self.acknowledged).map LogEntry.keyed) =
      self.storedUnder s source ++ select source (s.queue.items.map LogEntry.keyed) := by
  intro s
  have hdecodes : s.Decodes _ := self.run_decodes maxsize actions
  rw [hdecodes.thread] at hend
  rw [hdecodes.world] at hlimits
  rw [self.acknowledged_accepted hdecodes, WireSystem.storedUnder, hdecodes.queue, hdecodes.world]
  refine hservice.accepted_shares maxsize _ hend (fun entries hentries => ?_)
  by_cases hshare : select source (entries.map LogEntry.keyed) = []
  · rw [hshare]
    decide
  · obtain ⟨request, hmem, hgroup, hevents⟩ :=
      self.toLoggingSystem.share_put source maxsize _ hend hentries hshare
    rw [← hevents]
    exact hlimits request hmem hgroup

def exampleWireSystem : WireSystem where
  server := exampleServer
  client := streamService
  rt := indexRuntime

def exampleMessage (level : ℤ) : PutLogMessage where
  pbFields := exampleRequest level
  ecuId := "autoware".toList
  logType := 0
  timestamp := 0
  level
  message := "started".toList
  reads := isPutLogRequest_exampleRequest level

/-- A log of level INFO, one of level TRACE, a health check, and one iteration of the uploader. -/
def exampleWireActions : List WireAction :=
  [.putLog 7 (exampleMessage 3), .putLog 7 (exampleMessage 1), .check ⟨[], [], rfl⟩] ++
    List.replicate 4 (.uploader exampleDate)

/-- The INFO log is acknowledged and stored. -/
theorem acknowledged_exactly_once_example :
    exampleWireSystem.storedUnder (exampleWireSystem.run 8 exampleWireActions)
      (.log, "autoware".toList) = [⟨7000, "started".toList⟩] := by
  have hend : (exampleWireSystem.run 8 exampleWireActions).thread.iterationEnd :=
    Or.inr (Or.inl rfl)
  have hlimits : ∀ request ∈ (exampleWireSystem.run 8 exampleWireActions).world.puts,
      WithinLimits request.logEvents := by
    decide +kernel
  have hstored := exampleWireSystem.acknowledged_exactly_once (.log, "autoware".toList)
    (keepsStreams_streamService _) 8 exampleWireActions hend
    (fun request hmem _ => hlimits request hmem)
  have hqueue : (exampleWireSystem.run 8 exampleWireActions).queue.items = [] := by
    decide +kernel
  have hacknowledged : (exampleWireSystem.run 8 exampleWireActions).exchanges.filterMap
      exampleWireSystem.acknowledged = [⟨.log, "autoware".toList, 7000, "started".toList⟩] := by
    decide +kernel
  simp only [hqueue, hacknowledged, List.map_nil, List.append_nil, select_nil] at hstored
  rw [← hstored]
  decide

end IotLoggingServer
