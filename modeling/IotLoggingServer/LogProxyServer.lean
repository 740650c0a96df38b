import IotLoggingServer.AwsIotLogger.Thread
import IotLoggingServer.LogSetting
import IotLoggingServer.Servicer

set_option autoImplicit false

/-! # The running server (`log_proxy_server.py`, `__main__.py`)

One queue, three producers (HTTP posts, gRPC calls, the server's own log records) and the uploader
thread that drains it. A run is any interleaving of requests, teed records and single steps of the
thread. Beside the code's state it keeps what an observer would write down: every submission with
its reply, the entries taken in each iteration of the uploader, and the calls of `put_log_events`.

`Inv` relates the two and holds in every state a run reaches (`inv_run`). -/

namespace IotLoggingServer

structure LogProxyServer where
  servicer : Servicer
  teeHandler : LogTeeHandler
  iotLogger : AWSIoTLogger

/-- What can happen next. `now` is the clock a producer reads, `today` the date and `outcome` the
    end of the call the thread meets, should its step read or make one. -/
inductive Action
  | http (now : ℚ) (request : HTTPRequest)
  | grpc (now : ℚ) (request : PutLogRequest)
  | tee (now : ℚ) (formatted : Option Str)
  | uploader (today : Str) (outcome : PutCall → Answer)

/-- A log offered to the server, with the reply. To a record there is none, but it is accepted or
    not. -/
inductive Submission
  | http (now : ℚ) (request : HTTPRequest) (reply : HTTPStatus)
  | grpc (now : ℚ) (request : PutLogRequest) (reply : PutLogResponse)
  | tee (now : ℚ) (formatted : Option Str) (accepted : Bool)

/-- The entry an accepted submission stands for; a refused one stands for none. -/
def LogProxyServer.accepted (self : LogProxyServer) : Submission → Option LogEntry
  | .http now request reply =>
    if reply = .ok then some (logEntry now request.ecuId .log none request.text) else none
  | .grpc now request reply =>
    if reply.code = .noFailure then
      some (logEntry now request.ecuId request.logType (some request.timestamp) request.message)
    else none
  | .tee now formatted accepted =>
    if accepted then formatted.map (self.teeHandler.entry now) else none

structure ServerState where
  queue : LogsQueue
  thread : ThreadState
  /-- every submission so far -/
  history : List Submission
  /-- the entries taken in each iteration that is over -/
  drained : List (List LogEntry)
  /-- the entries taken in the iteration under way -/
  current : List LogEntry
  /-- the calls of `put_log_events` so far -/
  handed : List PutCall

/-- The server as it starts, with a queue of capacity `maxsize`. -/
def ServerState.start (maxsize : ℤ) : ServerState := ⟨⟨maxsize, []⟩, .top, [], [], [], []⟩

/-- Write down what the thread did. -/
def ServerState.record (s : ServerState) : Option ThreadEvent → ServerState
  | some (.got entry) => { s with current := s.current ++ [entry] }
  | some (.put call) => { s with handed := s.handed ++ [call] }
  | some .uploaded => { s with drained := s.drained ++ [s.current], current := [] }
  | none => s

def LogProxyServer.step (self : LogProxyServer) (s : ServerState) : Action → ServerState
  | .http now request =>
    let res := self.servicer.httpPutLog s.queue now request
    { s with queue := res.2, history := s.history ++ [.http now request res.1] }
  | .grpc now request =>
    let res := self.servicer.grpcPutLog s.queue now request
    { s with queue := res.2, history := s.history ++ [.grpc now request res.1] }
  | .tee now formatted =>
    let res := self.teeHandler.emit s.queue now formatted
    { s with
      queue := res.2
      history := s.history ++ [.tee now formatted (LogsQueue.acceptsRecord s.queue formatted)] }
  | .uploader today outcome =>
    let res := self.iotLogger.step today outcome s.queue s.thread
    ({ s with thread := res.1, queue := res.2.1 }).record res.2.2

/-- The state after `actions`, with a queue of capacity `maxsize`. -/
def LogProxyServer.run (self : LogProxyServer) (maxsize : ℤ) (actions : List Action) :
    ServerState :=
  actions.foldl self.step (ServerState.start maxsize)

/-! ## What an observer reads off a state -/

/-- The accepted entries, in the order of acceptance. -/
def LogProxyServer.acceptedEntries (self : LogProxyServer) (s : ServerState) : List LogEntry :=
  s.history.filterMap self.accepted

/-- The entries taken from the queue, in order. -/
def ServerState.dequeued (s : ServerState) : List LogEntry := s.drained.flatten ++ s.current

/-- The batches handed to `put_log_events`, under their sources. -/
def ServerState.handedBatches (s : ServerState) : List (Source × List LogMessage) :=
  s.handed.map (fun call => (call.source, call.logs))

/-- The thread is between two iterations: back at the top, about to sleep, or gone. -/
def ThreadState.iterationEnd (t : ThreadState) : Prop :=
  t = .top ∨ t = .sleeping ∨ ∃ e, t = .raised e

/-- The batches of the iterations that are over. -/
def ServerState.mergedBatches (s : ServerState) : List (Source × List LogMessage) :=
  s.drained.flatMap (fun entries => (merge entries).items)

/-- Where the entries taken so far are: handed over, in the dictionary being filled, or in the rest
    of the dictionary being uploaded. -/
def ServerState.Merged (s : ServerState) : Prop :=
  match s.thread with
  | .merging n d =>
    s.handedBatches = s.mergedBatches ∧ d = merge s.current ∧ n = s.current.length
  | .uploading items => s.handedBatches ++ items = s.mergedBatches ++ (merge s.current).items
  | .sleeping => s.handedBatches = s.mergedBatches ∧ s.current = []
  | .raised _ => s.handedBatches = s.mergedBatches ∧ s.current = []

/-- What holds of the server in every state it reaches. -/
structure LogProxyServer.Inv (server : LogProxyServer) (s : ServerState) : Prop where
  conserved : server.acceptedEntries s = s.dequeued ++ s.queue.items
  merged : s.Merged

/-! ## What a step does -/

section Step

variable (self : LogProxyServer) (s : ServerState)

/-- A submission that the queue took, or left as it was. -/
def ServerState.submit (s : ServerState) (sub : Submission) (entry : Option LogEntry) :
    ServerState :=
  { s with
    queue := { s.queue with items := s.queue.items ++ entry.toList }
    history := s.history ++ [sub] }

theorem LogProxyServer.step_http (now : ℚ) (request : HTTPRequest) :
    ∃ sub, self.step s (.http now request) = s.submit sub (self.accepted sub) ∧
      ∀ e ∈ self.accepted sub, e.ecuId = request.ecuId ∧ e.message.message = request.text ∧
        request.text ≠ [] ∧ self.servicer.refuses request.ecuId = false := by
  refine ⟨.http now request (self.servicer.httpPutLog s.queue now request).1, ?_, ?_⟩
  · simp only [LogProxyServer.step, ServerState.submit, Servicer.httpPutLog, Servicer.putLog_eq,
      LogProxyServer.accepted, httpStatus_admission]
    split <;> simp
  · simp only [LogProxyServer.accepted, Servicer.httpPutLog, Servicer.putLog_eq,
      httpStatus_admission, Servicer.admission_eq_noFailure]
    split
    · next h => simp [logEntry, h.1, h.2.1]
    · simp

theorem LogProxyServer.step_grpc (now : ℚ) (request : PutLogRequest) :
    ∃ sub, self.step s (.grpc now request) = s.submit sub (self.accepted sub) ∧
      ∀ e ∈ self.accepted sub, e.ecuId = request.ecuId ∧ e.message.message = request.message ∧
        request.message ≠ [] ∧ self.servicer.refuses request.ecuId = false := by
  refine ⟨.grpc now request (self.servicer.grpcPutLog s.queue now request).1, ?_, ?_⟩
  · simp only [LogProxyServer.step, ServerState.submit, Servicer.grpcPutLog, Servicer.putLog_eq,
      LogProxyServer.accepted]
    split <;> simp
  · simp only [LogProxyServer.accepted, Servicer.grpcPutLog, Servicer.putLog_eq,
      Servicer.admission_eq_noFailure]
    split
    · next h => simp [logEntry, h.1, h.2.1]
    · simp

theorem LogProxyServer.step_tee (now : ℚ) (formatted : Option Str) :
    ∃ sub, self.step s (.tee now formatted) = s.submit sub (self.accepted sub) := by
  refine ⟨.tee now formatted (LogsQueue.acceptsRecord s.queue formatted), ?_⟩
  simp only [LogProxyServer.step, LogTeeHandler.emit_eq, ServerState.submit,
    LogProxyServer.accepted]

/-- **All an action can do**: submit a log, or one step of the thread. -/
theorem LogProxyServer.step_cases (a : Action) :
    (∃ sub, self.step s a = s.submit sub (self.accepted sub)) ∨
      ∃ today outcome, a = .uploader today outcome := by
  cases a with
  | http now request =>
      obtain ⟨sub, hstep, -⟩ := self.step_http s now request
      exact Or.inl ⟨sub, hstep⟩
  | grpc now request =>
      obtain ⟨sub, hstep, -⟩ := self.step_grpc s now request
      exact Or.inl ⟨sub, hstep⟩
  | tee now formatted => exact Or.inl (self.step_tee s now formatted)
  | uploader today outcome => exact Or.inr ⟨today, outcome, rfl⟩

/-- **All a step of the thread can do to the server**: the cases of `AWSIoTLogger.step_cases`, with
    what is written down of them. -/
theorem LogProxyServer.step_uploader (today : Str) (outcome : PutCall → Answer) :
    (∃ n d e rest, s.thread = .merging n d ∧ (n : ℤ) < self.iotLogger.maxLogsPerMerge ∧
      s.queue.items = e :: rest ∧ self.step s (.uploader today outcome) =
        { s with
          thread := .merging (n + 1) (d.append e.source e.message)
          queue := { s.queue with items := rest }
          current := s.current ++ [e] }) ∨
    (∃ n d, s.thread = .merging n d ∧
      (self.iotLogger.maxLogsPerMerge ≤ n ∨ s.queue.items = []) ∧
      self.step s (.uploader today outcome) = { s with thread := .uploading d.items }) ∨
    (∃ batch rest, s.thread = .uploading (batch :: rest) ∧
      self.step s (.uploader today outcome) =
        { s with
          thread := .uploading rest
          handed := s.handed ++ [self.iotLogger.putCall today batch] }) ∨
    (s.thread = .uploading [] ∧ self.step s (.uploader today outcome) =
      { s with thread := .sleeping, drained := s.drained ++ [s.current], current := [] }) ∨
    (s.thread = .sleeping ∧ 0 ≤ self.iotLogger.interval ∧
      self.step s (.uploader today outcome) = { s with thread := .top }) ∨
    (∃ e, (s.thread = .raised e ∨ s.thread = .sleeping ∧ self.iotLogger.interval < 0) ∧
      self.step s (.uploader today outcome) = { s with thread := .raised e }) := by
  simp only [LogProxyServer.step]
  rcases self.iotLogger.step_cases today outcome s.queue s.thread with
    ⟨n, d, e, rest, ht, hn, hq, hstep⟩ | ⟨n, d, ht, hend, hstep⟩ | ⟨batch, rest, ht, hstep⟩ |
    ⟨ht, hstep⟩ | ⟨ht, hint, hstep⟩ | ⟨e, ht, hstep⟩
  · exact Or.inl ⟨n, d, e, rest, ht, hn, hq, by rw [hstep]; rfl⟩
  · exact Or.inr (Or.inl ⟨n, d, ht, hend, by rw [hstep]; rfl⟩)
  · exact Or.inr (Or.inr (Or.inl ⟨batch, rest, ht, by rw [hstep]; rfl⟩))
  · exact Or.inr (Or.inr (Or.inr (Or.inl ⟨ht, by rw [hstep]; rfl⟩)))
  · exact Or.inr (Or.inr (Or.inr (Or.inr (Or.inl ⟨ht, hint, by rw [hstep]; rfl⟩))))
  · exact Or.inr (Or.inr (Or.inr (Or.inr (Or.inr ⟨e, ht, by rw [hstep]; rfl⟩))))

end Step

/-! ## The invariant -/

section Invariant

variable (self : LogProxyServer)

theorem LogProxyServer.inv_start (maxsize : ℤ) : self.Inv (ServerState.start maxsize) where
  conserved := rfl
  merged := ⟨rfl, rfl, rfl⟩

/-- A submission adds the same entry at both ends. -/
theorem LogProxyServer.Inv.submit {self : LogProxyServer} {s : ServerState} (h : self.Inv s)
    (sub : Submission) : self.Inv (s.submit sub (self.accepted sub)) where
  conserved := by
    have hcons : s.history.filterMap self.accepted = s.dequeued ++ s.queue.items := h.conserved
    have hdeq : (s.submit sub (self.accepted sub)).dequeued = s.dequeued := rfl
    rw [hdeq]
    simp only [LogProxyServer.acceptedEntries, ServerState.submit, List.filterMap_append, hcons,
      List.append_assoc]
    cases hsub : self.accepted sub <;> simp [hsub]
  merged := h.merged

/-- A step of the thread moves entries along without losing or reordering any. -/
theorem LogProxyServer.Inv.uploader {self : LogProxyServer} {s : ServerState} (h : self.Inv s)
    (today : Str) (outcome : PutCall → Answer) :
    self.Inv (self.step s (.uploader today outcome)) := by
  obtain ⟨hcons, hmerged⟩ := h
  simp only [LogProxyServer.step]
  rcases self.iotLogger.step_cases today outcome s.queue s.thread with
    ⟨n, d, e, rest, ht, -, hq, hstep⟩ | ⟨n, d, ht, -, hstep⟩ | ⟨b, rest, ht, hstep⟩ |
    ⟨ht, hstep⟩ | ⟨ht, -, hstep⟩ | ⟨e, ht, hstep⟩
  · -- the head of the queue goes to the dictionary
    simp only [ServerState.Merged, ht] at hmerged
    obtain ⟨hhanded, rfl, rfl⟩ := hmerged
    rw [hstep]
    refine ⟨?_, hhanded, (merge_append _ _).symm, by simp [ServerState.record]⟩
    simpa [LogProxyServer.acceptedEntries, ServerState.dequeued, ServerState.record, hq]
      using hcons
  · simp only [ServerState.Merged, ht] at hmerged
    obtain ⟨hhanded, rfl, -⟩ := hmerged
    rw [hstep]
    exact ⟨hcons, congrArg (· ++ _) hhanded⟩
  · -- the next batch is handed over
    simp only [ServerState.Merged, ht] at hmerged
    rw [hstep]
    refine ⟨hcons, ?_⟩
    simpa [ServerState.Merged, ServerState.record, ServerState.handedBatches,
      AWSIoTLogger.putCall, ServerState.mergedBatches] using hmerged
  · -- the iteration is over: what it took goes to the past
    simp only [ServerState.Merged, ht, List.append_nil] at hmerged
    rw [hstep]
    refine ⟨?_, ?_, rfl⟩
    · simpa [LogProxyServer.acceptedEntries, ServerState.dequeued, ServerState.record] using hcons
    · simpa [ServerState.handedBatches, ServerState.mergedBatches, ServerState.record]
        using hmerged
  · simp only [ServerState.Merged, ht] at hmerged
    obtain ⟨hhanded, hcur⟩ := hmerged
    rw [hstep]
    refine ⟨hcons, hhanded, ?_, ?_⟩
    · simp [ServerState.record, hcur, merge]
    · simp [ServerState.record, hcur]
  · rw [hstep]
    rcases ht with ht | ⟨ht, -⟩
    · simp only [ServerState.Merged, ht] at hmerged
      exact ⟨hcons, hmerged⟩
    · simp only [ServerState.Merged, ht] at hmerged
      exact ⟨hcons, hmerged⟩

theorem LogProxyServer.Inv.step {self : LogProxyServer} {s : ServerState} (h : self.Inv s)
    (a : Action) : self.Inv (self.step s a) := by
  rcases self.step_cases s a with ⟨sub, hstep⟩ | ⟨today, outcome, rfl⟩
  · rw [hstep]
    exact h.submit sub
  · exact h.uploader today outcome

/-- **The invariant holds in every state the server reaches.** -/
theorem LogProxyServer.inv_run (maxsize : ℤ) (actions : List Action) :
    self.Inv (self.run maxsize actions) := by
  induction actions using List.reverseRecOn with
  | nil => exact self.inv_start maxsize
  | append_singleton actions a ih =>
      rw [LogProxyServer.run, List.foldl_append]
      exact ih.step a

end Invariant

end IotLoggingServer
