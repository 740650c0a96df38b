import IotLoggingServer.AwsIotLogger.LogStream
import IotLoggingServer.Backlog

set_option autoImplicit false

/-! # The server and the log service

The server together with the AWS client of its uploader: each call of `put_log_events` runs against
the client, which may answer every call it gets as it likes, and the calls of one upload follow
those of the one before. What the service stored is read off the calls it answered. A run of the
whole is a run of the server (`run_refines`), and what is stored under a source is a part of what
was accepted from it, in order and without repetition, whatever the service does
(`stored_at_most_once`). -/

namespace IotLoggingServer

/-! ## What the service stored -/

/-- The batch stored by one call, if it is a put that succeeds. -/
def storedBatch : ClientCall × Answer → Option (Target × List LogMessage)
  | (.putLogEvents request, .ok _) =>
    some ((request.logGroupName, request.logStreamName), request.logEvents)
  | _ => none

/-- The batches stored so far, each under its log group and log stream. -/
def World.storedBatches (w : World) : List (Target × List LogMessage) :=
  w.calls.filterMap storedBatch

def ClientCall.putRequest : ClientCall → Option LogEvent
  | .putLogEvents request => some request
  | .createLogStream _ _ => none

/-- The requests of the puts so far, whatever was answered. -/
def World.puts (w : World) : List LogEvent := w.calls.filterMap (fun c => c.1.putRequest)

/-- The request of a call of `put_log_events`. -/
def PutCall.request (self : PutCall) : LogEvent :=
  ⟨self.logGroupName, self.logStreamName, self.logs⟩

/-- `put_log_events`: how the call ends, and the world after it. -/
def AwsClient.upload (client : AwsClient) (call : PutCall) (w : World) : Answer × World :=
  (putLogEvents client call.logGroupName call.logStreamName call.logs w).get (by
    obtain ⟨r, w', _, hrun, _⟩ :=
      putLogEvents_spec client call.logGroupName call.logStreamName call.logs w
    simp [hrun])

theorem AwsClient.putLogEvents_upload (client : AwsClient) (call : PutCall) (w : World) :
    putLogEvents client call.logGroupName call.logStreamName call.logs w
      = some (client.upload call w) := by
  simp [AwsClient.upload]

theorem AwsClient.upload_protocol (client : AwsClient) (call : PutCall) (w : World) :
    ∃ rounds, PutProtocol call.request (client.upload call w).1 w (client.upload call w).2
      rounds := by
  obtain ⟨r, w', rounds, hrun, hprotocol⟩ :=
    putLogEvents_spec client call.logGroupName call.logStreamName call.logs w
  rw [client.putLogEvents_upload, Option.some.injEq] at hrun
  rw [hrun]
  exact ⟨rounds, hprotocol⟩

theorem Round.filterMap_calls (request : LogEvent) (rd : Round) :
    (rd.calls request).filterMap storedBatch = if rd.put = .ok () then
      [((request.logGroupName, request.logStreamName), request.logEvents)] else [] := by
  have hcreates : (rd.creates.map (fun a => (ClientCall.createLogStream request.logGroupName
      request.logStreamName, a))).filterMap storedBatch = [] := by
    rw [List.filterMap_eq_nil_iff]
    intro c hc
    obtain ⟨a, -, rfl⟩ := List.mem_map.1 hc
    rfl
  rw [Round.calls, List.filterMap_cons, hcreates]
  rcases hput : rd.put with e | _
  · simp [storedBatch]
  · simp [storedBatch]

/-- The puts of an upload that succeed are what it gets stored. -/
theorem PutProtocol.storedBatches {request : LogEvent} {r : Answer} {w w' : World}
    {rounds : List Round} (h : PutProtocol request r w w' rounds) :
    w'.storedBatches = w.storedBatches ++ (rounds.filter (fun rd => rd.put = .ok ())).map
      (fun _ => ((request.logGroupName, request.logStreamName), request.logEvents)) := by
  rw [World.storedBatches, h.calls, List.filterMap_append, World.storedBatches]
  congr 1
  generalize rounds = rds
  induction rds with
  | nil => rfl
  | cons rd rest ih =>
      rw [List.flatMap_cons, List.filterMap_append, Round.filterMap_calls, ih, List.filter_cons]
      by_cases hput : rd.put = .ok () <;> simp [hput]

/-- An upload stores its batch once or not at all. -/
theorem AwsClient.upload_stored (client : AwsClient) (call : PutCall) (w : World) :
    (client.upload call w).2.storedBatches = w.storedBatches ∨
      (client.upload call w).2.storedBatches = w.storedBatches ++ [call.targeted] := by
  obtain ⟨rounds, hprotocol⟩ := client.upload_protocol call w
  have hone := hprotocol.ok_le_one
  rw [hprotocol.storedBatches]
  cases hok : rounds.filter (fun rd => rd.put = .ok ()) with
  | nil => exact Or.inl (by simp)
  | cons rd rest =>
      rw [hok, List.length_cons] at hone
      have hrest : rest = [] := List.length_eq_zero_iff.1 (by omega)
      subst hrest
      exact Or.inr rfl

/-- An upload puts its batch, and takes back no put. -/
theorem AwsClient.upload_puts (client : AwsClient) (call : PutCall) (w : World) :
    w.puts ⊆ (client.upload call w).2.puts ∧ call.request ∈ (client.upload call w).2.puts := by
  obtain ⟨rounds, hprotocol⟩ := client.upload_protocol call w
  obtain ⟨rd, rest, rfl⟩ := List.exists_cons_of_ne_nil hprotocol.ne_nil
  have hputs : (client.upload call w).2.puts = w.puts ++
      ((rd :: rest).flatMap (Round.calls call.request)).filterMap (fun c => c.1.putRequest) := by
    rw [World.puts, hprotocol.calls, List.filterMap_append]
    rfl
  rw [hputs]
  refine ⟨List.subset_append_left _ _, List.mem_append_right _ ?_⟩
  exact List.mem_filterMap.2 ⟨(.putLogEvents call.request, rd.put),
    List.mem_flatMap.2 ⟨rd, List.mem_cons_self, List.mem_cons_self⟩, rfl⟩

/-! ## The whole -/

structure LoggingSystem where
  server : LogProxyServer
  client : AwsClient

structure SystemState where
  server : ServerState
  world : World

/-- What can happen next; `today` is the date the uploader reads, should its step read one. -/
inductive SystemAction
  | http (now : ℚ) (request : HTTPRequest)
  | grpc (now : ℚ) (request : PutLogRequest)
  | tee (now : ℚ) (formatted : Option Str)
  | uploader (today : UtcDate)

/-- The call of `put_log_events` that is the thread's next step, if it is one. -/
def AWSIoTLogger.nextCall (self : AWSIoTLogger) (today : UtcDate) : ThreadState → Option PutCall
  | .uploading (batch :: _) => some (self.putCall today.strftime batch)
  | _ => none

def LoggingSystem.step (self : LoggingSystem) (s : SystemState) : SystemAction → SystemState
  | .http now request => { s with server := self.server.step s.server (.http now request) }
  | .grpc now request => { s with server := self.server.step s.server (.grpc now request) }
  | .tee now formatted => { s with server := self.server.step s.server (.tee now formatted) }
  | .uploader today =>
    match self.server.iotLogger.nextCall today s.server.thread with
    | none =>
      { s with
        server := self.server.step s.server (.uploader today.strftime (fun _ => .ok ())) }
    | some call =>
      let res := self.client.upload call s.world
      { server := self.server.step s.server (.uploader today.strftime (fun _ => res.1))
        world := res.2 }

def SystemState.start (maxsize : ℤ) : SystemState := ⟨ServerState.start maxsize, ⟨[], []⟩⟩

/-- The state after `actions`, with a queue of capacity `maxsize`. -/
def LoggingSystem.run (self : LoggingSystem) (maxsize : ℤ) (actions : List SystemAction) :
    SystemState :=
  actions.foldl self.step (SystemState.start maxsize)

theorem LoggingSystem.run_concat (self : LoggingSystem) (maxsize : ℤ) (actions : List SystemAction)
    (a : SystemAction) :
    self.run maxsize (actions ++ [a]) = self.step (self.run maxsize actions) a := by
  simp [LoggingSystem.run]

section Step

variable (self : LoggingSystem) (s : SystemState)

/-- **A step of the whole**: the server's step, and the upload of a batch if that is one. -/
theorem LoggingSystem.step_cases (a : SystemAction) :
    (∃ b, (self.step s a).server = self.server.step s.server b ∧
      (self.step s a).server.handed = s.server.handed ∧ (self.step s a).world = s.world) ∨
    ∃ today batch rest outcome, s.server.thread = .uploading (batch :: rest) ∧
      (self.step s a).server =
        self.server.step s.server (.uploader (UtcDate.strftime today) outcome) ∧
      (self.step s a).server.handed =
        s.server.handed ++ [self.server.iotLogger.putCall today.strftime batch] ∧
      (self.step s a).world =
        (self.client.upload (self.server.iotLogger.putCall today.strftime batch) s.world).2 := by
  cases a with
  | http now request => exact Or.inl ⟨.http now request, rfl, rfl, rfl⟩
  | grpc now request => exact Or.inl ⟨.grpc now request, rfl, rfl, rfl⟩
  | tee now formatted => exact Or.inl ⟨.tee now formatted, rfl, rfl, rfl⟩
  | uploader today =>
      by_cases hup : ∃ batch rest, s.server.thread = .uploading (batch :: rest)
      · obtain ⟨batch, rest, ht⟩ := hup
        refine Or.inr ⟨today, batch, rest, fun _ => (self.client.upload
          (self.server.iotLogger.putCall today.strftime batch) s.world).1, ht, ?_, ?_, ?_⟩
        · simp only [LoggingSystem.step, ht, AWSIoTLogger.nextCall]
        · simp only [LoggingSystem.step, ht, AWSIoTLogger.nextCall, LogProxyServer.step,
            AWSIoTLogger.step_put, ServerState.record]
        · simp only [LoggingSystem.step, ht, AWSIoTLogger.nextCall]
      · -- no call is made, so none is written down either
        have hcall : self.server.iotLogger.nextCall today s.server.thread = none := by
          unfold AWSIoTLogger.nextCall
          split
          · next batch rest ht => exact absurd ⟨batch, rest, ht⟩ hup
          · rfl
        have hstep : self.step s (.uploader today) = { s with
            server := self.server.step s.server (.uploader today.strftime (fun _ => .ok ())) } := by
          simp only [LoggingSystem.step, hcall]
        rw [hstep]
        refine Or.inl ⟨.uploader today.strftime (fun _ => .ok ()), rfl, ?_, rfl⟩
        rcases self.server.step_uploader s.server today.strftime (fun _ => .ok ()) with
          ⟨n, d, e, rest, _, _, _, hserver⟩ | ⟨n, d, _, _, hserver⟩ | ⟨batch, rest, ht, _⟩ |
          ⟨_, hserver⟩ | ⟨_, _, hserver⟩ | ⟨e, _, hserver⟩
        · rw [hserver]
        · rw [hserver]
        · exact absurd ⟨batch, rest, ht⟩ hup
        · rw [hserver]
        · rw [hserver]
        · rw [hserver]

/-- **A run of the whole is a run of the server**, with the outcomes the client gives. -/
theorem LoggingSystem.run_refines (maxsize : ℤ) (actions : List SystemAction) :
    ∃ serverActions, (self.run maxsize actions).server = self.server.run maxsize serverActions := by
  induction actions using List.reverseRecOn with
  | nil => exact ⟨[], rfl⟩
  | append_singleton actions a ih =>
      obtain ⟨serverActions, hrun⟩ := ih
      rw [self.run_concat]
      rcases self.step_cases (self.run maxsize actions) a with ⟨b, hstep, -⟩ |
        ⟨today, batch, rest, outcome, -, hstep, -⟩
      · exact ⟨serverActions ++ [b], by rw [hstep, hrun, self.server.run_concat]⟩
      · exact ⟨serverActions ++ [.uploader today.strftime outcome],
          by rw [hstep, hrun, self.server.run_concat]⟩

theorem LoggingSystem.inv_server (maxsize : ℤ) (actions : List SystemAction) :
    self.server.Inv (self.run maxsize actions).server := by
  obtain ⟨serverActions, hrun⟩ := self.run_refines maxsize actions
  rw [hrun]
  exact self.server.inv_run maxsize serverActions

end Step

/-- Every batch handed over was put. -/
theorem LoggingSystem.puts_run (self : LoggingSystem) (maxsize : ℤ)
    (actions : List SystemAction) :
    ∀ call ∈ (self.run maxsize actions).server.handed,
      call.request ∈ (self.run maxsize actions).world.puts := by
  refine @foldl_invariant _ _ self.step (fun s => ∀ call ∈ s.server.handed,
    call.request ∈ s.world.puts) (fun s a hs => ?_) actions (SystemState.start maxsize)
    (by simp [SystemState.start, ServerState.start])
  rcases self.step_cases s a with ⟨b, -, hhanded, hworld⟩ |
    ⟨today, batch, rest, outcome, -, -, hhanded, hworld⟩
  · rwa [hworld, hhanded]
  · rw [hworld, hhanded, List.forall_mem_append, List.forall_mem_singleton]
    obtain ⟨hkeeps, hput⟩ :=
      self.client.upload_puts (self.server.iotLogger.putCall today.strftime batch) s.world
    exact ⟨fun call hcall => hkeeps (hs call hcall), hput⟩

/-! ## Stored at most once -/

/-- What was handed over under a source begins what was taken from it. -/
theorem LogProxyServer.Inv.contents_handed {self : LogProxyServer} {s : ServerState}
    (h : self.Inv s) (source : Source) :
    contents source s.handedBatches <+: select source (s.dequeued.map LogEntry.keyed) := by
  have hprefix := contents_prefix source h.handed_prefix
  rw [contents_flatMap_merge] at hprefix
  simpa [ServerState.dequeued] using hprefix

/-- What holds of the uploads in every state reached: what is stored is a part of what was handed
    over, which goes to the streams of its source. -/
structure LoggingSystem.Uploads (system : LoggingSystem) (s : SystemState) : Prop where
  stored : s.world.storedBatches.Sublist (s.server.handed.map PutCall.targeted)
  targets : ∀ call ∈ s.server.handed, ∃ today,
    call.target = system.server.iotLogger.target today call.source

theorem LoggingSystem.Uploads.step {self : LoggingSystem} {s : SystemState} (h : self.Uploads s)
    (a : SystemAction) : self.Uploads (self.step s a) := by
  obtain ⟨hstored, htargets⟩ := h
  rcases self.step_cases s a with ⟨b, -, hhanded, hworld⟩ |
    ⟨today, batch, rest, outcome, -, -, hhanded, hworld⟩
  · refine ⟨?_, ?_⟩
    · rwa [hworld, hhanded]
    · rwa [hhanded]
  · refine ⟨?_, ?_⟩
    · rw [hworld, hhanded, List.map_append]
      rcases self.client.upload_stored (self.server.iotLogger.putCall today.strftime batch) s.world
        with hnone | hone
      · rw [hnone]
        exact hstored.trans (List.sublist_append_left _ _)
      · rw [hone]
        exact hstored.append (List.Sublist.refl _)
    · rw [hhanded]
      intro call hcall
      rcases List.mem_append.1 hcall with hcall | hcall
      · exact htargets call hcall
      · rw [List.mem_singleton.1 hcall]
        exact ⟨today, rfl⟩

theorem LoggingSystem.uploads_run (self : LoggingSystem) (maxsize : ℤ)
    (actions : List SystemAction) : self.Uploads (self.run maxsize actions) :=
  @foldl_invariant _ _ self.step self.Uploads (fun _ a hs => hs.step a) actions _
    ⟨List.Sublist.refl _, by simp [SystemState.start, ServerState.start]⟩

/-- The logs stored under a source, on whatever days, in the order they were stored. -/
def LoggingSystem.storedUnder (self : LoggingSystem) (s : SystemState) (source : Source) :
    List LogMessage :=
  contents (self.server.iotLogger.undatedTarget source)
    (s.world.storedBatches.map (fun b => (b.1.undated, b.2)))

/-- Of the batches of some calls, the streams of a source get those of the source. -/
theorem AWSIoTLogger.contents_undated (self : AWSIoTLogger) {calls : List PutCall}
    (h : ∀ call ∈ calls, ∃ today, call.target = self.target today call.source) (source : Source) :
    contents (self.undatedTarget source)
        ((calls.map PutCall.targeted).map (fun b => (b.1.undated, b.2))) =
      contents source (calls.map (fun call => (call.source, call.logs))) := by
  have hmap : (calls.map PutCall.targeted).map (fun b => (b.1.undated, b.2)) =
      (calls.map (fun call => (call.source, call.logs))).map
        (fun b => (self.undatedTarget b.1, b.2)) := by
    rw [List.map_map, List.map_map]
    apply List.map_congr_left
    intro call hcall
    obtain ⟨today, htarget⟩ := h call hcall
    simp only [Function.comp_apply, PutCall.targeted, htarget, AWSIoTLogger.target_undated]
  rw [hmap]
  exact contents_rename (fun b _ heq => self.undatedTarget_inj heq)

/-- **Whatever the service answers, a log is stored at most once, and only where it belongs.** In
    every state reached, each stored batch is in the stream of one day and one source, and holds
    logs accepted from that source; and what is stored under a source, over all days, is a
    sub-sequence of what was accepted from it. -/
theorem LoggingSystem.stored_at_most_once (self : LoggingSystem) (maxsize : ℤ)
    (actions : List SystemAction) :
    let s := self.run maxsize actions
    (∀ b ∈ s.world.storedBatches, ∃ today source,
      (∀ today' source', b.1 = self.server.iotLogger.target today' source' ↔
        today' = today ∧ source' = source) ∧
      ∀ m ∈ b.2, ∃ e ∈ self.server.acceptedEntries s.server, e.keyed = (source, m)) ∧
    ∀ source, (self.storedUnder s source).Sublist
      (select source ((self.server.acceptedEntries s.server).map LogEntry.keyed)) := by
  intro s
  have hinv : self.server.Inv s.server := self.inv_server maxsize actions
  have huploads : self.Uploads s := self.uploads_run maxsize actions
  refine ⟨fun b hb => ?_, fun source => ?_⟩
  · obtain ⟨call, hcall, rfl⟩ := List.mem_map.1 (huploads.stored.subset hb)
    obtain ⟨today, htarget⟩ := huploads.targets call hcall
    refine ⟨today, call.source, fun today' source' => ?_, fun m hm => ?_⟩
    · rw [PutCall.targeted, htarget, eq_comm]
      exact self.server.iotLogger.target_inj
    obtain ⟨e, he, hkey⟩ := hinv.mem_dequeued hcall hm
    refine ⟨e, ?_, hkey⟩
    rw [hinv.conserved]
    exact List.mem_append_left _ he
  · have hhanded : (self.storedUnder s source).Sublist
        (contents source s.server.handedBatches) := by
      rw [ServerState.handedBatches,
        ← self.server.iotLogger.contents_undated huploads.targets source]
      exact contents_sublist _ (huploads.stored.map _)
    have htaken := (hinv.contents_handed source).sublist
    have haccepted : (select source (s.server.dequeued.map LogEntry.keyed)).Sublist
        (select source ((self.server.acceptedEntries s.server).map LogEntry.keyed)) := by
      rw [hinv.conserved, List.map_append, select_append]
      exact List.sublist_append_left _ _
    exact hhanded.trans (htaken.trans haccepted)

end IotLoggingServer
