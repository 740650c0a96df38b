import IotLoggingServer.Backlog
import IotLoggingServer.ServiceLimits

set_option autoImplicit false

/-! # Stamps that never go back

The uploader neither sorts a batch nor weighs it. Where the stamps of each source never go back and
no message is too long for the merge limit, that loses nothing: every batch is in order of time and
within the limits of PutLogEvents but for the 24 hours (`stamped_batches_fit`). Stamps of the
server's own never go back while its clock does not (`stampsInOrder_of_clock`). -/

namespace IotLoggingServer

/-! ## What is offered to the server -/

/-- The entry an action queues if it is accepted. -/
def LogProxyServer.offered (self : LogProxyServer) : Action → Option LogEntry
  | .http now request => some (logEntry now request.ecuId .log none request.text)
  | .grpc now request =>
    some (logEntry now request.ecuId request.logType (some request.timestamp) request.message)
  | .tee now formatted => formatted.map (self.teeHandler.entry now)
  | .uploader _ _ => none

/-- The logs of each source are offered in the order of their stamps. -/
def LogProxyServer.StampsInOrder (self : LogProxyServer) (actions : List Action) : Prop :=
  ∀ source, (select source ((actions.filterMap self.offered).map LogEntry.keyed)).Pairwise
    (fun m m' => m.timestamp ≤ m'.timestamp)

/-- No message offered takes more than `maxBytes` bytes. -/
def LogProxyServer.MessagesWithin (self : LogProxyServer) (maxBytes : ℕ) (actions : List Action) :
    Prop :=
  ∀ e ∈ actions.filterMap self.offered, utf8Length e.message.message ≤ maxBytes

theorem filterMap_singleton_toList {α β : Type} (f : α → Option β) (a : α) :
    [a].filterMap f = (f a).toList := by
  cases h : f a <;> simp [h]

section Offered

variable (self : LogProxyServer)

/-- A step accepts what is offered or nothing. -/
theorem LogProxyServer.acceptedEntries_step_sublist (s : ServerState) (a : Action) :
    ∃ es, self.acceptedEntries (self.step s a) = self.acceptedEntries s ++ es ∧
      es.Sublist (self.offered a).toList := by
  have hsubmit : ∀ (sub : Submission), (self.accepted sub).toList.Sublist (self.offered a).toList →
      (self.step s a).history = s.history ++ [sub] →
      ∃ es, self.acceptedEntries (self.step s a) = self.acceptedEntries s ++ es ∧
        es.Sublist (self.offered a).toList := by
    intro sub hsub hhistory
    refine ⟨(self.accepted sub).toList, ?_, hsub⟩
    rw [LogProxyServer.acceptedEntries, hhistory, List.filterMap_append,
      filterMap_singleton_toList, LogProxyServer.acceptedEntries]
  cases a with
  | http now request =>
      refine hsubmit (.http now request (self.servicer.httpPutLog s.queue now request).1) ?_ rfl
      simp only [LogProxyServer.accepted, LogProxyServer.offered]
      split <;> simp
  | grpc now request =>
      refine hsubmit (.grpc now request (self.servicer.grpcPutLog s.queue now request).1) ?_ rfl
      simp only [LogProxyServer.accepted, LogProxyServer.offered]
      split <;> simp
  | tee now formatted =>
      refine hsubmit (.tee now formatted (LogsQueue.acceptsRecord s.queue formatted)) ?_ rfl
      simp only [LogProxyServer.accepted, LogProxyServer.offered]
      split <;> simp
  | uploader today outcome =>
      refine ⟨[], ?_, List.nil_sublist _⟩
      rw [LogProxyServer.acceptedEntries, self.step_uploader_history, List.append_nil,
        LogProxyServer.acceptedEntries]

/-- Acceptance keeps the order in which the logs were offered. -/
theorem LogProxyServer.acceptedEntries_sublist (maxsize : ℤ) (actions : List Action) :
    (self.acceptedEntries (self.run maxsize actions)).Sublist
      (actions.filterMap self.offered) := by
  induction actions using List.reverseRecOn with
  | nil => exact List.nil_sublist _
  | append_singleton actions a ih =>
      obtain ⟨es, hes, hsub⟩ := self.acceptedEntries_step_sublist (self.run maxsize actions) a
      rw [self.run_concat, hes, List.filterMap_append, filterMap_singleton_toList]
      exact ih.append hsub

end Offered

/-! ## The server's clock -/

/-- The clock a producer reads. -/
def Action.clock : Action → Option ℚ
  | .http now _ => some now
  | .grpc now _ => some now
  | .tee now _ => some now
  | .uploader _ _ => none

/-- The client leaves the stamp to the server, as every HTTP client does. -/
def Action.Unstamped : Action → Prop
  | .grpc _ request => request.timestamp = 0
  | _ => True

theorem truncate_mono {x y : ℚ} (h : x ≤ y) : truncate x ≤ truncate y := by
  unfold truncate
  split_ifs with hx hy hy
  · exact Int.floor_le_floor h
  · exact absurd (hx.trans h) hy
  · exact (Int.ceil_nonpos.2 (not_le.1 hx).le).trans (Int.floor_nonneg.2 hy)
  · exact Int.ceil_le_ceil h

/-- What the server stamps carries the clock reading, in whole seconds. -/
theorem LogProxyServer.offered_timestamp {self : LogProxyServer} {a : Action} (ha : a.Unstamped)
    {e : LogEntry} (he : e ∈ self.offered a) :
    ∃ now ∈ a.clock, e.message.timestamp = truncate now * 1000 := by
  cases a with
  | http now request =>
      obtain rfl := Option.some.inj he
      exact ⟨now, rfl, by simp [logEntry, stamp]⟩
  | grpc now request =>
      obtain rfl := Option.some.inj he
      have hzero : request.timestamp = 0 := ha
      exact ⟨now, rfl, by simp [logEntry, stamp, hzero]⟩
  | tee now formatted =>
      obtain ⟨message, -, rfl⟩ := Option.map_eq_some_iff.1 he
      exact ⟨now, rfl, rfl⟩
  | uploader today outcome => cases he

/-- While the clock does not go back, neither do the stamps the server gives. -/
theorem LogProxyServer.stampsInOrder_of_clock (self : LogProxyServer) {actions : List Action}
    (hclock : (actions.filterMap Action.clock).Pairwise (· ≤ ·))
    (hstamp : ∀ a ∈ actions, a.Unstamped) : self.StampsInOrder actions := by
  have hentries : (actions.filterMap self.offered).Pairwise
      (fun e e' => e.message.timestamp ≤ e'.message.timestamp) := by
    rw [List.pairwise_filterMap] at hclock ⊢
    refine hclock.imp_of_mem (fun {a a'} ha ha' h e he e' he' => ?_)
    obtain ⟨now, hnow, hts⟩ := LogProxyServer.offered_timestamp (hstamp a ha) he
    obtain ⟨now', hnow', hts'⟩ := LogProxyServer.offered_timestamp (hstamp a' ha') he'
    have hle := truncate_mono (h now hnow now' hnow')
    omega
  intro source
  have hkeyed : ((actions.filterMap self.offered).map LogEntry.keyed).Pairwise
      (fun x x' => x.2.timestamp ≤ x'.2.timestamp) := List.pairwise_map.2 hentries
  exact List.pairwise_map.2 (hkeyed.sublist List.filter_sublist)

/-! ## What is in a batch -/

section Batches

variable {self : LogProxyServer} {s : ServerState}

/-- No iteration takes more than the merge limit. -/
theorem LogProxyServer.length_le_mergeLimit (self : LogProxyServer) (maxsize : ℤ)
    (actions : List Action) :
    let s := self.run maxsize actions
    ∀ taken ∈ s.drained ++ [s.current], taken.length ≤ self.iotLogger.mergeLimit := by
  intro s
  have hrun : self.Inv s ∧ ∀ taken ∈ s.drained ++ [s.current],
      taken.length ≤ self.iotLogger.mergeLimit := by
    refine @foldl_invariant _ _ self.step (fun s => self.Inv s ∧
      ∀ taken ∈ s.drained ++ [s.current], taken.length ≤ self.iotLogger.mergeLimit)
      (fun s a hs => ⟨hs.1.step a, ?_⟩) actions _ ⟨self.inv_start maxsize, ?_⟩
    · obtain ⟨hinv, hle⟩ := hs
      rcases self.step_cases s a with ⟨sub, hstep⟩ | ⟨today, outcome, rfl⟩
      · rwa [hstep]
      · rcases self.step_uploader s today outcome with ⟨n, d, e, rest, ht, hn, _, hstep⟩ |
          ⟨n, d, _, _, hstep⟩ | ⟨batch, rest, _, hstep⟩ | ⟨_, hstep⟩ | ⟨_, _, hstep⟩ | ⟨e, _, hstep⟩
        · -- the limit leaves room for the entry taken
          have hmerged := hinv.merged
          simp only [ServerState.Merged, ht] at hmerged
          rw [hstep]
          intro taken htaken
          rcases List.mem_append.1 htaken with hmem | hmem
          · exact hle taken (List.mem_append_left _ hmem)
          · rw [List.mem_singleton.1 hmem, List.length_append, List.length_singleton]
            unfold AWSIoTLogger.mergeLimit
            omega
        · rwa [hstep]
        · rwa [hstep]
        · rw [hstep]
          intro taken htaken
          rcases List.mem_append.1 htaken with hmem | hmem
          · exact hle taken hmem
          · rw [List.mem_singleton.1 hmem]
            exact Nat.zero_le _
        · rwa [hstep]
        · rwa [hstep]
    · simp [ServerState.start]
  exact hrun.2

/-- A batch holds the logs of its source among those one iteration took. -/
theorem LogProxyServer.Inv.logs_eq (h : self.Inv s) {call : PutCall} (hcall : call ∈ s.handed) :
    ∃ taken ∈ s.drained ++ [s.current],
      call.logs = select call.source (taken.map LogEntry.keyed) := by
  have hbatch : (call.source, call.logs) ∈ s.handedBatches := List.mem_map.2 ⟨call, hcall, rfl⟩
  obtain ⟨taken, htaken, hmem⟩ := List.mem_flatMap.1 (h.handed_prefix.subset hbatch)
  exact ⟨taken, htaken, (Groups.mem_ofList.1 hmem).1⟩

/-- The logs of a batch were offered under its source, in that order. -/
theorem LogProxyServer.logs_sublist (self : LogProxyServer) (maxsize : ℤ) (actions : List Action)
    {call : PutCall} (hcall : call ∈ (self.run maxsize actions).handed) :
    call.logs.length ≤ self.iotLogger.mergeLimit ∧
      call.logs.Sublist
        (select call.source ((actions.filterMap self.offered).map LogEntry.keyed)) := by
  have hinv := self.inv_run maxsize actions
  obtain ⟨taken, htaken, hlogs⟩ := hinv.logs_eq hcall
  have hdequeued : taken.Sublist (self.run maxsize actions).dequeued := by
    have hflat := List.sublist_flatten_of_mem htaken
    rwa [List.flatten_append, List.flatten_singleton] at hflat
  have haccepted : taken.Sublist (self.acceptedEntries (self.run maxsize actions)) := by
    rw [hinv.conserved]
    exact hdequeued.trans (List.sublist_append_left _ _)
  have hoffered := haccepted.trans (self.acceptedEntries_sublist maxsize actions)
  rw [hlogs]
  constructor
  · calc (select call.source (taken.map LogEntry.keyed)).length
        ≤ (taken.map LogEntry.keyed).length := select_length_le _ _
      _ = taken.length := List.length_map _
      _ ≤ self.iotLogger.mergeLimit := self.length_le_mergeLimit maxsize actions taken htaken
  · exact select_sublist _ (hoffered.map LogEntry.keyed)

end Batches

/-! ## Batches within the limits -/

/-- What a batch of messages of `maxBytes` bytes weighs. -/
theorem sum_bytes_le {logs : List LogMessage} {maxBytes : ℕ}
    (h : ∀ m ∈ logs, utf8Length m.message ≤ maxBytes) :
    (logs.map (fun m => utf8Length m.message + 26)).sum ≤ logs.length * (maxBytes + 26) := by
  have hsum := List.sum_le_card_nsmul (logs.map (fun m => utf8Length m.message + 26))
    (maxBytes + 26) (fun b hb => by
      obtain ⟨m, hm, rfl⟩ := List.mem_map.1 hb
      exact Nat.add_le_add_right (h m hm) 26)
  rwa [List.length_map, smul_eq_mul] at hsum

/-- Of a batch in order of time that is neither too long nor too heavy, only the 24 hours are left
    to check. -/
theorem withinLimits_iff_of_ordered {logs : List LogMessage} (hlength : logs.length ≤ 10000)
    (horder : logs.Pairwise (fun m m' => m.timestamp ≤ m'.timestamp))
    (hbytes : (logs.map (fun m => utf8Length m.message + 26)).sum ≤ 1048576) :
    WithinLimits logs ↔
      ∀ m ∈ logs, ∀ m' ∈ logs, m'.timestamp - m.timestamp ≤ 24 * 60 * 60 * 1000 := by
  constructor
  · rintro ⟨-, hspan, -⟩
    have hforth : logs.Pairwise
        (fun m m' => m'.timestamp - m.timestamp ≤ 24 * 60 * 60 * 1000) := hspan.imp And.right
    -- the other way round the difference is not even positive
    have hback : logs.Pairwise
        (fun m m' => m.timestamp - m'.timestamp ≤ 24 * 60 * 60 * 1000) :=
      horder.imp (fun h => by omega)
    intro m hm m' hm'
    exact hforth.forall_of_forall_of_flip (fun m _ => by simp) hback hm hm'
  · intro hspan
    exact ⟨hlength, horder.imp_of_mem (fun hm hm' h => ⟨h, hspan _ hm _ hm'⟩), hbytes⟩

/-- The merge limit of a started uploader, against the 10000 events of a request and against the
    configured one. -/
theorem startAwsIotLoggerThread_mergeLimit_le (sessionConfig : IoTSessionConfig)
    (serverCfg : ConfigurableLoggingServerConfig) :
    (startAwsIotLoggerThread sessionConfig serverCfg).mergeLimit ≤ 10000 ∧
      (startAwsIotLoggerThread sessionConfig serverCfg).mergeLimit
        ≤ serverCfg.maxLogsPerMerge.toNat := by
  simp only [AWSIoTLogger.mergeLimit, startAwsIotLoggerThread, AWSIoTLogger.init, maxLogsPerPut]
  omega

/-- **Batches in order of time.** If the stamps of each source never go back and the merge limit
    leaves room for messages of `maxBytes` bytes, every batch the uploader hands over is in order of
    time, and is within the limits of the service iff no two of its logs are more than 24 hours
    apart. -/
theorem LogProxyServer.stamped_batches_fit (servicer : Servicer) (teeHandler : LogTeeHandler)
    (sessionConfig : IoTSessionConfig) (serverCfg : ConfigurableLoggingServerConfig) (maxsize : ℤ)
    (actions : List Action) (maxBytes : ℕ) :
    let server : LogProxyServer :=
      ⟨servicer, teeHandler, startAwsIotLoggerThread sessionConfig serverCfg⟩
    server.StampsInOrder actions → server.MessagesWithin maxBytes actions →
    serverCfg.maxLogsPerMerge.toNat * (maxBytes + 26) ≤ 1048576 →
    ∀ call ∈ (server.run maxsize actions).handed,
      call.logs.Pairwise (fun m m' => m.timestamp ≤ m'.timestamp) ∧
      (WithinLimits call.logs ↔
        ∀ m ∈ call.logs, ∀ m' ∈ call.logs, m'.timestamp - m.timestamp ≤ 24 * 60 * 60 * 1000) := by
  intro server hstamps hbytes hroom call hcall
  obtain ⟨hlength, hsub⟩ := server.logs_sublist maxsize actions hcall
  have horder := (hstamps call.source).sublist hsub
  obtain ⟨hlimit, hconfigured⟩ := startAwsIotLoggerThread_mergeLimit_le sessionConfig serverCfg
  have hmessages : ∀ m ∈ call.logs, utf8Length m.message ≤ maxBytes := by
    intro m hm
    obtain ⟨x, hx, rfl⟩ := List.mem_map.1 (hsub.subset hm)
    obtain ⟨e, he, rfl⟩ := List.mem_map.1 (List.mem_filter.1 hx).1
    exact hbytes e he
  have hweight : (call.logs.map (fun m => utf8Length m.message + 26)).sum ≤ 1048576 := by
    calc (call.logs.map (fun m => utf8Length m.message + 26)).sum
        ≤ call.logs.length * (maxBytes + 26) := sum_bytes_le hmessages
      _ ≤ serverCfg.maxLogsPerMerge.toNat * (maxBytes + 26) :=
          Nat.mul_le_mul_right _ (hlength.trans hconfigured)
      _ ≤ 1048576 := hroom
  exact ⟨horder, withinLimits_iff_of_ordered (hlength.trans hlimit) horder hweight⟩

/-- Two posts a second apart, and an iteration of the uploader. -/
def stampedActions : List Action :=
  [.http 7 ⟨"autoware".toList, "up".toList⟩, .http 8 ⟨"autoware".toList, "on".toList⟩] ++
    List.replicate 4 (.uploader "2024/01/01".toList (fun _ => .ok ()))

/-- With the default settings, messages of up to 2022 bytes cannot overfill a batch. -/
theorem stamped_batches_fit_example :
    (exampleServer.run 8 stampedActions).handed.length = 1 ∧
    ∀ call ∈ (exampleServer.run 8 stampedActions).handed, WithinLimits call.logs := by
  have hstamps : exampleServer.StampsInOrder stampedActions :=
    exampleServer.stampsInOrder_of_clock (by decide +kernel)
      (by simp [stampedActions, Action.Unstamped])
  have hbytes : exampleServer.MessagesWithin 2022 stampedActions := by
    unfold LogProxyServer.MessagesWithin
    decide +kernel
  have hspan : ∀ call ∈ (exampleServer.run 8 stampedActions).handed, ∀ m ∈ call.logs,
      ∀ m' ∈ call.logs, m'.timestamp - m.timestamp ≤ 24 * 60 * 60 * 1000 := by decide +kernel
  refine ⟨by decide +kernel, fun call hcall => ?_⟩
  exact (LogProxyServer.stamped_batches_fit exampleServer.servicer exampleServer.teeHandler
    ⟨[], [], [], [], "thing".toList, "profile".toList, [], [], none⟩ {} 8 stampedActions 2022
    hstamps hbytes (by decide) call hcall).2.2 (hspan call hcall)

end IotLoggingServer
