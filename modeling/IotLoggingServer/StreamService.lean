import IotLoggingServer.LoggingSystem
import IotLoggingServer.ServiceLimits

set_option autoImplicit false

/-! # A service that keeps log streams

What the server gets stored by a service whose streams have to be created before they can be put to.
The answers in a trace of an upload are those of the client, so what is assumed of the service can
be used along the trace: if it keeps the streams of a group (`KeepsStreams`), every
batch for the group is stored exactly once, as far as it is within the limits
(`stored_exactly_once`); if the group is missing, every batch costs 126 calls and is lost
(`missing_group`). Neither says anything of the other group, nor asks anything of it. -/

namespace IotLoggingServer

/-! ## Traces of uploads -/

theorem AwsClient.traces_upload (client : AwsClient) (call : PutCall) (w : World) :
    client.Traces w (client.upload call w).2 :=
  AwsClient.traces_putLogEvents (client.putLogEvents_upload call w)

/-- The rounds of an upload, with the answers of the client. -/
theorem AwsClient.upload_rounds (client : AwsClient) (call : PutCall) (w : World) :
    ∃ rounds, PutProtocol call.request (client.upload call w).1 w (client.upload call w).2 rounds ∧
      client.Gives w.calls (rounds.flatMap (Round.calls call.request)) := by
  obtain ⟨rounds, hprotocol⟩ := client.upload_protocol call w
  exact ⟨rounds, hprotocol, hprotocol.gives (client.traces_upload call w)⟩

/-! ## What is assumed of the service -/

/-- The service keeps the streams of a log group: a put that finds its stream is stored iff it is
    within the limits, a put right after a create that left the stream existing finds it, and
    seventeen creates of a stream on end do not all fail. -/
structure KeepsStreams (client : AwsClient) (group : Str) : Prop where
  put : ∀ calls stream events,
    client calls (.putLogEvents ⟨group, stream, events⟩) ≠ .error .resourceNotFound →
      (client calls (.putLogEvents ⟨group, stream, events⟩) = .ok () ↔ WithinLimits events)
  found : ∀ calls stream answer events, streamExists answer = true →
    client (calls ++ [(.createLogStream group stream, answer)])
      (.putLogEvents ⟨group, stream, events⟩) ≠ .error .resourceNotFound
  creates : ∀ calls stream (answers : List Answer), answers.length = 17 →
    client.Gives calls (answers.map (fun a => (.createLogStream group stream, a))) →
      ∃ a ∈ answers, streamExists a = true

/-- The log group does not exist: no put finds its stream, and no create succeeds. -/
structure MissingGroup (client : AwsClient) (group : Str) : Prop where
  put : ∀ calls stream events,
    client calls (.putLogEvents ⟨group, stream, events⟩) = .error .resourceNotFound
  create : ∀ calls stream, streamExists (client calls (.createLogStream group stream)) = false

/-! ## One upload -/

section Upload

variable {client : AwsClient} {group stream : Str}

/-- The creates of one call end with one that leaves the stream existing. -/
theorem KeepsStreams.created (h : KeepsStreams client group) {calls : List (ClientCall × Answer)}
    {answers : List Answer} (hattempts : CreateAttempts answers)
    (hgives : client.Gives calls (answers.map (fun a => (.createLogStream group stream, a)))) :
    ∃ init a, answers = init ++ [a] ∧ streamExists a = true := by
  have hsplit := List.dropLast_append_getLast hattempts.ne_nil
  refine ⟨answers.dropLast, answers.getLast hattempts.ne_nil, hsplit.symm, ?_⟩
  by_cases hlength : answers.length < 17
  · exact hattempts.getLast hlength _ (List.getLast?_eq_some_getLast hattempts.ne_nil)
  · obtain ⟨a, ha, hexists⟩ := h.creates calls stream answers
      (le_antisymm hattempts.length_le (not_lt.1 hlength)) hgives
    rw [← hsplit, List.mem_append, List.mem_singleton] at ha
    rcases ha with hinit | rfl
    · rw [hattempts.dropLast a hinit] at hexists
      cases hexists
    · exact hexists

/-- An upload to a kept stream takes one put, or two with the create in between, and its last put is
    stored iff it is within the limits. -/
theorem KeepsStreams.rounds {request : LogEvent} (h : KeepsStreams client request.logGroupName)
    {r : Answer} {w w' : World} {rounds : List Round}
    (hprotocol : PutProtocol request r w w' rounds)
    (hgives : client.Gives w.calls (rounds.flatMap (Round.calls request))) :
    ∃ init rd, rounds = init ++ [rd] ∧ (∀ rd' ∈ init, rd'.put.notFound) ∧
      (rd.put = .ok () ↔ WithinLimits request.logEvents) := by
  obtain ⟨first, rest, rfl⟩ := List.exists_cons_of_ne_nil hprotocol.ne_nil
  rw [List.flatMap_cons, AwsClient.gives_append] at hgives
  obtain ⟨hfirst, hrest⟩ := hgives
  by_cases hfound : first.put.notFound
  · -- the stream is created, and the second put finds it
    have hcreates := hprotocol.creates first List.mem_cons_self
    rw [Round.WellFormed, if_pos hfound] at hcreates
    obtain ⟨init, a, hanswers, hexists⟩ := h.created hcreates hfirst.2
    cases rest with
    | nil =>
        have hlast := hprotocol.getLast (by simp) first (by simp)
        exact absurd hfound hlast
    | cons second rest =>
        rw [List.flatMap_cons, AwsClient.gives_append] at hrest
        have hcalls : w.calls ++ first.calls request =
            (w.calls ++ (.putLogEvents request, first.put) :: init.map (fun a =>
              (.createLogStream request.logGroupName request.logStreamName, a))) ++
              [(.createLogStream request.logGroupName request.logStreamName, a)] := by
          simp [Round.calls, hanswers]
        have hput := hrest.1.1
        rw [hcalls] at hput
        have hsecond : ¬ second.put.notFound := by
          rw [Answer.notFound, ← hput]
          exact h.found _ _ _ _ hexists
        have hnil : rest = [] := by
          by_contra hne
          refine hsecond (hprotocol.dropLast second ?_)
          rw [List.dropLast_cons_of_ne_nil (by simp), List.dropLast_cons_of_ne_nil hne]
          exact List.mem_cons_of_mem _ List.mem_cons_self
        subst hnil
        refine ⟨[first], second, rfl, by simpa using hfound, ?_⟩
        rw [Answer.notFound, ← hput] at hsecond
        rw [← hput]
        exact h.put _ _ _ hsecond
  · have hnil : rest = [] := by
      by_contra hne
      refine hfound (hprotocol.dropLast first ?_)
      rw [List.dropLast_cons_of_ne_nil hne]
      exact List.mem_cons_self
    subst hnil
    have hput := hfirst.1
    refine ⟨[], first, rfl, by simp, ?_⟩
    rw [Answer.notFound, ← hput] at hfound
    rw [← hput]
    exact h.put _ _ _ hfound

/-- **A kept stream stores each batch within the limits, once, and no other.** -/
theorem KeepsStreams.upload_stored {call : PutCall} (h : KeepsStreams client call.logGroupName)
    (w : World) :
    (client.upload call w).2.storedBatches =
      w.storedBatches ++ if WithinLimits call.logs then [call.targeted] else [] := by
  obtain ⟨rounds, hprotocol, hgives⟩ := client.upload_rounds call w
  obtain ⟨init, rd, rfl, hinit, hput⟩ := h.rounds hprotocol hgives
  have hnone : init.filter (fun rd => rd.put = .ok ()) = [] := by
    rw [List.filter_eq_nil_iff]
    intro rd' hrd' hok
    have hfound := hinit rd' hrd'
    rw [Answer.notFound, of_decide_eq_true hok] at hfound
    cases hfound
  rw [hprotocol.storedBatches, List.filter_append, hnone, List.nil_append]
  congr 1
  by_cases hlimits : WithinLimits call.logs
  · rw [List.filter_cons_of_pos (by simpa using hput.2 hlimits), if_pos hlimits]
    rfl
  · rw [List.filter_cons_of_neg (by simpa using fun hok => hlimits (hput.1 hok)), if_neg hlimits]
    rfl

end Upload

/-! ## Runs against a service that keeps a group -/

/-- The batches stored in a group are those handed over for it that are within the limits. -/
def StoresGroup (group : Str) (s : SystemState) : Prop :=
  s.world.storedBatches.filter (fun b => b.1.1 = group) =
    (s.server.handed.filter (fun call => call.logGroupName = group ∧ WithinLimits call.logs)).map
      PutCall.targeted

theorem KeepsStreams.step {self : LoggingSystem} {group : Str}
    (h : KeepsStreams self.client group) {s : SystemState} (hs : StoresGroup group s)
    (a : SystemAction) : StoresGroup group (self.step s a) := by
  unfold StoresGroup at hs ⊢
  rcases self.step_cases s a with ⟨b, -, hhanded, hworld⟩ |
    ⟨today, batch, rest, outcome, -, -, hhanded, hworld⟩
  · rwa [hworld, hhanded]
  · generalize self.server.iotLogger.putCall today.strftime batch = call at hhanded hworld
    rw [hworld, hhanded, List.filter_append, List.map_append, ← hs]
    by_cases hgroup : call.logGroupName = group
    · subst hgroup
      rw [h.upload_stored s.world, List.filter_append]
      congr 1
      by_cases hlimits : WithinLimits call.logs <;>
        simp [hlimits, PutCall.targeted, PutCall.target]
    · -- an upload for another group stores nothing in this one
      rw [List.filter_cons_of_neg (by simp [hgroup]), List.filter_nil, List.map_nil,
        List.append_nil]
      rcases self.client.upload_stored call s.world with hnone | hone
      · rw [hnone]
      · rw [hone, List.filter_append, List.filter_cons_of_neg
          (by simp [PutCall.targeted, PutCall.target, hgroup]), List.filter_nil,
          List.append_nil]

theorem KeepsStreams.run {self : LoggingSystem} {group : Str}
    (h : KeepsStreams self.client group) (maxsize : ℤ) (actions : List SystemAction) :
    StoresGroup group (self.run maxsize actions) :=
  @foldl_invariant _ _ self.step (StoresGroup group) (fun _ a hs => h.step hs a) actions _ rfl

/-- What is stored under a source, read off the batches handed over. -/
theorem StoresGroup.storedUnder {self : LoggingSystem} {s : SystemState} {source : Source}
    (h : StoresGroup (self.server.iotLogger.logGroupName source.1) s) (huploads : self.Uploads s) :
    self.storedUnder s source =
      contents source (s.server.handedBatches.filter (fun b => WithinLimits b.2)) := by
  have hgroup : ∀ call ∈ s.server.handed,
      call.logGroupName = self.server.iotLogger.logGroupName call.source.1 := fun call hcall => by
    obtain ⟨today, htarget⟩ := huploads.targets call hcall
    exact congrArg Prod.fst htarget
  -- the streams of the source are all in its group
  have hstored : self.storedUnder s source =
      contents (self.server.iotLogger.undatedTarget source)
        ((s.world.storedBatches.filter (fun b =>
          b.1.1 = self.server.iotLogger.logGroupName source.1)).map
            (fun b => (b.1.undated, b.2))) := by
    have hfilter := @contents_filter _ _ _ (self.server.iotLogger.undatedTarget source)
      (s.world.storedBatches.map (fun b => (b.1.undated, b.2)))
      (fun b => b.1.1 = self.server.iotLogger.logGroupName source.1) _
      (fun b _ heq => congrArg Prod.fst heq)
    rw [LoggingSystem.storedUnder, ← hfilter, List.filter_map]
    rfl
  have hmem : ∀ call ∈ s.server.handed.filter (fun call => call.logGroupName =
      self.server.iotLogger.logGroupName source.1 ∧ WithinLimits call.logs),
      ∃ today, call.target = self.server.iotLogger.target today call.source :=
    fun call hcall => huploads.targets call (List.mem_of_mem_filter hcall)
  rw [hstored, h, self.server.iotLogger.contents_undated hmem source]
  -- nor does a batch of the source go to another group
  rw [← @contents_filter _ _ _ source (s.server.handedBatches.filter (fun b => WithinLimits b.2))
    (fun b => self.server.iotLogger.logGroupName b.1.1 =
      self.server.iotLogger.logGroupName source.1) _ (fun b _ heq => by rw [heq])]
  rw [List.filter_filter, ServerState.handedBatches, List.filter_map]
  congr 2
  refine List.filter_congr (fun call hcall => ?_)
  simp only [Function.comp_apply, hgroup call hcall, Bool.decide_and]

section Shares

variable {self : LoggingSystem} {source : Source}
  (hservice : KeepsStreams self.client (self.server.iotLogger.logGroupName source.1))
include hservice

/-- At the end of an iteration, the iterations' shares within the limits are what is stored. -/
theorem KeepsStreams.stored_shares (maxsize : ℤ) (actions : List SystemAction)
    (hend : (self.run maxsize actions).server.thread.iterationEnd) :
    self.storedUnder (self.run maxsize actions) source =
      (self.run maxsize actions).server.drained.flatMap (fun entries =>
        if WithinLimits (select source (entries.map LogEntry.keyed)) then
          select source (entries.map LogEntry.keyed) else []) := by
  obtain ⟨hhanded, -⟩ := (self.inv_server maxsize actions).iterationEnd hend
  rw [(hservice.run maxsize actions).storedUnder (self.uploads_run maxsize actions), hhanded,
    ServerState.mergedBatches, List.filter_flatMap, contents_flatMap]
  exact List.flatMap_congr (fun entries _ => Groups.contents_filter_ofList source _ WithinLimits)

/-- Where no share breaks the limits, what was accepted is stored or still queued. -/
theorem KeepsStreams.accepted_shares (maxsize : ℤ) (actions : List SystemAction)
    (hend : (self.run maxsize actions).server.thread.iterationEnd)
    (hlimits : ∀ entries ∈ (self.run maxsize actions).server.drained,
      WithinLimits (select source (entries.map LogEntry.keyed))) :
    select source ((self.server.acceptedEntries (self.run maxsize actions).server).map
        LogEntry.keyed) =
      self.storedUnder (self.run maxsize actions) source ++
        select source ((self.run maxsize actions).server.queue.items.map LogEntry.keyed) := by
  have hinv : self.server.Inv (self.run maxsize actions).server := self.inv_server maxsize actions
  obtain ⟨-, hcurrent⟩ := hinv.iterationEnd hend
  have htaken : select source ((self.run maxsize actions).server.dequeued.map LogEntry.keyed) =
      (self.run maxsize actions).server.drained.flatMap (fun entries =>
        select source (entries.map LogEntry.keyed)) := by
    rw [ServerState.dequeued, hcurrent, List.append_nil, ← contents_flatMap_merge,
      contents_flatMap]
    exact List.flatMap_congr (fun entries _ => Groups.contents_ofList source _)
  have hall : self.storedUnder (self.run maxsize actions) source =
      (self.run maxsize actions).server.drained.flatMap (fun entries =>
        select source (entries.map LogEntry.keyed)) := by
    rw [hservice.stored_shares maxsize actions hend]
    exact List.flatMap_congr (fun entries hentries => if_pos (hlimits entries hentries))
  rw [hinv.conserved, hall, ← htaken, List.map_append, select_append]

end Shares

/-- **A service that keeps the streams of a group gets every log of the group exactly once.** At the
    end of every iteration, what is stored under a source of the group is what the iterations took
    from it, in order, each iteration's share as far as it is within the limits. So if every share
    is, the logs accepted from the source are those stored and those still queued. The other group
    may fail as it likes. -/
theorem LoggingSystem.stored_exactly_once (self : LoggingSystem) (source : Source)
    (hservice : KeepsStreams self.client (self.server.iotLogger.logGroupName source.1))
    (maxsize : ℤ) (actions : List SystemAction)
    (hend : (self.run maxsize actions).server.thread.iterationEnd) :
    let s := self.run maxsize actions
    let share := fun entries => select source (List.map LogEntry.keyed entries)
    (self.storedUnder s source = s.server.drained.flatMap (fun entries =>
      if WithinLimits (share entries) then share entries else [])) ∧
    ((∀ entries ∈ s.server.drained, WithinLimits (share entries)) →
      share (self.server.acceptedEntries s.server) =
        self.storedUnder s source ++ share s.server.queue.items) :=
  ⟨hservice.stored_shares maxsize actions hend, hservice.accepted_shares maxsize actions hend⟩

/-- The stream has been created. -/
def streamKept (calls : List (ClientCall × Answer)) (group stream : Str) : Bool :=
  calls.any (fun c => c.1 == .createLogStream group stream && streamExists c.2)

/-- A service without any stream at first. -/
def streamService : AwsClient := fun calls call =>
  match call with
  | .putLogEvents request =>
    if streamKept calls request.logGroupName request.logStreamName then
      if WithinLimits request.logEvents then .ok () else .error (.other 0)
    else .error .resourceNotFound
  | .createLogStream group stream =>
    if streamKept calls group stream then .error .resourceAlreadyExists else .ok ()

theorem keepsStreams_streamService (group : Str) : KeepsStreams streamService group where
  put := by
    intro calls stream events
    by_cases hkept : streamKept calls group stream = true
    · by_cases hlimits : WithinLimits events <;> simp [streamService, hkept, hlimits]
    · simp [streamService, hkept]
  found := by
    intro calls stream answer events hexists
    have hkept : streamKept (calls ++ [(.createLogStream group stream, answer)]) group stream
        = true := by
      simp [streamKept, hexists]
    by_cases hlimits : WithinLimits events <;> simp [streamService, hkept, hlimits]
  creates := by
    intro calls stream answers hlength hgives
    have hpos : 0 < answers.length := by omega
    obtain ⟨a, rest, rfl⟩ := List.exists_cons_of_length_pos hpos
    refine ⟨a, List.mem_cons_self, ?_⟩
    rw [← hgives.1]
    by_cases hkept : streamKept calls group stream = true <;>
      simp [streamService, hkept, streamExists]

def exampleDate : UtcDate where
  year := 2024
  month := 1
  day := 31
  year_le := by decide
  month_le := by decide
  day_le := by decide

/-- A post that is accepted, a teed record, and one iteration of the uploader. -/
def exampleSystemActions : List SystemAction :=
  [.http 7 ⟨"autoware".toList, "up".toList⟩, .tee 7 (some "started".toList)] ++
    List.replicate 6 (.uploader exampleDate)

theorem stored_exactly_once_example :
    (⟨exampleServer, streamService⟩ : LoggingSystem).storedUnder
        ((⟨exampleServer, streamService⟩ : LoggingSystem).run 8 exampleSystemActions)
        (.log, "autoware".toList) =
      [⟨7000, "up".toList⟩] := by
  have hend : ((⟨exampleServer, streamService⟩ : LoggingSystem).run 8
      exampleSystemActions).server.thread.iterationEnd := Or.inr (Or.inl rfl)
  rw [((⟨exampleServer, streamService⟩ : LoggingSystem).stored_exactly_once
    (.log, "autoware".toList) (keepsStreams_streamService _) 8 exampleSystemActions hend).1]
  decide

/-! ## Runs against a missing group -/

def ClientCall.logGroupName : ClientCall → Str
  | .putLogEvents request => request.logGroupName
  | .createLogStream group _ => group

theorem AwsClient.gives_mem {client : AwsClient} {calls more : List (ClientCall × Answer)}
    (h : client.Gives calls more) {c : ClientCall × Answer} (hc : c ∈ more) :
    ∃ calls', client calls' c.1 = c.2 := by
  induction more generalizing calls with
  | nil => simp at hc
  | cons first rest ih =>
      rcases List.mem_cons.1 hc with rfl | hc
      · exact ⟨calls, h.1⟩
      · exact ih h.2 hc

theorem Round.group_of_mem {request : LogEvent} {rd : Round} {c : ClientCall × Answer}
    (hc : c ∈ rd.calls request) : c.1.logGroupName = request.logGroupName := by
  rcases List.mem_cons.1 hc with rfl | hc
  · rfl
  · obtain ⟨a, -, rfl⟩ := List.mem_map.1 hc
    rfl

section Missing

variable {client : AwsClient} {call : PutCall}

/-- An upload for a missing group is seven puts and, after each, seventeen creates. -/
theorem MissingGroup.rounds {request : LogEvent} (h : MissingGroup client request.logGroupName)
    {r : Answer} {w w' : World} {rounds : List Round}
    (hprotocol : PutProtocol request r w w' rounds)
    (hgives : client.Gives w.calls (rounds.flatMap (Round.calls request))) :
    rounds.length = 7 ∧ ∀ rd ∈ rounds, rd.put.notFound ∧ rd.creates.length = 17 := by
  have hputs : ∀ rd ∈ rounds, rd.put.notFound := by
    intro rd hrd
    obtain ⟨calls', hanswer⟩ := AwsClient.gives_mem hgives
      (List.mem_flatMap.2 ⟨rd, hrd, List.mem_cons_self⟩)
    exact hanswer.symm.trans (h.put _ _ _)
  refine ⟨le_antisymm hprotocol.length_le ?_, fun rd hrd => ⟨hputs rd hrd, ?_⟩⟩
  · by_contra hlt
    have hlast := List.getLast?_eq_some_getLast hprotocol.ne_nil
    exact hprotocol.getLast (not_le.1 hlt) _ hlast (hputs _ (List.getLast_mem hprotocol.ne_nil))
  · have hcreates := hprotocol.creates rd hrd
    rw [Round.WellFormed, if_pos (hputs rd hrd)] at hcreates
    refine le_antisymm hcreates.length_le ?_
    by_contra hlt
    have hlast := List.getLast?_eq_some_getLast hcreates.ne_nil
    have hexists := hcreates.getLast (not_le.1 hlt) _ hlast
    obtain ⟨calls', hanswer⟩ := AwsClient.gives_mem hgives (List.mem_flatMap.2 ⟨rd, hrd,
      List.mem_cons_of_mem _ (List.mem_map.2 ⟨_, List.getLast_mem hcreates.ne_nil, rfl⟩)⟩)
    have hnot := h.create calls' request.logStreamName
    rw [hanswer, hexists] at hnot
    cases hnot

/-- What one upload adds to the calls on a group. -/
theorem MissingGroup.upload_calls {group : Str} (h : MissingGroup client group) (w : World) :
    ((client.upload call w).2.calls.filter (fun c => c.1.logGroupName = group)).length =
      (w.calls.filter (fun c => c.1.logGroupName = group)).length +
        if call.logGroupName = group then 126 else 0 := by
  obtain ⟨rounds, hprotocol, hgives⟩ := client.upload_rounds call w
  have hgroup : ∀ c ∈ rounds.flatMap (Round.calls call.request),
      c.1.logGroupName = call.logGroupName := by
    intro c hc
    obtain ⟨rd, -, hrd⟩ := List.mem_flatMap.1 hc
    exact Round.group_of_mem hrd
  rw [hprotocol.calls, List.filter_append, List.length_append]
  congr 1
  split_ifs with heq
  · subst heq
    obtain ⟨hseven, hrounds⟩ := MissingGroup.rounds h hprotocol hgives
    rw [List.filter_eq_self.2 (fun c hc => decide_eq_true (hgroup c hc)), List.length_flatMap]
    have hlength : ∀ rd ∈ rounds, (rd.calls call.request).length = 18 := by
      intro rd hrd
      rw [Round.calls, List.length_cons, List.length_map, (hrounds rd hrd).2]
    rw [List.map_congr_left hlength, List.map_const', hseven, List.sum_replicate]
    rfl
  · rw [List.length_eq_zero_iff, List.filter_eq_nil_iff]
    intro c hc hcall
    exact heq ((hgroup c hc).symm.trans (of_decide_eq_true hcall))

end Missing

/-- All calls of a run are answered by the client. -/
theorem LoggingSystem.traces_run (self : LoggingSystem) (maxsize : ℤ)
    (actions : List SystemAction) :
    self.client.Traces ⟨[], []⟩ (self.run maxsize actions).world := by
  refine @foldl_invariant _ _ self.step (fun s => self.client.Traces ⟨[], []⟩ s.world)
    (fun s a hs => ?_) actions _ ⟨[], rfl, trivial⟩
  rcases self.step_cases s a with ⟨b, -, -, hworld⟩ | ⟨today, batch, rest, outcome, -, -, -, hworld⟩
  · rwa [hworld]
  · rw [hworld]
    exact hs.trans (self.client.traces_upload _ s.world)

/-- **The logs for a missing group are given up after 126 calls a batch.** Nothing is stored in it,
    and of every batch handed over for it the service hears exactly seven puts and seventeen creates
    after each of them. -/
theorem LoggingSystem.missing_group (self : LoggingSystem) (group : Str)
    (hservice : MissingGroup self.client group) (maxsize : ℤ) (actions : List SystemAction) :
    let s := self.run maxsize actions
    (∀ b ∈ s.world.storedBatches, b.1.1 ≠ group) ∧
    (s.world.calls.filter (fun c => c.1.logGroupName = group)).length =
      126 * (s.server.handed.filter (fun call => call.logGroupName = group)).length := by
  intro s
  constructor
  · rintro b hb rfl
    obtain ⟨⟨call, answer⟩, hcall, hstored⟩ := List.mem_filterMap.1 hb
    obtain ⟨more, hcalls, hgives⟩ := self.traces_run maxsize actions
    have hmem : (call, answer) ∈ more := by
      rwa [show s.world.calls = more from hcalls] at hcall
    obtain ⟨calls', hanswer⟩ := AwsClient.gives_mem hgives hmem
    unfold storedBatch at hstored
    split at hstored
    · next request _ heq =>
        cases heq
        cases hstored
        have hput := hservice.put calls' request.logStreamName request.logEvents
        rw [hanswer] at hput
        cases hput
    · cases hstored
  · refine @foldl_invariant _ _ self.step (fun s => (s.world.calls.filter
      (fun c => c.1.logGroupName = group)).length = 126 * (s.server.handed.filter
        (fun call => call.logGroupName = group)).length) (fun s a hs => ?_) actions _ rfl
    rcases self.step_cases s a with ⟨b, -, hhanded, hworld⟩ |
      ⟨today, batch, rest, outcome, -, -, hhanded, hworld⟩
    · rwa [hworld, hhanded]
    · rw [hworld, hhanded, hservice.upload_calls, hs, List.filter_append, List.length_append,
        Nat.mul_add]
      congr 1
      split_ifs with hgroup
      · rw [List.filter_cons_of_pos (by simpa using hgroup)]
        rfl
      · rw [List.filter_cons_of_neg (by simpa using hgroup)]
        rfl

/-- A service without any log group. -/
def missingService : AwsClient := fun _ _ => .error .resourceNotFound

theorem missingGroup_missingService (group : Str) : MissingGroup missingService group :=
  ⟨fun _ _ _ => rfl, fun _ _ => rfl⟩

theorem missing_group_example :
    ((⟨exampleServer, missingService⟩ : LoggingSystem).run 8
      exampleSystemActions).world.storedBatches = [] := by
  apply List.eq_nil_iff_forall_not_mem.2
  intro b hb
  exact ((⟨exampleServer, missingService⟩ : LoggingSystem).missing_group b.1.1
    (missingGroup_missingService _) 8
    exampleSystemActions).1 b hb rfl

end IotLoggingServer
