import IotLoggingServer.AwsIotLogger.Iteration
import IotLoggingServer.Delivery

set_option autoImplicit false

/-! # Merging against the limits of PutLogEvents

The service the uploader talks to refuses a request as a whole when it breaks one of its limits. The
merge loop bounds the number of events in a request and none of the others, so entries that would be
stored one by one can be lost together. This file compares, over any run of the server against such
a service, what the merging uploader gets stored with what a plain uploader would, and states when
they agree (`merging_stores_all_iff`). -/

namespace IotLoggingServer

/-! ## The service -/

/-- The limits on one request: at most 10000 events, in order of time, at most 24 hours apart, and
    of at most 1048576 bytes, each event counting 26 bytes on top of its message. -/
def WithinLimits (events : List LogMessage) : Prop :=
  events.length ≤ 10000 ∧
  events.Pairwise (fun a b => a.timestamp ≤ b.timestamp ∧
    b.timestamp - a.timestamp ≤ 24 * 60 * 60 * 1000) ∧
  (events.map (fun m => utf8Length m.message + 26)).sum ≤ 1048576

instance (events : List LogMessage) : Decidable (WithinLimits events) :=
  inferInstanceAs (Decidable (_ ∧ _ ∧ _))

/-- The service; only the exception a request is refused with is left open. -/
structure PutLogEventsService where
  rejection : LogEvent → PyExc
  rejection_ne : ∀ request, rejection request ≠ .resourceNotFound

/-- The service as a client whose streams all exist. -/
def PutLogEventsService.client (service : PutLogEventsService) : AwsClient := fun _ call =>
  match call with
  | .putLogEvents request =>
    if WithinLimits request.logEvents then .ok () else .error (service.rejection request)
  | .createLogStream _ _ => .error .resourceAlreadyExists

/-- The events stored by one call, given its answer: all of an accepted put. -/
def storedEvents : ClientCall × Answer → List LogMessage
  | (.putLogEvents request, .ok _) => request.logEvents
  | _ => []

/-- What calls of `put_log_events` get stored, each message under its source. -/
def PutLogEventsService.stored (service : PutLogEventsService) (calls : List PutCall) :
    List (Source × LogMessage) :=
  calls.flatMap (fun call =>
    match putLogEvents service.client call.logGroupName call.logStreamName call.logs ⟨[], []⟩ with
    | some (_, w) => (w.calls.flatMap storedEvents).map (call.source, ·)
    | none => [])

/-- The plain uploader: a request of its own for each entry. -/
def AWSIoTLogger.plainCalls (self : AWSIoTLogger) (today : Str) (entries : List LogEntry) :
    List PutCall :=
  entries.map (fun e => self.putCall today (e.source, [e.message]))

/-- The action, with the thread's calls going to `service`. -/
def Action.against (service : PutLogEventsService) : Action → Action
  | .uploader today _ => .uploader today (putOutcome service.client)
  | a => a

/-- Merging `entries` breaks no limit that they do not break one by one. -/
def MergesSafely (entries : List LogEntry) : Prop :=
  ∀ source, WithinLimits (select source (entries.map LogEntry.keyed)) ∨
    ∀ m ∈ select source (entries.map LogEntry.keyed), ¬ WithinLimits [m]

/-! ## What is stored -/

/-- The service never misses a stream. -/
theorem PutLogEventsService.client_ne (service : PutLogEventsService)
    (calls : List (ClientCall × Answer)) (request : LogEvent) :
    service.client calls (.putLogEvents request) ≠ .error .resourceNotFound := by
  simp only [PutLogEventsService.client]
  split
  · simp
  · simpa using service.rejection_ne request

theorem PutLogEventsService.stored_eq (service : PutLogEventsService) (calls : List PutCall) :
    service.stored calls
      = calls.flatMap (fun call =>
          if WithinLimits call.logs then call.logs.map (call.source, ·) else []) := by
  unfold PutLogEventsService.stored
  congr 1
  funext call
  rw [putLogEvents_found _ _ _ _ _ (service.client_ne _ _)]
  simp only [List.nil_append, List.flatMap_singleton, PutLogEventsService.client]
  split <;> simp [storedEvents]

/-- An accepted request accepts each of its events alone. -/
theorem WithinLimits.singleton {events : List LogMessage} (h : WithinLimits events)
    {m : LogMessage} (hm : m ∈ events) : WithinLimits [m] := by
  have hle := List.single_le_sum (l := events.map (fun m => utf8Length m.message + 26))
    (fun _ _ => Nat.zero_le _) _ (List.mem_map.2 ⟨m, hm, rfl⟩)
  refine ⟨by simp, List.pairwise_singleton _ _, ?_⟩
  have hsum := h.2.2
  simp only [List.map_cons, List.map_nil, List.sum_cons, List.sum_nil]
  omega

/-- What the service stores of a batch, and what it would store of it piece by piece. -/
def keptWhole (b : Source × List LogMessage) : List (Source × LogMessage) :=
  if WithinLimits b.2 then b.2.map (b.1, ·) else []

def keptAlone (b : Source × List LogMessage) : List (Source × LogMessage) :=
  (b.2.filter (fun m => WithinLimits [m])).map (b.1, ·)

theorem keptWhole_sublist (b : Source × List LogMessage) : (keptWhole b).Sublist (keptAlone b) := by
  unfold keptWhole keptAlone
  split
  · next h =>
      rw [List.filter_eq_self.2 (fun m hm => decide_eq_true (h.singleton hm))]
  · exact List.nil_sublist _

theorem keptWhole_eq_iff (b : Source × List LogMessage) :
    keptWhole b = keptAlone b ↔ WithinLimits b.2 ∨ ∀ m ∈ b.2, ¬ WithinLimits [m] := by
  unfold keptWhole keptAlone
  split
  · next h =>
      rw [List.filter_eq_self.2 (fun m hm => decide_eq_true (h.singleton hm))]
      exact ⟨fun _ => Or.inl h, fun _ => rfl⟩
  · next h =>
      rw [eq_comm, List.map_eq_nil_iff, List.filter_eq_nil_iff]
      simp [h]

theorem PutLogEventsService.stored_handed (service : PutLogEventsService) (s : ServerState) :
    service.stored s.handed = s.handedBatches.flatMap keptWhole := by
  rw [service.stored_eq, ServerState.handedBatches, List.flatMap_map]
  rfl

theorem PutLogEventsService.stored_plainCalls (service : PutLogEventsService)
    (self : AWSIoTLogger) (today : Str) (entries : List LogEntry) :
    service.stored (self.plainCalls today entries)
      = (entries.map LogEntry.keyed).filter (fun x => WithinLimits [x.2]) := by
  rw [service.stored_eq, AWSIoTLogger.plainCalls, List.flatMap_map]
  induction entries with
  | nil => rfl
  | cons e rest ih =>
      rw [List.flatMap_cons, ih, List.map_cons, List.filter_cons]
      by_cases h : WithinLimits [e.message] <;>
        simp [AWSIoTLogger.putCall, LogEntry.keyed, h]

theorem filter_flatten_eq (bs : List (Source × List LogMessage)) :
    (flatten bs).filter (fun x => WithinLimits [x.2]) = bs.flatMap keptAlone := by
  induction bs with
  | nil => rfl
  | cons b rest ih =>
      rw [flatten_cons, List.filter_append, ih, List.flatMap_cons, keptAlone, List.filter_map]
      rfl

/-! ## When nothing is lost to merging -/

theorem mergesSafely_iff (entries : List LogEntry) :
    MergesSafely entries ↔ ∀ b ∈ (merge entries).items, keptWhole b = keptAlone b := by
  simp only [keptWhole_eq_iff]
  constructor
  · rintro h ⟨k, ms⟩ hb
    obtain ⟨rfl, -⟩ := Groups.mem_ofList.1 hb
    exact h k
  · intro h k
    by_cases hne : select k (entries.map LogEntry.keyed) = []
    · simp [hne]
    · exact h (k, _) (Groups.mem_ofList.2 ⟨rfl, hne⟩)

/-- Between two iterations, what merging got stored is what the plain uploader would have, iff each
    iteration merged safely. -/
theorem LogProxyServer.Inv.stored_perm_iff {self : LogProxyServer} {s : ServerState}
    (h : self.Inv s) (hend : s.thread.iterationEnd) (service : PutLogEventsService) (today : Str) :
    (service.stored s.handed).Perm
        (service.stored (self.iotLogger.plainCalls today s.dequeued)) ↔
      ∀ entries ∈ s.drained, MergesSafely entries := by
  obtain ⟨hhanded, hcur⟩ := h.iterationEnd hend
  have hdeq : s.dequeued = s.drained.flatten := by simp [ServerState.dequeued, hcur]
  have hplain : (service.stored (self.iotLogger.plainCalls today s.dequeued)).Perm
      (s.mergedBatches.flatMap keptAlone) := by
    rw [service.stored_plainCalls, hdeq, ← filter_flatten_eq]
    exact ((flatten_flatMap_merge s.drained).filter _).symm
  rw [service.stored_handed, hhanded]
  calc (s.mergedBatches.flatMap keptWhole).Perm
          (service.stored (self.iotLogger.plainCalls today s.dequeued))
      ↔ (s.mergedBatches.flatMap keptWhole).Perm (s.mergedBatches.flatMap keptAlone) :=
        ⟨fun hp => hp.trans hplain, fun hp => hp.trans hplain.symm⟩
    _ ↔ ∀ b ∈ s.mergedBatches, keptWhole b = keptAlone b :=
        flatMap_perm_iff (fun b _ => keptWhole_sublist b)
    _ ↔ ∀ entries ∈ s.drained, MergesSafely entries := by
        simp only [mergesSafely_iff, ServerState.mergedBatches, List.mem_flatMap]
        constructor
        · intro h es hes b hb
          exact h b ⟨es, hes, hb⟩
        · rintro h b ⟨es, hes, hb⟩
          exact h es hes b hb

/-- **Merging stores what a plain uploader would, exactly when every merge is safe**: in each
    iteration, the entries taken under one source fit the limits together or none fits them
    alone. -/
theorem LogProxyServer.merging_stores_all_iff (self : LogProxyServer) (maxsize : ℤ)
    (actions : List Action) (service : PutLogEventsService) (today : Str)
    (hend : (self.run maxsize (actions.map (Action.against service))).thread.iterationEnd) :
    let s := self.run maxsize (actions.map (Action.against service))
    (service.stored s.handed).Perm
        (service.stored (self.iotLogger.plainCalls today s.dequeued)) ↔
      ∀ entries ∈ s.drained, MergesSafely entries :=
  (self.inv_run maxsize _).stored_perm_iff hend service today

def exampleService : PutLogEventsService := ⟨fun _ => .other 0, by simp⟩

theorem merging_stores_all_iff_example :
    (exampleService.stored
        (exampleServer.run 1 (exampleActions.map (Action.against exampleService))).handed).Perm
      (exampleService.stored (exampleServer.iotLogger.plainCalls []
        (exampleServer.run 1 (exampleActions.map (Action.against exampleService))).dequeued)) := by
  refine (exampleServer.merging_stores_all_iff 1 exampleActions exampleService []
    (Or.inr (Or.inl rfl))).2 (fun entries hentries source => Or.inl ?_)
  have hdrained : entries = [⟨.log, "autoware".toList, ⟨7000, "up".toList⟩⟩] :=
    List.mem_singleton.1 hentries
  subst hdrained
  by_cases hsource : source = (.log, "autoware".toList)
  · subst hsource
    decide
  · have hnil : select source [(((.log, "autoware".toList) : Source),
        (⟨7000, "up".toList⟩ : LogMessage))] = [] := by
      rw [select_singleton, if_neg (fun h => hsource h.symm)]
    change WithinLimits (select source _)
    rw [List.map_singleton]
    exact hnil ▸ (by decide : WithinLimits [])

/-- Two gRPC puts whose timestamps come in the wrong order, merged into one request. -/
def outOfOrderActions : List Action :=
  [.grpc 0 ⟨"autoware".toList, .log, 5, .info, "late".toList⟩,
    .grpc 0 ⟨"autoware".toList, .log, 3, .info, "early".toList⟩] ++
  List.replicate 5 (.uploader "2024/01/01".toList (fun _ => .ok ()))

/-- Merging can lose entries: both of these would have been stored alone. -/
theorem not_merging_stores_all :
    ¬ ∀ (self : LogProxyServer) (maxsize : ℤ) (actions : List Action)
        (service : PutLogEventsService) (today : Str),
      let s := self.run maxsize (actions.map (Action.against service))
      s.thread.iterationEnd →
      (service.stored s.handed).Perm
        (service.stored (self.iotLogger.plainCalls today s.dequeued)) := by
  intro h
  have hperm := h exampleServer 8 outOfOrderActions exampleService [] (Or.inr (Or.inl rfl))
  have hsafe := ((exampleServer.inv_run 8 _).stored_perm_iff (Or.inr (Or.inl rfl)) _ _).1 hperm
    _ List.mem_cons_self (.log, "autoware".toList)
  revert hsafe
  decide

end IotLoggingServer
