import IotLoggingServer.StreamService

set_option autoImplicit false

/-! # The server's own logs

The uploader logs how its calls of the log service end, and the records go into the queue it
empties: every upload can give the next one something to do. Left to itself, the server queues at
most one upload's records more than were logged for other reasons, whatever the service answers, as
long as the merge limit is not below that number (`own_logs_le`); under a smaller limit the queue
fills as soon as the log group is missing (`own_logs_fill_iff`). -/

namespace IotLoggingServer

/-! ## What is logged of a call -/

/-- The levels of `logging`. -/
inductive LoggingLevel
  | debug
  | info
  | warning
  | error
  | critical
  deriving DecidableEq, Repr

def LoggingLevel.levelno : LoggingLevel → ℕ
  | .debug => 10
  | .info => 20
  | .warning => 30
  | .error => 40
  | .critical => 50

/-- What `_create_log_stream` and `put_log_events` log when a call of the client has ended. -/
def ClientCall.logged : ClientCall → Answer → Option LoggingLevel
  | .createLogStream _ _, .ok _ => some .info
  | .createLogStream _ _, .error .resourceAlreadyExists => some .debug
  | .createLogStream _ _, .error _ => some .error
  | .putLogEvents _, .ok _ => none
  | .putLogEvents _, .error .resourceNotFound => some .debug
  | .putLogEvents _, .error _ => some .error

theorem ClientCall.logged_create {g s : Str} {a : Answer} (h : streamExists a = false) :
    (ClientCall.createLogStream g s).logged a = some .error := by
  cases a with
  | ok u => cases h
  | error e => cases e <;> first | rfl | cases h

/-- The system with the tee handler attached to the package logger. -/
structure TeeingSystem extends LoggingSystem where
  /-- the level of the package logger -/
  level : LoggingLevel
  /-- the formatted record of a call -/
  format : ClientCall → Answer → Str
  /-- the records of refused credentials, which are fetched while a call is made -/
  credentialErrors : List (ClientCall × Answer) → ClientCall → List Str

def TeeingSystem.isEnabledFor (self : TeeingSystem) (level : LoggingLevel) : Bool :=
  decide (self.level.levelno ≤ level.levelno)

/-- A record of the call gets past the level of the logger. -/
def TeeingSystem.logs (self : TeeingSystem) (c : ClientCall × Answer) : Bool :=
  match c.1.logged c.2 with
  | some level => self.isEnabledFor level
  | none => false

/-- The records of the last of some calls. -/
def TeeingSystem.callRecords (self : TeeingSystem) (calls : List (ClientCall × Answer))
    (c : ClientCall × Answer) : List Str :=
  (if self.isEnabledFor .error then self.credentialErrors calls c.1 else []) ++
    if self.logs c then [self.format c.1 c.2] else []

/-- The records of further calls, one after the other. -/
def TeeingSystem.records (self : TeeingSystem) :
    List (ClientCall × Answer) → List (ClientCall × Answer) → List Str
  | _, [] => []
  | calls, c :: rest => self.callRecords calls c ++ self.records (calls ++ [c]) rest

/-- The tee handler emits a record of the package logger. -/
def TeeingSystem.tee (self : TeeingSystem) (now : ℚ) (s : SystemState) (record : Str) :
    SystemState :=
  self.toLoggingSystem.step s (.tee now (some record))

/-- A step of the system, and the records of the calls made in it. -/
def TeeingSystem.step (self : TeeingSystem) (s : SystemState) (now : ℚ) (a : SystemAction) :
    SystemState :=
  let s' := self.toLoggingSystem.step s a
  (self.records s.world.calls (s'.world.calls.drop s.world.calls.length)).foldl (self.tee now) s'

/-- The state after `actions`, each with the time it happens at. -/
def TeeingSystem.run (self : TeeingSystem) (maxsize : ℤ) (actions : List (ℚ × SystemAction)) :
    SystemState :=
  actions.foldl (fun s a => self.step s a.1 a.2) (SystemState.start maxsize)

theorem TeeingSystem.run_concat (self : TeeingSystem) (maxsize : ℤ)
    (actions : List (ℚ × SystemAction)) (a : ℚ × SystemAction) :
    self.run maxsize (actions ++ [a]) = self.step (self.run maxsize actions) a.1 a.2 := by
  simp [TeeingSystem.run]

/-- **A run with its own records is a run of the system**: the records are teed among the other
    actions, so all that holds of every interleaving holds of it. -/
theorem TeeingSystem.run_refines (self : TeeingSystem) (maxsize : ℤ)
    (actions : List (ℚ × SystemAction)) :
    ∃ all, self.run maxsize actions = self.toLoggingSystem.run maxsize all := by
  induction actions using List.reverseRecOn with
  | nil => exact ⟨[], rfl⟩
  | append_singleton actions a ih =>
      obtain ⟨all, hrun⟩ := ih
      obtain ⟨texts, hstep⟩ : ∃ texts : List Str, self.step (self.run maxsize actions) a.1 a.2 =
          texts.foldl (self.tee a.1)
            (self.toLoggingSystem.step (self.run maxsize actions) a.2) := ⟨_, rfl⟩
      refine ⟨all ++ [a.2] ++ texts.map (fun text => .tee a.1 (some text)), ?_⟩
      rw [self.run_concat, hstep, hrun]
      unfold LoggingSystem.run
      rw [List.foldl_append, List.foldl_append, List.foldl_map]
      rfl

/-! ## How many records an upload makes -/

section Records

variable (self : TeeingSystem)

/-- Every call makes its own record at most, besides those of refused credentials. -/
theorem TeeingSystem.records_length_le {c : ℕ}
    (hc : ∀ calls call, (self.credentialErrors calls call).length ≤ c)
    (cs : List (ClientCall × Answer)) : ∀ calls,
    (self.records calls cs).length ≤ c * cs.length + cs.countP self.logs := by
  induction cs with
  | nil => intro calls; simp [TeeingSystem.records]
  | cons d rest ih =>
      intro calls
      have hrest := ih (calls ++ [d])
      have hcall : (self.callRecords calls d).length ≤ c + if self.logs d then 1 else 0 := by
        have hcredentials := hc calls d.1
        unfold TeeingSystem.callRecords
        rw [List.length_append]
        split <;> split <;> simp <;> omega
      rw [TeeingSystem.records, List.length_append, List.countP_cons, List.length_cons, Nat.mul_add]
      omega

/-- Without refused credentials every call makes exactly its own record. -/
theorem TeeingSystem.records_length (hc : ∀ calls call, self.credentialErrors calls call = [])
    (cs : List (ClientCall × Answer)) : ∀ calls,
    (self.records calls cs).length = cs.countP self.logs := by
  induction cs with
  | nil => intro calls; rfl
  | cons d rest ih =>
      intro calls
      rw [TeeingSystem.records, List.length_append, ih, List.countP_cons, Nat.add_comm]
      congr 1
      unfold TeeingSystem.callRecords
      rw [hc, ite_self, List.nil_append]
      split <;> rfl

/-- What the calls of a round log at most: the missing stream, for debugging, and its creates. -/
def TeeingSystem.roundRecords : ℕ := if self.isEnabledFor .debug then 18 else 17

/-- What an upload logs at most, if each call logs at most `c` refused credentials. -/
def TeeingSystem.uploadRecords (c : ℕ) : ℕ := 7 * self.roundRecords + 126 * c

theorem TeeingSystem.countP_round_le (request : LogEvent) {rd : Round} (h : rd.WellFormed) :
    (rd.calls request).countP self.logs ≤ self.roundRecords ∧ (rd.calls request).length ≤ 18 := by
  have hlength := h.creates_le
  have hcreates := @List.countP_le_length _ self.logs (rd.creates.map (fun a =>
    (ClientCall.createLogStream request.logGroupName request.logStreamName, a)))
  rw [List.length_map] at hcreates
  unfold Round.calls
  rw [List.countP_cons, List.length_cons, List.length_map]
  refine ⟨?_, by omega⟩
  unfold Round.WellFormed at h
  unfold TeeingSystem.roundRecords
  by_cases hfound : rd.put.notFound
  · have hdebug : self.logs (.putLogEvents request, rd.put) = self.isEnabledFor .debug := by
      rw [hfound]
      rfl
    rw [hdebug]
    split_ifs <;> omega
  · rw [if_neg hfound] at h
    rw [h, List.map_nil, List.countP_nil]
    split_ifs <;> omega

variable (call : PutCall) (w : World)

/-- The calls of one upload. -/
def AwsClient.uploadCalls (client : AwsClient) (call : PutCall) (w : World) :
    List (ClientCall × Answer) :=
  (client.upload call w).2.calls.drop w.calls.length

theorem AwsClient.uploadCalls_eq {client : AwsClient} {rounds : List Round}
    (h : PutProtocol call.request (client.upload call w).1 w (client.upload call w).2 rounds) :
    client.uploadCalls call w = rounds.flatMap (Round.calls call.request) := by
  unfold AwsClient.uploadCalls
  rw [h.calls, List.drop_left]

/-- **An upload logs at most `uploadRecords`**, whatever the service answers. -/
theorem TeeingSystem.upload_records_le {c : ℕ}
    (hc : ∀ calls call, (self.credentialErrors calls call).length ≤ c) :
    (self.records w.calls (self.client.uploadCalls call w)).length ≤ self.uploadRecords c := by
  obtain ⟨rounds, hprotocol⟩ := self.client.upload_protocol call w
  rw [AwsClient.uploadCalls_eq call w hprotocol]
  have hall : ∀ rounds : List Round, (∀ rd ∈ rounds, rd.WellFormed) →
      (rounds.flatMap (Round.calls call.request)).countP self.logs ≤
        self.roundRecords * rounds.length ∧
      (rounds.flatMap (Round.calls call.request)).length ≤ 18 * rounds.length := by
    intro rounds
    induction rounds with
    | nil => simp
    | cons rd rest ih =>
        intro h
        rw [List.forall_mem_cons] at h
        obtain ⟨hcount, hlength⟩ := self.countP_round_le call.request h.1
        obtain ⟨hcounts, hlengths⟩ := ih h.2
        rw [List.flatMap_cons, List.countP_append, List.length_append, List.length_cons,
          Nat.mul_add, Nat.mul_add]
        omega
  obtain ⟨hcount, hlength⟩ := hall rounds hprotocol.creates
  have hseven := hprotocol.length_le
  calc (self.records w.calls (rounds.flatMap (Round.calls call.request))).length
      ≤ c * (rounds.flatMap (Round.calls call.request)).length +
          (rounds.flatMap (Round.calls call.request)).countP self.logs :=
        self.records_length_le hc _ _
    _ ≤ c * 126 + self.roundRecords * 7 := by
        refine Nat.add_le_add (Nat.mul_le_mul_left c (by omega))
          (hcount.trans (Nat.mul_le_mul_left _ hseven))
    _ = self.uploadRecords c := by
        unfold TeeingSystem.uploadRecords
        ring

/-- An upload for a missing group logs exactly that, if no credentials are refused. -/
theorem TeeingSystem.missing_records (hc : ∀ calls call, self.credentialErrors calls call = [])
    (hlevel : self.isEnabledFor .error = true)
    (hmissing : MissingGroup self.client call.logGroupName) :
    (self.records w.calls (self.client.uploadCalls call w)).length = self.uploadRecords 0 := by
  obtain ⟨rounds, hprotocol, hgives⟩ := self.client.upload_rounds call w
  obtain ⟨hseven, hrounds⟩ := MissingGroup.rounds hmissing hprotocol hgives
  have hround : ∀ rd ∈ rounds, (rd.calls call.request).countP self.logs = self.roundRecords := by
    intro rd hmem
    obtain ⟨hput, hlength⟩ := hrounds rd hmem
    have hcreates : (rd.creates.map (fun a => (ClientCall.createLogStream call.logGroupName
        call.logStreamName, a))).countP self.logs = 17 := by
      rw [← hlength, ← @List.length_map _ _ rd.creates (fun a =>
        (ClientCall.createLogStream call.logGroupName call.logStreamName, a)),
        List.countP_eq_length]
      intro d hd
      -- the create failed
      obtain ⟨calls', hanswer⟩ := AwsClient.gives_mem hgives
        (List.mem_flatMap.2 ⟨rd, hmem, List.mem_cons_of_mem _ hd⟩)
      obtain ⟨a, -, rfl⟩ := List.mem_map.1 hd
      have hfails := hmissing.create calls' call.logStreamName
      rw [hanswer] at hfails
      unfold TeeingSystem.logs
      rw [ClientCall.logged_create hfails]
      exact hlevel
    unfold Round.calls
    rw [List.countP_cons]
    show (List.countP self.logs (rd.creates.map (fun a => (ClientCall.createLogStream
      call.logGroupName call.logStreamName, a)))) + _ = _
    have hdebug : self.logs (.putLogEvents call.request, rd.put) = self.isEnabledFor .debug := by
      rw [hput]
      rfl
    rw [hcreates, hdebug]
    unfold TeeingSystem.roundRecords
    split_ifs <;> rfl
  have hsame : rounds.map (List.countP self.logs ∘ Round.calls call.request) =
      rounds.map (fun _ => self.roundRecords) := List.map_congr_left hround
  rw [self.records_length hc, AwsClient.uploadCalls_eq call w hprotocol, List.countP_flatMap,
    hsame, List.map_const', hseven, List.sum_replicate]
  unfold TeeingSystem.uploadRecords
  rw [smul_eq_mul, Nat.mul_zero, Nat.add_zero]

end Records

/-! ## Records in the queue -/

section Queue

variable (self : TeeingSystem) (now : ℚ)

/-- The source of the server's own logs. -/
def TeeingSystem.ownSource : Source := (.log, self.server.teeHandler.logstreamSuffix)

/-- A state with `n` more of the server's own logs in the queue, or fewer if that filled it. -/
structure TeeingSystem.Teed (s s' : SystemState) (n : ℕ) : Prop where
  thread : s'.server.thread = s.server.thread
  queue : ∃ more, s'.server.queue = { s.server.queue with items := s.server.queue.items ++ more } ∧
    (∀ e ∈ more, e.source = self.ownSource) ∧ more.length ≤ n ∧
    (¬ s'.server.queue.isFull → more.length = n)

theorem TeeingSystem.teed_tee (s : SystemState) (record : Str) :
    self.Teed s (self.tee now s record) 1 := by
  unfold TeeingSystem.tee LoggingSystem.step LogProxyServer.step LogTeeHandler.emit
  cases hput : s.server.queue.putNowait (self.server.teeHandler.entry now record) with
  | none =>
      have hfull : s.server.queue.isFull := by
        by_contra hroom
        rw [PyQueue.putNowait, if_neg hroom] at hput
        cases hput
      simp only [hput]
      exact ⟨rfl, [], by simp, by simp, by simp, fun hroom => absurd hfull hroom⟩
  | some q' =>
      obtain ⟨-, rfl⟩ := PyQueue.putNowait_eq_some.1 hput
      simp only [hput]
      exact ⟨rfl, [self.server.teeHandler.entry now record], rfl, by
        simp [LogTeeHandler.entry, LogEntry.source, TeeingSystem.ownSource], by simp, by simp⟩

theorem TeeingSystem.teed_foldl (records : List Str) : ∀ s,
    self.Teed s (records.foldl (self.tee now) s) records.length := by
  induction records with
  | nil => exact fun s => ⟨rfl, [], by simp, by simp, le_rfl, fun _ => rfl⟩
  | cons record rest ih =>
      intro s
      obtain ⟨hthread, more, hqueue, hown, hle, heq⟩ := self.teed_tee now s record
      obtain ⟨hthread', more', hqueue', hown', hle', heq'⟩ := ih (self.tee now s record)
      refine ⟨hthread'.trans hthread, more ++ more', ?_, ?_, ?_, ?_⟩
      · rw [List.foldl_cons, hqueue', hqueue, List.append_assoc]
      · exact List.forall_mem_append.2 ⟨hown, hown'⟩
      · rw [List.length_append, List.length_cons]
        omega
      · intro hroom
        have hroom' : ¬ (self.tee now s record).server.queue.isFull := by
          rw [List.foldl_cons, hqueue', PyQueue.isFull] at hroom
          rw [PyQueue.isFull]
          simp only [List.length_append] at hroom
          omega
        rw [List.length_append, List.length_cons, heq hroom', heq' hroom, Nat.add_comm]

theorem TeeingSystem.step_tee (s : SystemState) (t : ℚ) (formatted : Option Str) :
    ∃ n ≤ 1, self.Teed s (self.step s t (.tee now formatted)) n := by
  have hstep : self.step s t (.tee now formatted) =
      self.toLoggingSystem.step s (.tee now formatted) := by
    have hworld : (self.toLoggingSystem.step s (.tee now formatted)).world = s.world := rfl
    show (self.records _ _).foldl _ _ = _
    rw [hworld, List.drop_length]
    rfl
  rw [hstep]
  cases formatted with
  | none => exact ⟨0, Nat.zero_le 1, rfl, [], by simp [LoggingSystem.step, LogProxyServer.step,
      LogTeeHandler.emit], by simp, le_rfl, fun _ => rfl⟩
  | some record => exact ⟨1, le_rfl, self.teed_tee now s record⟩

/-- **All a step of the uploader does to the queue and the thread**, with the records of an upload
    teed at its end. -/
theorem TeeingSystem.step_uploader (s : SystemState) (today : UtcDate) :
    let s' := self.step s now (.uploader today)
    (∃ n d e rest, s.server.thread = .merging n d ∧
      (n : ℤ) < self.server.iotLogger.maxLogsPerMerge ∧ s.server.queue.items = e :: rest ∧
      s'.server.thread = .merging (n + 1) (d.append e.source e.message) ∧
      s'.server.queue = { s.server.queue with items := rest }) ∨
    (∃ n d, s.server.thread = .merging n d ∧
      (self.server.iotLogger.maxLogsPerMerge ≤ n ∨ s.server.queue.items = []) ∧
      s'.server.thread = .uploading d.items ∧ s'.server.queue = s.server.queue) ∨
    (∃ batch rest s₁, s.server.thread = .uploading (batch :: rest) ∧
      s₁.server.thread = .uploading rest ∧ s₁.server.queue = s.server.queue ∧
      self.Teed s₁ s' (self.records s.world.calls (self.client.uploadCalls
        (self.server.iotLogger.putCall today.strftime batch) s.world)).length) ∨
    (s.server.thread = .uploading [] ∧ s'.server.thread = .sleeping ∧
      s'.server.queue = s.server.queue) ∨
    (s.server.thread = .sleeping ∧ 0 ≤ self.server.iotLogger.interval ∧
      s'.server.thread = .top ∧ s'.server.queue = s.server.queue) ∨
    (∃ e, (s.server.thread = .raised e ∨
        s.server.thread = .sleeping ∧ self.server.iotLogger.interval < 0) ∧
      s'.server.thread = .raised e ∧ s'.server.queue = s.server.queue) := by
  intro s'
  by_cases hup : ∃ batch rest, s.server.thread = .uploading (batch :: rest)
  · obtain ⟨batch, rest, ht⟩ := hup
    have hsystem : self.toLoggingSystem.step s (.uploader today) =
        ⟨self.server.step s.server (.uploader today.strftime (fun _ => (self.client.upload
          (self.server.iotLogger.putCall today.strftime batch) s.world).1)),
          (self.client.upload (self.server.iotLogger.putCall today.strftime batch) s.world).2⟩ := by
      simp only [LoggingSystem.step, ht, AWSIoTLogger.nextCall]
    refine Or.inr (Or.inr (Or.inl ⟨batch, rest,
      self.toLoggingSystem.step s (.uploader today), ht, ?_, ?_, ?_⟩))
    · rw [hsystem]
      simp only [LogProxyServer.step, ht, AWSIoTLogger.step_put, ServerState.record]
    · rw [hsystem]
      simp only [LogProxyServer.step, ht, AWSIoTLogger.step_put, ServerState.record]
    · have hcalls : (self.toLoggingSystem.step s (.uploader today)).world.calls.drop
          s.world.calls.length = self.client.uploadCalls
            (self.server.iotLogger.putCall today.strftime batch) s.world := by
        rw [hsystem]
        rfl
      have hteed := self.teed_foldl now (self.records s.world.calls (self.client.uploadCalls
        (self.server.iotLogger.putCall today.strftime batch) s.world))
        (self.toLoggingSystem.step s (.uploader today))
      rw [← hcalls] at hteed ⊢
      exact hteed
  · -- no call is made, so nothing is logged
    have hcall : self.server.iotLogger.nextCall today s.server.thread = none := by
      unfold AWSIoTLogger.nextCall
      split
      · next batch rest ht => exact absurd ⟨batch, rest, ht⟩ hup
      · rfl
    have hsystem : self.toLoggingSystem.step s (.uploader today) = { s with
        server := self.server.step s.server (.uploader today.strftime (fun _ => .ok ())) } := by
      simp only [LoggingSystem.step, hcall]
    have hs' : s' = self.toLoggingSystem.step s (.uploader today) := by
      show (self.records _ _).foldl _ _ = _
      rw [hsystem, List.drop_length]
      rfl
    rw [hs', hsystem]
    rcases self.server.step_uploader s.server today.strftime (fun _ => .ok ()) with
      ⟨n, d, e, rest, ht, hn, hq, hstep⟩ | ⟨n, d, ht, hend, hstep⟩ | ⟨batch, rest, ht, _⟩ |
      ⟨ht, hstep⟩ | ⟨ht, hint, hstep⟩ | ⟨e, ht, hstep⟩
    · exact Or.inl ⟨n, d, e, rest, ht, hn, hq, by rw [hstep], by rw [hstep]⟩
    · exact Or.inr (Or.inl ⟨n, d, ht, hend, by rw [hstep], by rw [hstep]⟩)
    · exact absurd ⟨batch, rest, ht⟩ hup
    · exact Or.inr (Or.inr (Or.inr (Or.inl ⟨ht, by rw [hstep], by rw [hstep]⟩)))
    · exact Or.inr (Or.inr (Or.inr (Or.inr (Or.inl ⟨ht, hint, by rw [hstep], by rw [hstep]⟩))))
    · exact Or.inr (Or.inr (Or.inr (Or.inr (Or.inr ⟨e, ht, by rw [hstep], by rw [hstep]⟩))))

end Queue

/-! ## The server left to itself -/

/-- A log from outside. -/
def SystemAction.isRequest : SystemAction → Bool
  | .http _ _ => true
  | .grpc _ _ => true
  | _ => false

def SystemAction.isTee : SystemAction → Bool
  | .tee _ _ => true
  | _ => false

/-- Only own logs are on their way, and with what the upload of the batch at hand may log there are
    at most `bound` of them. -/
structure TeeingSystem.SelfFed (system : TeeingSystem) (records bound : ℕ) (s : SystemState) :
    Prop where
  own : ∀ e ∈ s.server.queue.items, e.source = system.ownSource
  fits : match s.server.thread with
    | .merging n d =>
      (∀ b ∈ d.items, b.1 = system.ownSource) ∧ s.server.queue.items.length + n ≤ bound
    | .uploading items =>
      (∀ b ∈ items, b.1 = system.ownSource) ∧ items.length ≤ 1 ∧
        s.server.queue.items.length + records * items.length ≤ bound
    | _ => s.server.queue.items.length ≤ bound

theorem TeeingSystem.SelfFed.length_le {self : TeeingSystem} {records bound : ℕ} {s : SystemState}
    (h : self.SelfFed records bound s) : s.server.queue.items.length ≤ bound := by
  have hfits := h.fits
  split at hfits
  · omega
  · omega
  · exact hfits

section SelfFed

variable {self : TeeingSystem} {records bound : ℕ} {s : SystemState}

theorem TeeingSystem.SelfFed.uploader (h : self.SelfFed records bound s) (hbound : records ≤ bound)
    (hlimit : (records : ℤ) ≤ self.server.iotLogger.maxLogsPerMerge)
    (hrecords : ∀ call w,
      (self.records w.calls (self.client.uploadCalls call w)).length ≤ records)
    (now : ℚ) (today : UtcDate) :
    self.SelfFed records bound (self.step s now (.uploader today)) := by
  obtain ⟨hown, hfits⟩ := h
  rcases self.step_uploader now s today with
    ⟨n, d, e, rest, ht, hn, hq, hthread, hqueue⟩ | ⟨n, d, ht, hend, hthread, hqueue⟩ |
    ⟨batch, rest, s₁, ht, hthread, hqueue, hteed⟩ | ⟨ht, hthread, hqueue⟩ |
    ⟨ht, -, hthread, hqueue⟩ | ⟨e, ht, hthread, hqueue⟩
  · -- the head of the queue goes to the dictionary
    rw [ht, hq, List.length_cons] at hfits
    rw [hq, List.forall_mem_cons] at hown
    refine ⟨by rw [hqueue]; exact hown.2, ?_⟩
    rw [hthread, hqueue]
    refine ⟨?_, by simp only; omega⟩
    rw [hown.1]
    exact Groups.append_keys hfits.1 _
  · -- the limit, or the empty queue, leaves room for what the upload may log
    rw [ht] at hfits
    refine ⟨by rw [hqueue]; exact hown, ?_⟩
    rw [hthread, hqueue]
    have hone := Groups.length_le_one hfits.1
    refine ⟨hfits.1, hone, ?_⟩
    have hroom : s.server.queue.items.length + records ≤ bound := by
      rcases hend with hend | hempty
      · omega
      · rw [hempty, List.length_nil]
        omega
    calc s.server.queue.items.length + records * d.items.length
        ≤ s.server.queue.items.length + records * 1 :=
          Nat.add_le_add_left (Nat.mul_le_mul_left _ hone) _
      _ ≤ bound := by omega
  · -- the one batch is uploaded
    rw [ht] at hfits
    obtain ⟨hkeys, hone, hfits⟩ := hfits
    obtain ⟨hsame, more, hmore, hownMore, hle, -⟩ := hteed
    rw [hqueue] at hmore
    refine ⟨by rw [hmore]; exact List.forall_mem_append.2 ⟨hown, hownMore⟩, ?_⟩
    rw [hsame, hthread, hmore]
    have hnil : rest = [] := by
      rw [List.length_cons] at hone
      exact List.length_eq_zero_iff.1 (by omega)
    subst hnil
    have hupload := hrecords (self.server.iotLogger.putCall today.strftime batch) s.world
    rw [List.length_singleton, Nat.mul_one] at hfits
    refine ⟨by simp, by simp, ?_⟩
    rw [List.length_append, List.length_nil, Nat.mul_zero]
    omega
  · rw [ht] at hfits
    refine ⟨by rw [hqueue]; exact hown, ?_⟩
    rw [hthread, hqueue]
    simpa using hfits
  · rw [ht] at hfits
    refine ⟨by rw [hqueue]; exact hown, ?_⟩
    rw [hthread, hqueue]
    exact ⟨by simp [Groups.empty], hfits⟩
  · refine ⟨by rw [hqueue]; exact hown, ?_⟩
    rw [hthread, hqueue]
    rcases ht with ht | ⟨ht, -⟩
    · rwa [ht] at hfits
    · rwa [ht] at hfits

/-- A record logged for another reason takes one more place at most. -/
theorem TeeingSystem.SelfFed.tee (h : self.SelfFed records bound s) (t now : ℚ)
    (formatted : Option Str) :
    self.SelfFed records (bound + 1) (self.step s t (.tee now formatted)) := by
  obtain ⟨n, hn, hthread, more, hmore, hownMore, hle, -⟩ :=
    self.step_tee now s t formatted
  obtain ⟨hown, hfits⟩ := h
  refine ⟨by rw [hmore]; exact List.forall_mem_append.2 ⟨hown, hownMore⟩, ?_⟩
  rw [hthread, hmore, List.length_append]
  cases ht : s.server.thread with
  | merging n d =>
      rw [ht] at hfits
      exact ⟨hfits.1, by omega⟩
  | uploading items =>
      rw [ht] at hfits
      exact ⟨hfits.1, hfits.2.1, by omega⟩
  | sleeping =>
      rw [ht] at hfits
      show _ ≤ _
      omega
  | raised e =>
      rw [ht] at hfits
      show _ ≤ _
      omega

end SelfFed

/-- The server feeds on no more as long as nothing is sent to it. -/
theorem TeeingSystem.SelfFed.foldl {self : TeeingSystem} {records : ℕ}
    (hlimit : (records : ℤ) ≤ self.server.iotLogger.maxLogsPerMerge)
    (hrecords : ∀ call w,
      (self.records w.calls (self.client.uploadCalls call w)).length ≤ records)
    (actions : List (ℚ × SystemAction)) (hown : ∀ a ∈ actions, a.2.isRequest = false) :
    ∀ {bound s}, records ≤ bound → self.SelfFed records bound s →
      self.SelfFed records (bound + actions.countP (fun a => a.2.isTee))
        (actions.foldl (fun s a => self.step s a.1 a.2) s) := by
  induction actions with
  | nil => exact fun _ hs => hs
  | cons a rest ih =>
      obtain ⟨t, action⟩ := a
      rw [List.forall_mem_cons] at hown
      intro bound s hbound hs
      rw [List.foldl_cons, List.countP_cons, Nat.add_comm (rest.countP _), ← Nat.add_assoc]
      cases action with
      | http now request => cases hown.1
      | grpc now request => cases hown.1
      | tee now formatted =>
          exact ih hown.2 (Nat.le_add_right_of_le hbound) (hs.tee t now formatted)
      | uploader today => exact ih hown.2 hbound (hs.uploader hbound hlimit hrecords t today)

/-- What holds of a state the server reaches by itself. -/
theorem TeeingSystem.selfFed_run (self : TeeingSystem) {records : ℕ}
    (hlimit : (records : ℤ) ≤ self.server.iotLogger.maxLogsPerMerge)
    (hrecords : ∀ call w,
      (self.records w.calls (self.client.uploadCalls call w)).length ≤ records)
    (maxsize : ℤ) (actions : List (ℚ × SystemAction))
    (hown : ∀ a ∈ actions, a.2.isRequest = false) :
    self.SelfFed records (records + actions.countP (fun a => a.2.isTee))
      (self.run maxsize actions) := by
  refine TeeingSystem.SelfFed.foldl hlimit hrecords actions hown le_rfl ⟨?_, ?_⟩
  · simp [SystemState.start, ServerState.start]
  · simp [SystemState.start, ServerState.start, ThreadState.top, Groups.empty]

/-- **Left to itself, the server does not feed on its own logs.** As long as the merge limit is at
    least what one upload may log, and whatever the service answers, there are never more logs in
    the queue than that and one for each record logged for another reason. -/
theorem TeeingSystem.own_logs_le (self : TeeingSystem) {c : ℕ}
    (hcredentials : ∀ calls call, (self.credentialErrors calls call).length ≤ c)
    (hlimit : (self.uploadRecords c : ℤ) ≤ self.server.iotLogger.maxLogsPerMerge) (maxsize : ℤ)
    (actions : List (ℚ × SystemAction)) (hown : ∀ a ∈ actions, a.2.isRequest = false) :
    (self.run maxsize actions).server.queue.items.length ≤
      self.uploadRecords c + actions.countP (fun a => a.2.isTee) :=
  (self.selfFed_run hlimit (fun call w => self.upload_records_le call w hcredentials) maxsize
    actions hown).length_le

/-! ## A merge limit that is too low -/

/-- Only own logs are on their way, and the iteration under way, which began with `start` of them,
    will leave more than that if an upload logs more than the limit. -/
structure TeeingSystem.Growing (system : TeeingSystem) (start : ℕ) (s : SystemState) : Prop where
  own : ∀ e ∈ s.server.queue.items, e.source = system.ownSource
  grows : match s.server.thread with
    | .merging n d =>
      (∀ b ∈ d.items, b.1 = system.ownSource) ∧ n ≤ system.server.iotLogger.mergeLimit ∧
        (n ≠ 0 → d.items ≠ []) ∧ start ≤ s.server.queue.items.length + n
    | .uploading items =>
      (∀ b ∈ items, b.1 = system.ownSource) ∧ start + system.uploadRecords 0 ≤
        s.server.queue.items.length + system.uploadRecords 0 * items.length +
          system.server.iotLogger.mergeLimit
    | .sleeping => start + system.uploadRecords 0 ≤
        s.server.queue.items.length + system.server.iotLogger.mergeLimit
    | .raised _ => False

section Growing

variable {self : TeeingSystem} {s : SystemState} {start : ℕ}

/-- A step fills the queue, or leads on in the iteration or to the top of the next one. -/
theorem TeeingSystem.Growing.uploader (h : self.Growing start s) (hstart : 0 < start)
    (hlimit : 0 < self.server.iotLogger.mergeLimit)
    (hlow : self.server.iotLogger.mergeLimit < self.uploadRecords 0)
    (hint : 0 ≤ self.server.iotLogger.interval)
    (hrecords : ∀ call w, call.logGroupName = self.server.iotLogger.logGroupName .log →
      (self.records w.calls (self.client.uploadCalls call w)).length = self.uploadRecords 0)
    (now : ℚ) (today : UtcDate) :
    let s' := self.step s now (.uploader today)
    s'.server.queue.isFull ∨
    (self.Growing start s' ∧ s'.server.thread.rank self.server.iotLogger.maxLogsPerMerge <
      s.server.thread.rank self.server.iotLogger.maxLogsPerMerge) ∨
    (self.Growing (start + 1) s' ∧ s'.server.thread = .top) := by
  intro s'
  obtain ⟨hown, hgrows⟩ := h
  rcases self.step_uploader now s today with
    ⟨n, d, e, rest, ht, hn, hq, hthread, hqueue⟩ | ⟨n, d, ht, hend, hthread, hqueue⟩ |
    ⟨batch, rest, s₁, ht, hthread, hqueue, hteed⟩ | ⟨ht, hthread, hqueue⟩ |
    ⟨ht, -, hthread, hqueue⟩ | ⟨e, ht, hthread, hqueue⟩
  · rw [ht, hq, List.length_cons] at hgrows
    rw [hq, List.forall_mem_cons] at hown
    have hlength := appendEntry_length_le e.source e.message d.items
    refine Or.inr (Or.inl ⟨⟨by rw [hqueue]; exact hown.2, ?_⟩, ?_⟩)
    · rw [hthread, hqueue]
      refine ⟨?_, ?_, fun _ => ?_, ?_⟩
      · rw [hown.1]
        exact Groups.append_keys hgrows.1 _
      · unfold AWSIoTLogger.mergeLimit
        omega
      · exact appendEntry_ne_nil _ _ _
      · simp only
        omega
    · rw [hthread, ht]
      simp only [ThreadState.rank, Groups.append]
      omega
  · rw [ht] at hgrows
    obtain ⟨hkeys, hle, hne, hstarts⟩ := hgrows
    refine Or.inr (Or.inl ⟨⟨by rw [hqueue]; exact hown, ?_⟩, ?_⟩)
    · rw [hthread, hqueue]
      refine ⟨hkeys, ?_⟩
      -- something was merged, so there is a batch
      have hpos : n ≠ 0 := by
        rintro rfl
        rcases hend with hend | hempty
        · unfold AWSIoTLogger.mergeLimit at hlimit
          omega
        · rw [hempty, List.length_nil] at hstarts
          omega
      have hitems := List.length_pos_of_ne_nil (hne hpos)
      have hmul : self.uploadRecords 0 * 1 ≤ self.uploadRecords 0 * d.items.length :=
        Nat.mul_le_mul_left _ hitems
      omega
    · rw [hthread, ht]
      simp only [ThreadState.rank]
      omega
  · rw [ht] at hgrows
    obtain ⟨hkeys, hstarts⟩ := hgrows
    rw [List.forall_mem_cons] at hkeys
    obtain ⟨hsame, more, hmore, hownMore, -, hexact⟩ := hteed
    rw [hqueue] at hmore
    have hgroup : (self.server.iotLogger.putCall today.strftime batch).logGroupName =
        self.server.iotLogger.logGroupName .log := by
      show self.server.iotLogger.logGroupName batch.1.1 = _
      rw [hkeys.1]
      rfl
    by_cases hfull : s'.server.queue.isFull
    · exact Or.inl hfull
    have hlength := hexact hfull
    rw [hrecords _ _ hgroup] at hlength
    refine Or.inr (Or.inl ⟨⟨by rw [hmore]; exact List.forall_mem_append.2 ⟨hown, hownMore⟩, ?_⟩,
      ?_⟩)
    · rw [hsame, hthread, hmore]
      refine ⟨hkeys.2, ?_⟩
      rw [List.length_cons, Nat.mul_add] at hstarts
      rw [List.length_append, hlength]
      omega
    · rw [hsame, hthread, ht]
      simp [ThreadState.rank]
  · rw [ht] at hgrows
    refine Or.inr (Or.inl ⟨⟨by rw [hqueue]; exact hown, ?_⟩, ?_⟩)
    · rw [hthread, hqueue]
      simpa using hgrows.2
    · rw [hthread, ht]
      simp [ThreadState.rank]
  · rw [ht] at hgrows
    refine Or.inr (Or.inr ⟨⟨by rw [hqueue]; exact hown, ?_⟩, hthread⟩)
    rw [hthread, hqueue]
    refine ⟨by simp [Groups.empty], Nat.zero_le _, fun hne => absurd rfl hne, ?_⟩
    simp only at hgrows
    omega
  · rcases ht with ht | ⟨-, hneg⟩
    · rw [ht] at hgrows
      exact hgrows.elim
    · omega

end Growing

/-- One step of the uploader. -/
def TeeingSystem.uploads (self : TeeingSystem) (now : ℚ) (today : UtcDate) (s : SystemState) :
    SystemState :=
  self.step s now (.uploader today)

section Grows

variable {self : TeeingSystem} (hlimit : 0 < self.server.iotLogger.mergeLimit)
  (hlow : self.server.iotLogger.mergeLimit < self.uploadRecords 0)
  (hint : 0 ≤ self.server.iotLogger.interval)
  (hrecords : ∀ call w, call.logGroupName = self.server.iotLogger.logGroupName .log →
    (self.records w.calls (self.client.uploadCalls call w)).length = self.uploadRecords 0)
  (now : ℚ) (today : UtcDate)

include hlimit hlow hint hrecords

/-- The iteration under way fills the queue, or the next one begins with more logs. -/
theorem TeeingSystem.Growing.iteration {start : ℕ} (hstart : 0 < start) (rank : ℕ) : ∀ s,
    self.Growing start s →
    s.server.thread.rank self.server.iotLogger.maxLogsPerMerge ≤ rank →
    ∃ k, ((self.uploads now today)^[k] s).server.queue.isFull ∨
      (self.Growing (start + 1) ((self.uploads now today)^[k] s) ∧
        ((self.uploads now today)^[k] s).server.thread = .top) := by
  induction rank with
  | zero =>
      intro s h hrank
      have hgrows := h.grows
      cases ht : s.server.thread with
      | raised e =>
          rw [ht] at hgrows
          exact hgrows.elim
      | _ => simp [ht, ThreadState.rank] at hrank
  | succ rank ih =>
      intro s h hrank
      rcases h.uploader hstart hlimit hlow hint hrecords now today with
        hfull | ⟨hs', hlower⟩ | hnext
      · exact ⟨1, Or.inl hfull⟩
      · obtain ⟨k, hk⟩ := ih _ hs' (by omega)
        exact ⟨k + 1, hk⟩
      · exact ⟨1, Or.inr hnext⟩

/-- The queue fills, or outgrows every bound. -/
theorem TeeingSystem.Growing.exceeds (more : ℕ) : ∀ {start : ℕ} {s : SystemState}, 0 < start →
    self.Growing start s → s.server.thread = .top →
    ∃ k, ((self.uploads now today)^[k] s).server.queue.isFull ∨
      (self.Growing (start + more) ((self.uploads now today)^[k] s) ∧
        ((self.uploads now today)^[k] s).server.thread = .top) := by
  induction more with
  | zero => exact fun _ h ht => ⟨0, Or.inr ⟨h, ht⟩⟩
  | succ more ih =>
      intro start s hstart h ht
      obtain ⟨k, hfull | ⟨hk, htop⟩⟩ :=
        h.iteration hlimit hlow hint hrecords now today hstart _ s le_rfl
      · exact ⟨k, Or.inl hfull⟩
      · obtain ⟨k', hk'⟩ := ih (Nat.succ_pos start) hk htop
        refine ⟨k' + k, ?_⟩
        rw [Function.iterate_add_apply, ← Nat.add_assoc, Nat.add_right_comm]
        exact hk'

end Grows

theorem TeeingSystem.run_uploads (self : TeeingSystem) (maxsize : ℤ)
    (actions : List (ℚ × SystemAction)) (now : ℚ) (today : UtcDate) (k : ℕ) :
    self.run maxsize (actions ++ List.replicate k (now, .uploader today)) =
      (self.uploads now today)^[k] (self.run maxsize actions) := by
  induction k with
  | zero => simp
  | succ k ih =>
      rw [List.replicate_succ', ← List.append_assoc, self.run_concat, ih,
        Function.iterate_succ_apply']
      rfl

/-- One record in a queue with room for it. -/
theorem TeeingSystem.growing_record (self : TeeingSystem) {maxsize : ℤ} (hmax : 0 < maxsize)
    (now : ℚ) (record : Str) : self.Growing 1 (self.run maxsize [(now, .tee now (some record))]) ∧
      (self.run maxsize [(now, .tee now (some record))]).server.thread = .top := by
  have hroom : ¬ (⟨maxsize, []⟩ : LogsQueue).isFull := fun hfull => not_le.2 hmax hfull.2
  have hqueue : (self.run maxsize [(now, .tee now (some record))]).server.queue =
      ⟨maxsize, [self.server.teeHandler.entry now record]⟩ := by
    show (self.toLoggingSystem.step (SystemState.start maxsize)
      (.tee now (some record))).server.queue = _
    simp [LoggingSystem.step, LogProxyServer.step, SystemState.start, ServerState.start,
      LogTeeHandler.emit, PyQueue.putNowait, hroom]
  have hthread : (self.run maxsize [(now, .tee now (some record))]).server.thread = .top := rfl
  refine ⟨⟨?_, ?_⟩, hthread⟩
  · rw [hqueue, List.forall_mem_singleton]
    rfl
  · rw [hthread, hqueue]
    exact ⟨by simp [Groups.empty], Nat.zero_le _, fun hne => absurd rfl hne, le_rfl⟩

theorem TeeingSystem.maxsize_run (self : TeeingSystem) (maxsize : ℤ)
    (actions : List (ℚ × SystemAction)) :
    (self.run maxsize actions).server.queue.maxsize = maxsize := by
  obtain ⟨all, hrun⟩ := self.run_refines maxsize actions
  obtain ⟨serverActions, hserver⟩ := self.toLoggingSystem.run_refines maxsize all
  rw [hrun, hserver]
  exact (self.server.fits_run maxsize serverActions).maxsize_eq

/-- **The server's own logs fill the queue iff the merge limit is below what one upload logs.** With
    the log group missing and no request at all, a single record logged for another reason is
    enough. -/
theorem TeeingSystem.own_logs_fill_iff (self : TeeingSystem)
    (hlevel : self.isEnabledFor .error = true)
    (hcredentials : ∀ calls call, self.credentialErrors calls call = [])
    (hmissing : MissingGroup self.client (self.server.iotLogger.logGroupName .log))
    (hint : 0 ≤ self.server.iotLogger.interval)
    (hpos : 0 < self.server.iotLogger.maxLogsPerMerge) (maxsize : ℤ)
    (hmax : self.uploadRecords 0 + 1 < maxsize) :
    (∃ actions, (∀ a ∈ actions, SystemAction.isRequest a.2 = false) ∧
      actions.countP (fun a => a.2.isTee) ≤ 1 ∧
      (self.run maxsize actions).server.queue.isFull) ↔
    self.server.iotLogger.maxLogsPerMerge < self.uploadRecords 0 := by
  constructor
  · rintro ⟨actions, hown, htees, hfull⟩
    by_contra hlimit
    have hle := (self.selfFed_run (not_lt.1 hlimit) (fun call w => self.upload_records_le call w
      (fun calls call => by rw [hcredentials]; rfl)) maxsize actions hown).length_le
    have hsize := self.maxsize_run maxsize actions
    rw [PyQueue.isFull, hsize] at hfull
    omega
  · intro hlow
    have hlimit : 0 < self.server.iotLogger.mergeLimit := by
      unfold AWSIoTLogger.mergeLimit
      omega
    have hless : self.server.iotLogger.mergeLimit < self.uploadRecords 0 := by
      unfold AWSIoTLogger.mergeLimit
      omega
    have hrecords : ∀ call w, call.logGroupName = self.server.iotLogger.logGroupName .log →
        (self.records w.calls (self.client.uploadCalls call w)).length = self.uploadRecords 0 :=
      fun call w hgroup => self.missing_records call w hcredentials hlevel (hgroup ▸ hmissing)
    obtain ⟨hstart, htop⟩ := self.growing_record (by omega : 0 < maxsize) 0 []
    obtain ⟨k, hk⟩ := hstart.exceeds hlimit hless hint hrecords 0 exampleDate maxsize.toNat
      Nat.one_pos htop
    rw [← self.run_uploads] at hk
    refine ⟨[(0, .tee 0 (some []))] ++ List.replicate k (0, .uploader exampleDate), ?_, ?_, ?_⟩
    · simp [SystemAction.isRequest]
    · simp [List.countP_replicate, SystemAction.isTee]
    rcases hk with hfull | hk
    · exact hfull
    · have hgrows := hk.1.grows
      rw [hk.2] at hgrows
      have hlength := hgrows.2.2.2
      rw [PyQueue.isFull, self.maxsize_run]
      omega

/-- A server in a service without any log group. -/
def exampleTeeingSystem (server : LogProxyServer) : TeeingSystem where
  server
  client := missingService
  level := .info
  format _ _ := "failed to create".toList
  credentialErrors _ _ := []

/-- A record and some iterations of an uploader with the default merge limit of 512. -/
def exampleOwnActions : List (ℚ × SystemAction) :=
  (7, .tee 7 (some "started".toList)) :: List.replicate 40 (7, .uploader exampleDate)

/-- An upload logs 119 errors. -/
theorem own_logs_le_example :
    ((exampleTeeingSystem exampleServer).run 8 exampleOwnActions).server.queue.items.length ≤
      120 :=
  (exampleTeeingSystem exampleServer).own_logs_le (fun _ _ => le_rfl) (by decide) 8
    exampleOwnActions (by decide)

/-- With a merge limit of one a queue of 4096 fills. -/
theorem own_logs_fill_iff_example :
    ∃ actions, (∀ a ∈ actions, SystemAction.isRequest a.2 = false) ∧
      actions.countP (fun a => a.2.isTee) ≤ 1 ∧
      ((exampleTeeingSystem slowServer).run 4096 actions).server.queue.isFull := by
  have hmissing := missingGroup_missingService (slowServer.iotLogger.logGroupName .log)
  rw [(exampleTeeingSystem slowServer).own_logs_fill_iff (by decide) (fun _ _ => rfl) hmissing
    (by decide) (by decide) 4096 (by decide)]
  decide

end IotLoggingServer
