import IotLoggingServer.Common
import IotLoggingServer.Utils
import Mathlib.Algebra.Order.BigOperators.Group.List
import Mathlib.Algebra.Group.Action.Defs

set_option autoImplicit false

/-! # Uploading one batch (`aws_iot_logger.py`)

`_create_log_stream` and `put_log_events`, each under its `retry` decorator, against a client that
may answer every call as it likes. The state is what the outside sees: the calls made on the client,
each with its answer, and the sleeps. The result of this file is the shape of every trace of
`put_log_events` (`putLogEvents_protocol`): rounds of one put and, after each put the service
answered with ResourceNotFoundException, some creates, with the answers of the client throughout
(`AwsClient.Gives`). -/

namespace IotLoggingServer

/-! ## The AWS client -/

/-- A call on the boto3 client. -/
inductive ClientCall
  | putLogEvents (request : LogEvent)
  | createLogStream (logGroupName logStreamName : Str)
  deriving DecidableEq, Repr

/-- How a call on the client ends: it returns, or it raises. -/
abbrev Answer := Except PyExc Unit

/-- The client: its answer may depend on every call made before. -/
abbrev AwsClient := List (ClientCall × Answer) → ClientCall → Answer

/-- What the uploader did to the outside so far. -/
structure World where
  calls : List (ClientCall × Answer)
  sleeps : List Num

/-- Make a call on the client. -/
def AwsClient.call (client : AwsClient) (c : ClientCall) (w : World) : Answer × World :=
  (client w.calls c, { w with calls := w.calls ++ [(c, client w.calls c)] })

/-- `time.sleep`. -/
def timeSleep (t : Num) : Call World PyExc Unit := fun w =>
  match sleepError t with
  | some e => some (.error e, w)
  | none => some (.ok (), { w with sleeps := w.sleeps ++ [t] })

/-! ## `_create_log_stream` and `put_log_events` -/

/-- The decorator of `_create_log_stream`. -/
def createRetryArgs : RetryArgs := { maxRetry := 16, backoffFactor := .int 2, backoffMax := 32 }

/-- The decorator of `put_log_events`. -/
def putRetryArgs : RetryArgs := { backoffFactor := .int 2 }

/-- `_create_log_stream` without its decorator. -/
def createLogStreamBody (client : AwsClient) (logGroupName logStreamName : Str) :
    Call World PyExc Unit := fun w =>
  match client.call (.createLogStream logGroupName logStreamName) w with
  | (.ok _, w) => some (.ok (), w)
  | (.error .resourceAlreadyExists, w) => some (.ok (), w)
  -- a `ValueError` caused by awscrt is replaced by its cause
  | (.error (.valueError _ (some (.awsCrtError err))), w) => some (.error (.awsCrtError err), w)
  | (.error e, w) => some (.error e, w)

def createLogStream (client : AwsClient) (logGroupName logStreamName : Str) :
    Call World PyExc Unit :=
  retry createRetryArgs timeSleep 17 (createLogStreamBody client logGroupName logStreamName)

/-- `put_log_events` without its decorator. -/
def putLogEventsBody (client : AwsClient) (logGroupName logStreamName : Str)
    (messageList : List LogMessage) : Call World PyExc Unit := fun w =>
  match client.call (.putLogEvents ⟨logGroupName, logStreamName, messageList⟩) w with
  | (.ok _, w) => some (.ok (), w)
  | (.error .resourceNotFound, w) =>
    match createLogStream client logGroupName logStreamName w with
    | none => none
    | some (.ok _, w) => some (.error .resourceNotFound, w)
    -- what the handler itself raises takes the place of the handled exception
    | some (.error e, w) => some (.error e, w)
  -- any other exception is logged and dropped
  | (.error _, w) => some (.ok (), w)

def putLogEvents (client : AwsClient) (logGroupName logStreamName : Str)
    (messageList : List LogMessage) : Call World PyExc Unit :=
  retry putRetryArgs timeSleep 7
    (putLogEventsBody client logGroupName logStreamName messageList)

/-! ## Pauses -/

/-- Neither decorator ever fails to pause, and a pause makes no call. -/
theorem pause_spec {args : RetryArgs} {n : ℤ} (hfactor : args.backoffFactor = .int n) (hn : 0 ≤ n)
    (hmax : 0 ≤ args.backoffMax) (count : ℕ) (w : World) :
    ∃ w', args.pause timeSleep count w = some (.ok (), w') ∧ w'.calls = w.calls := by
  obtain ⟨t, ht, hpos⟩ := RetryArgs.sleepTime_int hfactor hn hmax count
  refine ⟨{ w with sleeps := w.sleeps ++ [t] }, ?_, rfl⟩
  simp only [RetryArgs.pause, ht, timeSleep, sleepError, if_neg (not_lt.2 hpos)]

theorem pause_ok {args : RetryArgs} {n : ℤ} (hfactor : args.backoffFactor = .int n) (hn : 0 ≤ n)
    (hmax : 0 ≤ args.backoffMax) (count : ℕ) (w : World) (r : Answer) (w' : World)
    (h : args.pause timeSleep count w = some (r, w')) : r.isOk = true ∧ w'.calls = w.calls := by
  obtain ⟨w'', hw, hcalls⟩ := pause_spec hfactor hn hmax count w
  rw [hw] at h
  cases h
  exact ⟨rfl, hcalls⟩

/-- **A bounded retry with an integer backoff**: whenever an attempt always returns, so does the
    decorated function, and its calls are those of at most `m + 1` attempts. -/
theorem retry_bounded (args : RetryArgs) (m : ℕ) {n : ℤ}
    (hfactor : args.backoffFactor = .int n) (hn : 0 ≤ n) (hmax : 0 ≤ args.backoffMax)
    (hm : args.maxRetry = m) (hpos : 0 < m)
    (hall : args.retryOnExceptions = fun _ => true)
    {func : Call World PyExc Unit} (hfunc : ∀ w, (func w).isSome)
    {τ : Type} {emit : τ → List (ClientCall × Answer)} {Good : τ → Answer → Prop}
    (hspec : ∀ w r w', func w = some (r, w') → ∃ t, Good t r ∧ w'.calls = w.calls ++ emit t)
    (w : World) :
    ∃ r w' ts t, retry args timeSleep (m + 1) func w = some (r, w') ∧
      w'.calls = w.calls ++ (ts ++ [t]).flatMap emit ∧ ts.length ≤ m ∧ Good t r ∧
      (∀ t' ∈ ts, ∃ e, Good t' (.error e)) ∧ (ts.length < m → r = .ok ()) := by
  have hsleep : ∀ count w, (args.pause timeSleep count w).isSome := fun count w => by
    obtain ⟨w', hw, _⟩ := pause_spec hfactor hn hmax count w
    simp [hw]
  obtain ⟨r, w', hr⟩ := retryLoop_returns hfunc hsleep (args.again_maxRetry hm hpos) (m + 1) 0 w
    (Nat.zero_le m) (by omega)
  obtain ⟨ts, t, hcalls, hgood, hts, hlast⟩ :=
    (retryLoop_sound (m + 1) 0 w w' r hr).attempts hspec (pause_ok hfactor hn hmax)
  have hlt : ∀ i < ts.length, i < m := fun i hi => by
    obtain ⟨e, _, he⟩ := hts i hi
    rw [args.again_iff hm hpos hall] at he
    omega
  refine ⟨r, w', ts, t, hr, hcalls, ?_, hgood, ?_, ?_⟩
  · by_contra hgt
    exact absurd (hlt m (by omega)) (lt_irrefl m)
  · intro t' ht'
    obtain ⟨i, hi, rfl⟩ := List.getElem_of_mem ht'
    obtain ⟨e, hge, _⟩ := hts i hi
    exact ⟨e, hge⟩
  · intro hlen
    cases r with
    | ok u => rfl
    | error e =>
        have hagain := (args.again_iff hm hpos hall (0 + ts.length) e).2 (by omega)
        rw [hlast e rfl] at hagain
        cases hagain

/-! ## Creating the log stream -/

/-- The stream is known to exist after this answer to a create. -/
def streamExists (answer : Answer) : Bool :=
  answer == .ok () || answer == .error .resourceAlreadyExists

/-- The creates of one call of `_create_log_stream`, by their answers: they stop at the first that
    leaves the stream existing, or after 17. -/
structure CreateAttempts (answers : List Answer) : Prop where
  ne_nil : answers ≠ []
  length_le : answers.length ≤ 17
  dropLast : ∀ a ∈ answers.dropLast, streamExists a = false
  getLast : answers.length < 17 → ∀ a ∈ answers.getLast?, streamExists a = true

/-- Undecorated, `_create_log_stream` makes one create, and returns iff the stream then exists. -/
theorem createLogStreamBody_spec (client : AwsClient) (g s : Str) (w : World) :
    ∃ r w', createLogStreamBody client g s w = some (r, w') ∧
      w'.calls = w.calls ++ [(.createLogStream g s, client w.calls (.createLogStream g s))] ∧
      (r = .ok () ↔ streamExists (client w.calls (.createLogStream g s)) = true) := by
  simp only [createLogStreamBody, AwsClient.call]
  generalize client w.calls (.createLogStream g s) = a
  rcases a with e | _
  · cases e with
    | resourceAlreadyExists => exact ⟨_, _, rfl, rfl, by simp [streamExists]⟩
    | valueError msg cause =>
        rcases cause with _ | ⟨_ | _⟩ <;> exact ⟨_, _, rfl, rfl, by simp [streamExists]⟩
    | _ => exact ⟨_, _, rfl, rfl, by simp [streamExists]⟩
  · exact ⟨_, _, rfl, rfl, by simp [streamExists]⟩

/-- **`_create_log_stream` returns**, after 1 to 17 creates of that stream, normally iff the last of
    them left the stream existing. -/
theorem createLogStream_spec (client : AwsClient) (g s : Str) (w : World) :
    ∃ r w' answers, createLogStream client g s w = some (r, w') ∧
      w'.calls = w.calls ++ answers.map (fun a => (.createLogStream g s, a)) ∧
      CreateAttempts answers := by
  have hspec : ∀ w r w', createLogStreamBody client g s w = some (r, w') →
      ∃ a, (r = .ok () ↔ streamExists a = true) ∧
        w'.calls = w.calls ++ [(ClientCall.createLogStream g s, a)] := by
    intro w r w' h
    obtain ⟨r₀, w₀, hbody, hcalls, hr⟩ := createLogStreamBody_spec client g s w
    rw [hbody] at h
    cases h
    exact ⟨_, hr, hcalls⟩
  have hfunc : ∀ w, (createLogStreamBody client g s w).isSome := fun w => by
    obtain ⟨r₀, w₀, hbody, _⟩ := createLogStreamBody_spec client g s w
    simp [hbody]
  obtain ⟨r, w', as, a, hrun, hcalls, hlen, hgood, has, hstop⟩ :=
    retry_bounded createRetryArgs 16 rfl (by decide) (by decide) rfl (by decide) rfl hfunc hspec w
  refine ⟨r, w', as ++ [a], hrun, by rw [hcalls, List.map_eq_flatMap], ?_⟩
  have hlen' : (as ++ [a]).length ≤ 17 := by
    rw [List.length_append, List.length_singleton]
    omega
  refine ⟨by simp, hlen', ?_, ?_⟩
  · intro a' ha'
    rw [List.dropLast_concat] at ha'
    obtain ⟨e, he⟩ := has a' ha'
    simpa using he
  · intro hlt a' ha'
    simp only [List.getLast?_append, List.getLast?_singleton, Option.some_or, Option.mem_def,
      Option.some.injEq] at ha'
    subst ha'
    rw [List.length_append, List.length_singleton] at hlt
    exact hgood.1 (hstop (by omega))

/-! ## The protocol of `put_log_events` -/

/-- The service answered that the stream does not exist. -/
abbrev Answer.notFound (a : Answer) : Prop := a = .error .resourceNotFound

/-- One attempt of `put_log_events`: the answer to its put, and those to the creates it made. -/
structure Round where
  put : Answer
  creates : List Answer

/-- The calls of a round for `request`. -/
def Round.calls (request : LogEvent) (rd : Round) : List (ClientCall × Answer) :=
  (.putLogEvents request, rd.put) ::
    rd.creates.map (fun a => (.createLogStream request.logGroupName request.logStreamName, a))

/-- The stream is created after a put that did not find it, and only then. -/
def Round.WellFormed (rd : Round) : Prop :=
  if rd.put.notFound then CreateAttempts rd.creates else rd.creates = []

/-- Undecorated, `put_log_events` makes one round, and raises iff its put did not find the
    stream. -/
theorem putLogEventsBody_spec (client : AwsClient) (g s : Str) (msgs : List LogMessage)
    (w : World) :
    ∃ r w' rd, putLogEventsBody client g s msgs w = some (r, w') ∧
      w'.calls = w.calls ++ Round.calls ⟨g, s, msgs⟩ rd ∧ rd.WellFormed ∧
      (r = .ok () ↔ ¬ rd.put.notFound) := by
  simp only [putLogEventsBody, AwsClient.call]
  generalize client w.calls (.putLogEvents ⟨g, s, msgs⟩) = a
  have hplain : ∀ a : Answer, ¬ a.notFound → Round.WellFormed ⟨a, []⟩ := fun a ha => by
    simp [Round.WellFormed, ha]
  rcases a with e | _
  · cases e with
    | resourceNotFound =>
        obtain ⟨r, w', answers, hrun, hcalls, hanswers⟩ :=
          createLogStream_spec client g s
            { w with calls := w.calls ++ [(.putLogEvents ⟨g, s, msgs⟩, .error .resourceNotFound)] }
        have hwf : Round.WellFormed ⟨.error .resourceNotFound, answers⟩ := by
          simpa [Round.WellFormed] using hanswers
        rcases r with e | _
        · exact ⟨.error e, w', ⟨_, answers⟩, by simp only [hrun], by simp [hcalls, Round.calls],
            hwf, by simp⟩
        · exact ⟨.error .resourceNotFound, w', ⟨_, answers⟩, by simp only [hrun],
            by simp [hcalls, Round.calls], hwf, by simp⟩
    | _ => exact ⟨_, _, ⟨_, []⟩, rfl, rfl, hplain _ (by simp), by simp⟩
  · exact ⟨_, _, ⟨_, []⟩, rfl, rfl, hplain _ (by simp), by simp⟩

/-- Where the put finds its stream, `put_log_events` is that single put. -/
theorem putLogEvents_found (client : AwsClient) (g s : Str) (msgs : List LogMessage) (w : World)
    (h : client w.calls (.putLogEvents ⟨g, s, msgs⟩) ≠ .error .resourceNotFound) :
    putLogEvents client g s msgs w
      = some (.ok (), { w with calls := w.calls ++
          [(.putLogEvents ⟨g, s, msgs⟩, client w.calls (.putLogEvents ⟨g, s, msgs⟩))] }) := by
  have hbody : putLogEventsBody client g s msgs w
      = some (.ok (), { w with calls := w.calls ++
          [(.putLogEvents ⟨g, s, msgs⟩, client w.calls (.putLogEvents ⟨g, s, msgs⟩))] }) := by
    simp only [putLogEventsBody, AwsClient.call]
    generalize client w.calls (.putLogEvents ⟨g, s, msgs⟩) = a at h
    rcases a with e | _
    · cases e with
      | resourceNotFound => exact absurd rfl h
      | _ => rfl
    · rfl
  simp only [putLogEvents, retry, retryLoop, hbody]

/-- What a run of `put_log_events` for `request` may look like, round by round. -/
structure PutProtocol (request : LogEvent) (r : Answer) (w w' : World) (rounds : List Round) :
    Prop where
  /-- every put carries the same request, every create the same group and stream -/
  calls : w'.calls = w.calls ++ rounds.flatMap (Round.calls request)
  ne_nil : rounds ≠ []
  length_le : rounds.length ≤ 7
  /-- a further put follows only a put that did not find the stream -/
  dropLast : ∀ rd ∈ rounds.dropLast, rd.put.notFound
  /-- and follows every such put while fewer than 7 puts were made -/
  getLast : rounds.length < 7 → ∀ rd ∈ rounds.getLast?, ¬ rd.put.notFound
  creates : ∀ rd ∈ rounds, rd.WellFormed
  returns : r = .ok () ↔ ∀ rd ∈ rounds.getLast?, ¬ rd.put.notFound

theorem putLogEvents_spec (client : AwsClient) (g s : Str) (msgs : List LogMessage) (w : World) :
    ∃ r w' rounds, putLogEvents client g s msgs w = some (r, w') ∧
      PutProtocol ⟨g, s, msgs⟩ r w w' rounds := by
  have hspec : ∀ w r w', putLogEventsBody client g s msgs w = some (r, w') →
      ∃ rd : Round, (rd.WellFormed ∧ (r = .ok () ↔ ¬ rd.put.notFound)) ∧
        w'.calls = w.calls ++ Round.calls ⟨g, s, msgs⟩ rd := by
    intro w r w' h
    obtain ⟨r₀, w₀, rd, hbody, hcalls, hwf, hr⟩ := putLogEventsBody_spec client g s msgs w
    rw [hbody] at h
    cases h
    exact ⟨rd, ⟨hwf, hr⟩, hcalls⟩
  have hfunc : ∀ w, (putLogEventsBody client g s msgs w).isSome := fun w => by
    obtain ⟨r₀, w₀, rd, hbody, _⟩ := putLogEventsBody_spec client g s msgs w
    simp [hbody]
  obtain ⟨r, w', rds, rd, hrun, hcalls, hlen, hgood, hrds, hstop⟩ :=
    retry_bounded putRetryArgs 6 rfl (by decide) (by decide) rfl (by decide) rfl hfunc hspec w
  have hlast : ∀ rd', rd' ∈ (rds ++ [rd]).getLast? → rd' = rd := fun rd' h => by
    simpa using h.symm
  have hlen' : (rds ++ [rd]).length ≤ 7 := by
    rw [List.length_append, List.length_singleton]
    omega
  refine ⟨r, w', rds ++ [rd], hrun, hcalls, by simp, hlen', ?_, ?_, ?_, ?_⟩
  · intro rd' h
    rw [List.dropLast_concat] at h
    obtain ⟨e, _, he⟩ := hrds rd' h
    simpa using he
  · intro hlt rd' h
    rw [List.length_append, List.length_singleton] at hlt
    rw [hlast rd' h]
    exact hgood.2.1 (hstop (by omega))
  · intro rd' h
    rcases List.mem_append.1 h with h | h
    · obtain ⟨e, hwf, _⟩ := hrds rd' h
      exact hwf
    · rw [List.mem_singleton.1 h]
      exact hgood.1
  · rw [hgood.2]
    constructor
    · intro h rd' hrd'
      rw [hlast rd' hrd']
      exact h
    · intro h
      exact h rd (by simp)

/-! ## Traces -/

/-- After `calls`, the client is called and answers as in the list. -/
def AwsClient.Gives (client : AwsClient) :
    List (ClientCall × Answer) → List (ClientCall × Answer) → Prop
  | _, [] => True
  | calls, (call, answer) :: rest =>
    client calls call = answer ∧ client.Gives (calls ++ [(call, answer)]) rest

theorem AwsClient.gives_append {client : AwsClient} {calls xs ys : List (ClientCall × Answer)} :
    client.Gives calls (xs ++ ys) ↔ client.Gives calls xs ∧ client.Gives (calls ++ xs) ys := by
  induction xs generalizing calls with
  | nil => simp [AwsClient.Gives]
  | cons x xs ih =>
      obtain ⟨call, answer⟩ := x
      simp only [List.cons_append, AwsClient.Gives, ih, and_assoc, List.append_assoc,
        List.nil_append]

/-- The calls made between two worlds, with the answers of the client. -/
def AwsClient.Traces (client : AwsClient) (w w' : World) : Prop :=
  ∃ more, w'.calls = w.calls ++ more ∧ client.Gives w.calls more

theorem AwsClient.Traces.trans {client : AwsClient} {w w₁ w₂ : World} (h : client.Traces w w₁)
    (h' : client.Traces w₁ w₂) : client.Traces w w₂ := by
  obtain ⟨more, hcalls, hgives⟩ := h
  obtain ⟨more', hcalls', hgives'⟩ := h'
  refine ⟨more ++ more', by rw [hcalls', hcalls, List.append_assoc], ?_⟩
  rw [AwsClient.gives_append]
  exact ⟨hgives, by rwa [← hcalls]⟩

theorem AwsClient.traces_call (client : AwsClient) (call : ClientCall) (w : World) :
    client.Traces w (client.call call w).2 :=
  ⟨[(call, client w.calls call)], rfl, rfl, trivial⟩

theorem AwsClient.traces_pause {client : AwsClient} {args : RetryArgs} {n : ℤ}
    (hfactor : args.backoffFactor = .int n) (hn : 0 ≤ n) (hmax : 0 ≤ args.backoffMax) (count : ℕ)
    (w : World) (r : Answer) (w' : World) (h : args.pause timeSleep count w = some (r, w')) :
    client.Traces w w' :=
  ⟨[], by rw [(pause_ok hfactor hn hmax count w r w' h).2, List.append_nil], trivial⟩

theorem AwsClient.traces_createLogStreamBody {client : AwsClient} {g s : Str} {w w' : World}
    {r : Answer} (h : createLogStreamBody client g s w = some (r, w')) : client.Traces w w' := by
  obtain ⟨r₀, w₀, hbody, hcalls, -⟩ := createLogStreamBody_spec client g s w
  rw [hbody] at h
  cases h
  exact ⟨_, hcalls, rfl, trivial⟩

theorem AwsClient.traces_createLogStream {client : AwsClient} {g s : Str} {w w' : World}
    {r : Answer} (h : createLogStream client g s w = some (r, w')) : client.Traces w w' := by
  have hpause := @AwsClient.traces_pause client createRetryArgs 2 rfl (by decide) (by decide)
  exact @RetryRun.relates _ _ _ _ _ _ client.Traces (fun _ _ _ => AwsClient.Traces.trans)
    (fun _ _ _ => AwsClient.traces_createLogStreamBody) hpause _ _ _ _ (retryLoop_sound _ _ _ _ _ h)

theorem AwsClient.traces_putLogEventsBody {client : AwsClient} {g s : Str}
    {msgs : List LogMessage} {w w' : World} {r : Answer}
    (h : putLogEventsBody client g s msgs w = some (r, w')) : client.Traces w w' := by
  have hput := client.traces_call (.putLogEvents ⟨g, s, msgs⟩) w
  unfold putLogEventsBody at h
  split at h
  · next heq =>
      cases h
      rwa [heq] at hput
  · next heq =>
      rw [heq] at hput
      split at h
      · cases h
      · next hcreate =>
          cases h
          exact hput.trans (AwsClient.traces_createLogStream hcreate)
      · next hcreate =>
          cases h
          exact hput.trans (AwsClient.traces_createLogStream hcreate)
  · next heq =>
      cases h
      rwa [heq] at hput

theorem AwsClient.traces_putLogEvents {client : AwsClient} {g s : Str} {msgs : List LogMessage}
    {w w' : World} {r : Answer} (h : putLogEvents client g s msgs w = some (r, w')) :
    client.Traces w w' := by
  have hpause := @AwsClient.traces_pause client putRetryArgs 2 rfl (by decide) (by decide)
  exact @RetryRun.relates _ _ _ _ _ _ client.Traces (fun _ _ _ => AwsClient.Traces.trans)
    (fun _ _ _ => AwsClient.traces_putLogEventsBody) hpause _ _ _ _ (retryLoop_sound _ _ _ _ _ h)

/-- **The answers in the rounds of `put_log_events` are the client's.** -/
theorem PutProtocol.gives {client : AwsClient} {request : LogEvent} {r : Answer} {w w' : World}
    {rounds : List Round} (h : PutProtocol request r w w' rounds) (htraces : client.Traces w w') :
    client.Gives w.calls (rounds.flatMap (Round.calls request)) := by
  obtain ⟨more, hcalls, hgives⟩ := htraces
  rw [h.calls] at hcalls
  rwa [List.append_cancel_left hcalls]

section Bounds

variable {request : LogEvent} {r : Answer} {w w' : World} {rounds : List Round}

/-- At most one put succeeds: only the last one can. -/
theorem PutProtocol.ok_le_one (h : PutProtocol request r w w' rounds) :
    (rounds.filter (fun rd => rd.put = .ok ())).length ≤ 1 := by
  have hsplit : rounds = rounds.dropLast ++ [rounds.getLast h.ne_nil] :=
    (List.dropLast_append_getLast h.ne_nil).symm
  have hnone : rounds.dropLast.filter (fun rd => rd.put = .ok ()) = [] := by
    rw [List.filter_eq_nil_iff]
    intro rd hrd hok
    have hfound := h.dropLast rd hrd
    rw [Answer.notFound, of_decide_eq_true hok] at hfound
    cases hfound
  rw [hsplit, List.filter_append, hnone, List.nil_append]
  exact List.length_filter_le _ _

/-- A round makes at most 17 creates. -/
theorem Round.WellFormed.creates_le {rd : Round} (h : rd.WellFormed) : rd.creates.length ≤ 17 := by
  unfold Round.WellFormed at h
  split at h
  · exact h.length_le
  · simp [h]

/-- At most 7 · 17 creates are made in all. -/
theorem PutProtocol.creates_le (h : PutProtocol request r w w' rounds) :
    (rounds.map (fun rd => rd.creates.length)).sum ≤ 119 := by
  have hle : ∀ n ∈ rounds.map (fun rd => rd.creates.length), n ≤ 17 := by
    intro n hn
    obtain ⟨rd, hrd, rfl⟩ := List.mem_map.1 hn
    exact (h.creates rd hrd).creates_le
  have hsum := List.sum_le_card_nsmul _ 17 hle
  rw [List.length_map, smul_eq_mul] at hsum
  have hlen := h.length_le
  omega

end Bounds

/-- **Upload of a batch follows a bounded protocol, whatever the client answers.**
    `put_log_events` returns; its calls are 1 to 7 rounds of one put and, after each put that did
    not find the stream, 1 to 17 creates, each with the answer the client gives to it; at most one
    put succeeds. -/
theorem putLogEvents_protocol (client : AwsClient) (logGroupName logStreamName : Str)
    (messageList : List LogMessage) (w : World) :
    ∃ r w' rounds,
      putLogEvents client logGroupName logStreamName messageList w = some (r, w') ∧
      PutProtocol ⟨logGroupName, logStreamName, messageList⟩ r w w' rounds ∧
      client.Gives w.calls
        (rounds.flatMap (Round.calls ⟨logGroupName, logStreamName, messageList⟩)) ∧
      (rounds.filter (fun rd => rd.put = .ok ())).length ≤ 1 ∧
      (rounds.map (fun rd => rd.creates.length)).sum ≤ 119 := by
  obtain ⟨r, w', rounds, hrun, hproto⟩ :=
    putLogEvents_spec client logGroupName logStreamName messageList w
  have hgives := hproto.gives (AwsClient.traces_putLogEvents hrun)
  exact ⟨r, w', rounds, hrun, hproto, hgives, hproto.ok_le_one, hproto.creates_le⟩

end IotLoggingServer
