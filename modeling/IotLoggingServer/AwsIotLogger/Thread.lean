import IotLoggingServer.AwsIotLogger.Upload
import IotLoggingServer.Configs
import IotLoggingServer.Lib.Groups
import IotLoggingServer.SessionConfig

set_option autoImplicit false

/-! # The uploader thread (`AWSIoTLogger.thread_main`)

The thread is a state machine with one step for each thing the rest of the server can see it do:
take one entry from the queue, hand one merged batch to `put_log_events`, sleep. Whatever runs
beside it may put entries in the queue between two steps. -/

namespace IotLoggingServer

/-- `AWSIoTLogger.MAX_LOGS_PER_PUT`. -/
def maxLogsPerPut : ℤ := 10000

/-- Compose the LogStream name; `today` is the current UTC date as `%Y/%m/%d`. -/
def getLogStreamName (today thingName logStreamSuffix : Str) : Str :=
  today ++ "/".toList ++ thingName ++ "/".toList ++ logStreamSuffix

structure AWSIoTLogger where
  sessionConfig : IoTSessionConfig
  interval : ℤ
  maxLogsPerMerge : ℤ

def AWSIoTLogger.init (sessionConfig : IoTSessionConfig) (maxLogsPerMerge interval : ℤ) :
    AWSIoTLogger where
  sessionConfig := sessionConfig
  interval := interval
  maxLogsPerMerge := min maxLogsPerMerge maxLogsPerPut

/-- The logger `start_aws_iot_logger_thread` starts, given what `parse_config` returned. -/
def startAwsIotLoggerThread (sessionConfig : IoTSessionConfig)
    (serverCfg : ConfigurableLoggingServerConfig) : AWSIoTLogger :=
  AWSIoTLogger.init sessionConfig serverCfg.maxLogsPerMerge serverCfg.uploadInterval

/-- Where the thread is in `thread_main`, with the local variables that matter there. -/
inductive ThreadState
  /-- at the test of the merge loop -/
  | merging (mergeCount : ℕ) (messageDict : Groups Source LogMessage)
  /-- in the upload loop, with these items of the dictionary still to come -/
  | uploading (items : List (Source × List LogMessage))
  /-- about to sleep -/
  | sleeping
  /-- the thread is gone -/
  | raised (e : PyExc)

/-- The top of the main loop. -/
def ThreadState.top : ThreadState := .merging 0 Groups.empty

/-- A call of `put_log_events` by the thread, with the source of the batch. -/
structure PutCall where
  source : Source
  logGroupName : Str
  logStreamName : Str
  logs : List LogMessage
  deriving DecidableEq, Repr

/-- What a step of the thread does to the rest of the server. -/
inductive ThreadEvent
  | got (entry : LogEntry)
  | put (call : PutCall)
  /-- the upload loop is over -/
  | uploaded
  deriving DecidableEq, Repr

/-- The log group of a source. -/
def AWSIoTLogger.logGroupName (self : AWSIoTLogger) (logGroupType : LogGroupType) : Str :=
  if logGroupType = .metrics then self.sessionConfig.awsCloudwatchOtaclientMetricsLogGroup
  else self.sessionConfig.awsCloudwatchOtaclientLogsLogGroup

/-- The call a batch is handed over with. -/
def AWSIoTLogger.putCall (self : AWSIoTLogger) (today : Str) (batch : Source × List LogMessage) :
    PutCall where
  source := batch.1
  logGroupName := self.logGroupName batch.1.1
  logStreamName := getLogStreamName today self.sessionConfig.thingName batch.1.2
  logs := batch.2

/-- One step of `thread_main`; `outcome` is how a call of `put_log_events` ends. -/
def AWSIoTLogger.step (self : AWSIoTLogger) (today : Str) (outcome : PutCall → Answer)
    (q : LogsQueue) : ThreadState → ThreadState × LogsQueue × Option ThreadEvent
  | .merging mergeCount messageDict =>
    if (mergeCount : ℤ) < self.maxLogsPerMerge then
      match q.getNowait with
      | some (entry, q') =>
        (.merging (mergeCount + 1) (messageDict.append entry.source entry.message), q',
          some (.got entry))
      | none => (.uploading messageDict.items, q, none)
    else (.uploading messageDict.items, q, none)
  | .uploading [] => (.sleeping, q, some .uploaded)
  | .uploading (batch :: rest) =>
    match outcome (self.putCall today batch) with
    | .ok _ => (.uploading rest, q, some (.put (self.putCall today batch)))
    -- don't let the exception break the main loop
    | .error _ => (.uploading rest, q, some (.put (self.putCall today batch)))
  | .sleeping =>
    match sleepError (.int self.interval) with
    | some e => (.raised e, q, none)
    | none => (.top, q, none)
  | .raised e => (.raised e, q, none)

/-! ## What a step does -/

section Step

variable (self : AWSIoTLogger) (today : Str) (outcome : PutCall → Answer) (q : LogsQueue)

theorem AWSIoTLogger.step_get {n : ℕ} {d : Groups Source LogMessage} {e : LogEntry}
    {rest : List LogEntry} (hn : (n : ℤ) < self.maxLogsPerMerge) (hq : q.items = e :: rest) :
    self.step today outcome q (.merging n d)
      = (.merging (n + 1) (d.append e.source e.message), { q with items := rest },
          some (.got e)) := by
  simp only [AWSIoTLogger.step, if_pos hn, PyQueue.getNowait, hq]

/-- The merge loop ends at the limit, or when the queue is found empty. -/
theorem AWSIoTLogger.step_merged {n : ℕ} {d : Groups Source LogMessage}
    (h : self.maxLogsPerMerge ≤ n ∨ q.items = []) :
    self.step today outcome q (.merging n d) = (.uploading d.items, q, none) := by
  simp only [AWSIoTLogger.step]
  split
  · next hn =>
      have hq : q.items = [] := h.resolve_left (by omega)
      simp [PyQueue.getNowait, hq]
  · rfl

/-- Handing over a batch goes the same way however the call ends. -/
@[simp] theorem AWSIoTLogger.step_put (b : Source × List LogMessage)
    (rest : List (Source × List LogMessage)) :
    self.step today outcome q (.uploading (b :: rest))
      = (.uploading rest, q, some (.put (self.putCall today b))) := by
  simp only [AWSIoTLogger.step]
  split <;> rfl

@[simp] theorem AWSIoTLogger.step_uploaded :
    self.step today outcome q (.uploading []) = (.sleeping, q, some .uploaded) := rfl

theorem AWSIoTLogger.step_sleep (h : 0 ≤ self.interval) :
    self.step today outcome q .sleeping = (.top, q, none) := by
  have hval : ¬ (Num.int self.interval).val < 0 := by
    simpa [Num.val] using h
  simp only [AWSIoTLogger.step, sleepError, if_neg hval]

theorem AWSIoTLogger.step_sleep_raises (h : self.interval < 0) :
    ∃ e, self.step today outcome q .sleeping = (.raised e, q, none) := by
  have hval : (Num.int self.interval).val < 0 := by
    simpa [Num.val] using h
  refine ⟨.valueError "sleep length must be non-negative".toList none, ?_⟩
  simp only [AWSIoTLogger.step, sleepError, if_pos hval]

@[simp] theorem AWSIoTLogger.step_raised (e : PyExc) :
    self.step today outcome q (.raised e) = (.raised e, q, none) := rfl

/-- **All a step can do**: take the head of the queue, stop merging, hand over one batch, stop
    uploading, sleep, or (once the sleep raised) nothing. -/
theorem AWSIoTLogger.step_cases (t : ThreadState) :
    (∃ n d e rest, t = .merging n d ∧ (n : ℤ) < self.maxLogsPerMerge ∧ q.items = e :: rest ∧
      self.step today outcome q t = (.merging (n + 1) (d.append e.source e.message),
        { q with items := rest }, some (.got e))) ∨
    (∃ n d, t = .merging n d ∧ (self.maxLogsPerMerge ≤ n ∨ q.items = []) ∧
      self.step today outcome q t = (.uploading d.items, q, none)) ∨
    (∃ b rest, t = .uploading (b :: rest) ∧
      self.step today outcome q t = (.uploading rest, q, some (.put (self.putCall today b)))) ∨
    (t = .uploading [] ∧ self.step today outcome q t = (.sleeping, q, some .uploaded)) ∨
    (t = .sleeping ∧ 0 ≤ self.interval ∧ self.step today outcome q t = (.top, q, none)) ∨
    (∃ e, (t = .raised e ∨ t = .sleeping ∧ self.interval < 0) ∧
      self.step today outcome q t = (.raised e, q, none)) := by
  cases t with
  | merging n d =>
      by_cases hn : (n : ℤ) < self.maxLogsPerMerge
      · cases hq : q.items with
        | nil =>
            exact Or.inr (Or.inl ⟨n, d, rfl, Or.inr rfl, self.step_merged _ _ _ (Or.inr hq)⟩)
        | cons e rest =>
            exact Or.inl ⟨n, d, e, rest, rfl, hn, rfl, self.step_get _ _ _ hn hq⟩
      · exact Or.inr (Or.inl ⟨n, d, rfl, Or.inl (not_lt.1 hn),
          self.step_merged _ _ _ (Or.inl (not_lt.1 hn))⟩)
  | uploading items =>
      cases items with
      | nil => exact Or.inr (Or.inr (Or.inr (Or.inl ⟨rfl, rfl⟩)))
      | cons b rest =>
          exact Or.inr (Or.inr (Or.inl ⟨b, rest, rfl, self.step_put _ _ _ b rest⟩))
  | sleeping =>
      by_cases hint : 0 ≤ self.interval
      · exact Or.inr (Or.inr (Or.inr (Or.inr (Or.inl ⟨rfl, hint, self.step_sleep _ _ _ hint⟩))))
      · obtain ⟨e, he⟩ := self.step_sleep_raises today outcome q (not_le.1 hint)
        exact Or.inr (Or.inr (Or.inr (Or.inr (Or.inr
          ⟨e, Or.inr ⟨rfl, not_le.1 hint⟩, he⟩))))
  | raised e => exact Or.inr (Or.inr (Or.inr (Or.inr (Or.inr ⟨e, Or.inl rfl, rfl⟩))))

end Step

/-! ## What an iteration merges -/

/-- The batches an iteration that takes `entries` makes of them. -/
def merge (entries : List LogEntry) : Groups Source LogMessage :=
  Groups.ofList (entries.map LogEntry.keyed)

theorem merge_append (entries : List LogEntry) (e : LogEntry) :
    merge (entries ++ [e]) = (merge entries).append e.source e.message := by
  rw [merge, List.map_append, List.map_singleton, Groups.ofList_concat]
  rfl

end IotLoggingServer
