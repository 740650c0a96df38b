import IotLoggingServer.ProtoWrapper.Wrapper
import IotLoggingServer.Servicer

set_option autoImplicit false

/-! # The gRPC endpoint (`v1/api_stub.py` and the wrappers of `v1/_types.py`)

`PutLog` converts the request message, hands it to the servicer and exports the response. The file
proves which requests that the proto file allows are answered (`putLog_answers_iff`): those whose
log level the wrapper enum knows. -/

namespace IotLoggingServer

/-! ## The wrapper classes -/

def logTypeEnum : EnumType where
  name := "LogType".toList
  members := [("LOG".toList, LogType.log.value), ("METRICS".toList, LogType.metrics.value)]

def logLevelEnum : EnumType where
  name := "LogLevel".toList
  members := [("UNSPECIFIC".toList, LogLevel.unspecific.value),
    ("DEBUG".toList, LogLevel.debug.value), ("INFO".toList, LogLevel.info.value),
    ("WARN".toList, LogLevel.warn.value), ("ERROR".toList, LogLevel.error.value),
    ("FATAL".toList, LogLevel.fatal.value)]

def errorCodeEnum : EnumType where
  name := "ErrorCode".toList
  members := [("UNSPECIFIC".toList, ErrorCode.unspecific.value),
    ("NO_FAILURE".toList, ErrorCode.noFailure.value),
    ("SERVER_QUEUE_FULL".toList, ErrorCode.serverQueueFull.value),
    ("NOT_ALLOWED_ECU_ID".toList, ErrorCode.notAllowedEcuId.value),
    ("NO_MESSAGE".toList, ErrorCode.noMessage.value)]

def putLogRequest : MessageType :=
  .mk "PutLogRequest".toList "PutLogRequest".toList
    (.cons "ecu_id".toList none (.scalar .str) <|
     .cons "log_type".toList none (.enum logTypeEnum) <|
     .cons "timestamp".toList none (.scalar (.int .uint64)) <|
     .cons "level".toList none (.enum logLevelEnum) <|
     .cons "message".toList none (.scalar .str) .nil)

def putLogResponse : MessageType :=
  .mk "PutLogResponse".toList "PutLogResponse".toList
    (.cons "code".toList none (.enum errorCodeEnum) <|
     .cons "message".toList none (.scalar .str) .nil)

def serviceStatusEnum : EnumType where
  name := "ServiceStatus".toList
  members := [("UNKNOWN".toList, ServiceStatus.unknown.value),
    ("SERVING".toList, ServiceStatus.serving.value),
    ("NOT_SERVING".toList, ServiceStatus.notServing.value),
    ("SERVICE_UNKNOWN".toList, ServiceStatus.serviceUnknown.value)]

def healthCheckRequest : MessageType :=
  .mk "HealthCheckRequest".toList "HealthCheckRequest".toList
    (.cons "service".toList none (.scalar .str) .nil)

def healthCheckResponse : MessageType :=
  .mk "HealthCheckResponse".toList "HealthCheckResponse".toList
    (.cons "status".toList none (.enum serviceStatusEnum) .nil)

/-! ## The values the proto file declares -/

/-- `enum LogType` -/
def declaredLogTypes : List (Str × ℤ) := [("LOG".toList, 0), ("METRICS".toList, 1)]

/-- `enum LogLevel` -/
def declaredLogLevels : List (Str × ℤ) :=
  [("UNSPECIFIC_LOG_LEVEL".toList, 0), ("TRACE".toList, 1), ("DEBUG".toList, 2),
    ("INFO".toList, 3), ("WARN".toList, 4), ("ERROR".toList, 5), ("FATAL".toList, 6)]

/-- A request message with these field values, set or by default. -/
structure IsPutLogRequest (pbFields : List (Str × PyVal)) (ecuId : Str)
    (logType timestamp level : ℤ) (message : Str) : Prop where
  ecuId : pbGetattr pbFields "ecu_id".toList (.scalar .str) = .atom (.str ecuId)
  logType : pbGetattr pbFields "log_type".toList (.enum logTypeEnum) = .atom (.int logType)
  timestamp : pbGetattr pbFields "timestamp".toList (.scalar (.int .uint64))
    = .atom (.int timestamp)
  level : pbGetattr pbFields "level".toList (.enum logLevelEnum) = .atom (.int level)
  message : pbGetattr pbFields "message".toList (.scalar .str) = .atom (.str message)

/-! ## `PutLog` -/

def LogType.ofValue (n : ℤ) : Option LogType :=
  [LogType.log, .metrics].find? (fun logType => decide (logType.value = n))

def LogLevel.ofValue (n : ℤ) : Option LogLevel :=
  [LogLevel.unspecific, .debug, .info, .warn, .error, .fatal].find?
    (fun level => decide (level.value = n))

/-- The attributes of a `PutLogRequest` that `grpc_put_log` reads. -/
def readPutLogRequest (request : PyVal) : Option PutLogRequest :=
  match request.attr "ecu_id".toList, request.attr "log_type".toList,
    request.attr "timestamp".toList, request.attr "level".toList,
    request.attr "message".toList with
  | some (.atom (.str ecuId)), some (.atom (.enumMember _ logType)),
    some (.atom (.int timestamp)), some (.atom (.enumMember _ level)),
    some (.atom (.str message)) => do
    .some {
      ecuId
      logType := ← LogType.ofValue logType
      timestamp
      level := ← LogLevel.ofValue level
      message }
  | _, _, _, _, _ => none

/-- `PutLogResponse(code=code).export_pb()` -/
def exportPutLogResponse (rt : PbRuntime) (response : PutLogResponse) : Except PyExc PyVal := do
  let inst ← putLogResponse.new (fun name _ => dictGet? id
    [("code".toList, .atom (.enumMember errorCodeEnum response.code.value))] name)
  putLogResponse.exportPb rt inst

/-- `OTAClientIoTLoggingServiceV1.PutLog`: the response or what is raised, and the queue. -/
def OTAClientIoTLoggingServiceV1.putLog (rt : PbRuntime) (stub : Servicer) (q : LogsQueue)
    (now : ℚ) (request : PyVal) : Except PyExc PyVal × LogsQueue :=
  match putLogRequest.convert request with
  | .error e => (.error e, q)
  | .ok converted =>
    match readPutLogRequest converted with
    | none => (.error .attributeError, q)
    | some request =>
      let (response, q') := stub.grpcPutLog q now request
      (exportPutLogResponse rt response, q')

/-! ## `Check` -/

/-- `HealthCheckResponse(status=status).export_pb()` -/
def exportHealthCheckResponse (rt : PbRuntime) (response : HealthCheckResponse) :
    Except PyExc PyVal := do
  let inst ← healthCheckResponse.new (fun name _ => dictGet? id
    [("status".toList, .atom (.enumMember serviceStatusEnum response.status.value))] name)
  healthCheckResponse.exportPb rt inst

/-- `OTAClientIoTLoggingServiceV1.Check`: the response, or what is raised. -/
def OTAClientIoTLoggingServiceV1.check (rt : PbRuntime) (stub : Servicer) (request : PyVal) :
    Except PyExc PyVal := do
  let converted ← healthCheckRequest.convert request
  exportHealthCheckResponse rt (stub.grpcCheck converted)

/-! ## What is answered -/

/-- The code the API promises for a log. -/
def promisedCode (ecuInfo : Option ECUInfo) (q : LogsQueue) (ecuId message : Str) : ErrorCode :=
  if message = [] then .noMessage
  else if ∃ info ∈ ecuInfo, ecuId ∉ info.ecuIdSet then .notAllowedEcuId
  else if q.isFull then .serverQueueFull
  else .noFailure

/-- The entry a request is queued as: under its ECU id and the log group type of its log type. -/
def promisedEntry (now : ℚ) (ecuId : Str) (logType timestamp : ℤ) (message : Str) : LogEntry :=
  ⟨if logType = 1 then .metrics else .log, ecuId, stamp now (some timestamp), message⟩

/-- The endpoint returns a response with the promised code, and queues the log exactly with
    NO_FAILURE. -/
def Answers (ecuInfo : Option ECUInfo) (q : LogsQueue) (now : ℚ) (ecuId : Str)
    (logType timestamp : ℤ) (message : Str) (answer : Except PyExc PyVal × LogsQueue) : Prop :=
  (∃ res, answer.1 = .ok (.pb "PutLogResponse".toList res) ∧
    pbGetattr res "code".toList (.enum errorCodeEnum)
      = .atom (.int (promisedCode ecuInfo q ecuId message).value)) ∧
  answer.2 = if promisedCode ecuInfo q ecuId message = .noFailure then
      { q with items := q.items ++ [promisedEntry now ecuId logType timestamp message] }
    else q

theorem Servicer.admission_init (ecuInfo : Option ECUInfo) (q : LogsQueue) (ecuId message : Str) :
    (Servicer.init ecuInfo).admission q ecuId message = promisedCode ecuInfo q ecuId message := by
  have hrefuses : (Servicer.init ecuInfo).refuses ecuId = true ↔
      ∃ info ∈ ecuInfo, ecuId ∉ info.ecuIdSet := by
    cases ecuInfo with
    | none => simp [Servicer.refuses_init_none]
    | some info => simp [Servicer.refuses_init]
  unfold Servicer.admission promisedCode
  simp only [hrefuses]

/-! ## The way of a request -/

theorem LogType.ofValue_value (logType : LogType) :
    LogType.ofValue logType.value = some logType := by
  cases logType <;> rfl

theorem LogLevel.ofValue_value (level : LogLevel) : LogLevel.ofValue level.value = some level := by
  cases level <;> rfl

/-- The wrapper knows every declared log type. -/
theorem exists_logType {n : ℤ} (h : n ∈ declaredLogTypes.map Prod.snd) :
    ∃ logType : LogType, logType.value = n := by
  simp only [declaredLogTypes, List.map_cons, List.map_nil, List.mem_cons, List.not_mem_nil,
    or_false] at h
  rcases h with rfl | rfl
  · exact ⟨.log, rfl⟩
  · exact ⟨.metrics, rfl⟩

/-- The wrapper knows every declared level but TRACE. -/
theorem exists_logLevel {n : ℤ} (h : n ∈ declaredLogLevels.map Prod.snd) (htrace : n ≠ 1) :
    ∃ level : LogLevel, level.value = n := by
  simp only [declaredLogLevels, List.map_cons, List.map_nil, List.mem_cons, List.not_mem_nil,
    or_false] at h
  rcases h with rfl | rfl | rfl | rfl | rfl | rfl | rfl
  · exact ⟨.unspecific, rfl⟩
  · exact absurd rfl htrace
  · exact ⟨.debug, rfl⟩
  · exact ⟨.info, rfl⟩
  · exact ⟨.warn, rfl⟩
  · exact ⟨.error, rfl⟩
  · exact ⟨.fatal, rfl⟩

theorem logTypeEnum_convert (logType : LogType) :
    logTypeEnum.convert (.atom (.int logType.value))
      = .ok (.atom (.enumMember logTypeEnum logType.value)) := by
  cases logType <;> rfl

theorem logLevelEnum_convert (level : LogLevel) :
    logLevelEnum.convert (.atom (.int level.value))
      = .ok (.atom (.enumMember logLevelEnum level.value)) := by
  cases level <;> rfl

section Request

variable {pbFields : List (Str × PyVal)} {ecuId message : Str} {logType : LogType}
  {timestamp : ℤ}

/-- A request with a level the wrapper knows is converted field by field. -/
theorem putLogRequest_convert {level : LogLevel}
    (h : IsPutLogRequest pbFields ecuId logType.value timestamp level.value message) :
    putLogRequest.convert (.pb "PutLogRequest".toList pbFields) = .ok (.inst putLogRequest none [
      ("ecu_id".toList, .atom (.str ecuId)),
      ("log_type".toList, .atom (.enumMember logTypeEnum logType.value)),
      ("timestamp".toList, .atom (.int timestamp)),
      ("level".toList, .atom (.enumMember logLevelEnum level.value)),
      ("message".toList, .atom (.str message))]) := by
  have hname : putLogRequest.hasField "convert" = false := by decide
  have hconvert := MessageType.convert_pb hname pbFields
  rw [putLogRequest, MessageType.proto] at hconvert
  rw [putLogRequest, hconvert]
  simp only [MessageType.fields, Fields.new, FieldType.set, h.ecuId, h.logType, h.timestamp,
    h.level, h.message, logTypeEnum_convert, logLevelEnum_convert, ScalarType.checkInstance,
    PyVal.check, ScalarType.isInstance, ScalarType.isExact, if_true, ok_bind]

/-- A request with the level TRACE is not converted. -/
theorem putLogRequest_convert_trace
    (h : IsPutLogRequest pbFields ecuId logType.value timestamp 1 message) :
    ∃ e, putLogRequest.convert (.pb "PutLogRequest".toList pbFields) = .error e := by
  have hname : putLogRequest.hasField "convert" = false := by decide
  have hconvert := MessageType.convert_pb hname pbFields
  have htrace : ∃ e, logLevelEnum.convert (.atom (.int 1)) = .error e := ⟨_, rfl⟩
  obtain ⟨e, htrace⟩ := htrace
  rw [putLogRequest, MessageType.proto] at hconvert
  rw [putLogRequest, hconvert]
  simp only [MessageType.fields, Fields.new, FieldType.set, h.ecuId, h.logType, h.timestamp,
    h.level, logTypeEnum_convert, htrace, ScalarType.checkInstance, PyVal.check,
    ScalarType.isInstance, ScalarType.isExact, if_true, ok_bind, error_bind]
  exact ⟨e, rfl⟩

end Request

/-- A response is exported with its code. -/
theorem exportPutLogResponse_eq (rt : PbRuntime) (code : ErrorCode) :
    exportPutLogResponse rt { code } = .ok (.pb "PutLogResponse".toList [
      ("code".toList, .atom (.int code.value)), ("message".toList, .atom (.str []))]) := by
  have hnew : putLogResponse.new (fun name _ => dictGet? id
      [("code".toList, .atom (.enumMember errorCodeEnum code.value))] name)
      = .ok (.inst putLogResponse none [
        ("code".toList, .atom (.enumMember errorCodeEnum code.value)),
        ("message".toList, .atom (.str []))]) := by
    cases code <;> rfl
  have hcode : rt.assignTo (.int .int32) (.atom (.int code.value))
      = .ok (.atom (.int code.value)) :=
    rt.assignTo_of_holds ⟨rfl, by cases code <;> decide⟩
  have hmessage : rt.assignTo .str (.atom (.str [])) = .ok (.atom (.str [])) :=
    rt.assignTo_of_holds ⟨rfl, trivial⟩
  have hname : putLogResponse.hasField "export_pb" = false := by decide
  have henum := @EnumType.exportToPb_eq rt errorCodeEnum (by decide) (by decide) code.value
  have hfields : putLogResponse.fields.exportPb rt putLogResponse.fields (dictGet? id
      [("code".toList, .atom (.enumMember errorCodeEnum code.value)),
        ("message".toList, .atom (.str []))]) []
      = .ok [("code".toList, .atom (.int code.value)), ("message".toList, .atom (.str []))] := by
    rw [putLogResponse, MessageType.fields, Fields.exportPb_cons rt rfl, henum, hcode, ok_bind,
      Fields.exportPb_cons rt rfl, FieldType.exportToPb, hmessage, ok_bind, Fields.exportPb]
    rfl
  rw [exportPutLogResponse, hnew, ok_bind, MessageType.exportPb_inst rt hname, hfields, ok_bind]
  rfl

/-- A request with a level the wrapper knows gets the promised code and queues its entry. -/
theorem OTAClientIoTLoggingServiceV1.putLog_eq (rt : PbRuntime) (ecuInfo : Option ECUInfo)
    (q : LogsQueue) (now : ℚ) {pbFields : List (Str × PyVal)} {ecuId message : Str}
    {logType : LogType} {timestamp : ℤ} {level : LogLevel}
    (h : IsPutLogRequest pbFields ecuId logType.value timestamp level.value message) :
    OTAClientIoTLoggingServiceV1.putLog rt (Servicer.init ecuInfo) q now
        (.pb "PutLogRequest".toList pbFields)
      = (exportPutLogResponse rt { code := promisedCode ecuInfo q ecuId message },
        if promisedCode ecuInfo q ecuId message = .noFailure then
          { q with items := q.items ++ [logEntry now ecuId logType (some timestamp) message] }
        else q) := by
  have hread : readPutLogRequest (.inst putLogRequest none [
      ("ecu_id".toList, .atom (.str ecuId)),
      ("log_type".toList, .atom (.enumMember logTypeEnum logType.value)),
      ("timestamp".toList, .atom (.int timestamp)),
      ("level".toList, .atom (.enumMember logLevelEnum level.value)),
      ("message".toList, .atom (.str message))])
      = some ⟨ecuId, logType, timestamp, level, message⟩ := by
    cases logType <;> cases level <;> rfl
  simp only [OTAClientIoTLoggingServiceV1.putLog, putLogRequest_convert h, hread,
    Servicer.grpcPutLog, Servicer.putLog_eq, Servicer.admission_init]

/-- **Which declared requests `PutLog` answers as promised**: those of a level other than TRACE,
    which the wrapper enum does not know. -/
theorem putLog_answers_iff (rt : PbRuntime) (ecuInfo : Option ECUInfo) (q : LogsQueue) (now : ℚ)
    {pbFields : List (Str × PyVal)} {ecuId message : Str} {logType timestamp level : ℤ}
    (h : IsPutLogRequest pbFields ecuId logType timestamp level message)
    (hlogType : logType ∈ declaredLogTypes.map Prod.snd)
    (hlevel : level ∈ declaredLogLevels.map Prod.snd) :
    Answers ecuInfo q now ecuId logType timestamp message
        (OTAClientIoTLoggingServiceV1.putLog rt (Servicer.init ecuInfo) q now
          (.pb "PutLogRequest".toList pbFields)) ↔
      level ≠ 1 := by
  obtain ⟨logType, rfl⟩ := exists_logType hlogType
  constructor
  · rintro ⟨⟨res, hres, -⟩, -⟩ rfl
    obtain ⟨e, he⟩ := putLogRequest_convert_trace h
    rw [OTAClientIoTLoggingServiceV1.putLog, he] at hres
    cases hres
  · intro htrace
    obtain ⟨level, rfl⟩ := exists_logLevel hlevel htrace
    have hentry : promisedEntry now ecuId logType.value timestamp message
        = logEntry now ecuId logType (some timestamp) message := by
      cases logType <;> rfl
    rw [OTAClientIoTLoggingServiceV1.putLog_eq rt ecuInfo q now h, exportPutLogResponse_eq,
      ← hentry]
    exact ⟨⟨_, rfl, rfl⟩, rfl⟩

/-- The set fields of a request of the ECU `autoware` with the given level. -/
def exampleRequest (level : ℤ) : List (Str × PyVal) :=
  [("ecu_id".toList, .atom (.str "autoware".toList)), ("level".toList, .atom (.int level)),
    ("message".toList, .atom (.str "started".toList))]

theorem isPutLogRequest_exampleRequest (level : ℤ) :
    IsPutLogRequest (exampleRequest level) "autoware".toList 0 0 level "started".toList :=
  ⟨rfl, rfl, rfl, rfl, rfl⟩

theorem putLog_answers_iff_example :
    Answers none ⟨10, []⟩ 0 "autoware".toList 0 0 "started".toList
      (OTAClientIoTLoggingServiceV1.putLog indexRuntime (Servicer.init none) ⟨10, []⟩ 0
        (.pb "PutLogRequest".toList (exampleRequest 3))) :=
  (putLog_answers_iff indexRuntime none ⟨10, []⟩ 0 (isPutLogRequest_exampleRequest 3) (by decide)
    (by decide)).2 (by decide)

/-- A request of level TRACE, which the proto file declares, is not answered. -/
theorem not_putLog_answers :
    ¬ ∀ (rt : PbRuntime) (ecuInfo : Option ECUInfo) (q : LogsQueue) (now : ℚ)
        (pbFields : List (Str × PyVal)) (ecuId message : Str) (logType timestamp level : ℤ),
      IsPutLogRequest pbFields ecuId logType timestamp level message →
      logType ∈ declaredLogTypes.map Prod.snd → IntKind.uint64.InRange timestamp →
      level ∈ declaredLogLevels.map Prod.snd →
      Answers ecuInfo q now ecuId logType timestamp message
        (OTAClientIoTLoggingServiceV1.putLog rt (Servicer.init ecuInfo) q now
          (.pb "PutLogRequest".toList pbFields)) := by
  intro h
  obtain ⟨⟨res, hres, -⟩, -⟩ := h indexRuntime none ⟨10, []⟩ 0 _ _ _ 0 0 1
    (isPutLogRequest_exampleRequest 1) (by decide) (by decide) (by decide)
  cases hres

end IotLoggingServer
