import IotLoggingServer.V1.ApiStub

set_option autoImplicit false

/-! # The endpoint over any message (`v1/api_stub.py`)

The enum fields of a proto3 message are open, so a request may hold any integer there; one the
wrapper enums do not know raises on the way in. `putLog_message` and `check_message` say what the
two calls of the service make of every message. -/

namespace IotLoggingServer

/-- A `PutLogRequest` message, with what its fields read as. -/
structure PutLogMessage where
  pbFields : List (Str × PyVal)
  ecuId : Str
  logType : ℤ
  timestamp : ℤ
  level : ℤ
  message : Str
  reads : IsPutLogRequest pbFields ecuId logType timestamp level message

/-- A `HealthCheckRequest` message. -/
structure HealthCheckMessage where
  pbFields : List (Str × PyVal)
  service : Str
  reads : pbGetattr pbFields "service".toList (.scalar .str) = .atom (.str service)

/-- The request a message stands for, if the wrapper enums know its values. -/
def PutLogMessage.decode (m : PutLogMessage) : Option PutLogRequest := do
  some {
    ecuId := m.ecuId
    logType := ← LogType.ofValue m.logType
    timestamp := m.timestamp
    level := ← LogLevel.ofValue m.level
    message := m.message }

/-- The code of a reply to `PutLog`. -/
def responseCode : Except PyExc PyVal → Option ℤ
  | .ok (.pb _ fields) =>
    match pbGetattr fields "code".toList (.enum errorCodeEnum) with
    | .atom (.int n) => some n
    | _ => none
  | _ => none

def ErrorCode.ofValue (n : ℤ) : Option ErrorCode :=
  [ErrorCode.unspecific, .noFailure, .serverQueueFull, .notAllowedEcuId, .noMessage].find?
    (fun code => decide (code.value = n))

/-! ## Enum values -/

theorem ErrorCode.ofValue_value (code : ErrorCode) : ErrorCode.ofValue code.value = some code := by
  cases code <;> rfl

theorem LogType.ofValue_eq_some {n : ℤ} {logType : LogType} :
    LogType.ofValue n = some logType ↔ logType.value = n := by
  constructor
  · intro h
    simpa using List.find?_some h
  · rintro rfl
    exact logType.ofValue_value

theorem LogLevel.ofValue_eq_some {n : ℤ} {level : LogLevel} :
    LogLevel.ofValue n = some level ↔ level.value = n := by
  constructor
  · intro h
    simpa using List.find?_some h
  · rintro rfl
    exact level.ofValue_value

theorem mem_logTypeEnum_values {n : ℤ} :
    n ∈ logTypeEnum.values ↔ ∃ logType, LogType.ofValue n = some logType := by
  have hvalues : logTypeEnum.values = [0, 1] := rfl
  rw [hvalues]
  constructor
  · intro h
    simp only [List.mem_cons, List.not_mem_nil, or_false] at h
    rcases h with rfl | rfl <;> exact ⟨_, rfl⟩
  · rintro ⟨logType, h⟩
    rw [← LogType.ofValue_eq_some.1 h]
    cases logType <;> simp [LogType.value]

theorem mem_logLevelEnum_values {n : ℤ} :
    n ∈ logLevelEnum.values ↔ ∃ level, LogLevel.ofValue n = some level := by
  have hvalues : logLevelEnum.values = [0, 2, 3, 4, 5, 6] := rfl
  rw [hvalues]
  constructor
  · intro h
    simp only [List.mem_cons, List.not_mem_nil, or_false] at h
    rcases h with rfl | rfl | rfl | rfl | rfl | rfl <;> exact ⟨_, rfl⟩
  · rintro ⟨level, h⟩
    rw [← LogLevel.ofValue_eq_some.1 h]
    cases level <;> simp [LogLevel.value]

/-! ## `PutLog` -/

theorem PutLogMessage.decode_eq_some {m : PutLogMessage} {request : PutLogRequest} :
    m.decode = some request ↔ request.logType.value = m.logType ∧ request.level.value = m.level ∧
      request = ⟨m.ecuId, request.logType, m.timestamp, request.level, m.message⟩ := by
  simp only [PutLogMessage.decode, Option.bind_eq_bind, Option.bind_eq_some_iff,
    LogType.ofValue_eq_some, LogLevel.ofValue_eq_some, Option.some.injEq]
  constructor
  · rintro ⟨logType, hlogType, level, hlevel, rfl⟩
    exact ⟨hlogType, hlevel, rfl⟩
  · rintro ⟨hlogType, hlevel, heq⟩
    exact ⟨_, hlogType, _, hlevel, heq.symm⟩

/-- A message with an enum value the wrappers do not know is not converted. -/
theorem PutLogMessage.convert_of_not_decodes {m : PutLogMessage} (h : m.decode = none) :
    ∃ e, putLogRequest.convert (.pb "PutLogRequest".toList m.pbFields) = .error e := by
  have hname : putLogRequest.hasField "convert" = false := by decide
  have hconvert := MessageType.convert_pb hname m.pbFields
  rw [putLogRequest, MessageType.proto] at hconvert
  rw [putLogRequest, hconvert]
  simp only [MessageType.fields, Fields.new, FieldType.set, m.reads.ecuId, m.reads.logType,
    m.reads.timestamp, m.reads.level, ScalarType.checkInstance, PyVal.check,
    ScalarType.isInstance, ScalarType.isExact, if_true, ok_bind]
  by_cases hlogType : m.logType ∈ logTypeEnum.values
  · obtain ⟨logType, hvalue⟩ := mem_logTypeEnum_values.1 hlogType
    have hlevel : m.level ∉ logLevelEnum.values := by
      intro hmem
      obtain ⟨level, hlevel⟩ := mem_logLevelEnum_values.1 hmem
      rw [PutLogMessage.decode, hvalue, hlevel] at h
      cases h
    obtain ⟨e, he⟩ := EnumType.convert_of_not_mem hlevel
    rw [EnumType.convert_of_mem (by decide) hlogType, he]
    exact ⟨e, rfl⟩
  · obtain ⟨e, he⟩ := EnumType.convert_of_not_mem hlogType
    rw [he]
    exact ⟨e, rfl⟩

theorem readPutLogRequest_converted (request : PutLogRequest) :
    readPutLogRequest (.inst putLogRequest none [
      ("ecu_id".toList, .atom (.str request.ecuId)),
      ("log_type".toList, .atom (.enumMember logTypeEnum request.logType.value)),
      ("timestamp".toList, .atom (.int request.timestamp)),
      ("level".toList, .atom (.enumMember logLevelEnum request.level.value)),
      ("message".toList, .atom (.str request.message))]) = some request := by
  obtain ⟨ecuId, logType, timestamp, level, message⟩ := request
  cases logType <;> cases level <;> rfl

/-- **`PutLog` over messages**: what the servicer does with the converted request, or an exception
    that leaves the queue alone. -/
theorem OTAClientIoTLoggingServiceV1.putLog_message (rt : PbRuntime) (stub : Servicer)
    (q : LogsQueue) (now : ℚ) (m : PutLogMessage) :
    (∃ request, m.decode = some request ∧
      OTAClientIoTLoggingServiceV1.putLog rt stub q now
          (.pb "PutLogRequest".toList m.pbFields) =
        (.ok (.pb "PutLogResponse".toList [
          ("code".toList, .atom (.int (stub.grpcPutLog q now request).1.code.value)),
          ("message".toList, .atom (.str []))]), (stub.grpcPutLog q now request).2)) ∨
    m.decode = none ∧ ∃ e, OTAClientIoTLoggingServiceV1.putLog rt stub q now
      (.pb "PutLogRequest".toList m.pbFields) = (.error e, q) := by
  rcases hdecode : m.decode with _ | request
  · obtain ⟨e, he⟩ := PutLogMessage.convert_of_not_decodes hdecode
    exact Or.inr ⟨rfl, e, by rw [OTAClientIoTLoggingServiceV1.putLog, he]⟩
  · obtain ⟨hlogType, hlevel, hrequest⟩ := PutLogMessage.decode_eq_some.1 hdecode
    have hreads : IsPutLogRequest m.pbFields request.ecuId request.logType.value
        request.timestamp request.level.value request.message := by
      have hm := m.reads
      rw [← hlogType, ← hlevel] at hm
      rw [hrequest]
      exact hm
    refine Or.inl ⟨request, rfl, ?_⟩
    simp only [OTAClientIoTLoggingServiceV1.putLog, putLogRequest_convert hreads,
      readPutLogRequest_converted]
    exact congrArg (·, (stub.grpcPutLog q now request).2) (exportPutLogResponse_eq rt _)

/-! ## `Check` -/

/-- A status is exported as it is. -/
theorem exportHealthCheckResponse_eq (rt : PbRuntime) (status : ServiceStatus) :
    exportHealthCheckResponse rt { status } = .ok (.pb "HealthCheckResponse".toList
      [("status".toList, .atom (.int status.value))]) := by
  have hnew : healthCheckResponse.new (fun name _ => dictGet? id
      [("status".toList, .atom (.enumMember serviceStatusEnum status.value))] name)
      = .ok (.inst healthCheckResponse none [
        ("status".toList, .atom (.enumMember serviceStatusEnum status.value))]) := by
    cases status <;> rfl
  have hstatus : rt.assignTo (.int .int32) (.atom (.int status.value))
      = .ok (.atom (.int status.value)) :=
    rt.assignTo_of_holds ⟨rfl, by cases status <;> decide⟩
  have hname : healthCheckResponse.hasField "export_pb" = false := by decide
  have henum := @EnumType.exportToPb_eq rt serviceStatusEnum (by decide) (by decide) status.value
  have hfields : healthCheckResponse.fields.exportPb rt healthCheckResponse.fields (dictGet? id
      [("status".toList, .atom (.enumMember serviceStatusEnum status.value))]) []
      = .ok [("status".toList, .atom (.int status.value))] := by
    rw [healthCheckResponse, MessageType.fields, Fields.exportPb_cons rt rfl, henum, hstatus,
      ok_bind, Fields.exportPb]
    rfl
  rw [exportHealthCheckResponse, hnew, ok_bind, MessageType.exportPb_inst rt hname, hfields,
    ok_bind]
  rfl

/-- **`Check` answers every request with SERVING.** -/
theorem OTAClientIoTLoggingServiceV1.check_message (rt : PbRuntime) (stub : Servicer)
    (m : HealthCheckMessage) :
    OTAClientIoTLoggingServiceV1.check rt stub (.pb "HealthCheckRequest".toList m.pbFields) =
      .ok (.pb "HealthCheckResponse".toList
        [("status".toList, .atom (.int ServiceStatus.serving.value))]) := by
  have hname : healthCheckRequest.hasField "convert" = false := by decide
  have hconvert := MessageType.convert_pb hname m.pbFields
  rw [healthCheckRequest, MessageType.proto] at hconvert
  rw [OTAClientIoTLoggingServiceV1.check, healthCheckRequest, hconvert]
  simp only [MessageType.fields, Fields.new, FieldType.set, m.reads, ScalarType.checkInstance,
    PyVal.check, ScalarType.isInstance, ScalarType.isExact, if_true, ok_bind]
  exact exportHealthCheckResponse_eq rt .serving

end IotLoggingServer
