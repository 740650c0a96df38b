import IotLoggingServer.Python

set_option autoImplicit false

/-! # The v1 API as the servicer sees it (`v1/_types.py`)

The enum wrappers with the values they take over from the generated module, and the request and
response records by their fields. How a protobuf message becomes such a record is the business of
`V1/ApiStub.lean`. -/

namespace IotLoggingServer

inductive LogType
  | log
  | metrics
  deriving DecidableEq, Repr

inductive LogLevel
  | unspecific
  | debug
  | info
  | warn
  | error
  | fatal
  deriving DecidableEq, Repr

inductive ErrorCode
  | unspecific
  | noFailure
  | serverQueueFull
  | notAllowedEcuId
  | noMessage
  deriving DecidableEq, Repr

inductive ServiceStatus
  | unknown
  | serving
  | notServing
  | serviceUnknown
  deriving DecidableEq, Repr

def LogType.value : LogType → ℤ
  | .log => 0
  | .metrics => 1

def LogLevel.value : LogLevel → ℤ
  | .unspecific => 0
  | .debug => 2
  | .info => 3
  | .warn => 4
  | .error => 5
  | .fatal => 6

def ErrorCode.value : ErrorCode → ℤ
  | .unspecific => 0
  | .noFailure => 1
  | .serverQueueFull => 2
  | .notAllowedEcuId => 3
  | .noMessage => 4

def ServiceStatus.value : ServiceStatus → ℤ
  | .unknown => 0
  | .serving => 1
  | .notServing => 2
  | .serviceUnknown => 3

structure PutLogRequest where
  ecuId : Str
  logType : LogType
  timestamp : ℤ
  level : LogLevel
  message : Str
  deriving DecidableEq, Repr

structure PutLogResponse where
  code : ErrorCode
  message : Str := []
  deriving DecidableEq, Repr

structure HealthCheckResponse where
  status : ServiceStatus
  deriving DecidableEq, Repr

end IotLoggingServer
