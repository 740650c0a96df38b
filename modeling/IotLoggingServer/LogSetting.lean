import IotLoggingServer.Common

set_option autoImplicit false

/-! # Teeing the server's own logs into the queue (`_log_setting.py`) -/

namespace IotLoggingServer

structure LogTeeHandler where
  logstreamSuffix : Str

/-- What a record is queued as: local logs always go to the log group. -/
def LogTeeHandler.entry (self : LogTeeHandler) (now : ℚ) (message : Str) : LogEntry :=
  ⟨.log, self.logstreamSuffix, truncate now * 1000, message⟩

/-- `_LogTeeHandler.emit` of a record that formats to `formatted` (`none`: formatting raises). The
    result also says whether the record was queued; every exception is suppressed. -/
def LogTeeHandler.emit (self : LogTeeHandler) (q : LogsQueue) (now : ℚ) (formatted : Option Str) :
    Bool × LogsQueue :=
  match formatted with
  | none => (false, q)
  | some message =>
    match q.putNowait (self.entry now message) with
    | none => (false, q)
    | some q' => (true, q')

/-- A record is accepted if it formats and the queue is not full. -/
def LogsQueue.acceptsRecord (q : LogsQueue) (formatted : Option Str) : Bool :=
  formatted.isSome && !decide q.isFull

/-- `emit` queues exactly the records that are accepted. -/
theorem LogTeeHandler.emit_eq (self : LogTeeHandler) (q : LogsQueue) (now : ℚ)
    (formatted : Option Str) :
    self.emit q now formatted =
      (LogsQueue.acceptsRecord q formatted,
        { q with items := q.items ++ (if LogsQueue.acceptsRecord q formatted then
            formatted.map (self.entry now) else none).toList }) := by
  unfold LogTeeHandler.emit LogsQueue.acceptsRecord
  cases formatted with
  | none => simp
  | some message =>
      unfold PyQueue.putNowait
      by_cases hfull : q.isFull <;> simp [hfull]

end IotLoggingServer
