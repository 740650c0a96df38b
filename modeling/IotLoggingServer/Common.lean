import IotLoggingServer.Python

set_option autoImplicit false

/-! # Log entries and the log queue (`_common.py`)

The queue is `queue.Queue`: first in, first out, refusing a `put_nowait` at capacity when `maxsize`
is positive and never otherwise. -/

namespace IotLoggingServer

/-- The log group a log goes to. -/
inductive LogGroupType
  | log
  | metrics
  deriving DecidableEq, Repr

structure LogMessage where
  /-- in milliseconds -/
  timestamp : ℤ
  message : Str
  deriving DecidableEq, Repr

/-- The keyword arguments of a PutLogEvents request. -/
structure LogEvent where
  logGroupName : Str
  logStreamName : Str
  logEvents : List LogMessage
  deriving DecidableEq, Repr

/-- One element of the logs queue. -/
structure LogEntry where
  logGroupType : LogGroupType
  ecuId : Str
  message : LogMessage
  deriving DecidableEq, Repr

/-- What identifies the source of a log: `(log_group_type, log_stream_suffix)`. -/
abbrev Source := LogGroupType × Str

def LogEntry.source (e : LogEntry) : Source := (e.logGroupType, e.ecuId)

/-- An entry as the uploader merges it: its message under its source. -/
def LogEntry.keyed (e : LogEntry) : Source × LogMessage := (e.source, e.message)

/-! ## `queue.Queue` -/

structure PyQueue (α : Type) where
  maxsize : ℤ
  items : List α
  deriving DecidableEq, Repr

abbrev LogsQueue := PyQueue LogEntry

variable {α : Type}

/-- The test `put_nowait` makes before it raises `Full`. -/
def PyQueue.isFull (q : PyQueue α) : Prop := 0 < q.maxsize ∧ q.maxsize ≤ q.items.length

instance (q : PyQueue α) : Decidable q.isFull := inferInstanceAs (Decidable (_ ∧ _))

/-- `put_nowait`: `none` is the exception `Full`. -/
def PyQueue.putNowait (q : PyQueue α) (x : α) : Option (PyQueue α) :=
  if q.isFull then none else some { q with items := q.items ++ [x] }

/-- `get_nowait`: `none` is the exception `Empty`. -/
def PyQueue.getNowait (q : PyQueue α) : Option (α × PyQueue α) :=
  match q.items with
  | [] => none
  | x :: rest => some (x, { q with items := rest })

theorem PyQueue.putNowait_eq_some {q q' : PyQueue α} {x : α} :
    q.putNowait x = some q' ↔ ¬ q.isFull ∧ q' = { q with items := q.items ++ [x] } := by
  unfold PyQueue.putNowait
  split
  · next h => simp [h]
  · next h => simp [h, eq_comm]

end IotLoggingServer
