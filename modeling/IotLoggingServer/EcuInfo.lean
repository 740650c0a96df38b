import IotLoggingServer.Python

set_option autoImplicit false

/-! # ECU metadata (`ecu_info.py`) -/

namespace IotLoggingServer

structure ECUContact where
  ecuId : Str
  deriving DecidableEq, Repr

/-- `ecu_info.yaml`, with the fields the server reads. -/
structure ECUInfo where
  ecuId : Str
  secondaries : List ECUContact
  deriving DecidableEq, Repr

/-- The known ECU ids: those of the secondaries and the main ECU's own. -/
def ECUInfo.ecuIdSet (info : ECUInfo) : List Str :=
  info.secondaries.map ECUContact.ecuId ++ [info.ecuId]

theorem ECUInfo.mem_ecuIdSet {info : ECUInfo} {id : Str} :
    id ∈ info.ecuIdSet ↔ id = info.ecuId ∨ ∃ c ∈ info.secondaries, c.ecuId = id := by
  simp only [ECUInfo.ecuIdSet, List.mem_append, List.mem_map, List.mem_singleton]
  exact or_comm

/-- The set is never empty: the main ECU is in it. -/
theorem ECUInfo.ecuIdSet_ne_nil (info : ECUInfo) : info.ecuIdSet ≠ [] := by
  simp [ECUInfo.ecuIdSet]

end IotLoggingServer
