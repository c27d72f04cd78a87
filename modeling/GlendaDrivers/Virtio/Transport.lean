import Mathlib.Tactic

/-!
# The MMIO transport (`virtio/common/src/transport.rs`)

The registers that matter once a device runs: InterruptStatus, which the device sets and the
driver acknowledges, and QueueNotify.
-/

namespace GlendaDrivers

structure Transport where
  interruptStatus : UInt32
  /-- The values written to QueueNotify. -/
  notified : List UInt32
  deriving DecidableEq

namespace Transport

/-- A write to InterruptAck clears the given bits of InterruptStatus. -/
def writeInterruptAck (t : Transport) (v : UInt32) : Transport :=
  { t with interruptStatus := t.interruptStatus &&& ~~~v }

/-- `interrupt_ack`. -/
def interruptAck (t : Transport) : Bool × Transport :=
  let status := t.interruptStatus
  if status ≠ 0 then (true, t.writeInterruptAck status) else (false, t)

/-- `notify` and `notify_queue`. -/
def notifyQueue (t : Transport) (idx : UInt32) : Transport :=
  { t with notified := t.notified ++ [idx] }

end Transport

end GlendaDrivers
