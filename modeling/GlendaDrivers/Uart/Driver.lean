import GlendaDrivers.Uart.Machine

/-!
# The UART driver (`uart/ns16550a/src/ns16550a/mod.rs`)

The functions of `Ns16550a`, as programs over the machine.  The log messages are left out.  The
loops that poll the chip or the request queue are run for at most `fuel` iterations; the loops of
`process_rx_ring` and `process_tx_ring` are bounded by the bytes at hand.

* `drainRxFifoToSwBuffer`, `processRxRing`: the receive path;
* `processTxRing`: the transmit path;
* `handleIrq`, `handleSq`, `handleCq`: the notifications;
* `write`, `read`, `setBaudRate`, `initHw`: the `UartDriver` calls;
* `KeptBySteps`: a property that the steps of the driver keep is kept by the notifications;
* `UartOp`, `exec`, `run`: sequences of calls.
-/

namespace GlendaDrivers.Uart

/-! ### Receiving -/

/-- `record_lsr_errors`. -/
def recordLsrErrors : Prog Machine PUnit := do
  let lsr ← readReg Reg.lsr
  .when (lsr &&& lsrOverrunError ≠ 0)
    (count fun s => { s with rxHwLsrOverrun := s.rxHwLsrOverrun + 1 })

/-- `getchar`. -/
def getchar : Prog Machine (Option UInt8) := do
  let lsr ← readReg Reg.lsr
  if lsr &&& lsrDataReady ≠ 0 then do
    let c ← readReg Reg.rbr
    pure (some c)
  else pure none

/-- A byte taken from the chip goes to `rx_buffer`, or is dropped when the buffer has reached its
limit; the new value of `drained`. -/
def bufferByte (c : UInt8) (drained : ℕ) : Prog Machine ℕ := .ofFn fun m =>
  if m.uart.rxBuffer.len < rxBufferSoftLimit then
    (drained + 1,
      { m with
        uart :=
          { m.uart with
            rxBuffer := m.uart.rxBuffer.pushBack c
            stats := { m.uart.stats with irqRxBytes := m.uart.stats.irqRxBytes + 1 } } })
  else
    (drained,
      { m with
        uart :=
          { m.uart with
            stats := { m.uart.stats with rxSwDrop := m.uart.stats.rxSwDrop + 1 } } })

/-- One iteration of the loop of `drain_rx_fifo_to_sw_buffer`. -/
def drainStep (budget drained : ℕ) : Prog Machine (ℕ ⊕ ℕ) :=
  if drained < budget then do
    let c ← getchar
    match c with
    | none => pure (.inr drained)
    | some c => do
        let drained ← bufferByte c drained
        pure (.inl drained)
  else pure (.inr drained)

/-- The end of `drain_rx_fifo_to_sw_buffer`: bytes are left when the budget is used up. -/
def checkRxBudget (budget drained : ℕ) : Prog Machine PUnit :=
  .when (budget ≤ drained) do
    let lsr ← readReg Reg.lsr
    .when (lsr &&& lsrDataReady ≠ 0)
      (count fun s => { s with rxBudgetHit := s.rxBudgetHit + 1 })

/-- `drain_rx_fifo_to_sw_buffer`. -/
def drainRxFifoToSwBuffer (fuel budget : ℕ) : Prog Machine ℕ :=
  if budget = 0 then pure 0
  else do
    recordLsrErrors
    let drained ← Prog.loop (drainStep budget) fuel 0
    checkRxBudget budget drained
    pure drained

/-- What an iteration of the loop of `process_rx_ring` does with the driver's data: it pushes the
first run of `rx_buffer` into the ring and removes what was accepted. -/
def Ns16550a.flush (u : Ns16550a) (ring : ShmRingBuffer) (pushedTotal : ℕ) :
    (ℕ ⊕ ℕ) × Ns16550a :=
  let front := u.rxBuffer.asSlices.1
  let (pushed, ring) := ring.pushSlice front
  let full := { u.stats with rxRingFullBreak := u.stats.rxRingFullBreak + 1 }
  if front.length = 0 then (.inr pushedTotal, u)
  else if pushed = 0 then (.inr pushedTotal, { u with stats := full })
  else
    let u := { u with rxRing := some ring, rxBuffer := .popFronts pushed u.rxBuffer }
    if pushed < front.length then (.inr (pushedTotal + pushed), { u with stats := full })
    else (.inl (pushedTotal + pushed), u)

/-- One iteration of the loop of `process_rx_ring`, which is entered with a ring only. -/
def flushStep (pushedTotal : ℕ) : Prog Machine (ℕ ⊕ ℕ) := .ofFn fun m =>
  let m := m.moved
  match m.uart.rxRing with
  | none => (.inr pushedTotal, m)
  | some ring =>
      let (r, uart) := m.uart.flush ring pushedTotal
      (r, { m with uart := uart })

/-- The end of `process_rx_ring`: a waiting READ request is told about new bytes. -/
def completePendingRead (pushedTotal : ℕ) : Prog Machine PUnit :=
  .when (0 < pushedTotal) do
    let m ← Prog.get
    match m.uart.pendingRead with
    | none => pure ()
    | some ud => complete ud (Int32.ofNat pushedTotal)

/-- `process_rx_ring`.  Every iteration but the last takes a byte from `rx_buffer`. -/
def processRxRing : Prog Machine PUnit := do
  let m ← Prog.get
  .when m.uart.rxRing.isSome do
    let pushedTotal ← Prog.loop flushStep (m.uart.rxBuffer.len + 1) 0
    completePendingRead pushedTotal

/-- `if !self.rx_buffer.is_empty()` before a call of `process_rx_ring`; `hasData` is what else
may call for it. -/
def flushIfBuffered (hasData : Bool) : Prog Machine PUnit := do
  let m ← Prog.get
  .when (hasData ∨ m.uart.rxBuffer.len ≠ 0) processRxRing

/-! ### Transmitting -/

/-- One iteration of the loop of `putchar`. -/
def waitThrEmpty (_ : Unit) : Prog Machine (Unit ⊕ Unit) := do
  let lsr ← readReg Reg.lsr
  pure (if lsr &&& lsrThrEmpty = 0 then .inl () else .inr ())

/-- `putchar`. -/
def putchar (fuel : ℕ) (c : UInt8) : Prog Machine PUnit := do
  Prog.loop waitThrEmpty fuel ()
  writeReg Reg.thr c

/-- `putchar` for each byte. -/
def putchars (fuel : ℕ) : List UInt8 → Prog Machine PUnit
  | [] => pure ()
  | c :: cs => do
      putchar fuel c
      putchars fuel cs

/-- One iteration of the loop of `process_tx_ring`, from the values of `total_written` and
`remaining_budget`. -/
def txStep (fuel : ℕ) (b : ℕ × ℕ) : Prog Machine ((ℕ × ℕ) ⊕ (ℕ × ℕ)) :=
  if 0 < b.2 then do
    let data ← popTx (min txRingChunk b.2)
    if 0 < data.length then do
      putchars fuel data
      count fun s => { s with irqTxBytes := s.irqTxBytes + data.length }
      let drained ← drainRxFifoToSwBuffer fuel rxTxInterleaveBudgetBytes
      .when (0 < drained) processRxRing
      pure (.inl (b.1 + data.length, b.2 - data.length))
    else pure (.inr b)
  else pure (.inr b)

/-- The end of `process_tx_ring`: bytes are left when the budget is used up. -/
def checkTxBudget (remaining : ℕ) : Prog Machine PUnit :=
  .when (remaining = 0) do
    let pending ← hasPendingTx
    .when pending (count fun s => { s with txBudgetHit := s.txBudgetHit + 1 })

/-- `process_tx_ring`.  Every iteration but the last uses up a byte of the budget. -/
def processTxRing (fuel budget : ℕ) : Prog Machine ℕ :=
  if budget = 0 then pure 0
  else do
    let (written, remaining) ← Prog.loop (txStep fuel) (budget + 1) (0, budget)
    checkTxBudget remaining
    pure written

/-! ### Notifications -/

/-- The handling of one interrupt identification; whether bytes were received. -/
def irqEvent (fuel : ℕ) (id : UInt8) : Prog Machine Bool :=
  if id = iirRxDataReady ∨ id = iirTimeout ∨ id = iirRls then do
    count fun s => { s with irqRxBatches := s.irqRxBatches + 1 }
    let drained ← drainRxFifoToSwBuffer fuel rxIrqBudgetBytes
    pure (decide (0 < drained))
  else if id = iirThrEmpty then do
    let _ ← processTxRing fuel txIrqBudgetBytes
    pure false
  else do
    recordLsrErrors
    pure false

/-- The loop of `handle_irq`, while `events` events are left of the budget; the final value of
`has_data`. -/
def irqEvents (fuel : ℕ) : ℕ → Bool → Prog Machine Bool
  | 0, hasData => do
      count fun s => { s with irqEventBudgetHit := s.irqEventBudgetHit + 1 }
      pure hasData
  | events + 1, hasData => do
      let iir ← readReg Reg.iir
      if iir &&& iirNoInterrupt ≠ 0 then pure hasData
      else do
        let received ← irqEvent fuel (iir &&& iirIdMask)
        irqEvents fuel events (hasData || received)

/-- `handle_irq`. -/
def handleIrq (fuel : ℕ) : Prog Machine PUnit := do
  let hasData ← irqEvents fuel irqEventBudget false
  flushIfBuffered hasData

/-- `self.pending_read = Some(user_data)`. -/
def setPendingRead (userData : UInt64) : Prog Machine PUnit := .modify fun m =>
  { m with uart := { m.uart with pendingRead := some userData } }

/-- The handling of one request. -/
def handleSqe (fuel : ℕ) (sqe : Sqe) : Prog Machine PUnit :=
  match sqe.opcode with
  | .write => do
      let written ← processTxRing fuel txSqBudgetBytes
      complete sqe.userData (if sqe.addr = 0 then Int32.ofNat written else sqe.len.toInt32)
  | .read => do
      setPendingRead sqe.userData
      processRxRing
      complete sqe.userData 0
  | _ => do
      let m ← Prog.get
      complete sqe.userData (-m.notSupported)

/-- One iteration of the loop of `handle_sq`. -/
def sqStep (fuel : ℕ) (_ : Unit) : Prog Machine (Unit ⊕ Unit) := do
  let sqe ← nextSqe
  match sqe with
  | none => pure (.inr ())
  | some sqe => do
      handleSqe fuel sqe
      pure (.inl ())

/-- `handle_sq`. -/
def handleSq (fuel : ℕ) : Prog Machine PUnit := do
  Prog.loop (sqStep fuel) fuel ()
  flushIfBuffered false

/-- `handle_cq`. -/
def handleCq : Prog Machine PUnit := flushIfBuffered false

/-! ### Calls -/

/-- `calculate_divisor`, in wrapping arithmetic; the division panics when `16 * baud` is zero. -/
def calculateDivisor (baud : UInt32) : Outcome UInt16 :=
  if 16 * baud = 0 then .panic else .ret (uartClock / (16 * baud)).toUInt16

/-- The register writes of `set_baud_rate`. -/
def programDivisor (divisor : UInt16) : Prog Machine PUnit := do
  writeReg Reg.ier 0x00
  writeReg Reg.lcr lcrDlab
  writeReg Reg.dll (divisor &&& 0xFF).toUInt8
  writeReg Reg.dlm (divisor >>> 8).toUInt8
  writeReg Reg.lcr (lcrDataBits8 ||| lcrStopBits1 ||| lcrParityNone)
  writeReg Reg.fcr (fcrFifoEnable ||| fcrFifoRxReset ||| fcrFifoTxReset ||| fcrFifoTrigger14)
  writeReg Reg.mcr (mcrOut2 ||| mcrRts ||| mcrDtr)

/-- `set_baud_rate`. -/
def setBaudRate (baud : UInt32) : Prog Machine PUnit :=
  match calculateDivisor baud with
  | .ret divisor => programDivisor divisor
  | .panic => .panic
  | .running => .running

/-- `init_hw`. -/
def initHw : Prog Machine PUnit := do
  setBaudRate defaultBaudRate
  writeReg Reg.ier (ierRxEnable ||| ierRlsEnable)

/-- `UartDriver::write`. -/
def write (fuel : ℕ) (buf : List UInt8) : Prog Machine ℕ := do
  putchars fuel buf
  pure buf.length

/-- The loop of `UartDriver::read`, while `room` bytes of the buffer are free; the bytes read. -/
def readBytes : ℕ → Prog Machine (List UInt8)
  | 0 => pure []
  | room + 1 => do
      let c ← getchar
      match c with
      | none => pure []
      | some c => do
          let cs ← readBytes room
          pure (c :: cs)

/-- `UartDriver::read` into a buffer of `len` bytes. -/
def read (len : ℕ) : Prog Machine (List UInt8) := readBytes len

/-! ### What the calls keep -/

section Keeps

open Prog (Keeps)

variable {I : Machine → Prop}

theorem keeps_putchars (hlsr : Keeps I (readReg Reg.lsr))
    (hthr : ∀ c, Keeps I (writeReg Reg.thr c)) (fuel : ℕ) (cs : List UInt8) :
    Keeps I (putchars fuel cs) := by
  induction cs with
  | nil => exact Keeps.pure _
  | cons c cs ih =>
    have hwait : Keeps I (Prog.loop waitThrEmpty fuel ()) :=
      Keeps.loop (fun _ => Keeps.bind hlsr fun _ => Keeps.pure _) fuel ()
    exact Keeps.bind (Keeps.bind hwait fun _ => hthr c) fun _ => ih

theorem keeps_readBytes (hgetchar : Keeps I getchar) (room : ℕ) :
    Keeps I (readBytes room) := by
  induction room with
  | zero => exact Keeps.pure _
  | succ room ih =>
    refine Keeps.bind hgetchar fun c => ?_
    cases c with
    | none => exact Keeps.pure _
    | some c => exact Keeps.bind ih fun _ => Keeps.pure _

theorem keeps_setBaudRate (hwrite : ∀ offset val, Keeps I (writeReg offset val))
    (baud : UInt32) : Keeps I (setBaudRate baud) := by
  unfold setBaudRate
  cases calculateDivisor baud with
  | ret divisor =>
    unfold programDivisor
    iterate 6 refine Keeps.bind (hwrite _ _) fun _ => ?_
    exact hwrite _ _
  | panic => exact Keeps.panic
  | running => exact Prog.Triple.running fun _ h => h

/-- The steps of the receive path up to `rx_buffer` keep `I`. -/
structure KeptByDrain (I : Machine → Prop) : Prop where
  readReg : ∀ {offset : ℕ}, 2 ≤ offset → Keeps I (readReg offset)
  count : ∀ {f : UartStats → UartStats}, (∀ s, (f s).rxSwDrop = s.rxSwDrop) →
    (∀ s, (f s).irqRxBytes = s.irqRxBytes) → Keeps I (count f)
  drainStep : ∀ budget drained, Keeps I (drainStep budget drained)

namespace KeptByDrain

variable (hI : KeptByDrain I)
include hI

theorem recordLsrErrors : Keeps I recordLsrErrors := by
  unfold Uart.recordLsrErrors
  refine Keeps.bind (hI.readReg (by decide)) fun lsr => ?_
  exact Keeps.when (hI.count (fun _ => rfl) fun _ => rfl)

theorem checkRxBudget (budget drained : ℕ) : Keeps I (checkRxBudget budget drained) := by
  unfold Uart.checkRxBudget
  refine Keeps.when (Keeps.bind (hI.readReg (by decide)) fun lsr => ?_)
  exact Keeps.when (hI.count (fun _ => rfl) fun _ => rfl)

theorem drainRxFifoToSwBuffer (fuel budget : ℕ) :
    Keeps I (drainRxFifoToSwBuffer fuel budget) := by
  unfold Uart.drainRxFifoToSwBuffer
  refine Keeps.ite (Keeps.pure _) (Keeps.bind hI.recordLsrErrors fun _ => ?_)
  refine Keeps.bind (Keeps.loop (hI.drainStep budget) fuel 0) fun drained => ?_
  exact Keeps.bind (hI.checkRxBudget budget drained) fun _ => Keeps.pure _

end KeptByDrain

/-- The steps of the receive path keep `I`. -/
structure KeptByReceive (I : Machine → Prop) : Prop where
  readReg : ∀ {offset : ℕ}, 2 ≤ offset → Keeps I (readReg offset)
  count : ∀ {f : UartStats → UartStats}, (∀ s, (f s).rxSwDrop = s.rxSwDrop) →
    (∀ s, (f s).irqRxBytes = s.irqRxBytes) → Keeps I (count f)
  complete : ∀ userData result, Keeps I (complete userData result)
  drainStep : ∀ budget drained, Keeps I (drainStep budget drained)
  flushStep : ∀ pushedTotal, Keeps I (flushStep pushedTotal)

namespace KeptByReceive

variable (hI : KeptByReceive I)
include hI

theorem drain : KeptByDrain I := ⟨hI.readReg, hI.count, hI.drainStep⟩

theorem recordLsrErrors : Keeps I recordLsrErrors := hI.drain.recordLsrErrors

theorem drainRxFifoToSwBuffer (fuel budget : ℕ) :
    Keeps I (drainRxFifoToSwBuffer fuel budget) := hI.drain.drainRxFifoToSwBuffer fuel budget

theorem completePendingRead (pushedTotal : ℕ) : Keeps I (completePendingRead pushedTotal) := by
  unfold Uart.completePendingRead
  refine Keeps.when (Keeps.bind Keeps.get fun m => ?_)
  cases m.uart.pendingRead with
  | none => exact Keeps.pure _
  | some ud => exact hI.complete _ _

theorem processRxRing : Keeps I processRxRing := by
  unfold Uart.processRxRing
  refine Keeps.bind Keeps.get fun m => Keeps.when ?_
  exact Keeps.bind (Keeps.loop hI.flushStep _ 0) fun _ => hI.completePendingRead _

theorem flushIfBuffered (hasData : Bool) : Keeps I (flushIfBuffered hasData) := by
  unfold Uart.flushIfBuffered
  exact Keeps.bind Keeps.get fun m => Keeps.when hI.processRxRing

end KeptByReceive

/-- The steps of the notifications up to the requests keep `I`, where `process_rx_ring` counts as
one step. -/
structure KeptByEvents (I : Machine → Prop) : Prop extends KeptByDrain I where
  writeThr : ∀ c, Keeps I (writeReg Reg.thr c)
  popTx : ∀ n, Keeps I (popTx n)
  hasPendingTx : Keeps I hasPendingTx
  processRxRing : Keeps I processRxRing

namespace KeptByEvents

variable (hI : KeptByEvents I)
include hI

theorem putchars (fuel : ℕ) (cs : List UInt8) : Keeps I (putchars fuel cs) :=
  keeps_putchars (hI.readReg (by decide)) hI.writeThr fuel cs

theorem txStep (fuel : ℕ) (b : ℕ × ℕ) : Keeps I (txStep fuel b) := by
  unfold Uart.txStep
  refine Keeps.ite (Keeps.bind (hI.popTx _) fun data => ?_) (Keeps.pure _)
  refine Keeps.ite (Keeps.bind (hI.putchars fuel data) fun _ => ?_) (Keeps.pure _)
  refine Keeps.bind (hI.count (fun _ => rfl) fun _ => rfl) fun _ => ?_
  refine Keeps.bind (hI.drainRxFifoToSwBuffer fuel _) fun drained => ?_
  exact Keeps.bind (Keeps.when hI.processRxRing) fun _ => Keeps.pure _

theorem processTxRing (fuel budget : ℕ) : Keeps I (processTxRing fuel budget) := by
  unfold Uart.processTxRing
  refine Keeps.ite (Keeps.pure _) (Keeps.bind (Keeps.loop (hI.txStep fuel) _ _) fun b => ?_)
  refine Keeps.bind (Keeps.when (Keeps.bind hI.hasPendingTx fun _ => ?_)) fun _ => Keeps.pure _
  exact Keeps.when (hI.count (fun _ => rfl) fun _ => rfl)

theorem irqEvent (fuel : ℕ) (id : UInt8) : Keeps I (irqEvent fuel id) := by
  unfold Uart.irqEvent
  refine Keeps.ite ?_ (Keeps.ite ?_ ?_)
  · refine Keeps.bind (hI.count (fun _ => rfl) fun _ => rfl) fun _ => ?_
    exact Keeps.bind (hI.drainRxFifoToSwBuffer fuel _) fun _ => Keeps.pure _
  · exact Keeps.bind (hI.processTxRing fuel _) fun _ => Keeps.pure _
  · exact Keeps.bind hI.recordLsrErrors fun _ => Keeps.pure _

theorem irqEvents (fuel events : ℕ) (hasData : Bool) :
    Keeps I (irqEvents fuel events hasData) := by
  induction events generalizing hasData with
  | zero => exact Keeps.bind (hI.count (fun _ => rfl) fun _ => rfl) fun _ => Keeps.pure _
  | succ events ih =>
    refine Keeps.bind (hI.readReg (by decide)) fun iir => ?_
    exact Keeps.ite (Keeps.pure _) (Keeps.bind (hI.irqEvent fuel _) fun _ => ih _)

end KeptByEvents

/-- The steps of the notifications keep `I`. -/
structure KeptBySteps (I : Machine → Prop) : Prop where
  readReg : ∀ {offset : ℕ}, 2 ≤ offset → Keeps I (readReg offset)
  writeThr : ∀ c, Keeps I (writeReg Reg.thr c)
  popTx : ∀ n, Keeps I (popTx n)
  hasPendingTx : Keeps I hasPendingTx
  count : ∀ {f : UartStats → UartStats}, (∀ s, (f s).rxSwDrop = s.rxSwDrop) →
    (∀ s, (f s).irqRxBytes = s.irqRxBytes) → Keeps I (count f)
  complete : ∀ userData result, Keeps I (complete userData result)
  setPendingRead : ∀ userData, Keeps I (setPendingRead userData)
  drainStep : ∀ budget drained, Keeps I (drainStep budget drained)
  flushStep : ∀ pushedTotal, Keeps I (flushStep pushedTotal)

namespace KeptBySteps

variable (hI : KeptBySteps I)
include hI

theorem receive : KeptByReceive I where
  readReg := hI.readReg
  count := hI.count
  complete := hI.complete
  drainStep := hI.drainStep
  flushStep := hI.flushStep

theorem events : KeptByEvents I where
  toKeptByDrain := hI.receive.drain
  writeThr := hI.writeThr
  popTx := hI.popTx
  hasPendingTx := hI.hasPendingTx
  processRxRing := hI.receive.processRxRing

theorem drainRxFifoToSwBuffer (fuel budget : ℕ) :
    Keeps I (drainRxFifoToSwBuffer fuel budget) := hI.receive.drainRxFifoToSwBuffer fuel budget

theorem processRxRing : Keeps I processRxRing := hI.receive.processRxRing

theorem flushIfBuffered (hasData : Bool) : Keeps I (flushIfBuffered hasData) :=
  hI.receive.flushIfBuffered hasData

theorem putchars (fuel : ℕ) (cs : List UInt8) : Keeps I (putchars fuel cs) :=
  hI.events.putchars fuel cs

theorem processTxRing (fuel budget : ℕ) : Keeps I (processTxRing fuel budget) :=
  hI.events.processTxRing fuel budget

theorem irqEvent (fuel : ℕ) (id : UInt8) : Keeps I (irqEvent fuel id) := hI.events.irqEvent fuel id

theorem irqEvents (fuel events : ℕ) (hasData : Bool) : Keeps I (irqEvents fuel events hasData) :=
  hI.events.irqEvents fuel events hasData

theorem handleIrq (fuel : ℕ) : Keeps I (handleIrq fuel) := by
  unfold Uart.handleIrq
  exact Keeps.bind (hI.irqEvents fuel _ false) hI.flushIfBuffered

theorem handleSqe (fuel : ℕ) (sqe : Sqe) : Keeps I (handleSqe fuel sqe) := by
  unfold Uart.handleSqe
  split
  · exact Keeps.bind (hI.processTxRing fuel _) fun _ => hI.complete _ _
  · refine Keeps.bind (hI.setPendingRead _) fun _ => ?_
    exact Keeps.bind hI.processRxRing fun _ => hI.complete _ _
  · exact Keeps.bind Keeps.get fun _ => hI.complete _ _

theorem handleSq (hnext : Keeps I nextSqe) (fuel : ℕ) : Keeps I (handleSq fuel) := by
  unfold Uart.handleSq
  refine Keeps.bind (Keeps.loop (fun _ => ?_) fuel ()) fun _ => hI.flushIfBuffered false
  refine Keeps.bind hnext fun sqe => ?_
  cases sqe with
  | none => exact Keeps.pure _
  | some sqe => exact Keeps.bind (hI.handleSqe fuel sqe) fun _ => Keeps.pure _

theorem handleCq : Keeps I handleCq := hI.flushIfBuffered false

theorem write (fuel : ℕ) (buf : List UInt8) : Keeps I (write fuel buf) :=
  Keeps.bind (hI.putchars fuel buf) fun _ => Keeps.pure _

end KeptBySteps

end Keeps

/-! ### Runs -/

/-- The calls of the service, and the passing of time without one. -/
inductive UartOp
  | irq
  | sq
  | cq
  | write (buf : List UInt8)
  | read (len : ℕ)
  | setBaudRate (baud : UInt32)
  | wait
  deriving DecidableEq

/-- The call handles a notification, or there is none. -/
def UartOp.IsNotification (op : UartOp) : Prop := op = .irq ∨ op = .sq ∨ op = .cq ∨ op = .wait

instance : DecidablePred UartOp.IsNotification := fun op =>
  inferInstanceAs (Decidable (op = .irq ∨ op = .sq ∨ op = .cq ∨ op = .wait))

/-- The result of a READ request is handed to the client. -/
def deliver (bytes : List UInt8) : Prog Machine PUnit := .modify fun m =>
  { m with log := { m.log with returned := m.log.returned ++ [bytes] } }

/-- One call. -/
def exec (fuel : ℕ) : UartOp → Prog Machine PUnit
  | .irq => handleIrq fuel
  | .sq => handleSq fuel
  | .cq => handleCq
  | .write buf => do
      let _ ← write fuel buf
      pure ()
  | .read len => do
      let bytes ← read len
      deliver bytes
  | .setBaudRate baud => setBaudRate baud
  | .wait => .modify Machine.moved

/-- The state after a sequence of calls.  A call that does not end within its bound is left where
it stands. -/
def run (fuel : ℕ) : List UartOp → Machine → Machine
  | [], m => m
  | op :: ops, m => run fuel ops (exec fuel op m).2

theorem run_append (fuel : ℕ) (ops ops' : List UartOp) (m : Machine) :
    run fuel (ops ++ ops') m = run fuel ops' (run fuel ops m) := by
  induction ops generalizing m with
  | nil => rfl
  | cons op ops ih => exact ih _

/-- What every call keeps holds after the run. -/
theorem run_keeps {I : Machine → Prop} {fuel : ℕ} {ops : List UartOp}
    (h : ∀ op ∈ ops, Prog.Keeps I (exec fuel op)) {m : Machine} (hm : I m) :
    I (run fuel ops m) := by
  induction ops generalizing m with
  | nil => exact hm
  | cons op ops ih =>
    refine ih (fun op' hop' => h op' (List.mem_cons_of_mem op hop')) ?_
    exact (h op List.mem_cons_self).snd hm

end GlendaDrivers.Uart
