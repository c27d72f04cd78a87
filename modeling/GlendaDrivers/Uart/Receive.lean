import GlendaDrivers.Uart.Driver

/-!
# The receive path

What the driver's functions do to received bytes is a sequence of five events; everything else
they do leaves the part of the machine alone that received bytes pass through.

* `RxView`: that part of the machine;
* `RxView.moved`, `readRbr`, `keep`, `drop`, `flushed`: the events;
* `triple_processRxRing`: the loop that moves bytes to the RX ring ends;
* `Closed I J`: `I` is kept by the events, where `J c` holds while the driver has the byte `c` in
  hand;
* `Closed.kept`, `Closed.notification`: then the functions keep `I`.
-/

namespace GlendaDrivers.Uart

open Prog (Triple Keeps)

/-- What received bytes pass through. -/
structure RxView where
  env : ℕ → EnvMove
  lcr : UInt8
  ier : UInt8
  rxFifo : List UInt8
  rxRing : Option ShmRingBuffer
  rxBuffer : VecDeque UInt8
  rxSwDrop : ℕ
  irqRxBytes : ℕ
  received : List UInt8
  rbrReads : List (UInt8 × ℕ)
  popped : List UInt8
  returned : List (List UInt8)

/-- The receive path of the machine. -/
def Machine.rxView (m : Machine) : RxView where
  env := m.env
  lcr := m.chip.lcr
  ier := m.chip.ier
  rxFifo := m.chip.rxFifo
  rxRing := m.uart.rxRing
  rxBuffer := m.uart.rxBuffer
  rxSwDrop := m.uart.stats.rxSwDrop
  irqRxBytes := m.uart.stats.irqRxBytes
  received := m.log.received
  rbrReads := m.log.rbrReads
  popped := m.log.popped
  returned := m.log.returned

namespace RxView

/-- The bytes in the shared RX ring. -/
def rxData (v : RxView) : List UInt8 :=
  match v.rxRing with
  | none => []
  | some ring => ring.data

/-- The environment moves. -/
def moved (v : RxView) (e : EnvMove) : RxView :=
  { v with
    rxFifo := v.rxFifo ++ e.arrive
    rxRing := v.rxRing.map fun ring => (ring.popSlice e.popRx).2
    received := v.received ++ e.arrive
    popped := v.popped ++ v.rxData.take e.popRx }

/-- The byte that RBR yields. -/
def rbr (v : RxView) (e : EnvMove) : UInt8 := v.rxFifo.headD e.rbr

/-- RBR is read. -/
def readRbr (v : RxView) (e : EnvMove) : RxView :=
  { v with
    rxFifo := v.rxFifo.tail
    rbrReads := v.rbrReads ++ [(v.rbr e, v.rxBuffer.len)] }

/-- The byte `c` goes to `rx_buffer`. -/
def keep (v : RxView) (c : UInt8) : RxView :=
  { v with rxBuffer := v.rxBuffer.pushBack c, irqRxBytes := v.irqRxBytes + 1 }

/-- A byte is dropped. -/
def drop (v : RxView) : RxView := { v with rxSwDrop := v.rxSwDrop + 1 }

/-- The first run of `rx_buffer` goes to the ring, as far as it fits. -/
def flushed (v : RxView) (ring : ShmRingBuffer) : RxView :=
  { v with
    rxRing := some (ring.pushSlice v.rxBuffer.asSlices.1).2
    rxBuffer := .popFronts (ring.pushSlice v.rxBuffer.asSlices.1).1 v.rxBuffer }

/-- LSR would report a received byte in the `k`-th move. -/
def Ready (v : RxView) (k : ℕ) : Prop := (v.env k).lsr v.rxFifo &&& lsrDataReady ≠ 0

end RxView

/-- The predicate on machines that `I` is about. -/
def On (I : RxView → Prop) (m : Machine) : Prop := I m.rxView

/-! ### Accesses -/

theorem dlab_eq_false {m : Machine} (h : m.rxView.lcr &&& lcrDlab = 0) : m.chip.dlab = false := by
  unfold Chip.dlab
  exact bne_eq_false_iff_eq.mpr h

variable {I : RxView → Prop} {J : UInt8 → RxView → Prop} {F : Machine → Prop}

/-- A read of a register that is not banked. -/
theorem keeps_readReg {offset : ℕ} (hoff : 2 ≤ offset)
    (hmoved : ∀ v k, I v → I (v.moved (v.env k))) : Keeps (On I) (readReg offset) := by
  refine Keeps.ofFn fun m h => ?_
  have hview : (m.moved.readAt m.move offset).2 = m.moved := by
    match offset, hoff with
    | 2, _ | 3, _ | 4, _ | 5, _ => rfl
    | _ + 6, _ => rfl
  rw [hview]
  exact hmoved _ _ h

/-- A read of LSR: its value is that of some move. -/
theorem triple_readLsr (hmoved : ∀ v k, I v → I (v.moved (v.env k))) :
    Triple (On I) (readReg Reg.lsr)
      (fun lsr m => On I m ∧ ∃ k, lsr = (m.rxView.env k).lsr m.rxView.rxFifo) F := by
  refine Triple.ofFn fun m h => ?_
  constructor
  · exact hmoved _ _ h
  · exact ⟨m.clock, rfl⟩

/-- `getchar`: a byte is taken when LSR reports one. -/
theorem triple_getchar {N : RxView → Prop} (hdlab : ∀ v, I v → v.lcr &&& lcrDlab = 0)
    (hmoved : ∀ v k, I v → I (v.moved (v.env k)))
    (htake : ∀ v k k', I v → v.Ready k →
      J ((v.moved (v.env k')).rbr (v.env k')) ((v.moved (v.env k')).readRbr (v.env k')))
    (hidle : ∀ v k, I v → ¬v.Ready k → N v) :
    Triple (On I) getchar (fun c m => c.elim (N m.rxView) fun c => J c m.rxView) F := by
  unfold getchar
  refine Triple.bind (triple_readLsr hmoved) fun lsr => ?_
  refine Triple.ite (fun hready => ?_) fun hready => ?_
  · refine Triple.bind (Q := fun c m => J c m.rxView) ?_ fun c => ?_
    swap
    · intro m h
      exact h
    refine Triple.ofFn fun m h => ?_
    obtain ⟨h, k, rfl⟩ := h
    have hd : m.moved.chip.dlab = false := dlab_eq_false (m := m.moved) (hdlab m.rxView h)
    have hread : m.moved.readAt m.move Reg.rbr = m.moved.readRbr m.move := by
      simp only [Reg.rbr, Machine.readAt, hd, Bool.false_eq_true, if_false]
    rw [hread]
    exact htake m.rxView k m.clock h hready
  · refine Triple.pure _ fun m h => ?_
    obtain ⟨h, k, rfl⟩ := h
    exact hidle m.rxView k h hready

/-- An iteration of the loop of `process_rx_ring` leaves the receive path alone, or is the event
`flushed`. -/
theorem flushStep_cases (m : Machine) (pushedTotal : ℕ) :
    (flushStep pushedTotal m).2.rxView = m.moved.rxView ∨
      ∃ ring, m.moved.uart.rxRing = some ring ∧
        (flushStep pushedTotal m).2.rxView = m.moved.rxView.flushed ring := by
  unfold flushStep Prog.ofFn
  cases hring : m.moved.uart.rxRing with
  | none =>
    left
    simp only [hring]
  | some ring =>
    simp only [hring]
    unfold Ns16550a.flush
    dsimp only
    split_ifs
    · exact Or.inl rfl
    · exact Or.inl rfl
    · exact Or.inr ⟨ring, rfl, rfl⟩
    · exact Or.inr ⟨ring, rfl, rfl⟩

/-- An iteration after which the loop goes on has taken a byte from `rx_buffer`. -/
theorem triple_flushStep (pushedTotal k : ℕ) :
    Triple (fun m => True ∧ m.uart.rxBuffer.len = k) (flushStep pushedTotal)
      (fun r m => r.elim (fun _ => True ∧ m.uart.rxBuffer.len < k) fun _ => True) F := by
  refine Triple.ofFn fun m h => ?_
  obtain ⟨-, rfl⟩ := h
  cases hring : m.moved.uart.rxRing with
  | none =>
    simp only [hring]
    trivial
  | some ring =>
    simp only [hring]
    unfold Ns16550a.flush
    dsimp only
    split_ifs with hfront hpushed hfull
    · trivial
    · trivial
    · trivial
    · have hle := m.moved.uart.rxBuffer.length_asSlices_le
      refine ⟨trivial, ?_⟩
      show (VecDeque.popFronts _ m.moved.uart.rxBuffer).len < m.moved.uart.rxBuffer.len
      unfold VecDeque.len
      rw [VecDeque.items_popFronts, List.length_drop]
      omega

/-- `process_rx_ring` always returns. -/
theorem triple_processRxRing :
    Triple (fun _ => True) processRxRing (fun _ _ => True) fun _ => False := by
  unfold processRxRing
  refine Triple.bind (Triple.get (Q := fun m₀ m => m = m₀) fun _ _ => rfl) fun m₀ => ?_
  refine Triple.ite (fun _ => ?_) fun _ => Triple.pure _ fun _ _ => trivial
  have hloop := Triple.loop_variant (I := fun _ _ => True) (Q := fun _ _ => True)
    (F := fun _ => False) (μ := fun m : Machine => m.uart.rxBuffer.len) triple_flushStep
    (m₀.uart.rxBuffer.len + 1) 0
  refine Triple.bind (hloop.mono ?_ (fun _ _ h => h) fun _ h => h) fun pushedTotal => ?_
  · rintro m rfl
    exact ⟨trivial, Nat.lt_succ_self _⟩
  · refine Triple.ite (fun _ => ?_) fun _ => Triple.pure _ fun _ _ => trivial
    refine Triple.bind (Triple.get (Q := fun _ _ => True) fun _ _ => trivial) fun m => ?_
    cases m.uart.pendingRead with
    | none => exact Triple.pure _ fun _ _ => trivial
    | some ud => exact Triple.modify fun _ _ => trivial

/-! ### Closed invariants -/

/-- `I` is kept by the events of the receive path; `J c` holds while the byte `c` has been read
and not yet been kept or dropped. -/
structure Closed (I : RxView → Prop) (J : UInt8 → RxView → Prop) : Prop where
  dlab : ∀ v, I v → v.lcr &&& lcrDlab = 0
  moved : ∀ v k, I v → I (v.moved (v.env k))
  take : ∀ v k k', I v → v.Ready k →
    J ((v.moved (v.env k')).rbr (v.env k')) ((v.moved (v.env k')).readRbr (v.env k'))
  keep : ∀ v c, J c v → v.rxBuffer.len < rxBufferSoftLimit → I (v.keep c)
  drop : ∀ v c, J c v → rxBufferSoftLimit ≤ v.rxBuffer.len → I v.drop
  flush : ∀ v ring, I v → v.rxRing = some ring → I (v.flushed ring)

namespace Closed

/-- A change outside the receive path. -/
theorem keeps_modify {f : Machine → Machine} (h : ∀ m, (f m).rxView = m.rxView) :
    Keeps (On I) (.modify f) := by
  refine Keeps.modify fun m hm => ?_
  unfold On
  rw [h m]
  exact hm

/-- An access outside the receive path. -/
theorem keeps_access {α : Type} {f : Machine → α × Machine}
    (hmoved : ∀ v k, I v → I (v.moved (v.env k)))
    (h : ∀ m, (f m).2.rxView = m.moved.rxView) : Keeps (On I) (.ofFn f) := by
  refine Keeps.ofFn fun m hm => ?_
  unfold On
  rw [h m]
  exact hmoved _ _ hm

variable (hI : Closed I J)
include hI

theorem bufferByte (c : UInt8) (drained : ℕ) :
    Triple (fun m => J c m.rxView) (bufferByte c drained) (fun _ => On I) (On I) := by
  refine Triple.ofFn fun m h => ?_
  split_ifs with hlen
  · exact hI.keep _ c h hlen
  · exact hI.drop _ c h (Nat.not_lt.mp hlen)

theorem drainStep (budget drained : ℕ) : Keeps (On I) (drainStep budget drained) := by
  unfold Uart.drainStep
  refine Keeps.ite ?_ (Keeps.pure _)
  refine Triple.bind (triple_getchar hI.dlab hI.moved hI.take fun _ _ h _ => h) fun c => ?_
  cases c with
  | none => exact Keeps.pure _
  | some c => exact Triple.bind (hI.bufferByte c drained) fun _ => Keeps.pure _

theorem flushStep (pushedTotal : ℕ) : Keeps (On I) (flushStep pushedTotal) := by
  refine Keeps.ofFn fun m h => ?_
  show I (Uart.flushStep pushedTotal m).2.rxView
  have h : I m.moved.rxView := hI.moved _ _ h
  obtain hsame | ⟨ring, hring, hflush⟩ := flushStep_cases m pushedTotal
  · rw [hsame]
    exact h
  · rw [hflush]
    exact hI.flush _ ring h hring

theorem writeThr (c : UInt8) : Keeps (On I) (writeReg Reg.thr c) := by
  refine Keeps.modify fun m h => ?_
  have hd : m.moved.chip.dlab = false := dlab_eq_false (m := m.moved) (hI.dlab m.rxView h)
  have hwrite : m.moved.writeAt c Reg.thr = m.moved.writeThr c := by
    simp only [Reg.thr, Machine.writeAt, hd, Bool.false_eq_true, if_false]
  rw [hwrite]
  exact hI.moved _ _ h

theorem popTx (n : ℕ) : Keeps (On I) (popTx n) := by
  refine keeps_access hI.moved fun m => ?_
  dsimp only
  split <;> rfl

theorem hasPendingTx : Keeps (On I) hasPendingTx := by
  refine keeps_access hI.moved fun m => ?_
  dsimp only
  split <;> rfl

theorem nextSqe : Keeps (On I) nextSqe := by
  refine keeps_access hI.moved fun m => ?_
  dsimp only
  split <;> rfl

theorem kept : KeptBySteps (On I) where
  readReg := fun hoff => keeps_readReg hoff hI.moved
  writeThr := hI.writeThr
  popTx := hI.popTx
  hasPendingTx := hI.hasPendingTx
  count := fun hdrop hbytes => by
    refine keeps_modify fun m => ?_
    simp only [Machine.rxView, hdrop, hbytes]
  complete := fun _ _ => keeps_modify fun _ => rfl
  setPendingRead := fun _ => keeps_modify fun _ => rfl
  drainStep := hI.drainStep
  flushStep := hI.flushStep

theorem wait : Keeps (On I) (.modify Machine.moved) := Keeps.modify fun _ h => hI.moved _ _ h

theorem notification (fuel : ℕ) {op : UartOp} (hop : op.IsNotification) :
    Keeps (On I) (exec fuel op) := by
  obtain rfl | rfl | rfl | rfl := hop
  · exact hI.kept.handleIrq fuel
  · exact hI.kept.handleSq hI.nextSqe fuel
  · exact hI.kept.handleCq
  · exact hI.wait

end Closed

/-- `getchar`, when a byte in hand does not matter. -/
theorem Closed.getchar (hI : Closed I fun _ => I) : Keeps (On I) getchar := by
  refine (triple_getchar (J := fun _ => I) hI.dlab hI.moved hI.take fun _ _ h _ => h).mono
    (fun _ h => h) (fun c m h => ?_) fun _ h => h
  cases c with
  | none => exact h
  | some c => exact h

end GlendaDrivers.Uart
