import GlendaDrivers.Uart.ReceiveOrder

/-!
# The interrupt enable register

`set_baud_rate` clears IER and does not set it again.

* `Line`: the values of LCR and IER; every call but `set_baud_rate` keeps them;
* `programDivisor_line`, `initHw_line`: the values after `set_baud_rate` and `init_hw`;
* `rx_enabled_iff`: the receive interrupt stays enabled iff no `set_baud_rate` returns.
-/

namespace GlendaDrivers.Uart

open Prog (Triple Keeps)

/-- LCR has the value `lcr`, and IER the value `ier`. -/
def Line (lcr ier : UInt8) (v : RxView) : Prop := v.lcr = lcr ∧ v.ier = ier

/-- LCR for 8 data bits, no parity and one stop bit. -/
def lcr8N1 : UInt8 := lcrDataBits8 ||| lcrStopBits1 ||| lcrParityNone

/-- The receive interrupts are enabled, and IER is not banked out. -/
def Machine.RxEnabled (m : Machine) : Prop :=
  m.chip.dlab = false ∧ m.chip.ier &&& ierRxEnable ≠ 0 ∧ m.chip.ier &&& ierRlsEnable ≠ 0

theorem closed_line {lcr ier : UInt8} (h : lcr &&& lcrDlab = 0) :
    Closed (Line lcr ier) fun _ => Line lcr ier where
  dlab v hv := by rw [hv.1]; exact h
  moved _ _ hv := hv
  take _ _ _ hv _ := hv
  keep _ _ hv _ := hv
  drop _ _ hv _ := hv
  flush _ _ hv _ := hv

/-! ### Register writes -/

variable {lcr ier : UInt8} {F : Machine → Prop}

theorem dlab_eq_true {m : Machine} (h : m.rxView.lcr &&& lcrDlab ≠ 0) : m.chip.dlab = true := by
  unfold Chip.dlab
  exact bne_iff_ne.mpr h

/-- A write of IER, or of DLM when the divisor latch is selected. -/
theorem triple_writeIer (val : UInt8) : Triple (On (Line lcr ier)) (writeReg Reg.ier val)
    (fun _ => On (Line lcr (if lcr &&& lcrDlab = 0 then val else ier))) F := by
  refine Triple.modify fun m h => ?_
  obtain ⟨rfl, rfl⟩ := h
  by_cases hlcr : m.rxView.lcr &&& lcrDlab = 0
  · have hd : m.moved.chip.dlab = false := dlab_eq_false (m := m) hlcr
    simp only [Reg.ier, Machine.writeAt, hd, hlcr, Bool.false_eq_true, if_false, if_true]
    exact ⟨rfl, rfl⟩
  · have hd : m.moved.chip.dlab = true := dlab_eq_true (m := m) hlcr
    simp only [Reg.ier, Machine.writeAt, hd, hlcr, if_false, if_true]
    exact ⟨rfl, rfl⟩

theorem triple_writeLcr (val : UInt8) : Triple (On (Line lcr ier)) (writeReg Reg.lcr val)
    (fun _ => On (Line val ier)) F :=
  Triple.modify fun _ h => ⟨rfl, h.2⟩

/-- A write of DLL while the divisor latch is selected. -/
theorem triple_writeDll (hlcr : lcr &&& lcrDlab ≠ 0) (val : UInt8) :
    Triple (On (Line lcr ier)) (writeReg Reg.dll val) (fun _ => On (Line lcr ier)) F := by
  refine Triple.modify fun m h => ?_
  have hd : m.moved.chip.dlab = true := dlab_eq_true (m := m) (h.1 ▸ hlcr)
  simp only [Reg.dll, Machine.writeAt, hd, if_true]
  exact h

/-- `set_baud_rate` selects 8N1, and clears IER unless the divisor latch was selected before. -/
theorem triple_programDivisor (divisor : UInt16) :
    Triple (On (Line lcr ier)) (programDivisor divisor)
      (fun _ => On (Line lcr8N1 (if lcr &&& lcrDlab = 0 then 0 else ier))) F := by
  set ier' := if lcr &&& lcrDlab = 0 then 0 else ier
  have hdlab : lcrDlab &&& lcrDlab ≠ 0 := by decide
  unfold programDivisor
  refine Triple.bind (Q := fun _ => On (Line lcr ier')) (triple_writeIer 0) fun _ => ?_
  refine Triple.bind (triple_writeLcr lcrDlab) fun _ => ?_
  refine Triple.bind (triple_writeDll hdlab _) fun _ => ?_
  refine Triple.bind (triple_writeIer _) fun _ => ?_
  rw [if_neg hdlab]
  refine Triple.bind (triple_writeLcr lcr8N1) fun _ => ?_
  refine Triple.bind (Q := fun _ => On (Line lcr8N1 ier')) (Triple.modify fun _ h => h) fun _ => ?_
  exact Triple.modify fun _ h => h

/-- `init_hw` selects 8N1 and enables the receive interrupts, from any values of the registers. -/
theorem initHw_line (m : Machine) :
    Line lcr8N1 (ierRxEnable ||| ierRlsEnable) (initHw m).2.rxView := by
  have hdiv : calculateDivisor defaultBaudRate = .ret 3 := by decide
  have h8N1 : lcr8N1 &&& lcrDlab = 0 := by decide
  refine Triple.snd (P := On (Line m.chip.lcr m.chip.ier))
    (Q := On (Line lcr8N1 (ierRxEnable ||| ierRlsEnable))) ?_ ⟨rfl, rfl⟩
  unfold initHw setBaudRate
  rw [hdiv]
  refine Triple.bind (triple_programDivisor 3) fun _ => ?_
  refine Triple.mono (triple_writeIer _) (fun _ h => h) (fun _ m' h => ?_) fun _ h => h
  rw [if_pos h8N1] at h
  exact h

/-! ### The start of the driver -/

theorem Quiet.moved {v : RxView} (h : Quiet v) (e : EnvMove) : Quiet (v.moved e) where
  rxData := by
    have hdata := h.rxData
    cases hring : v.rxRing with
    | none => simp [RxView.moved, RxView.rxData, hring]
    | some ring =>
      simp only [RxView.rxData, hring] at hdata
      simp [RxView.moved, RxView.rxData, hring, ShmRingBuffer.popSlice, hdata]
  rxBuffer := h.rxBuffer
  rxSwDrop := h.rxSwDrop
  irqRxBytes := h.irqRxBytes
  rbrReads := h.rbrReads
  popped := by simp [RxView.moved, h.popped, h.rxData]

theorem keeps_quiet_writeReg (offset : ℕ) (val : UInt8) :
    Keeps (On Quiet) (writeReg offset val) := by
  refine Keeps.modify fun m h => ?_
  have h : Quiet m.moved.rxView := Quiet.moved h _
  have hview : ∀ m' : Machine, m'.rxView = { m.moved.rxView with
      lcr := m'.chip.lcr, ier := m'.chip.ier, rxFifo := m'.chip.rxFifo } → On Quiet m' := by
    intro m' hm'
    unfold On
    rw [hm']
    exact { h with }
  apply hview
  match offset with
  | 0 | 1 =>
    dsimp only [Machine.writeAt]
    split_ifs <;> rfl
  | 2 | 3 | 4 => rfl
  | _ + 5 => rfl

/-- After `init_hw` a new driver is ready to receive. -/
theorem started_initHw {m : Machine} (hm : Quiet m.rxView) : Started (initHw m).2 where
  dlab := by
    have hlcr : (initHw m).2.chip.lcr = lcr8N1 := (initHw_line m).1
    rw [hlcr]
    decide
  quiet := by
    refine Keeps.snd (I := On Quiet) ?_ hm
    exact Keeps.bind (keeps_setBaudRate keeps_quiet_writeReg _) fun _ => keeps_quiet_writeReg _ _

theorem quiet_initial (env : ℕ → EnvMove) : Quiet (Machine.initial env).rxView :=
  ⟨rfl, rfl, rfl, rfl, rfl, rfl⟩

/-! ### Runs -/

/-- The call is a `set_baud_rate` that returns. -/
def UartOp.Reprograms : UartOp → Prop
  | .setBaudRate baud => (calculateDivisor baud).Returns
  | _ => False

theorem lcr8N1_dlab : lcr8N1 &&& lcrDlab = 0 := by decide

/-- Every other call keeps LCR and IER. -/
theorem exec_keeps_line (fuel : ℕ) {op : UartOp} (hop : ¬op.Reprograms) :
    Keeps (On (Line lcr8N1 ier)) (exec fuel op) := by
  have hI : Closed (Line lcr8N1 ier) fun _ => Line lcr8N1 ier := closed_line lcr8N1_dlab
  cases op with
  | irq => exact hI.kept.handleIrq fuel
  | sq => exact hI.kept.handleSq hI.nextSqe fuel
  | cq => exact hI.kept.handleCq
  | wait => exact hI.wait
  | write buf => exact Keeps.bind (hI.kept.write fuel buf) fun _ => Keeps.pure _
  | read len => exact Keeps.bind (keeps_readBytes hI.getchar len) fun _ => Keeps.modify fun _ h => h
  | setBaudRate baud =>
    show Keeps _ (setBaudRate baud)
    unfold setBaudRate
    cases hdiv : calculateDivisor baud with
    | ret divisor => exact absurd ⟨divisor, hdiv⟩ hop
    | panic => exact Keeps.panic
    | running => exact Triple.running fun _ h => h

theorem exec_clears_ier (fuel : ℕ) {op : UartOp} (hop : op.Reprograms) :
    Triple (On (Line lcr8N1 ier)) (exec fuel op) (fun _ => On (Line lcr8N1 0))
      (On (Line lcr8N1 0)) := by
  cases op with
  | setBaudRate baud =>
    obtain ⟨divisor, hdiv⟩ := hop
    show Triple _ (setBaudRate baud) _ _
    unfold setBaudRate
    rw [hdiv]
    refine Triple.mono (triple_programDivisor divisor) (fun _ h => h) (fun _ m' h => ?_)
      fun _ h => h
    rw [if_pos lcr8N1_dlab] at h
    exact h
  | _ => exact hop.elim

/-- After a run IER is as before, or is cleared when a call of the run was a `set_baud_rate`. -/
theorem run_line (fuel : ℕ) (ops : List UartOp) {m : Machine} (hm : Line lcr8N1 ier m.rxView) :
    ((∀ op ∈ ops, ¬op.Reprograms) ∧ Line lcr8N1 ier (run fuel ops m).rxView) ∨
      ((∃ op ∈ ops, op.Reprograms) ∧ Line lcr8N1 0 (run fuel ops m).rxView) := by
  induction ops generalizing m ier with
  | nil => exact Or.inl ⟨fun _ hop => absurd hop List.not_mem_nil, hm⟩
  | cons op ops ih =>
    by_cases hop : op.Reprograms
    · right
      refine ⟨⟨op, List.mem_cons_self, hop⟩, ?_⟩
      obtain ⟨-, h⟩ | ⟨-, h⟩ := ih ((exec_clears_ier fuel hop).snd hm)
      · exact h
      · exact h
    · obtain ⟨hops, h⟩ | ⟨⟨op', hmem, hop'⟩, h⟩ := ih ((exec_keeps_line fuel hop).snd hm)
      · exact Or.inl ⟨List.forall_mem_cons.mpr ⟨hop, hops⟩, h⟩
      · exact Or.inr ⟨⟨op', List.mem_cons_of_mem op hmem, hop'⟩, h⟩

/-- The divisor latch is never left selected. -/
theorem dlab_clear (fuel : ℕ) (ops : List UartOp) (m : Machine) :
    (run fuel ops (initHw m).2).chip.dlab = false := by
  obtain ⟨-, h⟩ | ⟨-, h⟩ := run_line fuel ops (initHw_line m)
  · exact dlab_eq_false (m := run fuel ops (initHw m).2) (h.1 ▸ lcr8N1_dlab)
  · exact dlab_eq_false (m := run fuel ops (initHw m).2) (h.1 ▸ lcr8N1_dlab)

/-- **When the receive interrupt stays enabled.**  After `init_hw` and any sequence of calls the
divisor latch is not selected and both receive interrupts are enabled iff no call of the sequence
is a `set_baud_rate` that returns. -/
theorem rx_enabled_iff (fuel : ℕ) (ops : List UartOp) (m : Machine) :
    (run fuel ops (initHw m).2).RxEnabled ↔ ∀ op ∈ ops, ¬op.Reprograms := by
  have hdlab := dlab_clear fuel ops m
  unfold Machine.RxEnabled
  obtain ⟨hops, -, hier⟩ | ⟨⟨op, hmem, hop⟩, -, hier⟩ := run_line fuel ops (initHw_line m)
  · have hier : (run fuel ops (initHw m).2).chip.ier = ierRxEnable ||| ierRlsEnable := hier
    constructor
    · intro _
      exact hops
    · intro _
      rw [hier]
      exact ⟨hdlab, by decide, by decide⟩
  · have hier : (run fuel ops (initHw m).2).chip.ier = 0 := hier
    constructor
    · rintro ⟨-, hrx, -⟩
      rw [hier] at hrx
      exact absurd (by decide) hrx
    · intro h
      exact absurd hop (h op hmem)

/-- A client that sets the baud rate disables the receive interrupt. -/
theorem set_baud_rate_disables_rx : calculateDivisor 9600 = .ret 12 ∧
    ¬(run 0 [.setBaudRate 9600] (initHw (.initial fun _ => .quiet)).2).RxEnabled := by
  refine ⟨by decide, ?_⟩
  rintro ⟨-, hrx, -⟩
  exact absurd (by decide) hrx

end GlendaDrivers.Uart
