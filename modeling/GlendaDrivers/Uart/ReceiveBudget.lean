import GlendaDrivers.Uart.TransmitFifo

/-!
# The receive budget

`drain_rx_fifo_to_sw_buffer` counts the bytes that it keeps, and not those that it drops because
`rx_buffer` has reached its limit.

* `Supply`: what the bytes to come depend on; `Supply.RunsDry` within a number of bytes;
* `Draining`: the state after some iterations of the loop, `drainStep_cases` the next one;
* `drain_bounded`, `drain_exceeds`: when the loop ends within its budget, and when it does not;
* `AtEvent`: the moments between the events of a `handle_irq`;
* `receive_budget`: the budget bounds the bytes taken exactly when it fits into the buffer or the
  supply runs dry.
-/

namespace GlendaDrivers.Uart

open Prog (Triple Keeps Increasing Total)

/-! ### The supply of bytes -/

/-- What LSR and RBR depend on. -/
structure Supply where
  env : ℕ → EnvMove
  clock : ℕ
  rxFifo : List UInt8

def Machine.supply (m : Machine) : Supply := ⟨m.env, m.clock, m.chip.rxFifo⟩

namespace Supply

/-- The environment moves. -/
def moved (s : Supply) : Supply :=
  { s with
    clock := s.clock + 1
    rxFifo := s.rxFifo ++ (s.env s.clock).arrive }

/-- LSR, read next, reports a byte. -/
def Ready (s : Supply) : Prop := (s.env s.clock).lsr s.moved.rxFifo &&& lsrDataReady ≠ 0

/-- LSR and RBR are read. -/
def next (s : Supply) : Supply := { s.moved.moved with rxFifo := s.moved.moved.rxFifo.tail }

/-- LSR reports no byte, after at most `k` bytes have been taken. -/
def RunsDry (s : Supply) (k : ℕ) : Prop := ∃ j ≤ k, ¬(next^[j] s).Ready

end Supply

/-- The number of reads of RBR. -/
def Machine.taken (m : Machine) : ℕ := m.log.rbrReads.length

theorem readReg_lsr (m : Machine) :
    readReg Reg.lsr m = (.ret (m.move.lsr m.moved.chip.rxFifo), m.moved) := rfl

/-- `getchar` takes a byte when LSR reports one. -/
theorem getchar_cases {m : Machine} (hdlab : m.chip.lcr &&& lcrDlab = 0) :
    (¬m.supply.Ready ∧ getchar m = (.ret none, m.moved)) ∨
      (m.supply.Ready ∧ ∃ c m', getchar m = (.ret (some c), m') ∧ m'.supply = m.supply.next ∧
        m'.taken = m.taken + 1 ∧ m'.uart.rxBuffer = m.uart.rxBuffer ∧
        m'.chip.lcr = m.chip.lcr) := by
  have hd : m.moved.moved.chip.dlab = false := dlab_eq_false (m := m) hdlab
  have hrbr : readReg Reg.rbr m.moved =
      (.ret (m.moved.moved.readRbr m.moved.move).1, (m.moved.moved.readRbr m.moved.move).2) := by
    have hread : m.moved.moved.readAt m.moved.move Reg.rbr =
        m.moved.moved.readRbr m.moved.move := by
      simp only [Reg.rbr, Machine.readAt, hd, Bool.false_eq_true, if_false]
    show (Outcome.ret (m.moved.moved.readAt m.moved.move Reg.rbr).1,
      (m.moved.moved.readAt m.moved.move Reg.rbr).2) = _
    rw [hread]
  unfold getchar
  rw [Prog.bind_of_ret (readReg_lsr m)]
  by_cases hready : m.supply.Ready
  · right
    have hlsr : m.move.lsr m.moved.chip.rxFifo &&& lsrDataReady ≠ 0 := hready
    rw [if_pos hlsr]
    refine ⟨hready, _, _, Prog.bind_of_ret hrbr, rfl, ?_, rfl, rfl⟩
    show (m.log.rbrReads ++ [_]).length = m.log.rbrReads.length + 1
    rw [List.length_append, List.length_singleton]
  · left
    have hlsr : ¬m.move.lsr m.moved.chip.rxFifo &&& lsrDataReady ≠ 0 := hready
    rw [if_neg hlsr]
    exact ⟨hready, rfl⟩

/-- A byte is kept or dropped. -/
theorem bufferByte_cases (c : UInt8) (drained : ℕ) (m : Machine) : ∃ drained' m',
    bufferByte c drained m = (.ret drained', m') ∧ m'.supply = m.supply ∧ m'.taken = m.taken ∧
      m'.chip.lcr = m.chip.lcr ∧
        (m.uart.rxBuffer.len < rxBufferSoftLimit ∧ drained' = drained + 1 ∧
            m'.uart.rxBuffer.len = m.uart.rxBuffer.len + 1 ∨
          rxBufferSoftLimit ≤ m.uart.rxBuffer.len ∧ drained' = drained ∧
            m'.uart.rxBuffer.len = m.uart.rxBuffer.len) := by
  unfold bufferByte Prog.ofFn
  by_cases hfree : m.uart.rxBuffer.len < rxBufferSoftLimit
  · simp only [hfree, if_true]
    refine ⟨_, _, rfl, rfl, rfl, rfl, Or.inl ⟨trivial, rfl, ?_⟩⟩
    show (m.uart.rxBuffer.pushBack c).len = _
    unfold VecDeque.len
    rw [VecDeque.items_pushBack, List.length_append, List.length_singleton]
  · simp only [hfree, if_false]
    exact ⟨_, _, rfl, rfl, rfl, rfl, Or.inr ⟨Nat.not_lt.mp hfree, rfl, rfl⟩⟩

/-! ### The loop -/

/-- From a state with the supply `s`, `taken` reads of RBR and `len` bytes in `rx_buffer`, `i`
bytes have been taken and `drained` of them kept. -/
structure Draining (s : Supply) (taken len i drained : ℕ) (m : Machine) : Prop where
  supply : m.supply = Supply.next^[i] s
  taken : m.taken = taken + i
  buffer : m.uart.rxBuffer.len = len + drained
  dlab : m.chip.lcr &&& lcrDlab = 0

section Loop

variable {s : Supply} {taken len i drained budget : ℕ} {m : Machine}

theorem drainStep_cases (budget : ℕ) (h : Draining s taken len i drained m) :
    (budget ≤ drained ∧ drainStep budget drained m = (.ret (.inr drained), m)) ∨
      (drained < budget ∧ ¬(Supply.next^[i] s).Ready ∧
        drainStep budget drained m = (.ret (.inr drained), m.moved)) ∨
      (drained < budget ∧ (Supply.next^[i] s).Ready ∧ ∃ drained' m',
        drainStep budget drained m = (.ret (.inl drained'), m') ∧
          Draining s taken len (i + 1) drained' m' ∧
            (len + drained < rxBufferSoftLimit ∧ drained' = drained + 1 ∨
              rxBufferSoftLimit ≤ len + drained ∧ drained' = drained)) := by
  rcases Nat.lt_or_ge drained budget with hlt | hle
  swap
  · refine Or.inl ⟨hle, ?_⟩
    unfold drainStep
    rw [if_neg (Nat.not_lt.mpr hle)]
    rfl
  unfold drainStep
  rw [if_pos hlt]
  obtain ⟨hready, hget⟩ | ⟨hready, c, m₁, hget, hsupply, htaken, hbuffer, hlcr⟩ :=
    getchar_cases h.dlab
  · rw [h.supply] at hready
    exact Or.inr (Or.inl ⟨hlt, hready, Prog.bind_of_ret hget⟩)
  · rw [h.supply] at hready
    refine Or.inr (Or.inr ⟨hlt, hready, ?_⟩)
    rw [Prog.bind_of_ret hget]
    obtain ⟨drained', m₂, hbyte, hsupply₂, htaken₂, hlcr₂, hcase⟩ := bufferByte_cases c drained m₁
    refine ⟨drained', m₂, Prog.bind_of_ret hbyte, ⟨?_, ?_, ?_, ?_⟩, ?_⟩
    · rw [hsupply₂, hsupply, h.supply, Function.iterate_succ_apply']
    · rw [htaken₂, htaken, h.taken, Nat.add_assoc]
    · rw [hbuffer, h.buffer] at hcase
      omega
    · rw [hlcr₂, hlcr]
      exact h.dlab
    · rw [hbuffer, h.buffer] at hcase
      exact hcase.imp (fun h => ⟨h.1, h.2.1⟩) fun h => ⟨h.1, h.2.1⟩

/-- When `bound` bytes use up the budget or the supply, the loop ends after at most so many. -/
theorem drainLoop_returns {bound : ℕ}
    (hbound : len + budget ≤ rxBufferSoftLimit ∧ bound = budget ∨
      ¬(Supply.next^[bound] s).Ready)
    (h : Draining s taken len i drained m) (hi : i ≤ bound)
    (hdrained : len + budget ≤ rxBufferSoftLimit → drained = i) :
    ∃ fuel n m', Prog.loop (drainStep budget) fuel drained m = (.ret n, m') ∧
      m'.taken ≤ taken + bound := by
  have hlast : ∀ {n : ℕ} {m' : Machine}, drainStep budget drained m = (.ret (.inr n), m') →
      m'.taken ≤ taken + bound → ∃ fuel n m',
        Prog.loop (drainStep budget) fuel drained m = (.ret n, m') ∧ m'.taken ≤ taken + bound :=
    fun hstep hle => ⟨1, _, _, Prog.bind_of_ret hstep, hle⟩
  have htaken := h.taken
  induction hk : bound - i generalizing i drained m with
  | zero =>
    obtain ⟨-, hstep⟩ | ⟨-, -, hstep⟩ | ⟨hlt, hready, -⟩ := drainStep_cases budget h
    · exact hlast hstep (by omega)
    · exact hlast hstep (show m.taken ≤ _ by omega)
    · have hbi : bound = i := by omega
      obtain ⟨hfits, hb⟩ | hdry := hbound
      · have := hdrained hfits
        omega
      · rw [hbi] at hdry
        exact absurd hready hdry
  | succ k ih =>
    obtain ⟨-, hstep⟩ | ⟨-, -, hstep⟩ | ⟨hlt, -, drained', m', hstep, hnext, hcase⟩ :=
      drainStep_cases budget h
    · exact hlast hstep (by omega)
    · exact hlast hstep (show m.taken ≤ _ by omega)
    · have hdrained' : len + budget ≤ rxBufferSoftLimit → drained' = i + 1 := by
        intro hfits
        have := hdrained hfits
        omega
      obtain ⟨fuel, n, m'', hloop, hle⟩ := ih hnext (by omega) hdrained'
        (fun hstep hle => ⟨1, _, _, Prog.bind_of_ret hstep, hle⟩) hnext.taken (by omega)
      exact ⟨fuel + 1, n, m'', (Prog.bind_of_ret hstep).trans hloop, hle⟩

/-- When the budget does not fit into the buffer, the loop goes on while the supply lasts. -/
theorem drainLoop_exceeds {bound : ℕ} (hready : ∀ j ≤ bound, (Supply.next^[j] s).Ready)
    (hfull : rxBufferSoftLimit - len < budget) (h : Draining s taken len i drained m)
    (hdrained : drained ≤ rxBufferSoftLimit - len) {fuel n : ℕ} {m' : Machine}
    (hloop : Prog.loop (drainStep budget) fuel drained m = (.ret n, m')) :
    taken + bound < m'.taken := by
  induction fuel generalizing i drained m with
  | zero => cases hloop
  | succ fuel ih =>
    unfold Prog.loop at hloop
    obtain ⟨hle, -⟩ | ⟨-, hdry, hstep⟩ | ⟨-, -, drained', m₁, hstep, hnext, hcase⟩ :=
      drainStep_cases budget h
    · omega
    · rw [Prog.bind_of_ret hstep] at hloop
      obtain rfl : m.moved = m' := (Prod.mk.inj hloop).2
      have hi : bound < i := by
        by_contra hi
        exact hdry (hready i (Nat.not_lt.mp hi))
      have htaken := h.taken
      show _ < m.taken
      omega
    · rw [Prog.bind_of_ret hstep] at hloop
      exact ih hnext (by omega) hloop

end Loop

/-! ### The function -/

/-- The budget fits into the buffer, or the supply runs dry within the budget. -/
def Machine.Bounded (m : Machine) (budget : ℕ) : Prop :=
  budget = 0 ∨ m.uart.rxBuffer.len + budget ≤ rxBufferSoftLimit ∨ m.supply.moved.RunsDry budget

section Drain

variable {m : Machine} (hdlab : m.chip.lcr &&& lcrDlab = 0)

theorem recordLsrErrors_ret (hdlab : m.chip.lcr &&& lcrDlab = 0) : ∃ m₁,
    recordLsrErrors m = (.ret ⟨⟩, m₁) ∧
      Draining m.supply.moved m.taken m.uart.rxBuffer.len 0 0 m₁ := by
  unfold recordLsrErrors
  rw [Prog.bind_of_ret (readReg_lsr m)]
  unfold Prog.when
  split_ifs
  · exact ⟨_, rfl, rfl, rfl, rfl, hdlab⟩
  · exact ⟨_, rfl, rfl, rfl, rfl, hdlab⟩

theorem checkRxBudget_ret (budget drained : ℕ) (m : Machine) : ∃ m₁,
    checkRxBudget budget drained m = (.ret ⟨⟩, m₁) ∧ m₁.taken = m.taken := by
  unfold checkRxBudget
  by_cases hle : budget ≤ drained
  · unfold Prog.when
    rw [if_pos hle, Prog.bind_of_ret (readReg_lsr m)]
    split_ifs
    · exact ⟨_, rfl, rfl⟩
    · exact ⟨_, rfl, rfl⟩
  · unfold Prog.when
    rw [if_neg hle]
    exact ⟨m, rfl, rfl⟩

include hdlab

theorem drain_bounded {budget : ℕ} (h : m.Bounded budget) : ∃ fuel n m',
    drainRxFifoToSwBuffer fuel budget m = (.ret n, m') ∧ m'.taken ≤ m.taken + budget := by
  by_cases hzero : budget = 0
  · refine ⟨0, 0, m, ?_, Nat.le_add_right _ _⟩
    unfold drainRxFifoToSwBuffer
    rw [if_pos hzero]
    rfl
  obtain ⟨m₁, hrecord, hstart⟩ := recordLsrErrors_ret hdlab
  have hbound : ∃ bound ≤ budget, m.uart.rxBuffer.len + budget ≤ rxBufferSoftLimit ∧
      bound = budget ∨ ¬(Supply.next^[bound] m.supply.moved).Ready := by
    obtain h | h | ⟨j, hj, hdry⟩ := h
    · exact absurd h hzero
    · exact ⟨budget, le_rfl, Or.inl ⟨h, rfl⟩⟩
    · exact ⟨j, hj, Or.inr hdry⟩
  obtain ⟨bound, hle, hbound⟩ := hbound
  obtain ⟨fuel, n, m₂, hloop, htaken⟩ :=
    drainLoop_returns hbound hstart (Nat.zero_le _) fun _ => rfl
  obtain ⟨m₃, hcheck, hsame⟩ := checkRxBudget_ret budget n m₂
  refine ⟨fuel, n, m₃, ?_, by omega⟩
  unfold drainRxFifoToSwBuffer
  rw [if_neg hzero, Prog.bind_of_ret hrecord, Prog.bind_of_ret hloop, Prog.bind_of_ret hcheck]
  rfl

theorem drain_exceeds {budget bound : ℕ} (hfull : rxBufferSoftLimit - m.uart.rxBuffer.len < budget)
    (hready : ∀ j ≤ bound, (Supply.next^[j] m.supply.moved).Ready) {fuel n : ℕ} {m' : Machine}
    (hret : drainRxFifoToSwBuffer fuel budget m = (.ret n, m')) : m.taken + bound < m'.taken := by
  obtain ⟨m₁, hrecord, hstart⟩ := recordLsrErrors_ret hdlab
  unfold drainRxFifoToSwBuffer at hret
  rw [if_neg (Nat.ne_zero_of_lt hfull), Prog.bind_of_ret hrecord] at hret
  obtain ⟨drained, m₂, hloop, hrest⟩ := Prog.bind_eq_ret.mp hret
  obtain ⟨m₃, hcheck, hsame⟩ := checkRxBudget_ret budget drained m₂
  rw [Prog.bind_of_ret hcheck] at hrest
  obtain rfl : m₃ = m' := (Prod.mk.inj hrest).2
  rw [hsame]
  exact drainLoop_exceeds hready hfull hstart (Nat.zero_le _) hloop

/-- A drain ends and takes at most `budget` bytes exactly in these states. -/
theorem drain_iff (budget : ℕ) : (∃ fuel n m',
    drainRxFifoToSwBuffer fuel budget m = (.ret n, m') ∧ m'.taken ≤ m.taken + budget) ↔
      m.Bounded budget := by
  refine ⟨?_, drain_bounded hdlab⟩
  rintro ⟨fuel, n, m', hret, hle⟩
  by_contra hbounded
  simp only [Machine.Bounded, Supply.RunsDry, not_or, not_exists, not_and, not_not] at hbounded
  obtain ⟨hpos, hfull, hready⟩ := hbounded
  have hlt := drain_exceeds hdlab (by omega) hready hret
  omega

end Drain

/-! ### The events of an interrupt -/

/-- The interrupt identification asks for a receive drain. -/
def IsRx (id : UInt8) : Prop := id = iirRxDataReady ∨ id = iirTimeout ∨ id = iirRls

instance : DecidablePred IsRx := fun id =>
  inferInstanceAs (Decidable (id = iirRxDataReady ∨ id = iirTimeout ∨ id = iirRls))

/-- The moments between the events of a `handle_irq` that began at `m₀`, with the number of events
handled, and of bytes that the receive events among them have taken. -/
inductive AtEvent (m₀ : Machine) : ℕ → ℕ → Machine → Prop
  | start : AtEvent m₀ 0 0 m₀
  | event {k taken fuel : ℕ} {m m₁ m₂ : Machine} {iir : UInt8} {received : Bool}
      (h : AtEvent m₀ k taken m) (hk : k < irqEventBudget)
      (hiir : readReg Reg.iir m = (.ret iir, m₁)) (hpending : iir &&& iirNoInterrupt = 0)
      (hevent : irqEvent fuel (iir &&& iirIdMask) m₁ = (.ret received, m₂)) :
      AtEvent m₀ (k + 1)
        (taken + if IsRx (iir &&& iirIdMask) then m₂.taken - m₁.taken else 0) m₂

/-- A receive event finds a budget that bounds its drain, and a transmit event ends. -/
def EventEnds (id : UInt8) (m : Machine) : Prop :=
  (IsRx id → m.Bounded rxIrqBudgetBytes) ∧
    (id = iirThrEmpty → ∃ fuel n m', processTxRing fuel txIrqBudgetBytes m = (.ret n, m'))

/-- Whatever event comes next, it ends. -/
def NextEnds (m : Machine) : Prop :=
  ∀ iir m₁, readReg Reg.iir m = (.ret iir, m₁) → iir &&& iirNoInterrupt = 0 →
    EventEnds (iir &&& iirIdMask) m₁

theorem closed_dlab :
    Closed (fun v => v.lcr &&& lcrDlab = 0) fun _ v => v.lcr &&& lcrDlab = 0 where
  dlab _ h := h
  moved _ _ h := h
  take _ _ _ h _ := h
  keep _ _ h _ := h
  drop _ _ h _ := h
  flush _ _ h _ := h

theorem increasing_irqEvent (id : UInt8) : Increasing fun fuel => irqEvent fuel id := by
  unfold irqEvent
  refine Increasing.ite (Increasing.bind (Increasing.const _) fun _ => ?_)
    (Increasing.ite ?_ (Increasing.const _))
  · exact Increasing.bind (increasing_drain _) fun _ => Increasing.const _
  · exact Increasing.bind (increasing_processTxRing _) fun _ => Increasing.const _

theorem increasing_irqEvents (events : ℕ) (hasData : Bool) :
    Increasing fun fuel => irqEvents fuel events hasData := by
  induction events generalizing hasData with
  | zero => exact Increasing.const _
  | succ events ih =>
    unfold irqEvents
    refine Increasing.bind (Increasing.const _) fun iir => Increasing.ite (Increasing.const _) ?_
    exact Increasing.bind (increasing_irqEvent _) fun received => ih _

/-- A receive event drains the chip. -/
theorem irqEvent_rx {id : UInt8} (hid : IsRx id) (m : Machine) : ∃ m₁ : Machine,
    m₁.taken = m.taken ∧ m₁.chip = m.chip ∧ (∀ budget, m₁.Bounded budget ↔ m.Bounded budget) ∧
      ∀ fuel, irqEvent fuel id m = (do
        let drained ← drainRxFifoToSwBuffer fuel rxIrqBudgetBytes
        pure (decide (0 < drained)) : Prog Machine Bool) m₁ := by
  refine ⟨(count (fun s => { s with irqRxBatches := s.irqRxBatches + 1 }) m).2, rfl, rfl,
    fun _ => Iff.rfl, fun fuel => ?_⟩
  unfold irqEvent
  unfold IsRx at hid
  rw [if_pos hid]
  rfl

section Events

variable {m₀ m : Machine} {k taken : ℕ} {id : UInt8}

theorem irqEvent_returns (hdlab : m.chip.lcr &&& lcrDlab = 0) (h : EventEnds id m) :
    ∃ fuel received m', irqEvent fuel id m = (.ret received, m') := by
  by_cases hid : IsRx id
  · obtain ⟨m₁, -, hchip, hbounded, hevent⟩ := irqEvent_rx hid m
    obtain ⟨fuel, n, m', hret, -⟩ := drain_bounded (m := m₁) (by rw [hchip]; exact hdlab)
      ((hbounded _).mpr (h.1 hid))
    refine ⟨fuel, decide (0 < n), m', ?_⟩
    rw [hevent, Prog.bind_of_ret hret]
    rfl
  · unfold IsRx at hid
    unfold irqEvent
    by_cases hthr : id = iirThrEmpty
    · obtain ⟨fuel, n, m', hret⟩ := h.2 hthr
      refine ⟨fuel, false, m', ?_⟩
      rw [if_neg hid, if_pos hthr, Prog.bind_of_ret hret]
      rfl
    · obtain ⟨m', hret, -⟩ := recordLsrErrors_ret hdlab
      refine ⟨0, false, m', ?_⟩
      rw [if_neg hid, if_neg hthr, Prog.bind_of_ret hret]
      rfl

theorem irqEvent_taken {fuel : ℕ} {received : Bool} {m' : Machine}
    (hdlab : m.chip.lcr &&& lcrDlab = 0) (hid : IsRx id) (h : m.Bounded rxIrqBudgetBytes)
    (hret : irqEvent fuel id m = (.ret received, m')) :
    m'.taken ≤ m.taken + rxIrqBudgetBytes := by
  obtain ⟨m₁, htaken, hchip, hbounded, hevent⟩ := irqEvent_rx hid m
  rw [hevent] at hret
  obtain ⟨n, m₂, hdrain, hlast⟩ := Prog.bind_eq_ret.mp hret
  obtain rfl : m₂ = m' := (Prod.mk.inj hlast).2
  obtain ⟨fuel', n', m₃, hret', hle⟩ := drain_bounded (m := m₁) (by rw [hchip]; exact hdlab)
    ((hbounded _).mpr h)
  obtain ⟨-, rfl⟩ := (increasing_drain rxIrqBudgetBytes).unique hdrain hret'
  rwa [htaken] at hle

/-- What the steps of the driver keep is kept by the events. -/
theorem AtEvent.keeps {I : Machine → Prop} (hI : KeptBySteps I) (hm₀ : I m₀)
    (h : AtEvent m₀ k taken m) : I m := by
  induction h with
  | start => exact hm₀
  | @event k taken fuel m m₁ m₂ iir received _ _ hiir _ hevent ih =>
    exact (hI.irqEvent fuel _).of_run ((hI.readReg (by decide)).of_run ih hiir) hevent

theorem AtEvent.dlab (hdlab : m₀.chip.lcr &&& lcrDlab = 0) (h : AtEvent m₀ k taken m) :
    m.chip.lcr &&& lcrDlab = 0 := h.keeps closed_dlab.kept hdlab

theorem AtEvent.le (h : AtEvent m₀ k taken m) : k ≤ irqEventBudget := by
  cases h with
  | start => exact Nat.zero_le _
  | event _ hk => exact hk

variable (hdlab : m₀.chip.lcr &&& lcrDlab = 0)
  (hends : ∀ k taken m, AtEvent m₀ k taken m → k < irqEventBudget → NextEnds m)
include hdlab hends

/-- The receive events take no more than their budgets. -/
theorem AtEvent.taken_le (h : AtEvent m₀ k taken m) : taken ≤ k * rxIrqBudgetBytes := by
  induction h with
  | start => exact Nat.zero_le _
  | @event k taken fuel m m₁ m₂ iir received h hk hiir hpending hevent ih =>
    have hd : m₁.chip.lcr &&& lcrDlab = 0 :=
      (closed_dlab.kept.readReg (by decide)).of_run (h.dlab hdlab) hiir
    have hstep : (if IsRx (iir &&& iirIdMask) then m₂.taken - m₁.taken else 0) ≤
        rxIrqBudgetBytes := by
      split_ifs with hid
      · have := irqEvent_taken hd hid ((hends _ _ _ h hk iir m₁ hiir hpending).1 hid) hevent
        omega
      · exact Nat.zero_le _
    rw [Nat.succ_mul]
    exact Nat.add_le_add ih hstep

theorem irqEvents_returns {events : ℕ} (h : AtEvent m₀ k taken m) (hk : k + events = irqEventBudget)
    (hasData : Bool) : ∃ fuel b m', irqEvents fuel events hasData m = (.ret b, m') := by
  induction events generalizing k taken m hasData with
  | zero => exact ⟨0, _, _, rfl⟩
  | succ events ih =>
    have hiir : readReg Reg.iir m = (.ret m.move.iir, m.moved) := rfl
    by_cases hpending : m.move.iir &&& iirNoInterrupt = 0
    · have hd : m.chip.lcr &&& lcrDlab = 0 := h.dlab hdlab
      obtain ⟨fuel, received, m₂, hevent⟩ := irqEvent_returns (m := m.moved) hd
        (hends _ _ _ h (by omega) _ _ hiir hpending)
      obtain ⟨fuel', b, m', hret⟩ := ih (h.event (by omega) hiir hpending hevent) (by omega)
        (hasData || received)
      refine ⟨max fuel fuel', b, m', ?_⟩
      unfold irqEvents
      rw [Prog.bind_of_ret hiir, if_neg (not_not.mpr hpending),
        Prog.bind_of_ret (increasing_irqEvent _ _ _ (le_max_left fuel fuel') _ _ _ hevent)]
      exact increasing_irqEvents events _ _ _ (le_max_right fuel fuel') _ _ _ hret
    · refine ⟨0, hasData, m.moved, ?_⟩
      unfold irqEvents
      rw [Prog.bind_of_ret hiir, if_pos hpending]
      rfl

end Events

/-- When the loop of `handle_irq` ends, it is at a moment between events, up to a look at IIR. -/
theorem irqEvents_atEvent {m₀ m m' : Machine} {k taken events fuel : ℕ} {hasData b : Bool}
    (h : AtEvent m₀ k taken m) (hk : k + events = irqEventBudget)
    (hret : irqEvents fuel events hasData m = (.ret b, m')) :
    ∃ k' taken' m₁, AtEvent m₀ k' taken' m₁ ∧ m'.taken = m₁.taken := by
  induction events generalizing k taken m hasData with
  | zero =>
    obtain ⟨_, m₁, hcount, hlast⟩ := Prog.bind_eq_ret.mp hret
    obtain rfl : m₁ = m' := (Prod.mk.inj hlast).2
    obtain rfl := (Prod.mk.inj hcount).2
    exact ⟨k, taken, m, h, rfl⟩
  | succ events ih =>
    have hiir : readReg Reg.iir m = (.ret m.move.iir, m.moved) := rfl
    unfold irqEvents at hret
    rw [Prog.bind_of_ret hiir] at hret
    by_cases hpending : m.move.iir &&& iirNoInterrupt = 0
    · rw [if_neg (not_not.mpr hpending)] at hret
      obtain ⟨received, m₂, hevent, hrest⟩ := Prog.bind_eq_ret.mp hret
      exact ih (h.event (by omega) hiir hpending hevent) (by omega) hrest
    · rw [if_pos hpending] at hret
      obtain rfl : m.moved = m' := (Prod.mk.inj hret).2
      exact ⟨k, taken, m, h, rfl⟩

/-- The final flush reads no register. -/
theorem keeps_taken (n : ℕ) (hasData : Bool) :
    Keeps (fun m => m.taken = n) (flushIfBuffered hasData) := by
  have hflush : ∀ pushedTotal, Keeps (fun m => m.taken = n) (flushStep pushedTotal) := by
    intro pushedTotal m hm
    have hreads : (flushStep pushedTotal m).2.rxView.rbrReads = m.rxView.rbrReads := by
      obtain hsame | ⟨ring, -, hflush⟩ := flushStep_cases m pushedTotal
      · rw [hsame]
        rfl
      · rw [hflush]
        rfl
    exact (congrArg List.length hreads).trans hm
  unfold flushIfBuffered processRxRing completePendingRead
  refine Keeps.bind Keeps.get fun m => Keeps.when (Keeps.bind Keeps.get fun m => Keeps.when ?_)
  refine Keeps.bind (Keeps.loop hflush _ 0) fun pushedTotal => Keeps.when ?_
  refine Keeps.bind Keeps.get fun m => ?_
  cases m.uart.pendingRead with
  | none => exact Keeps.pure _
  | some ud => exact Keeps.modify fun _ h => h

/-! ### The bound -/

/-- **The receive budget.**  A drain ends after taking at most `budget` bytes from RBR exactly when
the budget fits into `rx_buffer` or the supply runs dry within it.  When this holds for the
receive events of a `handle_irq`, and its transmit events end, the call returns, and its receive
events take at most `IRQ_EVENT_BUDGET * RX_IRQ_BUDGET_BYTES` bytes. -/
theorem receive_budget (m₀ : Machine) (hdlab : m₀.chip.lcr &&& lcrDlab = 0) :
    (∀ budget, (∃ fuel n m', drainRxFifoToSwBuffer fuel budget m₀ = (.ret n, m') ∧
        m'.taken ≤ m₀.taken + budget) ↔ m₀.Bounded budget) ∧
      ((∀ k taken m, AtEvent m₀ k taken m → k < irqEventBudget → NextEnds m) →
        (∃ bound, ∀ fuel, bound ≤ fuel → ∃ m', handleIrq fuel m₀ = (.ret ⟨⟩, m')) ∧
          (∀ k taken m, AtEvent m₀ k taken m →
            taken ≤ k * rxIrqBudgetBytes ∧ k ≤ irqEventBudget) ∧
          ∀ fuel m', handleIrq fuel m₀ = (.ret ⟨⟩, m') → ∃ k taken m, AtEvent m₀ k taken m ∧
            m'.taken = m.taken ∧ taken ≤ irqEventBudget * rxIrqBudgetBytes) := by
  refine ⟨drain_iff hdlab, fun hends => ⟨?_, ?_, ?_⟩⟩
  · obtain ⟨bound, hasData, m, hret⟩ :=
      irqEvents_returns hdlab hends .start (Nat.zero_add _) false
    obtain ⟨_, _, m', hflush⟩ :=
      when_processRxRing_returns (hasData ∨ m.uart.rxBuffer.len ≠ 0) m
    refine ⟨bound, fun fuel hfuel => ⟨m', ?_⟩⟩
    unfold handleIrq
    rw [Prog.bind_of_ret (increasing_irqEvents _ _ _ _ hfuel _ _ _ hret)]
    exact hflush
  · exact fun k taken m h => ⟨h.taken_le hdlab hends, h.le⟩
  · intro fuel m' hret
    obtain ⟨hasData, m₁, hevents, hflush⟩ := Prog.bind_eq_ret.mp hret
    obtain ⟨k, taken, m, h, htaken⟩ := irqEvents_atEvent .start (Nat.zero_add _) hevents
    have hsame : m'.taken = m₁.taken := (keeps_taken m₁.taken hasData).of_run rfl hflush
    refine ⟨k, taken, m, h, hsame.trans htaken, (h.taken_le hdlab hends).trans ?_⟩
    exact Nat.mul_le_mul_right _ h.le

/-- The interrupt of `sender` ends. -/
theorem receive_budget_sender :
    (∃ fuel n m', drainRxFifoToSwBuffer fuel rxIrqBudgetBytes sender = (.ret n, m') ∧
      m'.taken ≤ sender.taken + rxIrqBudgetBytes) ∧
    ∃ bound, ∀ fuel, bound ≤ fuel → ∃ m', handleIrq fuel sender = (.ret ⟨⟩, m') := by
  have hdlab : sender.chip.lcr &&& lcrDlab = 0 := by decide
  have h := receive_budget sender hdlab
  refine ⟨(h.1 _).mpr (Or.inr (Or.inl (by decide))), (h.2 fun k taken m hm _ iir m₁ hiir _ => ?_).1⟩
  have hstart : On (fun v => v.lcr &&& lcrDlab = 0 ∧ v.env = sending) sender := ⟨hdlab, rfl⟩
  have hm : On (fun v => v.lcr &&& lcrDlab = 0 ∧ v.env = sending) m :=
    hm.keeps progress_sending.kept hstart
  have hm₁ : On (fun v => v.lcr &&& lcrDlab = 0 ∧ v.env = sending) m₁ :=
    (progress_sending.kept.readReg (by decide)).of_run hm hiir
  constructor
  · intro _
    refine Or.inr (Or.inr ⟨0, Nat.zero_le _, ?_⟩)
    have henv : m₁.env = sending := hm₁.2
    show ¬(m₁.env _).lsr _ &&& lsrDataReady ≠ 0
    rw [henv]
    show ¬lsrThrEmpty &&& lsrDataReady ≠ 0
    decide
  · intro _
    obtain ⟨fuel, n, m', hret, -⟩ := processTxRing_total progress_sending txIrqBudgetBytes m₁ hm₁
    exact ⟨fuel, n, m', hret⟩

/-- A received byte is always at hand, and `rx_buffer` has reached its limit. -/
def flooded : Machine :=
  { Machine.initial fun _ =>
      { EnvMove.quiet with lsr := fun _ => lsrThrEmpty ||| lsrDataReady } with
    uart :=
      { Ns16550a.new with
        rxBuffer := ⟨4096, 0, List.replicate 4096 0, by decide, by rw [List.length_replicate]⟩ } }

/-- Then the drain of an interrupt never ends. -/
theorem drain_flooded : flooded.chip.lcr &&& lcrDlab = 0 ∧
    flooded.uart.rxBuffer.len = rxBufferSoftLimit ∧
      (∀ fuel n m', drainRxFifoToSwBuffer fuel rxIrqBudgetBytes flooded ≠ (.ret n, m')) ∧
        ¬∃ fuel n m', drainRxFifoToSwBuffer fuel rxIrqBudgetBytes flooded = (.ret n, m') ∧
          m'.taken ≤ flooded.taken + rxIrqBudgetBytes := by
  have hdlab : flooded.chip.lcr &&& lcrDlab = 0 := by decide
  have hlen : flooded.uart.rxBuffer.len = rxBufferSoftLimit := List.length_replicate
  have hready : ∀ j, (Supply.next^[j] flooded.supply.moved).Ready := by
    have henv : ∀ j, (Supply.next^[j] flooded.supply.moved).env = flooded.env := by
      intro j
      induction j with
      | zero => rfl
      | succ j ih =>
        rw [Function.iterate_succ_apply']
        exact ih
    intro j
    unfold Supply.Ready
    rw [henv]
    show (lsrThrEmpty ||| lsrDataReady) &&& lsrDataReady ≠ 0
    decide
  have hnever : ∀ fuel n m',
      drainRxFifoToSwBuffer fuel rxIrqBudgetBytes flooded ≠ (.ret n, m') := by
    intro fuel n m' hret
    have hfull : rxBufferSoftLimit - flooded.uart.rxBuffer.len < rxIrqBudgetBytes := by
      rw [hlen]
      decide
    have hmore := drain_exceeds hdlab hfull (fun j (_ : j ≤ m'.taken) => hready j) hret
    exact Nat.not_le_of_lt hmore (Nat.le_add_left _ _)
  exact ⟨hdlab, hlen, hnever, fun ⟨fuel, n, m', hret, _⟩ => hnever fuel n m' hret⟩

end GlendaDrivers.Uart
