import GlendaDrivers.Uart.Transmit

/-!
# The transmit path is a lossless FIFO

* `triple_handleIrq`, `triple_handleSq`: what every call of `process_tx_ring` leaves is left by
  the notifications;
* `Returned`: a notification that was handled; its transitive closure are the runs;
* `Progress`: the transmitter gets ready, and the nested receive drains end;
* `processTxRing_total`: then `process_tx_ring` returns;
* `uart_tx_fifo`: the bytes written to THR, followed by the TX ring, are those pushed.
-/

namespace GlendaDrivers.Uart

open Prog (Triple Keeps Increasing Total)

/-! ### Notifications -/

section Notifications

variable {P F : Machine → Prop} (hrec : KeptByReceive P) (hF : ∀ m, P m → F m)
  (htx : ∀ fuel budget, Triple P (processTxRing fuel budget) (fun _ => P) F)
include hrec hF htx

theorem triple_irqEvents (fuel events : ℕ) (hasData : Bool) :
    Triple P (irqEvents fuel events hasData) (fun _ => P) F := by
  induction events generalizing hasData with
  | zero =>
    refine Keeps.triple ?_ hF
    exact Keeps.bind (hrec.count (fun _ => rfl) fun _ => rfl) fun _ => Keeps.pure _
  | succ events ih =>
    refine Triple.bind (Keeps.triple (hrec.readReg (by decide)) hF) fun iir => ?_
    refine Triple.ite (fun _ => Triple.pure _ fun _ h => h) fun _ => ?_
    refine Triple.bind (Q := fun _ => P) ?_ fun received => ih _
    unfold irqEvent
    refine Triple.ite (fun _ => Keeps.triple ?_ hF) fun _ =>
      Triple.ite (fun _ => ?_) fun _ => Keeps.triple ?_ hF
    · refine Keeps.bind (hrec.count (fun _ => rfl) fun _ => rfl) fun _ => ?_
      exact Keeps.bind (hrec.drainRxFifoToSwBuffer fuel _) fun _ => Keeps.pure _
    · exact Triple.bind (htx fuel _) fun _ => Triple.pure _ fun _ h => h
    · exact Keeps.bind hrec.recordLsrErrors fun _ => Keeps.pure _

theorem triple_handleIrq (fuel : ℕ) : Triple P (handleIrq fuel) (fun _ => P) F := by
  unfold handleIrq
  refine Triple.bind (triple_irqEvents hrec hF htx fuel _ _) fun hasData => ?_
  exact (hrec.flushIfBuffered hasData).triple hF

theorem triple_serve (hpending : ∀ userData, Keeps P (setPendingRead userData)) (fuel : ℕ)
    (sqe : Sqe) : Triple P (handleSqe fuel sqe) (fun _ => P) F := by
  unfold handleSqe
  split
  · exact Triple.bind (htx fuel _) fun _ => (hrec.complete _ _).triple hF
  · refine Keeps.triple (Keeps.bind (hpending _) fun _ => ?_) hF
    exact Keeps.bind hrec.processRxRing fun _ => hrec.complete _ _
  · exact Keeps.triple (Keeps.bind Keeps.get fun _ => hrec.complete _ _) hF

theorem triple_handleSq (hnext : Keeps P nextSqe)
    (hpending : ∀ userData, Keeps P (setPendingRead userData)) (fuel : ℕ) :
    Triple P (handleSq fuel) (fun _ => P) F := by
  have hbody : ∀ u, Triple P (sqStep fuel u) (fun r m => r.elim (fun _ => P m) fun _ => P m) F := by
    intro u
    unfold sqStep
    refine Triple.bind (hnext.triple hF) fun sqe => ?_
    cases sqe with
    | none => exact Triple.pure _ fun _ h => h
    | some sqe =>
      exact Triple.bind (triple_serve hrec hF htx hpending fuel sqe) fun _ =>
        Triple.pure _ fun _ h => h
  unfold handleSq
  refine Triple.bind (Q := fun _ => P) (Triple.loop hbody (fun _ => hF) fuel ()) fun _ => ?_
  exact (hrec.flushIfBuffered false).triple hF

end Notifications

section Settled

variable {start : TxView}

theorem Settled.moved {v : TxView} (h : Settled start v) (bytes : List UInt8) :
    Settled start (v.moved bytes) := by
  obtain ⟨sent, h⟩ := h
  exact ⟨sent, h.moved bytes⟩

theorem settled_receive : KeptByReceive (OnTx (Settled start)) :=
  onTx_receive fun _ bytes h => h.moved bytes

theorem settled_nextSqe : Keeps (OnTx (Settled start)) nextSqe := by
  refine onTx_access (fun _ bytes h => h.moved bytes) fun m => ?_
  dsimp only
  split <;> rfl

theorem settled_processTxRing (fuel budget : ℕ) :
    Triple (OnTx (Settled start)) (processTxRing fuel budget) (fun _ => OnTx (Settled start))
      (OnTx (Sending start)) := by
  intro m hm
  obtain ⟨sent, hm⟩ := hm
  refine (triple_processTxRing fuel budget).mono (fun _ h => h) (fun n m' h => ?_)
    (fun _ h => h) m hm
  obtain ⟨-, ⟨w, -, h⟩, -⟩ := h
  exact ⟨_, h⟩

theorem settled_serve (fuel : ℕ) (sqe : Sqe) :
    Triple (OnTx (Settled start)) (handleSqe fuel sqe) (fun _ => OnTx (Settled start))
      (OnTx (Sending start)) :=
  triple_serve settled_receive (fun _ h => h.sending) settled_processTxRing
    (fun _ => Keeps.modify fun _ h => h) fuel sqe

/-- A notification writes what it pops from the TX ring. -/
theorem settled_notification (fuel : ℕ) {op : UartOp} (hop : op.IsNotification) :
    Triple (OnTx (Settled start)) (exec fuel op) (fun _ => OnTx (Settled start))
      (OnTx (Sending start)) := by
  have hF : ∀ m, OnTx (Settled start) m → OnTx (Sending start) m := fun _ h => h.sending
  obtain rfl | rfl | rfl | rfl := hop
  · exact triple_handleIrq settled_receive hF settled_processTxRing fuel
  · exact triple_handleSq settled_receive hF settled_processTxRing settled_nextSqe
      (fun _ => Keeps.modify fun _ h => h) fuel
  · exact (settled_receive.flushIfBuffered false).triple hF
  · exact Triple.modify fun _ h => h.moved _

end Settled

/-! ### Runs -/

/-- A notification was handled; the bound on its loops was large enough. -/
def Returned (m m' : Machine) : Prop :=
  ∃ fuel op, op.IsNotification ∧ exec fuel op m = (.ret ⟨⟩, m')

/-- After a run all popped bytes have been written. -/
theorem run_settled {m m' : Machine} (hm : m.chip.lcr &&& lcrDlab = 0)
    (hrun : Relation.ReflTransGen Returned m m') : Settled m.txView m'.txView := by
  induction hrun with
  | refl => exact ⟨[], Sent.refl hm⟩
  | tail _ hcall ih =>
    obtain ⟨fuel, op, hop, hcall⟩ := hcall
    have h := settled_notification fuel hop _ ih
    rw [hcall] at h
    exact h

/-! ### Termination -/

/-- LSR reports an empty THR in some move to come. -/
def Machine.ThrEmpties (m : Machine) : Prop :=
  ∃ k, (Machine.moved^[k] m).move.lsr (Machine.moved^[k + 1] m).chip.rxFifo &&& lsrThrEmpty ≠ 0

/-- In the states that occur, which are those of `I`, the transmitter gets ready after a while, and
the receive drains of the transmit loop end. -/
structure Progress (I : Machine → Prop) : Prop where
  kept : KeptBySteps I
  thr : ∀ m, I m → m.ThrEmpties
  drain : ∀ m, I m → ∃ fuel n m',
    drainRxFifoToSwBuffer fuel rxTxInterleaveBudgetBytes m = (.ret n, m')

theorem waitThrEmpty_eq (m : Machine) : waitThrEmpty () m =
    (.ret (if m.move.lsr m.moved.chip.rxFifo &&& lsrThrEmpty = 0 then .inl () else .inr ()),
      m.moved) := rfl

theorem waitThrEmpty_returns {m : Machine} (h : m.ThrEmpties) :
    ∃ fuel u m', Prog.loop waitThrEmpty fuel () m = (.ret u, m') := by
  have hlast : ∀ m : Machine, m.move.lsr m.moved.chip.rxFifo &&& lsrThrEmpty ≠ 0 →
      ∃ fuel u m', Prog.loop waitThrEmpty fuel () m = (.ret u, m') := by
    intro m hready
    refine ⟨1, (), m.moved, Prog.bind_of_ret (a := Sum.inr ()) ?_⟩
    rw [waitThrEmpty_eq, if_neg hready]
  obtain ⟨k, hk⟩ := h
  induction k generalizing m with
  | zero => exact hlast m hk
  | succ k ih =>
    by_cases hready : m.move.lsr m.moved.chip.rxFifo &&& lsrThrEmpty = 0
    · obtain ⟨fuel, u, m', hloop⟩ := ih (m := m.moved) hk
      have hstep : waitThrEmpty () m = (.ret (.inl ()), m.moved) := by
        rw [waitThrEmpty_eq, if_pos hready]
      refine ⟨fuel + 1, u, m', ?_⟩
      unfold Prog.loop
      rw [Prog.bind_of_ret hstep]
      exact hloop
    · exact hlast m hready

theorem when_processRxRing_returns (c : Prop) [Decidable c] (m : Machine) :
    ∃ fuel u m', (fun _ : ℕ => Prog.when c processRxRing) fuel m = (.ret u, m') := by
  have htriple : Triple (fun _ => True) (Prog.when c processRxRing) (fun _ _ => True)
      fun _ => False :=
    Triple.ite (fun _ => triple_processRxRing) fun _ => Triple.pure _ fun _ _ => trivial
  obtain ⟨fuel, u, m', hret, -⟩ := Total.of_triple htriple m trivial
  exact ⟨fuel, u, m', hret⟩

theorem increasing_drain (budget : ℕ) :
    Increasing fun fuel => drainRxFifoToSwBuffer fuel budget := by
  unfold drainRxFifoToSwBuffer
  refine Increasing.ite (Increasing.const _) (Increasing.bind (Increasing.const _) fun _ => ?_)
  exact Increasing.bind
    (Increasing.loop_fuel (fun b => Increasing.const (drainStep budget b)) 0)
    fun _ => Increasing.const _

theorem increasing_putchars (cs : List UInt8) : Increasing fun fuel => putchars fuel cs := by
  induction cs with
  | nil => exact Increasing.const _
  | cons c cs ih =>
    unfold putchars putchar
    refine Increasing.bind (Increasing.bind ?_ fun _ => Increasing.const _) fun _ => ih
    exact Increasing.loop_fuel (fun _ => Increasing.const _) ()

theorem increasing_txStep (b : ℕ × ℕ) : Increasing fun fuel => txStep fuel b := by
  unfold txStep
  refine Increasing.ite (Increasing.bind (Increasing.const _) fun data => ?_) (Increasing.const _)
  refine Increasing.ite (Increasing.bind (increasing_putchars data) fun _ => ?_)
    (Increasing.const _)
  refine Increasing.bind (Increasing.const _) fun _ => ?_
  exact Increasing.bind (increasing_drain _) fun _ => Increasing.const _

theorem increasing_processTxRing (budget : ℕ) :
    Increasing fun fuel => processTxRing fuel budget := by
  unfold processTxRing
  refine Increasing.ite (Increasing.const _) ?_
  exact Increasing.bind (Increasing.loop increasing_txStep _ _) fun _ => Increasing.const _

section Termination

variable {I : Machine → Prop} (hI : Progress I)
include hI

theorem total_putchars (cs : List UInt8) :
    Total I (fun fuel => putchars fuel cs) fun _ => I := by
  induction cs with
  | nil => exact Total.pure fun _ h => h
  | cons c cs ih =>
    have hwait : Increasing fun fuel => Prog.loop waitThrEmpty fuel () :=
      Increasing.loop_fuel (fun _ => Increasing.const _) ()
    have hkeeps : ∀ fuel, Keeps I (Prog.loop waitThrEmpty fuel ()) := fun fuel =>
      Keeps.loop (fun _ => Keeps.bind (hI.kept.readReg (by decide)) fun _ => Keeps.pure _) fuel ()
    unfold putchars putchar
    refine Total.bind (Increasing.bind hwait fun _ => Increasing.const _)
      (fun _ => increasing_putchars cs) (Q := fun _ => I) ?_ fun _ => ih
    refine Total.bind hwait (fun _ => Increasing.const _) (Q := fun _ => I) ?_ fun _ => ?_
    · exact Total.of_keeps (fun m hm => waitThrEmpty_returns (hI.thr m hm)) hkeeps
    · exact Total.of_keeps (fun m _ => ⟨0, _, _, rfl⟩) fun _ => hI.kept.writeThr c

/-- An iteration ends, and uses up budget unless it is the last one. -/
theorem total_txStep (b : ℕ × ℕ) :
    Total I (fun fuel => txStep fuel b)
      fun r m => r.elim (fun b' => I m ∧ b'.2 < b.2) fun _ => I m := by
  unfold txStep
  refine Total.ite (fun hpos => ?_) fun _ => Total.pure fun _ h => h
  have hpop : Total I (fun _ => popTx (min txRingChunk b.2)) fun _ => I :=
    Total.of_keeps (fun m _ => ⟨0, _, _, rfl⟩) fun _ => hI.kept.popTx _
  refine Total.bind (Increasing.const _) (fun data => ?_) hpop fun data => ?_
  · refine Increasing.ite (Increasing.bind (increasing_putchars data) fun _ => ?_)
      (Increasing.const _)
    refine Increasing.bind (Increasing.const _) fun _ => ?_
    exact Increasing.bind (increasing_drain _) fun _ => Increasing.const _
  refine Total.ite (fun hdata => ?_) fun _ => Total.pure fun _ h => h
  refine Total.bind (increasing_putchars data) (fun _ => ?_) (total_putchars hI data) fun _ => ?_
  · refine Increasing.bind (Increasing.const _) fun _ => ?_
    exact Increasing.bind (increasing_drain _) fun _ => Increasing.const _
  refine Total.bind (Increasing.const _) (fun _ => ?_) (Q := fun _ => I) ?_ fun _ => ?_
  · exact Increasing.bind (increasing_drain _) fun _ => Increasing.const _
  · exact Total.of_keeps (fun m _ => ⟨0, _, _, rfl⟩) fun _ =>
      hI.kept.count (fun _ => rfl) fun _ => rfl
  refine Total.bind (increasing_drain _) (fun _ => Increasing.const _) (Q := fun _ => I) ?_
    fun drained => ?_
  · exact Total.of_keeps hI.drain fun fuel => hI.kept.drainRxFifoToSwBuffer fuel _
  refine Total.bind (Increasing.const _) (fun _ => Increasing.const _) (Q := fun _ => I) ?_
    fun _ => Total.pure fun _ h => ⟨h, by dsimp only; omega⟩
  exact Total.of_keeps (fun m _ => when_processRxRing_returns _ m) fun _ =>
    Keeps.when hI.kept.processRxRing

/-- `process_tx_ring` returns. -/
theorem processTxRing_total (budget : ℕ) :
    Total I (fun fuel => processTxRing fuel budget) fun _ => I := by
  unfold processTxRing
  refine Total.ite (fun _ => Total.pure fun _ h => h) fun _ => ?_
  have hloop := Total.loop (I := fun _ => I) (μ := fun (b : ℕ × ℕ) _ => b.2) (Q := fun _ => I)
    increasing_txStep (fun b k => ?_) (budget + 1) (0, budget)
  · refine Total.bind (Increasing.loop increasing_txStep _ _) (fun _ => Increasing.const _)
      (hloop.mono (fun _ h => ⟨h, Nat.lt_succ_self _⟩) fun _ _ h => h) fun b => ?_
    refine Total.bind (Increasing.const _) (fun _ => Increasing.const _) (Q := fun _ => I) ?_
      fun _ => Total.pure fun _ h => h
    refine Total.ite (fun _ => ?_) fun _ => Total.pure fun _ h => h
    refine Total.bind (Increasing.const _) (fun _ => Increasing.const _) (Q := fun _ => I)
      (Total.of_keeps (fun m _ => ?_) fun _ => hI.kept.hasPendingTx) fun pending => ?_
    · exact ⟨0, _, _, rfl⟩
    · exact Total.ite (fun _ => Total.of_keeps (fun m _ => ⟨0, _, _, rfl⟩) fun _ =>
        hI.kept.count (fun _ => rfl) fun _ => rfl) fun _ => Total.pure fun _ h => h
  · rintro m ⟨hm, rfl⟩
    exact total_txStep hI b m hm

end Termination

/-! ### The FIFO -/

/-- **The transmit path is a lossless FIFO.**  After every run of notifications the bytes written
to THR since the start, followed by the TX ring, are what was in the ring at the start, followed by
what the client has pushed since, in order; while a call is under way at most one chunk has been
popped and is still to be written.  A call of `process_tx_ring` writes as many bytes as it
returns, at most its budget, and fewer only when the ring is empty; it returns when the transmitter
gets ready in the end and the nested receive drains end. -/
theorem uart_tx_fifo (m : Machine) (hdlab : m.chip.lcr &&& lcrDlab = 0) :
    (∀ m', Relation.ReflTransGen Returned m m' → m'.chip.lcr &&& lcrDlab = 0 ∧
      (∃ sent pushed, m'.log.thr = m.log.thr ++ sent ∧
        m'.log.txPushed = m.log.txPushed ++ pushed ∧ sent ++ m'.txData = m.txData ++ pushed) ∧
      ∀ fuel op, op.IsNotification → ∃ sent rest pushed, rest.length ≤ txRingChunk ∧
        (exec fuel op m').2.log.thr = m.log.thr ++ sent ∧
        (exec fuel op m').2.log.txPushed = m.log.txPushed ++ pushed ∧
        sent ++ rest ++ (exec fuel op m').2.txData = m.txData ++ pushed) ∧
    ∀ budget,
      (∀ fuel n m', processTxRing fuel budget m = (.ret n, m') →
        n ≤ budget ∧ (∃ w, w.length = n ∧ m'.log.thr = m.log.thr ++ w) ∧
          (n = budget ∨ m'.txData = [])) ∧
      ∀ I, Progress I → I m → ∃ bound, ∀ fuel, bound ≤ fuel →
        ∃ n m', processTxRing fuel budget m = (.ret n, m') := by
  refine ⟨fun m' hrun => ?_, fun budget => ⟨fun fuel n m' hret => ?_, fun I hI hm => ?_⟩⟩
  · have hsettled := run_settled hdlab hrun
    have hafter : ∀ fuel op, op.IsNotification →
        Sending m.txView (exec fuel op m').2.txView := fun fuel op hop =>
      Triple.snd ((settled_notification fuel hop).mono (fun _ h => h)
        (fun _ _ h => h.sending) fun _ h => h) hsettled
    obtain ⟨sent, h⟩ := hsettled
    obtain ⟨pushed, hpushed, hfifo⟩ := h.fifo
    refine ⟨h.dlab, ⟨sent, pushed, h.thr, hpushed, ?_⟩, fun fuel op hop => ?_⟩
    · rw [List.append_nil] at hfifo
      exact hfifo
    · obtain ⟨sent, rest, hlen, h⟩ := hafter fuel op hop
      obtain ⟨pushed, hpushed, hfifo⟩ := h.fifo
      exact ⟨sent, rest, pushed, hlen, h.thr, hpushed, hfifo⟩
  · obtain ⟨hle, ⟨w, hw, hsent⟩, hempty⟩ := processTxRing_ret hdlab hret
    refine ⟨hle, ⟨w, hw, hsent.thr⟩, ?_⟩
    exact hle.eq_or_lt.imp_right hempty
  · obtain ⟨bound, n, m', -, hret⟩ :=
      (processTxRing_total hI budget).eventually (increasing_processTxRing budget) hm
    exact ⟨bound, fun fuel hfuel => ⟨n, m', hret fuel hfuel⟩⟩

/-- The client pushes two bytes, THR is always empty, and nothing is received. -/
def sending (k : ℕ) : EnvMove :=
  { EnvMove.quiet with
    pushTx := if k = 0 then [5, 6] else []
    iir := if k = 0 then iirThrEmpty else iirNoInterrupt
    lsr := fun _ => lsrThrEmpty }

def sender : Machine :=
  { Machine.initial sending with uart := Ns16550a.new.setupShm 2032 0 0 4096 }

theorem progress_sending :
    Progress (On fun v => v.lcr &&& lcrDlab = 0 ∧ v.env = sending) where
  kept := Closed.kept (J := fun _ v => v.lcr &&& lcrDlab = 0 ∧ v.env = sending)
    { dlab := fun _ h => h.1
      moved := fun _ _ h => h
      take := fun _ _ _ h _ => h
      keep := fun _ _ h _ => h
      drop := fun _ _ h _ => h
      flush := fun _ _ h _ => h }
  thr m hm := by
    refine ⟨0, ?_⟩
    have henv : m.env = sending := hm.2
    show (m.env m.clock).lsr _ &&& lsrThrEmpty ≠ 0
    rw [henv]
    show lsrThrEmpty &&& lsrThrEmpty ≠ 0
    decide
  drain m hm := by
    -- LSR reports neither an error nor a byte
    have hlsr : ∀ m : Machine, m.env = sending →
        readReg Reg.lsr m = (.ret lsrThrEmpty, m.moved) := by
      intro m henv
      show (Outcome.ret ((m.env m.clock).lsr _), m.moved) = _
      rw [henv]
      rfl
    have henv : m.env = sending := hm.2
    have hrecord : recordLsrErrors m = (.ret ⟨⟩, m.moved) := Prog.bind_of_ret (hlsr m henv)
    have hgetchar : getchar m.moved = (.ret none, m.moved.moved) :=
      Prog.bind_of_ret (hlsr m.moved henv)
    have hstep : drainStep rxTxInterleaveBudgetBytes 0 m.moved = (.ret (.inr 0), m.moved.moved) :=
      Prog.bind_of_ret hgetchar
    have hloop : Prog.loop (drainStep rxTxInterleaveBudgetBytes) 1 0 m.moved =
        (.ret 0, m.moved.moved) := Prog.bind_of_ret hstep
    exact ⟨1, 0, m.moved.moved, (Prog.bind_of_ret hrecord).trans (Prog.bind_of_ret hloop)⟩

/-- The interrupt sends both bytes. -/
theorem uart_tx_fifo_two :
    (exec 4 .irq sender).2.log.thr = [5, 6] ∧ (exec 4 .irq sender).2.txData = [] ∧
      (∃ sent pushed, (exec 4 .irq sender).2.log.thr = sender.log.thr ++ sent ∧
        (exec 4 .irq sender).2.log.txPushed = sender.log.txPushed ++ pushed ∧
        sent ++ (exec 4 .irq sender).2.txData = sender.txData ++ pushed) ∧
      ∃ bound, ∀ fuel, bound ≤ fuel → ∃ n m', processTxRing fuel 512 sender = (.ret n, m') := by
  have hdlab : sender.chip.lcr &&& lcrDlab = 0 := by decide
  have hcall : Returned sender (exec 4 .irq sender).2 := by
    refine ⟨4, .irq, by decide, ?_⟩
    have hret : (exec 4 .irq sender).1 = .ret ⟨⟩ := by decide
    rw [← hret]
  have h := uart_tx_fifo sender hdlab
  refine ⟨by decide, by decide, (h.1 _ (.single hcall)).2.1, ?_⟩
  exact (h.2 512).2 _ progress_sending ⟨hdlab, rfl⟩

end GlendaDrivers.Uart
