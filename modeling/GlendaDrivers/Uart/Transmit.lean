import GlendaDrivers.Lib.Fuel
import GlendaDrivers.Uart.Receive

/-!
# The transmit path

* `TxView`: the part of the machine that bytes to send pass through;
* `Sent`: what was written to THR, what is about to be written and what is in the TX ring are
  together what was in the ring at the start and what the client has pushed since;
* `triple_processTxRing`: the bytes that a call of `process_tx_ring` writes, and their number;
* `Progress`, `processTxRing_returns`: when the call returns;
* `uart_tx_fifo`: the transmit path is a lossless FIFO.
-/

namespace GlendaDrivers.Uart

open Prog (Triple Keeps Increasing Total)

/-! ### The view -/

/-- What bytes to send pass through. -/
structure TxView where
  txRing : Option ShmRingBuffer
  lcr : UInt8
  txPushed : List UInt8
  thr : List UInt8

def Machine.txView (m : Machine) : TxView where
  txRing := m.uart.txRing
  lcr := m.chip.lcr
  txPushed := m.log.txPushed
  thr := m.log.thr

namespace TxView

/-- The bytes in the TX ring. -/
def data (v : TxView) : List UInt8 :=
  match v.txRing with
  | none => []
  | some ring => ring.data

/-- The client pushes `bytes`, as far as they fit. -/
def moved (v : TxView) (bytes : List UInt8) : TxView :=
  { v with
    txRing := v.txRing.map fun ring => (ring.pushSlice bytes).2
    txPushed := v.txPushed ++
      match v.txRing with
      | none => []
      | some ring => bytes.take (ring.pushSlice bytes).1 }

theorem moved_appends (v : TxView) (bytes : List UInt8) :
    ∃ new, (v.moved bytes).data = v.data ++ new ∧
      (v.moved bytes).txPushed = v.txPushed ++ new := by
  unfold moved data
  cases v.txRing with
  | none => exact ⟨[], rfl, rfl⟩
  | some ring => exact ⟨_, rfl, rfl⟩

end TxView

/-- The bytes in the TX ring. -/
def Machine.txData (m : Machine) : List UInt8 := m.txView.data

/-- The predicate on machines that `I` is about. -/
def OnTx (I : TxView → Prop) (m : Machine) : Prop := I m.txView

/-! ### Bytes on their way -/

/-- Since the view was `start`, the bytes `sent` were written to THR, and `rest` is what was
popped and is still to be written. -/
structure Sent (start : TxView) (sent rest : List UInt8) (v : TxView) : Prop where
  dlab : v.lcr &&& lcrDlab = 0
  thr : v.thr = start.thr ++ sent
  fifo : ∃ pushed, v.txPushed = start.txPushed ++ pushed ∧
    sent ++ rest ++ v.data = start.data ++ pushed

namespace Sent

variable {start v : TxView} {sent rest : List UInt8}

theorem refl (h : v.lcr &&& lcrDlab = 0) : Sent v [] [] v where
  dlab := h
  thr := (List.append_nil _).symm
  fifo := ⟨[], (List.append_nil _).symm, (List.append_nil _).symm⟩

theorem moved (h : Sent start sent rest v) (bytes : List UInt8) :
    Sent start sent rest (v.moved bytes) where
  dlab := h.dlab
  thr := h.thr
  fifo := by
    obtain ⟨pushed, hpushed, hfifo⟩ := h.fifo
    obtain ⟨new, hdata, hnew⟩ := v.moved_appends bytes
    refine ⟨pushed ++ new, ?_, ?_⟩
    · rw [hnew, hpushed, List.append_assoc]
    · rw [hdata, ← List.append_assoc, hfifo, List.append_assoc]

/-- A byte is written to THR. -/
theorem write {c : UInt8} (h : Sent start sent (c :: rest) v) :
    Sent start (sent ++ [c]) rest { v with thr := v.thr ++ [c] } where
  dlab := h.dlab
  thr := by
    show v.thr ++ [c] = _
    rw [h.thr, List.append_assoc]
  fifo := by
    obtain ⟨pushed, hpushed, hfifo⟩ := h.fifo
    refine ⟨pushed, hpushed, ?_⟩
    rw [← hfifo]
    simp only [List.append_assoc, List.singleton_append]
    rfl

/-- The first `n` bytes of the ring are popped. -/
theorem pop (h : Sent start sent [] v) {ring : ShmRingBuffer} (hring : v.txRing = some ring)
    (n : ℕ) : Sent start sent (ring.data.take n)
      { v with txRing := some (ring.popSlice n).2 } where
  dlab := h.dlab
  thr := h.thr
  fifo := by
    obtain ⟨pushed, hpushed, hfifo⟩ := h.fifo
    refine ⟨pushed, hpushed, ?_⟩
    have hdata : v.data = ring.data := by
      unfold TxView.data
      rw [hring]
    rw [← hfifo, hdata, List.append_nil]
    show sent ++ ring.data.take n ++ ring.data.drop n = _
    rw [List.append_assoc, List.take_append_drop]

/-- A call that began after `sent` had been written. -/
theorem trans {mid : TxView} {more : List UInt8} (h : Sent start sent [] mid)
    (h' : Sent mid more rest v) : Sent start (sent ++ more) rest v where
  dlab := h'.dlab
  thr := by rw [h'.thr, h.thr, List.append_assoc]
  fifo := by
    obtain ⟨pushed, hpushed, hfifo⟩ := h.fifo
    obtain ⟨new, hnew, hfifo'⟩ := h'.fifo
    refine ⟨pushed ++ new, ?_, ?_⟩
    · rw [hnew, hpushed, List.append_assoc]
    · rw [← List.append_assoc, ← hfifo, List.append_nil, List.append_assoc sent, List.append_assoc,
        hfifo', ← List.append_assoc]

end Sent

/-- All popped bytes have been written. -/
def Settled (start v : TxView) : Prop := ∃ sent, Sent start sent [] v

/-- At most the bytes of one chunk are still to be written. -/
def Sending (start v : TxView) : Prop :=
  ∃ sent rest, rest.length ≤ txRingChunk ∧ Sent start sent rest v

theorem Settled.sending {start v : TxView} (h : Settled start v) : Sending start v := by
  obtain ⟨sent, h⟩ := h
  exact ⟨sent, [], Nat.zero_le _, h⟩

/-! ### Steps -/

section Steps

variable {I : TxView → Prop} {F : Machine → Prop}

theorem txView_readAt (m : Machine) (e : EnvMove) (offset : ℕ) :
    (m.readAt e offset).2.txView = m.txView := by
  match offset with
  | 0 =>
    unfold Machine.readAt
    split_ifs <;> rfl
  | 1 | 2 | 3 | 4 | 5 => rfl
  | _ + 6 => rfl

theorem txView_flushStep (m : Machine) (pushedTotal : ℕ) :
    (flushStep pushedTotal m).2.txView = m.moved.txView := by
  unfold flushStep Prog.ofFn
  cases hring : m.moved.uart.rxRing with
  | none => simp only [hring]
  | some ring =>
    simp only [hring]
    unfold Ns16550a.flush
    dsimp only
    split_ifs <;> rfl

variable (hI : ∀ v bytes, I v → I (v.moved bytes))
include hI

theorem onTx_access {α : Type} {f : Machine → α × Machine}
    (h : ∀ m, (f m).2.txView = m.moved.txView) : Keeps (OnTx I) (.ofFn f) := by
  refine Keeps.ofFn fun m hm => ?_
  unfold OnTx
  rw [h m]
  exact hI _ _ hm

theorem onTx_readReg (offset : ℕ) : Keeps (OnTx I) (readReg offset) :=
  onTx_access hI fun m => txView_readAt m.moved m.move offset

/-- The receive path leaves the bytes to send alone. -/
theorem onTx_receive : KeptByReceive (OnTx I) where
  readReg := fun _ => onTx_readReg hI _
  count := fun _ _ => Keeps.modify fun _ h => h
  complete := fun _ _ => Keeps.modify fun _ h => h
  drainStep := fun budget drained => by
    unfold drainStep getchar
    refine Keeps.ite (Keeps.bind (Keeps.bind (onTx_readReg hI _) fun lsr => ?_) fun c => ?_)
      (Keeps.pure _)
    · exact Keeps.ite (Keeps.bind (onTx_readReg hI _) fun c => Keeps.pure _) (Keeps.pure _)
    · cases c with
      | none => exact Keeps.pure _
      | some c =>
        refine Keeps.bind (Keeps.ofFn fun m h => ?_) fun _ => Keeps.pure _
        split_ifs <;> exact h
  flushStep := fun pushedTotal m h => by
    show I (flushStep pushedTotal m).2.txView
    rw [txView_flushStep]
    exact hI _ _ h

end Steps

/-! ### The transmit loop -/

section Transmit

variable {start : TxView} {sent rest : List UInt8} {F : Machine → Prop}

theorem sent_receive : KeptByReceive (OnTx (Sent start sent rest)) :=
  onTx_receive fun _ bytes h => h.moved bytes

theorem triple_writeThr (c : UInt8) :
    Triple (OnTx (Sent start sent (c :: rest))) (writeReg Reg.thr c)
      (fun _ => OnTx (Sent start (sent ++ [c]) rest)) F := by
  refine Triple.modify fun m h => ?_
  have h : Sent start sent (c :: rest) m.moved.txView := Sent.moved h _
  have hd : m.moved.chip.dlab = false := by
    unfold Chip.dlab
    exact bne_eq_false_iff_eq.mpr h.dlab
  have hwrite : m.moved.writeAt c Reg.thr = m.moved.writeThr c := by
    simp only [Reg.thr, Machine.writeAt, hd, Bool.false_eq_true, if_false]
  rw [hwrite]
  exact h.write

/-- The bytes of a chunk are written in order. -/
theorem triple_putchars (fuel : ℕ) {cs : List UInt8} (hcs : cs.length ≤ txRingChunk) :
    Triple (OnTx (Sent start sent cs)) (putchars fuel cs)
      (fun _ => OnTx (Sent start (sent ++ cs) [])) (OnTx (Sending start)) := by
  induction cs generalizing sent with
  | nil =>
    refine Triple.pure _ fun m h => ?_
    rw [List.append_nil]
    exact h
  | cons c cs ih =>
    have hrest : ∀ m, OnTx (Sent start sent (c :: cs)) m → OnTx (Sending start) m :=
      fun m h => ⟨sent, c :: cs, hcs, h⟩
    have hwait : Keeps (OnTx (Sent start sent (c :: cs))) (Prog.loop waitThrEmpty fuel ()) :=
      Keeps.loop (fun _ => Keeps.bind (sent_receive.readReg (by decide)) fun _ => Keeps.pure _)
        fuel ()
    refine Triple.bind (Triple.bind (hwait.triple hrest) fun _ =>
      triple_writeThr c) fun _ => ?_
    have hcs' : Triple (OnTx (Sent start (sent ++ [c]) cs)) (putchars fuel cs)
        (fun _ => OnTx (Sent start (sent ++ [c] ++ cs) [])) (OnTx (Sending start)) :=
      ih (Nat.le_of_succ_le hcs)
    rwa [List.append_assoc, List.singleton_append] at hcs'

/-- `pop_slice` removes the longest prefix available. -/
theorem triple_popTx (n : ℕ) : Triple (OnTx (Sent start sent [])) (popTx n)
    (fun bytes m => OnTx (Sent start sent bytes) m ∧ bytes.length ≤ n ∧
      (bytes = [] → 0 < n → m.txData = [])) F := by
  refine Triple.ofFn fun m h => ?_
  have h : Sent start sent [] m.moved.txView := Sent.moved h _
  cases hring : m.moved.uart.txRing with
  | none =>
    simp only [hring]
    refine ⟨h, Nat.zero_le _, fun _ _ => ?_⟩
    unfold Machine.txData TxView.data Machine.txView
    rw [hring]
  | some ring =>
    simp only [hring]
    refine ⟨h.pop hring n, List.length_take_le _ _, fun hnil hn => ?_⟩
    show ring.data.drop n = []
    have htake : ring.data.take n = [] := hnil
    rw [List.take_eq_nil_iff] at htake
    rw [htake.resolve_left hn.ne', List.drop_nil]

/-- From the values of `total_written` and `remaining_budget`: they add up to the budget, and so
many bytes were written since `sent`. -/
def Written (start : TxView) (sent : List UInt8) (budget : ℕ) (b : ℕ × ℕ) (m : Machine) : Prop :=
  b.1 + b.2 = budget ∧ ∃ w, w.length = b.1 ∧ OnTx (Sent start (sent ++ w) []) m

theorem triple_txStep (fuel budget : ℕ) (b : ℕ × ℕ) :
    Triple (Written start sent budget b) (txStep fuel b)
      (fun r m => r.elim (fun b' => Written start sent budget b' m) fun b' =>
        Written start sent budget b' m ∧ (0 < b'.2 → m.txData = [])) (OnTx (Sending start)) := by
  unfold txStep
  refine Triple.ite (fun hpos => ?_) fun hpos => ?_
  swap
  · exact Triple.pure _ fun m h => ⟨h, fun h' => absurd h' hpos⟩
  intro m h
  obtain ⟨hsum, w, hw, hm⟩ := h
  refine Triple.bind (triple_popTx _) (fun data => ?_) m hm
  refine Triple.ite (fun hdata => ?_) fun hdata => ?_
  · have hsend : ∀ m, OnTx (Sent start (sent ++ w ++ data) []) m → OnTx (Sending start) m :=
      fun m h => Settled.sending ⟨_, h⟩
    intro m hm
    have hlen : data.length ≤ min txRingChunk b.2 := hm.2.1
    refine Triple.bind (triple_putchars fuel (hlen.trans (min_le_left _ _))) (fun _ => ?_) m hm.1
    have hkept : KeptByReceive (OnTx (Sent start (sent ++ w ++ data) [])) := sent_receive
    refine Triple.bind (Keeps.triple (hkept.count (fun _ => rfl) fun _ => rfl) hsend) fun _ => ?_
    refine Triple.bind ((hkept.drainRxFifoToSwBuffer fuel _).triple hsend) fun drained => ?_
    refine Triple.bind (Keeps.triple (Keeps.when hkept.processRxRing) hsend) fun _ => ?_
    refine Triple.pure _ fun m' h' => ⟨?_, w ++ data, ?_, ?_⟩
    · dsimp only
      omega
    · rw [List.length_append, hw]
    · rw [← List.append_assoc]
      exact h'
  · refine Triple.pure _ fun m' h' => ?_
    have hnil : data = [] := List.length_eq_zero_iff.mp (Nat.eq_zero_of_not_pos hdata)
    obtain ⟨h', -, hempty⟩ := h'
    rw [hnil] at h'
    exact ⟨⟨hsum, w, hw, h'⟩, fun hb => hempty hnil (lt_min (by decide) hb)⟩

/-- A call of `process_tx_ring` returns the number of bytes that it wrote; it is below the budget
only when the ring is empty. -/
theorem triple_processTxRing (fuel budget : ℕ) :
    Triple (OnTx (Sent start sent [])) (processTxRing fuel budget)
      (fun n m => n ≤ budget ∧ (∃ w, w.length = n ∧ OnTx (Sent start (sent ++ w) []) m) ∧
        (n < budget → m.txData = [])) (OnTx (Sending start)) := by
  unfold processTxRing
  refine Triple.ite (fun hzero => ?_) fun _ => ?_
  · refine Triple.pure _ fun m h => ⟨Nat.zero_le _, ⟨[], rfl, ?_⟩, fun h' => by omega⟩
    rw [List.append_nil]
    exact h
  have hloop := Triple.loop (I := Written start sent budget)
    (Q := fun b m => Written start sent budget b m ∧ (0 < b.2 → m.txData = []))
    (F := OnTx (Sending start)) (triple_txStep fuel budget)
    (fun b m h => by
      obtain ⟨-, w, -, h⟩ := h
      exact Settled.sending ⟨_, h⟩) (budget + 1) (0, budget)
  intro m hm
  refine Triple.bind hloop (fun b => ?_) m ⟨Nat.zero_add _, [], rfl, ?_⟩
  swap
  · rw [List.append_nil]
    exact hm
  obtain ⟨written, remaining⟩ := b
  -- the look at the ring changes nothing, and is taken when the budget is used up only
  refine Triple.bind (Q := fun _ m => Written start sent budget (written, remaining) m ∧
    (0 < remaining → m.txData = [])) ?_ fun _ => ?_
  · refine Triple.ite (fun hzero => ?_) fun _ => Triple.pure _ fun _ h => h
    intro m' h'
    obtain ⟨⟨hsum, w, hw, h'⟩, -⟩ := h'
    have hkept : Keeps (OnTx (Sent start (sent ++ w) []))
        (hasPendingTx >>= fun pending => Prog.when pending
          (count fun s => { s with txBudgetHit := s.txBudgetHit + 1 })) := by
      refine Keeps.bind (onTx_access (fun _ bytes h => h.moved bytes) fun m => ?_) fun _ =>
        Keeps.when (sent_receive.count (fun _ => rfl) fun _ => rfl)
      dsimp only
      split <;> rfl
    refine hkept.mono (fun _ h => h) (fun _ m h => ⟨⟨hsum, w, hw, h⟩, fun h' => ?_⟩)
      (fun _ h => Settled.sending ⟨_, h⟩) m' h'
    omega
  · refine Triple.pure _ fun m' h' => ?_
    obtain ⟨⟨hsum, w, hw, h'⟩, hempty⟩ := h'
    dsimp only at hsum hw hempty
    exact ⟨by omega, ⟨w, hw, h'⟩, fun hlt => hempty (by omega)⟩

/-- A call of `process_tx_ring` that returns. -/
theorem processTxRing_ret {m m' : Machine} (hdlab : m.chip.lcr &&& lcrDlab = 0)
    {fuel budget n : ℕ} (hret : processTxRing fuel budget m = (.ret n, m')) :
    n ≤ budget ∧ (∃ w, w.length = n ∧ OnTx (Sent m.txView w []) m') ∧
      (n < budget → m'.txData = []) := by
  have h : Triple (OnTx (Sent m.txView [] [])) _ _ _ := triple_processTxRing fuel budget
  have h := h m (Sent.refl hdlab)
  rw [hret] at h
  exact h

end Transmit

end GlendaDrivers.Uart
