import GlendaDrivers.Uart.Receive

/-!
# Received bytes keep their order

* `kept`, `dropped`: the bytes read from RBR while `rx_buffer` was below its limit, and the
  others;
* `InOrder`: what the client popped, what is in the RX ring and what is in `rx_buffer` are
  together the kept bytes, and the counters agree;
* `receive_in_order`: this holds after every run of notifications.
-/

namespace GlendaDrivers.Uart

open Prog (Triple Keeps)

/-- The bytes read from RBR while `rx_buffer` was below its limit. -/
def kept (reads : List (UInt8 × ℕ)) : List UInt8 :=
  (reads.filter fun r => r.2 < rxBufferSoftLimit).map Prod.fst

/-- The bytes read from RBR while `rx_buffer` had reached its limit. -/
def dropped (reads : List (UInt8 × ℕ)) : List UInt8 :=
  (reads.filter fun r => rxBufferSoftLimit ≤ r.2).map Prod.fst

theorem kept_append_of_lt {reads : List (UInt8 × ℕ)} {c : UInt8} {n : ℕ}
    (h : n < rxBufferSoftLimit) : kept (reads ++ [(c, n)]) = kept reads ++ [c] := by
  simp [kept, List.filter_append, h]

theorem kept_append_of_le {reads : List (UInt8 × ℕ)} {c : UInt8} {n : ℕ}
    (h : rxBufferSoftLimit ≤ n) : kept (reads ++ [(c, n)]) = kept reads := by
  simp [kept, List.filter_append, h]

theorem dropped_append_of_lt {reads : List (UInt8 × ℕ)} {c : UInt8} {n : ℕ}
    (h : n < rxBufferSoftLimit) : dropped (reads ++ [(c, n)]) = dropped reads := by
  simp [dropped, List.filter_append, h]

theorem dropped_append_of_le {reads : List (UInt8 × ℕ)} {c : UInt8} {n : ℕ}
    (h : rxBufferSoftLimit ≤ n) : dropped (reads ++ [(c, n)]) = dropped reads ++ [c] := by
  simp [dropped, List.filter_append, h]

/-- The bytes `reads`, read from RBR, have been kept in order or counted as dropped. -/
structure InOrder (reads : List (UInt8 × ℕ)) (v : RxView) : Prop where
  dlab : v.lcr &&& lcrDlab = 0
  order : v.popped ++ v.rxData ++ v.rxBuffer.items = kept reads
  drops : v.rxSwDrop = (dropped reads).length
  bytes : v.irqRxBytes = (kept reads).length
  limit : v.rxBuffer.len ≤ rxBufferSoftLimit
  reads_le : ∀ r ∈ reads, r.2 ≤ rxBufferSoftLimit

namespace InOrder

variable {reads : List (UInt8 × ℕ)} {v : RxView}

/-- The client pops a prefix of the RX ring. -/
theorem moved (h : InOrder reads v) (e : EnvMove) : InOrder reads (v.moved e) := by
  have hpop : (v.moved e).popped ++ (v.moved e).rxData = v.popped ++ v.rxData := by
    cases hring : v.rxRing with
    | none => simp [RxView.moved, RxView.rxData, hring]
    | some ring =>
      simp only [RxView.moved, RxView.rxData, hring, Option.map_some, ShmRingBuffer.popSlice]
      rw [List.append_assoc, List.take_append_drop]
  exact { h with order := by rw [hpop]; exact h.order }

/-- The driver pushes a prefix of `rx_buffer` into the RX ring. -/
theorem flushed (h : InOrder reads v) {ring : ShmRingBuffer} (hring : v.rxRing = some ring) :
    InOrder reads (v.flushed ring) := by
  set front := v.rxBuffer.asSlices.1 with hfront
  set n := (ring.pushSlice front).1 with hn
  have hle : n ≤ front.length := Nat.min_le_left _ _
  -- what is pushed is a prefix of the whole buffer
  have htake : front.take n = v.rxBuffer.items.take n := by
    rw [← v.rxBuffer.asSlices_append, List.take_append_of_le_length hle]
  have hitems : (v.flushed ring).rxBuffer.items = v.rxBuffer.items.drop n :=
    VecDeque.items_popFronts n v.rxBuffer
  have hdata : (v.flushed ring).rxData = v.rxData ++ v.rxBuffer.items.take n := by
    rw [← htake]
    simp only [RxView.rxData, hring, RxView.flushed]
    rfl
  refine { h with order := ?_, limit := ?_ }
  · rw [hitems, hdata]
    show v.popped ++ (v.rxData ++ v.rxBuffer.items.take n) ++ v.rxBuffer.items.drop n = kept reads
    rw [← List.append_assoc, List.append_assoc, List.take_append_drop]
    exact h.order
  · have hlen := h.limit
    unfold VecDeque.len at hlen ⊢
    rw [hitems, List.length_drop]
    omega

/-- A byte read below the limit goes to the end of `rx_buffer`. -/
theorem keep (h : InOrder reads v) (c : UInt8) (hlen : v.rxBuffer.len < rxBufferSoftLimit) :
    InOrder (reads ++ [(c, v.rxBuffer.len)]) (v.keep c) where
  dlab := h.dlab
  order := by
    rw [kept_append_of_lt hlen, ← h.order]
    simp [RxView.keep, RxView.rxData]
  drops := by
    rw [dropped_append_of_lt hlen]
    exact h.drops
  bytes := by
    rw [kept_append_of_lt hlen, List.length_append, ← h.bytes]
    rfl
  limit := by
    unfold VecDeque.len at hlen ⊢
    simpa [RxView.keep] using hlen
  reads_le r hr := by
    obtain hr | hr := List.mem_append.mp hr
    · exact h.reads_le r hr
    · rw [List.mem_singleton.mp hr]
      exact hlen.le

/-- A byte read at the limit is counted. -/
theorem drop (h : InOrder reads v) (c : UInt8) (hlen : rxBufferSoftLimit ≤ v.rxBuffer.len) :
    InOrder (reads ++ [(c, v.rxBuffer.len)]) v.drop where
  dlab := h.dlab
  order := by
    rw [kept_append_of_le hlen]
    exact h.order
  drops := by
    rw [dropped_append_of_le hlen, List.length_append, ← h.drops]
    rfl
  bytes := by
    rw [kept_append_of_le hlen]
    exact h.bytes
  limit := h.limit
  reads_le r hr := by
    obtain hr | hr := List.mem_append.mp hr
    · exact h.reads_le r hr
    · rw [List.mem_singleton.mp hr]
      exact h.limit

end InOrder

/-- All bytes read so far are accounted for. -/
def AllInOrder (v : RxView) : Prop := InOrder v.rbrReads v

/-- All bytes read so far but the last one, `c`, are accounted for. -/
def AllButInOrder (c : UInt8) (v : RxView) : Prop :=
  ∃ reads, v.rbrReads = reads ++ [(c, v.rxBuffer.len)] ∧ InOrder reads v

theorem closed_allInOrder : Closed AllInOrder AllButInOrder where
  dlab v h := h.dlab
  moved v k h := InOrder.moved h (v.env k)
  take v k k' h _ := by
    refine ⟨v.rbrReads, rfl, ?_⟩
    exact { InOrder.moved h (v.env k') with }
  keep v c h hlen := by
    obtain ⟨reads, hreads, h⟩ := h
    show InOrder v.rbrReads (v.keep c)
    rw [hreads]
    exact h.keep c hlen
  drop v c h hlen := by
    obtain ⟨reads, hreads, h⟩ := h
    show InOrder v.rbrReads v.drop
    rw [hreads]
    exact h.drop c hlen
  flush v ring h hring := InOrder.flushed h hring

/-! ### Runs -/

/-- No byte has been received through the chip, and the shared RX ring is empty. -/
structure Quiet (v : RxView) : Prop where
  rxData : v.rxData = []
  rxBuffer : v.rxBuffer.items = []
  rxSwDrop : v.rxSwDrop = 0
  irqRxBytes : v.irqRxBytes = 0
  rbrReads : v.rbrReads = []
  popped : v.popped = []

/-- The driver is initialised, and no byte has been received. -/
structure Started (m : Machine) : Prop where
  dlab : m.chip.lcr &&& lcrDlab = 0
  quiet : Quiet m.rxView

theorem Started.allInOrder {m : Machine} (h : Started m) : AllInOrder m.rxView where
  dlab := h.dlab
  order := by
    rw [h.quiet.popped, h.quiet.rxData, h.quiet.rxBuffer, h.quiet.rbrReads]
    rfl
  drops := by
    rw [h.quiet.rxSwDrop, h.quiet.rbrReads]
    rfl
  bytes := by
    rw [h.quiet.irqRxBytes, h.quiet.rbrReads]
    rfl
  limit := by
    unfold VecDeque.len
    rw [h.quiet.rxBuffer]
    exact Nat.zero_le _
  reads_le r hr := by
    rw [h.quiet.rbrReads] at hr
    cases hr

/-- **Received bytes are not lost, duplicated or reordered.**  After every run of notifications
the bytes that the client has popped, those in the RX ring and those in `rx_buffer` are, in this
order, the bytes read from RBR without the dropped ones; `rx_sw_drop` counts the dropped ones, each
read while `rx_buffer` held exactly as many bytes as its limit allows, and `irq_rx_bytes` the
others. -/
theorem receive_in_order (fuel : ℕ) (ops : List UartOp) (hops : ∀ op ∈ ops, op.IsNotification)
    (m : Machine) (hm : Started m) :
    let m' := run fuel ops m
    m'.log.popped ++ m'.uart.rxData ++ m'.uart.rxBuffer.items = kept m'.log.rbrReads ∧
      m'.uart.stats.rxSwDrop = (dropped m'.log.rbrReads).length ∧
      m'.uart.stats.irqRxBytes = (kept m'.log.rbrReads).length ∧
      (∀ r ∈ m'.log.rbrReads, rxBufferSoftLimit ≤ r.2 → r.2 = rxBufferSoftLimit) ∧
      m'.uart.rxBuffer.len ≤ rxBufferSoftLimit := by
  have h : AllInOrder (run fuel ops m).rxView :=
    run_keeps (I := On AllInOrder)
      (fun op hop => closed_allInOrder.notification fuel (hops op hop)) hm.allInOrder
  refine ⟨h.order, h.drops, h.bytes, ?_, h.limit⟩
  intro r hr hle
  exact Nat.le_antisymm (h.reads_le r hr) hle

/-- A machine with an RX ring for one byte, to which two bytes are sent. -/
def smallRing : Machine :=
  { Machine.initial (.line (fun k => if k = 0 then [7, 8] else []) fun k => k == 0) with
    uart := { Ns16550a.new with rxRing := some ⟨1, []⟩ } }

/-- The interrupt leaves one byte in the ring and the other one in `rx_buffer`. -/
theorem receive_in_order_two :
    (run 4 [.irq] smallRing).uart.rxData = [7] ∧
      (run 4 [.irq] smallRing).uart.rxBuffer.items = [8] ∧
      (run 4 [.irq] smallRing).log.popped ++ (run 4 [.irq] smallRing).uart.rxData ++
        (run 4 [.irq] smallRing).uart.rxBuffer.items =
          kept (run 4 [.irq] smallRing).log.rbrReads := by
  have hstart : Started smallRing :=
    ⟨(by decide : (0 : UInt8) &&& lcrDlab = 0), ⟨rfl, rfl, rfl, rfl, rfl, rfl⟩⟩
  have h := receive_in_order 4 [.irq]
    (fun op hop => Or.inl (List.mem_singleton.mp hop)) smallRing hstart
  exact ⟨by decide, by decide, h.1⟩

end GlendaDrivers.Uart
