import GlendaDrivers.Uart.Requests
import GlendaDrivers.Uart.TransmitFifo

/-!
# What the client of the UART driver is told

* `UartEvent`, `Dialogue`: the requests, the bytes that are put into the RX ring and the answers, in
  the orders in which the driver produces them;
* `TalkView`: the part of the machine that the client knows of;
* `Heard`: the events since the start of a run;
* `triple_processRxRing_talk`, `triple_handleSqe_talk`: the calls that post completions;
* `uart_dialogue`: every run is such a dialogue.
-/

namespace GlendaDrivers.Uart

open Prog (Triple Keeps)

/-! ### Dialogues -/

/-- What the driver does for its client: it fetches a request, it puts bytes into the RX ring and
tells a READ request, if there is one, and it answers a request. -/
inductive UartEvent
  | fetched (sqe : Sqe)
  | received (n : ℕ) (told : Option UInt64)
  | answered (sqe : Sqe) (result : Int32)
  deriving DecidableEq

namespace UartEvent

/-- The completion that is posted. -/
def completion : UartEvent → Option (UInt64 × Int32)
  | .fetched _ => none
  | .received n told => told.map fun userData => (userData, Int32.ofNat n)
  | .answered sqe result => some (sqe.userData, result)

/-- The request that is fetched. -/
def request : UartEvent → Option Sqe
  | .fetched sqe => some sqe
  | .received _ _ => none
  | .answered _ _ => none

/-- The request that is answered. -/
def reply : UartEvent → Option Sqe
  | .fetched _ => none
  | .received _ _ => none
  | .answered sqe _ => some sqe

/-- The bytes that are put into the RX ring. -/
def bytes : UartEvent → ℕ
  | .fetched _ => 0
  | .received n _ => n
  | .answered _ _ => 0

end UartEvent

/-- The result answers the request. -/
def Answers (notSupported : Int32) (sqe : Sqe) (result : Int32) : Prop :=
  match sqe.opcode with
  | .write => if sqe.addr = 0 then ∃ n ≤ txSqBudgetBytes, result = Int32.ofNat n
      else result = sqe.len.toInt32
  | .read => result = 0
  | _ => result = -notSupported

/-- The dialogues, with the request that is being served and the READ request that is told about
new bytes: a request is answered before the next one is fetched, and the READ request that was
fetched last is told. -/
inductive Dialogue (notSupported : Int32) (pending : Option UInt64) :
    List UartEvent → Option Sqe → Option UInt64 → Prop
  | start : Dialogue notSupported pending [] none pending
  | fetch {l : List UartEvent} {p : Option UInt64} (sqe : Sqe)
      (h : Dialogue notSupported pending l none p) :
      Dialogue notSupported pending (l ++ [.fetched sqe]) (some sqe)
        (if sqe.opcode = .read then some sqe.userData else p)
  | receive {l : List UartEvent} {s : Option Sqe} {p : Option UInt64} {n : ℕ} (hpos : 0 < n)
      (hle : n ≤ rxBufferSoftLimit) (h : Dialogue notSupported pending l s p) :
      Dialogue notSupported pending (l ++ [.received n p]) s p
  | answer {l : List UartEvent} {sqe : Sqe} {p : Option UInt64} {result : Int32}
      (ha : Answers notSupported sqe result) (h : Dialogue notSupported pending l (some sqe) p) :
      Dialogue notSupported pending (l ++ [.answered sqe result]) none p

namespace Dialogue

variable {notSupported : Int32} {pending p : Option UInt64} {l : List UartEvent} {s : Option Sqe}

/-- The requests are answered in the order in which they are fetched. -/
theorem replies (h : Dialogue notSupported pending l s p) :
    l.filterMap UartEvent.request = l.filterMap UartEvent.reply ++ s.toList := by
  induction h with
  | start => rfl
  | fetch sqe _ ih => simp [List.filterMap_cons, UartEvent.request, UartEvent.reply, ih]
  | receive _ _ _ ih => simp [List.filterMap_cons, UartEvent.request, UartEvent.reply, ih]
  | answer _ _ ih => simp [List.filterMap_cons, UartEvent.request, UartEvent.reply, ih]

/-- Once there is a READ request, one is told about all new bytes. -/
theorem told (h : Dialogue notSupported pending l s p) (hp : pending.isSome) :
    p.isSome ∧ ∀ n told, .received n told ∈ l → told.isSome := by
  induction h with
  | start => exact ⟨hp, fun _ _ hmem => absurd hmem List.not_mem_nil⟩
  | fetch sqe _ ih =>
    refine ⟨?_, fun n told hmem => ih.2 n told (by simpa using hmem)⟩
    split_ifs
    · rfl
    · exact ih.1
  | receive _ _ _ ih =>
    refine ⟨ih.1, fun n told hmem => ?_⟩
    rcases List.mem_append.1 hmem with hmem | hmem
    · exact ih.2 n told hmem
    · cases List.mem_singleton.1 hmem
      exact ih.1
  | answer _ _ ih => exact ⟨ih.1, fun n told hmem => ih.2 n told (by simpa using hmem)⟩

/-- The result that tells about new bytes is their number. -/
theorem toInt_received (h : Dialogue notSupported pending l s p) {n : ℕ} {told : Option UInt64}
    (hmem : .received n told ∈ l) : (Int32.ofNat n).toInt = n := by
  induction h with
  | start => exact absurd hmem List.not_mem_nil
  | fetch sqe _ ih => exact ih (by simpa using hmem)
  | receive _ hle _ ih =>
    rcases List.mem_append.1 hmem with hmem | hmem
    · exact ih hmem
    · cases List.mem_singleton.1 hmem
      exact Int32.toInt_ofNat_of_lt (lt_of_le_of_lt hle (by decide))
  | answer _ _ ih => exact ih (by simpa using hmem)

end Dialogue

/-! ### What the client knows of -/

/-- The number of bytes that were put into the RX ring: those popped and those still there. -/
def Machine.passed (m : Machine) : ℕ := m.log.popped.length + m.uart.rxData.length

/-- What the client knows of, with what this depends on. -/
structure TalkView where
  ring : RingView
  passed : ℕ
  buffered : ℕ
  pending : Option UInt64
  lcr : UInt8
  notSupported : Int32

def Machine.talkView (m : Machine) : TalkView where
  ring := m.ringView
  passed := m.passed
  buffered := m.uart.rxBuffer.len
  pending := m.uart.pendingRead
  lcr := m.chip.lcr
  notSupported := m.notSupported

namespace TalkView

/-- The client queues requests, or pops bytes. -/
def moved (v : TalkView) (sqes : List Sqe) : TalkView := { v with ring := v.ring.moved sqes }

/-- A byte goes to `rx_buffer`. -/
def buffer (v : TalkView) : TalkView := { v with buffered := v.buffered + 1 }

/-- Bytes go from `rx_buffer` to the RX ring. -/
def push (v : TalkView) (n : ℕ) : TalkView :=
  { v with passed := v.passed + n, buffered := v.buffered - n }

/-- A completion is posted, if there is one. -/
def posted (v : TalkView) : Option (UInt64 × Int32) → TalkView
  | none => v
  | some c => { v with ring := v.ring.complete c.1 c.2 }

end TalkView

/-- The predicate on machines that `I` is about. -/
def OnTalk (I : TalkView → Prop) (m : Machine) : Prop := I m.talkView

theorem passed_moved (m : Machine) : m.moved.passed = m.passed := by
  unfold Machine.passed Ns16550a.rxData
  cases hring : m.uart.rxRing with
  | none => simp [Machine.moved, Ns16550a.rxData, hring]
  | some ring =>
    simp only [Machine.moved, Ns16550a.rxData, hring, Option.map_some, ShmRingBuffer.popSlice,
      List.length_append, List.length_take, List.length_drop]
    omega

theorem talkView_moved (m : Machine) : m.moved.talkView = m.talkView.moved m.move.sqes := by
  unfold Machine.talkView TalkView.moved
  rw [ringView_moved, passed_moved]
  rfl

theorem talkView_readAt (m : Machine) (e : EnvMove) (offset : ℕ) :
    (m.readAt e offset).2.talkView = m.talkView := by
  match offset with
  | 0 =>
    unfold Machine.readAt
    split_ifs <;> rfl
  | 1 | 2 | 3 | 4 | 5 => rfl
  | _ + 6 => rfl

theorem talkView_writeThr (m : Machine) (c : UInt8) :
    (m.writeAt c Reg.thr).talkView = m.talkView := by
  unfold Reg.thr Machine.writeAt
  split_ifs <;> rfl

/-- `rx_buffer` is empty or the RX ring is full. -/
def Flushed (m : Machine) : Prop :=
  ∀ ring, m.uart.rxRing = some ring → m.uart.rxBuffer.len = 0 ∨ ring.capacity ≤ ring.data.length

/-- A queue whose first run is empty is empty. -/
theorem len_eq_zero_of_front {q : VecDeque UInt8} (h : q.asSlices.1.length = 0) : q.len = 0 := by
  have hlt := q.head_lt
  unfold VecDeque.asSlices at h
  rw [List.length_take] at h
  unfold VecDeque.len
  omega

section PushSlice

variable (ring : ShmRingBuffer) (bytes : List UInt8)

theorem pushSlice_le : (ring.pushSlice bytes).1 ≤ bytes.length := Nat.min_le_left _ _

theorem length_pushSlice :
    (ring.pushSlice bytes).2.data.length = ring.data.length + (ring.pushSlice bytes).1 := by
  simp only [ShmRingBuffer.pushSlice, List.length_append, List.length_take]
  omega

/-- The ring is full when not all bytes were accepted. -/
theorem full_of_pushSlice_lt (h : (ring.pushSlice bytes).1 < bytes.length) :
    ring.capacity ≤ (ring.pushSlice bytes).2.data.length := by
  simp only [ShmRingBuffer.pushSlice, List.length_append, List.length_take] at h ⊢
  omega

end PushSlice

/-- The first run of `rx_buffer` is pushed as far as it fits. -/
theorem talkView_push {m : Machine} {ring : ShmRingBuffer} (hring : m.uart.rxRing = some ring)
    (stats : UartStats) :
    Machine.talkView { m with
      uart := { m.uart with
        rxRing := some (ring.pushSlice m.uart.rxBuffer.asSlices.1).2
        rxBuffer := .popFronts (ring.pushSlice m.uart.rxBuffer.asSlices.1).1 m.uart.rxBuffer
        stats := stats } } =
      m.talkView.push (ring.pushSlice m.uart.rxBuffer.asSlices.1).1 := by
  have hbuffer : (VecDeque.popFronts (ring.pushSlice m.uart.rxBuffer.asSlices.1).1
      m.uart.rxBuffer).len = m.uart.rxBuffer.len -
        (ring.pushSlice m.uart.rxBuffer.asSlices.1).1 := by
    unfold VecDeque.len
    rw [VecDeque.items_popFronts, List.length_drop]
  unfold Machine.talkView TalkView.push Machine.passed Ns16550a.rxData
  simp only [hring, length_pushSlice, hbuffer, Nat.add_assoc]
  rfl

/-- An iteration of the loop of `process_rx_ring` pushes bytes, and the loop ends when there is
nothing left or the ring is full. -/
theorem flushStep_talk (m : Machine) (pushedTotal : ℕ) :
    ∃ r m', flushStep pushedTotal m = (.ret r, m') ∧
      ((r = .inr pushedTotal ∧ m'.talkView = m.moved.talkView ∧ Flushed m') ∨
        ∃ n, 0 < n ∧ n ≤ m.uart.rxBuffer.len ∧ m'.talkView = m.moved.talkView.push n ∧
          (r = .inl (pushedTotal + n) ∨ r = .inr (pushedTotal + n) ∧ Flushed m')) := by
  unfold flushStep Prog.ofFn
  cases hring : m.moved.uart.rxRing with
  | none =>
    simp only [hring]
    exact ⟨_, _, rfl, .inl ⟨rfl, rfl, fun ring h => absurd (hring.symm.trans h) (by simp)⟩⟩
  | some ring =>
    simp only [hring]
    have hle : (ring.pushSlice m.moved.uart.rxBuffer.asSlices.1).1 ≤ m.uart.rxBuffer.len :=
      (pushSlice_le _ _).trans m.moved.uart.rxBuffer.length_asSlices_le
    unfold Ns16550a.flush
    dsimp only
    refine ⟨_, _, rfl, ?_⟩
    split_ifs with hfront hpushed hfull
    · exact .inl ⟨rfl, rfl, fun _ _ => .inl (len_eq_zero_of_front hfront)⟩
    · refine .inl ⟨rfl, rfl, fun ring' h => .inr ?_⟩
      obtain rfl : ring = ring' := Option.some.inj (hring.symm.trans h)
      have hfull := full_of_pushSlice_lt ring m.moved.uart.rxBuffer.asSlices.1 (by omega)
      rwa [length_pushSlice, hpushed, Nat.add_zero] at hfull
    · -- the ring has no place for the rest of the run
      refine .inr ⟨_, Nat.pos_of_ne_zero hpushed, hle, talkView_push hring _, .inr ⟨rfl, ?_⟩⟩
      rintro ring' h
      obtain rfl := Option.some.inj h
      exact .inr (full_of_pushSlice_lt _ _ hfull)
    · exact .inr ⟨_, Nat.pos_of_ne_zero hpushed, hle, talkView_push hring _, .inl rfl⟩

/-! ### Steps -/

section Steps

variable {I : TalkView → Prop}

/-- A change that the client does not know of. -/
theorem onTalk_modify {f : Machine → Machine} (h : ∀ m, (f m).talkView = m.talkView) :
    Keeps (OnTalk I) (.modify f) := by
  refine Keeps.modify fun m hm => ?_
  unfold OnTalk
  rw [h m]
  exact hm

/-- An access that the client does not know of. -/
theorem onTalk_access {α : Type} {f : Machine → α × Machine}
    (hmoved : ∀ v sqes, I v → I (v.moved sqes))
    (h : ∀ m, (f m).2.talkView = m.moved.talkView) : Keeps (OnTalk I) (.ofFn f) := by
  refine Keeps.ofFn fun m hm => ?_
  unfold OnTalk
  rw [h m, talkView_moved]
  exact hmoved _ _ hm

/-- What is kept when requests are queued and bytes are buffered. -/
theorem onTalk_events (hmoved : ∀ v sqes, I v → I (v.moved sqes))
    (hbuffer : ∀ v : TalkView, I v → v.buffered < rxBufferSoftLimit → I v.buffer)
    (hflush : Keeps (OnTalk I) processRxRing) : KeptByEvents (OnTalk I) := by
  have hread : ∀ offset, Keeps (OnTalk I) (readReg offset) := fun offset =>
    onTalk_access hmoved fun m => talkView_readAt m.moved m.move offset
  have hbyte : ∀ c drained, Keeps (OnTalk I) (bufferByte c drained) := by
    refine fun c drained => Keeps.ofFn fun m hm => ?_
    split_ifs with hlen
    · have hview : Machine.talkView { m with
          uart := { m.uart with
            rxBuffer := m.uart.rxBuffer.pushBack c
            stats := { m.uart.stats with irqRxBytes := m.uart.stats.irqRxBytes + 1 } } } =
          m.talkView.buffer := by
        simp [Machine.talkView, TalkView.buffer, VecDeque.len, Machine.ringView, Machine.queued,
          Machine.passed, Ns16550a.rxData]
      unfold OnTalk
      rw [hview]
      exact hbuffer _ hm hlen
    · exact hm
  refine
    { readReg := fun _ => hread _
      count := fun _ _ => onTalk_modify fun _ => rfl
      drainStep := fun budget drained => ?_
      writeThr := fun c => Keeps.modify fun m hm => ?_
      popTx := fun n => onTalk_access hmoved fun m => ?_
      hasPendingTx := onTalk_access hmoved fun m => ?_
      processRxRing := hflush }
  · unfold drainStep
    refine Keeps.ite (Keeps.bind ?_ fun c => ?_) (Keeps.pure _)
    · unfold getchar
      refine Keeps.bind (hread _) fun lsr => Keeps.ite ?_ (Keeps.pure _)
      exact Keeps.bind (hread _) fun c => Keeps.pure _
    · cases c with
      | none => exact Keeps.pure _
      | some c => exact Keeps.bind (hbyte c drained) fun _ => Keeps.pure _
  · unfold OnTalk
    rw [talkView_writeThr, talkView_moved]
    exact hmoved _ _ hm
  · dsimp only
    split <;> rfl
  · dsimp only
    split <;> rfl

end Steps

/-! ### Events -/

/-- Since the state `v₀`, in which the ring was `ring`, the events `l` took place; the requests
`taken` were fetched and `moving` bytes were put into the RX ring on top of that. -/
structure Heard (v₀ : TalkView) (ring : IoUringServer) (l : List UartEvent) (taken : List Sqe)
    (moving : ℕ) (v : TalkView) : Prop where
  ring : ∃ (t : IoUringServer) (more : List Sqe), v.ring.ring = some t ∧
    v.ring.queued = v₀.ring.queued ++ more ∧
    l.filterMap UartEvent.request ++ taken ++ t.sq = ring.sq ++ more ∧
    t.completions = ring.completions ++ l.filterMap UartEvent.completion
  passed : v.passed = v₀.passed + (l.map UartEvent.bytes).sum + moving
  limit : moving + v.buffered ≤ rxBufferSoftLimit
  lcr : v.lcr = v₀.lcr
  notSupported : v.notSupported = v₀.notSupported

theorem filterMap_snoc {α β : Type} (f : α → Option β) (l : List α) (a : α) :
    (l ++ [a]).filterMap f = l.filterMap f ++ (f a).toList := by
  rw [List.filterMap_append]
  cases h : f a <;> simp [h]

section Heard

variable {v₀ v : TalkView} {ring : IoUringServer} {l : List UartEvent} {taken : List Sqe}
  {moving n : ℕ} {s : Option Sqe} {p : Option UInt64} {sqe : Sqe}

namespace Heard

theorem start (h : v.ring.ring = some ring) (hlimit : v.buffered ≤ rxBufferSoftLimit) :
    Heard v ring [] [] 0 v where
  ring := ⟨ring, [], h, (List.append_nil _).symm, (List.append_nil _).symm,
    (List.append_nil _).symm⟩
  passed := rfl
  limit := by rwa [Nat.zero_add]
  lcr := rfl
  notSupported := rfl

theorem moved (h : Heard v₀ ring l taken moving v) (sqes : List Sqe) :
    Heard v₀ ring l taken moving (v.moved sqes) where
  ring := by
    obtain ⟨t, more, hring, hqueued, hsq, hposted⟩ := h.ring
    refine ⟨{ t with sq := t.sq ++ sqes }, more ++ sqes, ?_, ?_, ?_, hposted⟩
    · simp only [TalkView.moved, RingView.moved, hring, Option.map_some]
    · simp only [TalkView.moved, RingView.moved, hqueued, List.append_assoc]
    · rw [← List.append_assoc, hsq, List.append_assoc]
  passed := h.passed
  limit := h.limit
  lcr := h.lcr
  notSupported := h.notSupported

theorem buffer (h : Heard v₀ ring l taken 0 v) (hlen : v.buffered < rxBufferSoftLimit) :
    Heard v₀ ring l taken 0 v.buffer where
  ring := h.ring
  passed := h.passed
  limit := by
    show 0 + (v.buffered + 1) ≤ _
    omega
  lcr := h.lcr
  notSupported := h.notSupported

/-- More bytes are put into the RX ring. -/
theorem push (h : Heard v₀ ring l taken moving v) (hn : n ≤ v.buffered) :
    Heard v₀ ring l taken (moving + n) (v.push n) where
  ring := h.ring
  passed := by
    show v.passed + n = _
    rw [h.passed, Nat.add_assoc]
  limit := by
    have hlimit := h.limit
    show moving + n + (v.buffered - n) ≤ _
    omega
  lcr := h.lcr
  notSupported := h.notSupported

/-- What was fetched or put into the RX ring becomes an event, and its completion is posted. -/
theorem event {e : UartEvent} (h : Heard v₀ ring l e.request.toList e.bytes v) :
    Heard v₀ ring (l ++ [e]) [] 0 (v.posted e.completion) where
  ring := by
    obtain ⟨t, more, hring, hqueued, hsq, hposted⟩ := h.ring
    rw [← filterMap_snoc, ← List.append_nil (List.filterMap _ _)] at hsq
    rw [filterMap_snoc UartEvent.completion, ← List.append_assoc, ← hposted]
    cases e.completion with
    | none => exact ⟨t, more, hring, hqueued, hsq, (List.append_nil _).symm⟩
    | some c =>
      refine ⟨t.complete c.1 c.2, more, ?_, hqueued, hsq, rfl⟩
      simp only [TalkView.posted, RingView.complete, hring, Option.map_some]
  passed := by
    rw [show (v.posted e.completion).passed = v.passed by cases e.completion <;> rfl, h.passed,
      List.map_append, List.sum_append, List.map_singleton, List.sum_singleton]
    omega
  limit := by
    rw [show (v.posted e.completion).buffered = v.buffered by cases e.completion <;> rfl]
    exact (Nat.add_le_add_right (Nat.zero_le _) _).trans h.limit
  lcr := by
    rw [← h.lcr]
    cases e.completion <;> rfl
  notSupported := by
    rw [← h.notSupported]
    cases e.completion <;> rfl

end Heard

end Heard

/-! ### Calls -/

/-- Since `v₀` there was a dialogue, in which `s` is being served and `p` is told. -/
structure Talking (v₀ : TalkView) (ring : IoUringServer) (s : Option Sqe) (p : Option UInt64)
    (v : TalkView) : Prop where
  pending : v.pending = p
  heard : ∃ l, Dialogue v₀.notSupported v₀.pending l s p ∧ Heard v₀ ring l [] 0 v

section Calls

variable {v₀ v : TalkView} {ring : IoUringServer} {l : List UartEvent} {s : Option Sqe}
  {p : Option UInt64} {sqe : Sqe} {F : Machine → Prop}

theorem Talking.moved (h : Talking v₀ ring s p v) (sqes : List Sqe) :
    Talking v₀ ring s p (v.moved sqes) := by
  obtain ⟨hp, l, hl, hh⟩ := h
  exact ⟨hp, l, hl, hh.moved sqes⟩

theorem Talking.buffer (h : Talking v₀ ring s p v) (hlen : v.buffered < rxBufferSoftLimit) :
    Talking v₀ ring s p v.buffer := by
  obtain ⟨hp, l, hl, hh⟩ := h
  exact ⟨hp, l, hl, hh.buffer hlen⟩

/-- `n` bytes were put into the RX ring, and no READ request was told yet. -/
def Moving (v₀ : TalkView) (ring : IoUringServer) (l : List UartEvent) (p : Option UInt64) (n : ℕ)
    (m : Machine) : Prop := m.uart.pendingRead = p ∧ OnTalk (Heard v₀ ring l [] n) m

theorem triple_flushStep_talk (n k : ℕ) :
    Triple (fun m => Moving v₀ ring l p n m ∧ m.uart.rxBuffer.len = k) (flushStep n)
      (fun r m => r.elim (fun n' => Moving v₀ ring l p n' m ∧ m.uart.rxBuffer.len < k)
        fun n' => Moving v₀ ring l p n' m ∧ Flushed m) F := by
  intro m hm
  obtain ⟨⟨hp, hh⟩, rfl⟩ := hm
  have hmoved : Heard v₀ ring l [] n m.moved.talkView := by
    rw [talkView_moved]
    exact Heard.moved hh _
  obtain ⟨r, m', hrun, ⟨rfl, hview, hflushed⟩ | ⟨d, hd, hle, hview, hr⟩⟩ := flushStep_talk m n
  · rw [hrun]
    refine ⟨⟨(congrArg TalkView.pending hview).trans hp, ?_⟩, hflushed⟩
    unfold OnTalk
    rwa [hview]
  · rw [hrun]
    have hmoving : Moving v₀ ring l p (n + d) m' := by
      refine ⟨(congrArg TalkView.pending hview).trans hp, ?_⟩
      unfold OnTalk
      rw [hview]
      exact hmoved.push hle
    have hlen : m'.uart.rxBuffer.len = m.uart.rxBuffer.len - d := congrArg TalkView.buffered hview
    rcases hr with rfl | ⟨rfl, hflushed⟩
    · exact ⟨hmoving, show m'.uart.rxBuffer.len < m.uart.rxBuffer.len by omega⟩
    · exact ⟨hmoving, hflushed⟩

/-- A READ request is told about the bytes that were put into the ring. -/
theorem triple_completePendingRead (hl : Dialogue v₀.notSupported v₀.pending l s p) (n : ℕ) :
    Triple (fun m => Moving v₀ ring l p n m ∧ Flushed m) (completePendingRead n)
      (fun _ m => OnTalk (Talking v₀ ring s p) m ∧ Flushed m) F := by
  unfold completePendingRead
  refine Triple.ite (fun hpos => ?_) fun hpos => ?_
  · refine Triple.bind (Triple.get (Q := fun m₁ m => m = m₁ ∧ Moving v₀ ring l p n m ∧ Flushed m)
      fun _ h => ⟨rfl, h⟩) fun m₁ => ?_
    intro m hm
    obtain ⟨rfl, ⟨hp, hh⟩, hflushed⟩ := hm
    have hle : n ≤ rxBufferSoftLimit := (Nat.le_add_right _ _).trans hh.limit
    have hevent := Heard.event (e := .received n p) hh
    cases hread : m.uart.pendingRead with
    | none =>
      obtain rfl : none = p := hread.symm.trans hp
      exact ⟨⟨hread, _, .receive hpos hle hl, hevent⟩, hflushed⟩
    | some ud =>
      obtain rfl : some ud = p := hread.symm.trans hp
      exact ⟨⟨hread, _, .receive hpos hle hl, hevent⟩, hflushed⟩
  · refine Triple.pure _ fun m hm => ?_
    obtain rfl : n = 0 := Nat.eq_zero_of_not_pos hpos
    exact ⟨⟨hm.1.1, l, hl, hm.1.2⟩, hm.2⟩

/-- `process_rx_ring` puts bytes into the RX ring until there are none or the ring is full. -/
theorem triple_processRxRing_talk : Triple (OnTalk (Talking v₀ ring s p)) processRxRing
    (fun _ m => OnTalk (Talking v₀ ring s p) m ∧ Flushed m) F := by
  unfold processRxRing
  refine Triple.bind (Triple.get (Q := fun m₁ m => m = m₁ ∧ OnTalk (Talking v₀ ring s p) m)
    fun _ h => ⟨rfl, h⟩) fun m₁ => ?_
  refine Triple.ite (fun _ => ?_) fun hring => Triple.pure _ fun m hm => ?_
  · intro m hm
    obtain ⟨rfl, hp, l, hl, hh⟩ := hm
    have hloop := Triple.loop_variant (I := Moving v₀ ring l p) (F := F)
      (Q := fun n m => Moving v₀ ring l p n m ∧ Flushed m) (μ := fun m => m.uart.rxBuffer.len)
      triple_flushStep_talk (m.uart.rxBuffer.len + 1) 0
    exact Triple.bind hloop (triple_completePendingRead hl) m ⟨⟨hp, hh⟩, Nat.lt_succ_self _⟩
  · obtain ⟨rfl, hm⟩ := hm
    exact ⟨hm, fun ring h => absurd (Option.isSome_iff_exists.2 ⟨ring, h⟩) hring⟩

theorem talking_events : KeptByEvents (OnTalk (Talking v₀ ring s p)) :=
  onTalk_events (fun _ sqes h => h.moved sqes) (fun _ h hlen => h.buffer hlen)
    (triple_processRxRing_talk.mono (fun _ h => h) (fun _ _ h => h.1) fun _ h => h)

/-- `process_rx_ring`, if there is a byte in `rx_buffer`. -/
theorem triple_flushIfBuffered_talk (hasData : Bool) :
    Triple (OnTalk (Talking v₀ ring s p)) (flushIfBuffered hasData)
      (fun _ m => OnTalk (Talking v₀ ring s p) m ∧ Flushed m) F := by
  unfold flushIfBuffered
  refine Triple.bind (Triple.get (Q := fun m₁ m => m = m₁ ∧ OnTalk (Talking v₀ ring s p) m)
    fun _ h => ⟨rfl, h⟩) fun m₁ => ?_
  refine Triple.ite (fun _ => ?_) fun hempty => Triple.pure _ fun m hm => ?_
  · exact triple_processRxRing_talk.mono (fun _ h => h.2) (fun _ _ h => h) fun _ h => h
  · obtain ⟨rfl, hm⟩ := hm
    rw [not_or, not_not] at hempty
    exact ⟨hm, fun _ _ => .inl hempty.2⟩

/-- `sqe` was fetched in a dialogue in which `p` is told. -/
def Asked (v₀ : TalkView) (ring : IoUringServer) (sqe : Sqe) (p : Option UInt64) (v : TalkView) :
    Prop :=
  v.pending = p ∧ ∃ l, Dialogue v₀.notSupported v₀.pending l none p ∧ Heard v₀ ring l [sqe] 0 v

theorem triple_nextSqe_talk : Triple (OnTalk (Talking v₀ ring none p)) nextSqe
    (fun r m => r.elim (OnTalk (Talking v₀ ring none p) m)
      fun sqe => OnTalk (Asked v₀ ring sqe p) m) F := by
  refine Triple.ofFn fun m hm => ?_
  have hmoved : Talking v₀ ring none p m.moved.talkView := by
    rw [talkView_moved]
    exact Talking.moved hm _
  obtain ⟨hp, l, hl, hh⟩ := hmoved
  obtain ⟨t, more, hring, hqueued, hsq, hposted⟩ := hh.ring
  have hring : m.moved.uart.ring = some t := hring
  unfold IoUringServer.nextRequest
  simp only [hring]
  cases htsq : t.sq with
  | nil =>
    refine ⟨hp, l, hl, ⟨t, more, rfl, hqueued, hsq, hposted⟩, hh.passed, hh.limit, hh.lcr,
      hh.notSupported⟩
  | cons sqe rest =>
    refine ⟨hp, l, hl, ⟨{ t with sq := rest }, more, rfl, hqueued, ?_, hposted⟩, hh.passed,
      hh.limit, hh.lcr, hh.notSupported⟩
    rw [htsq, List.append_nil] at hsq
    rw [List.append_assoc, ← hsq]
    rfl

/-- A fetched request is being served; a READ request is told from now on. -/
theorem Asked.talking (h : Asked v₀ ring sqe p v) (hread : sqe.opcode ≠ .read) :
    Talking v₀ ring (some sqe) p v := by
  obtain ⟨hp, l, hl, hh⟩ := h
  have hl := Dialogue.fetch sqe hl
  rw [if_neg hread] at hl
  exact ⟨hp, _, hl, Heard.event (e := .fetched sqe) hh⟩

theorem Asked.talking_read (h : Asked v₀ ring sqe p v) (hread : sqe.opcode = .read) :
    Talking v₀ ring (some sqe) (some sqe.userData) { v with pending := some sqe.userData } := by
  obtain ⟨-, l, hl, hh⟩ := h
  have hl := Dialogue.fetch sqe hl
  rw [if_pos hread] at hl
  obtain ⟨hring, hpassed, hlimit, hlcr, hnot⟩ := Heard.event (e := .fetched sqe) hh
  exact ⟨rfl, _, hl, hring, hpassed, hlimit, hlcr, hnot⟩

/-- The request that is being served is answered. -/
theorem Talking.answer {result : Int32} (ha : Answers v₀.notSupported sqe result)
    (h : Talking v₀ ring (some sqe) p v) :
    Talking v₀ ring none p (v.posted (some (sqe.userData, result))) := by
  obtain ⟨hp, l, hl, hh⟩ := h
  exact ⟨hp, _, .answer ha hl, Heard.event (e := .answered sqe result) hh⟩

/-- `process_tx_ring` sends no more than its budget. -/
theorem triple_processTxRing_talk (hdlab : v₀.lcr &&& lcrDlab = 0) (fuel budget : ℕ) :
    Triple (OnTalk (Talking v₀ ring s p)) (processTxRing fuel budget)
      (fun n m => n ≤ budget ∧ OnTalk (Talking v₀ ring s p) m) fun _ => True := by
  intro m hm
  have hkeep := talking_events.processTxRing fuel budget m hm
  obtain ⟨-, l, -, hh⟩ := hm
  rcases hrun : processTxRing fuel budget m with ⟨n | _ | _, m'⟩
  · rw [hrun] at hkeep
    have hlcr : m.chip.lcr = v₀.lcr := hh.lcr
    exact ⟨(processTxRing_ret (hlcr ▸ hdlab) hrun).1, hkeep⟩
  · trivial
  · trivial

/-- The result of a WRITE request. -/
theorem answers_write {notSupported : Int32} {n : ℕ} (hop : sqe.opcode = .write)
    (hn : n ≤ txSqBudgetBytes) : Answers notSupported sqe
      (if sqe.addr = 0 then Int32.ofNat n else sqe.len.toInt32) := by
  unfold Answers
  rw [hop]
  dsimp only
  split_ifs
  · exact ⟨n, hn, rfl⟩
  · rfl

/-- A request is served. -/
theorem triple_handleSqe_talk (hdlab : v₀.lcr &&& lcrDlab = 0) (fuel : ℕ) (sqe : Sqe) :
    Triple (OnTalk (Asked v₀ ring sqe p)) (handleSqe fuel sqe)
      (fun _ m => ∃ p', OnTalk (Talking v₀ ring none p') m) fun _ => True := by
  unfold handleSqe
  split
  case h_1 hop =>
    refine Triple.bind (Q := fun n m => n ≤ txSqBudgetBytes ∧
      OnTalk (Talking v₀ ring (some sqe) p) m) ?_ fun n => Triple.modify fun m hm => ⟨p, ?_⟩
    · exact (triple_processTxRing_talk hdlab fuel _).mono
        (fun _ h => Asked.talking h (by simp [hop])) (fun _ _ h => h) fun _ h => h
    · exact Talking.answer (answers_write hop hm.1) hm.2
  case h_2 hop =>
    refine Triple.bind (Q := fun _ => OnTalk (Talking v₀ ring (some sqe) (some sqe.userData))) ?_
      fun _ => ?_
    · exact Triple.modify fun m hm => Asked.talking_read hm hop
    · refine Triple.bind triple_processRxRing_talk fun _ =>
        Triple.modify fun m hm => ⟨some sqe.userData, ?_⟩
      refine Talking.answer ?_ hm.1
      unfold Answers
      rw [hop]
  case h_3 hwrite hread =>
    refine Triple.bind (Triple.get (Q := fun m₁ m => m = m₁ ∧ OnTalk (Asked v₀ ring sqe p) m)
      fun _ h => ⟨rfl, h⟩) fun m₁ => Triple.modify fun m hm => ⟨p, ?_⟩
    obtain ⟨rfl, hm⟩ := hm
    have hnot : m.notSupported = v₀.notSupported := by
      obtain ⟨-, l, -, hh⟩ := hm
      exact hh.notSupported
    refine Talking.answer ?_ (Asked.talking hm hread)
    unfold Answers
    split
    · exact absurd ‹_› hwrite
    · exact absurd ‹_› hread
    · rw [hnot]

/-- `handle_sq` answers one request after the other. -/
theorem triple_handleSq_talk (hdlab : v₀.lcr &&& lcrDlab = 0) (fuel : ℕ) :
    Triple (fun m => ∃ p, OnTalk (Talking v₀ ring none p) m) (handleSq fuel)
      (fun _ m => (∃ p, OnTalk (Talking v₀ ring none p) m) ∧ Flushed m) fun _ => True := by
  have hbody : ∀ u, Triple (fun m => ∃ p, OnTalk (Talking v₀ ring none p) m) (sqStep fuel u)
      (fun r m => r.elim (fun _ => ∃ p, OnTalk (Talking v₀ ring none p) m)
        fun _ => ∃ p, OnTalk (Talking v₀ ring none p) m) fun _ => True := by
    rintro u m ⟨p, hm⟩
    unfold sqStep
    refine Triple.bind triple_nextSqe_talk (fun sqe => ?_) m hm
    cases sqe with
    | none => exact Triple.pure _ fun m hm => ⟨p, hm⟩
    | some sqe =>
      exact Triple.bind (triple_handleSqe_talk hdlab fuel sqe) fun _ => Triple.pure _ fun _ h => h
  unfold handleSq
  refine Triple.bind (Q := fun _ m => ∃ p, OnTalk (Talking v₀ ring none p) m)
    (Triple.loop hbody (fun _ _ _ => trivial) fuel ()) fun _ => ?_
  rintro m ⟨p, hm⟩
  exact (triple_flushIfBuffered_talk false).mono (fun _ h => h) (fun _ _ h => ⟨⟨p, h.1⟩, h.2⟩)
    (fun _ h => h) m hm

theorem triple_handleIrq_talk (fuel : ℕ) : Triple (OnTalk (Talking v₀ ring none p)) (handleIrq fuel)
    (fun _ m => OnTalk (Talking v₀ ring none p) m ∧ Flushed m) fun _ => True := by
  unfold handleIrq
  exact Triple.bind ((talking_events.irqEvents fuel _ false).triple fun _ _ => trivial)
    triple_flushIfBuffered_talk

end Calls

/-! ### Runs -/

section Runs

variable {v₀ : TalkView} {ring : IoUringServer} {m m' : Machine}

/-- What a notification leaves. -/
theorem triple_notification_talk (hdlab : v₀.lcr &&& lcrDlab = 0) (fuel : ℕ) {op : UartOp}
    (hop : op.IsNotification) :
    Triple (fun m => ∃ p, OnTalk (Talking v₀ ring none p) m) (exec fuel op)
      (fun _ m => (∃ p, OnTalk (Talking v₀ ring none p) m) ∧ (op ≠ .wait → Flushed m))
      fun _ => True := by
  obtain rfl | rfl | rfl | rfl := hop
  · rintro m ⟨p, hm⟩
    exact (triple_handleIrq_talk fuel).mono (fun _ h => h)
      (fun _ _ h => ⟨⟨p, h.1⟩, fun _ => h.2⟩) (fun _ h => h) m hm
  · exact (triple_handleSq_talk hdlab fuel).mono (fun _ h => h) (fun _ _ h => ⟨h.1, fun _ => h.2⟩)
      fun _ h => h
  · rintro m ⟨p, hm⟩
    exact (triple_flushIfBuffered_talk false).mono (fun _ h => h)
      (fun _ _ h => ⟨⟨p, h.1⟩, fun _ => h.2⟩) (fun _ h => h) m hm
  · rintro m ⟨p, hm⟩
    refine ⟨⟨p, ?_⟩, fun h => absurd rfl h⟩
    show Talking v₀ ring none p m.moved.talkView
    rw [talkView_moved]
    exact Talking.moved hm _

theorem run_talking (hdlab : v₀.lcr &&& lcrDlab = 0) (h : ∃ p, OnTalk (Talking v₀ ring none p) m)
    (hrun : Relation.ReflTransGen Returned m m') : ∃ p, OnTalk (Talking v₀ ring none p) m' := by
  induction hrun with
  | refl => exact h
  | tail _ hcall ih =>
    obtain ⟨fuel, op, hop, hret⟩ := hcall
    have hcall := triple_notification_talk hdlab fuel hop _ ih
    rw [hret] at hcall
    exact hcall.1

end Runs

/-- **The dialogue of the UART driver.**  From any state with a ring of requests, no more received
bytes than the limit allows and the divisor latch closed, every run of notifications is a dialogue:
the requests that the client queued are fetched and answered one after the other, all
bytes that are put into the RX ring are accounted for, and each completion is an answer or tells the
READ request that was fetched last how many bytes were put there; once there is such a request,
none go untold.  If there is an RX ring, then after each notification it is full or there is no
received byte left. -/
theorem uart_dialogue (m₀ m : Machine) (ring : IoUringServer) (hring : m₀.uart.ring = some ring)
    (hlimit : m₀.uart.rxBuffer.len ≤ rxBufferSoftLimit) (hdlab : m₀.chip.lcr &&& lcrDlab = 0)
    (hrun : Relation.ReflTransGen Returned m₀ m) :
    (∃ l, Dialogue m₀.notSupported m₀.uart.pendingRead l none m.uart.pendingRead ∧
      l.filterMap UartEvent.request = l.filterMap UartEvent.reply ∧
      (∃ (t : IoUringServer) (more : List Sqe), m.uart.ring = some t ∧
        m.queued = m₀.queued ++ more ∧
        l.filterMap UartEvent.request ++ t.sq = ring.sq ++ more ∧
        t.completions = ring.completions ++ l.filterMap UartEvent.completion) ∧
      m.passed = m₀.passed + (l.map UartEvent.bytes).sum ∧
      ∀ n told, .received n told ∈ l → (Int32.ofNat n).toInt = n ∧
        (m₀.uart.pendingRead.isSome → told.isSome)) ∧
    ∀ fuel op m', op.IsNotification → op ≠ .wait → exec fuel op m = (.ret ⟨⟩, m') →
      Flushed m' := by
  have hstart : ∃ p, OnTalk (Talking m₀.talkView ring none p) m₀ :=
    ⟨_, rfl, [], .start, Heard.start hring hlimit⟩
  have hlcr : m₀.talkView.lcr &&& lcrDlab = 0 := hdlab
  obtain ⟨p, hm⟩ := run_talking hlcr hstart hrun
  refine ⟨?_, fun fuel op m' hop hwait hret => ?_⟩
  · obtain ⟨rfl, l, hl, hh⟩ := hm
    obtain ⟨t, more, ht, hqueued, hsq, hposted⟩ := hh.ring
    rw [List.append_nil] at hsq
    refine ⟨l, hl, ?_, ⟨t, more, ht, hqueued, hsq, hposted⟩, hh.passed, fun n told hmem =>
      ⟨hl.toInt_received hmem, fun hp => (hl.told hp).2 n told hmem⟩⟩
    rw [hl.replies, Option.toList_none, List.append_nil]
  · have hcall := triple_notification_talk hlcr fuel hop m ⟨p, hm⟩
    rw [hret] at hcall
    exact hcall.2 hwait

/-- A READ request is queued, and two bytes arrive before it is fetched. -/
def reader : Machine :=
  { Machine.initial (.line (fun k => if k = 0 then [7, 8] else []) fun k => k == 3) with
    uart :=
      { Ns16550a.new with
        rxRing := some ⟨4, []⟩
        ring := some ⟨[⟨.read, 0, 0, 0, 9⟩], []⟩ } }

/-- The request is answered, and the interrupt tells it about the two bytes. -/
theorem uart_dialogue_reader :
    ∃ (l : List UartEvent) (m : Machine), m.uart.rxData = [7, 8] ∧
      m.uart.ring = some ⟨[], [(9, 0), (9, 2)]⟩ ∧ Dialogue 0 none l none (some 9) ∧
      l.filterMap UartEvent.completion = [(9, 0), (9, 2)] := by
  have hsq : Returned reader (exec 4 .sq reader).2 :=
    ⟨4, .sq, Or.inr (Or.inl rfl), Prod.ext (by decide) rfl⟩
  have hirq : Returned (exec 4 .sq reader).2 (exec 4 .irq (exec 4 .sq reader).2).2 :=
    ⟨4, .irq, Or.inl rfl, Prod.ext (by decide) rfl⟩
  have hring : (exec 4 .irq (exec 4 .sq reader).2).2.uart.ring = some ⟨[], [(9, 0), (9, 2)]⟩ := by
    decide
  have hpending : (exec 4 .irq (exec 4 .sq reader).2).2.uart.pendingRead = some 9 := by decide
  obtain ⟨⟨l, hl, -, ⟨t, more, ht, -, -, hposted⟩, -, -⟩, -⟩ :=
    uart_dialogue reader _ ⟨[⟨.read, 0, 0, 0, 9⟩], []⟩ rfl (by decide) (by decide)
      (.tail (.single hsq) hirq)
  rw [hpending] at hl
  obtain rfl := Option.some.inj (hring.symm.trans ht)
  exact ⟨l, _, by decide, hring, hl, hposted.symm⟩

end GlendaDrivers.Uart
