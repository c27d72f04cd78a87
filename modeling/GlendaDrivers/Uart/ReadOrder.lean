import GlendaDrivers.Uart.Registers

/-!
# READ requests and the order of the received bytes

`read` takes bytes from the chip and passes over those that `handle_irq` has moved to
`rx_buffer`.

* `Stream acc`: what READ requests returned, what is in `rx_buffer`, the bytes `acc` in hand and
  what is in the receive FIFO are together what was received;
* `triple_read`: a READ request keeps this when `rx_buffer` is empty;
* `reads_in_order`: in runs in which every READ request finds `rx_buffer` empty, READ requests
  return what was received, in order and completely.
-/

namespace GlendaDrivers.Uart

open Prog (Triple Keeps)

/-- LSR reports a received byte iff the receive FIFO holds one. -/
def Conforming (env : ℕ → EnvMove) : Prop :=
  ∀ k fifo, (env k).lsr fifo &&& lsrDataReady ≠ 0 ↔ fifo ≠ []

/-- No byte has been dropped, and the bytes received are those returned, those in `rx_buffer`,
`acc` and those in the receive FIFO; there is no shared RX ring. -/
structure Stream (acc : List UInt8) (v : RxView) : Prop where
  dlab : v.lcr &&& lcrDlab = 0
  env : Conforming v.env
  rxRing : v.rxRing = none
  received : v.rxSwDrop = 0 →
    v.returned.flatten ++ v.rxBuffer.items ++ acc ++ v.rxFifo = v.received

namespace Stream

variable {acc : List UInt8} {v : RxView}

theorem moved (h : Stream acc v) (e : EnvMove) : Stream acc (v.moved e) where
  dlab := h.dlab
  env := h.env
  rxRing := by simp [RxView.moved, h.rxRing]
  received hdrop := by
    show _ ++ (v.rxFifo ++ e.arrive) = v.received ++ e.arrive
    rw [← List.append_assoc, ← h.received hdrop]
    rfl

/-- The head of the receive FIFO is taken in hand. -/
theorem readRbr (h : Stream acc v) (e : EnvMove) (hfifo : v.rxFifo ≠ []) :
    Stream (acc ++ [v.rbr e]) (v.readRbr e) where
  dlab := h.dlab
  env := h.env
  rxRing := h.rxRing
  received hdrop := by
    obtain ⟨c, rest, hcons⟩ := List.exists_cons_of_ne_nil hfifo
    have hrec := h.received hdrop
    rw [hcons] at hrec
    simpa [RxView.readRbr, RxView.rbr, hcons] using hrec

/-- When LSR has reported a byte, RBR yields the head of the receive FIFO. -/
theorem take (h : Stream acc v) {k k' : ℕ} (hready : v.Ready k) :
    Stream (acc ++ [(v.moved (v.env k')).rbr (v.env k')])
      ((v.moved (v.env k')).readRbr (v.env k')) := by
  refine (h.moved (v.env k')).readRbr (v.env k') ?_
  have hfifo : v.rxFifo ≠ [] := (h.env k v.rxFifo).mp hready
  simp [RxView.moved, hfifo]

end Stream

/-! ### Interrupts -/

theorem closed_stream : Closed (Stream []) fun c => Stream [c] where
  dlab v h := h.dlab
  moved v k h := h.moved (v.env k)
  take v k k' h hready := h.take hready
  keep v c h _ := {
    dlab := h.dlab
    env := h.env
    rxRing := h.rxRing
    received := fun hdrop => by simpa [RxView.keep] using h.received hdrop }
  drop v c h _ := {
    dlab := h.dlab
    env := h.env
    rxRing := h.rxRing
    -- a dropped byte is counted
    received := fun hdrop => absurd hdrop (Nat.succ_ne_zero v.rxSwDrop) }
  flush v ring h hring := absurd (h.rxRing.symm.trans hring) (by simp)

/-! ### READ requests -/

/-- A READ request is at work, with the bytes `acc` read so far. -/
structure Reading (acc : List UInt8) (v : RxView) : Prop extends Stream acc v where
  rxBuffer : v.rxBuffer.items = []

theorem triple_readBytes {F : Machine → Prop} (room : ℕ) (acc : List UInt8) :
    Triple (On (Reading acc)) (readBytes room)
      (fun bytes m => Reading (acc ++ bytes) m.rxView ∧
        (bytes.length < room → m.rxView.rxFifo = [])) F := by
  induction room generalizing acc with
  | zero =>
    refine Triple.pure [] fun m h => ⟨?_, fun hlen => absurd hlen (Nat.not_lt_zero _)⟩
    rw [List.append_nil]
    exact h
  | succ room ih =>
    have hget := triple_getchar (F := F) (I := Reading acc) (J := fun c => Reading (acc ++ [c]))
      (N := fun v => Reading acc v ∧ v.rxFifo = []) (fun v h => h.dlab)
      (fun v k h => ⟨h.moved (v.env k), h.rxBuffer⟩)
      (fun v k k' h hready => ⟨h.take hready, h.rxBuffer⟩)
      (fun v k h hidle => ⟨h, of_not_not fun hne => hidle ((h.env k v.rxFifo).mpr hne)⟩)
    refine Triple.bind hget fun c => ?_
    cases c with
    | none =>
      refine Triple.pure [] fun m h => ⟨?_, fun _ => h.2⟩
      rw [List.append_nil]
      exact h.1
    | some c =>
      refine Triple.bind (ih (acc ++ [c])) fun bytes => Triple.pure (c :: bytes) fun m h => ?_
      rw [List.append_assoc] at h
      exact ⟨h.1, fun hlen => h.2 (Nat.lt_of_succ_lt_succ hlen)⟩

/-- What holds when a READ request with room for `len` bytes has been answered. -/
structure Answered (len : ℕ) (v : RxView) : Prop extends Stream [] v where
  rxBuffer : v.rxBuffer.items = []
  complete : ∀ bytes, v.returned.getLast? = some bytes → bytes.length < len → v.rxFifo = []

theorem triple_read (fuel len : ℕ) :
    Triple (On (Reading [])) (exec fuel (.read len)) (fun _ => On (Answered len))
      (On (Answered len)) := by
  refine Triple.bind (triple_readBytes len []) fun bytes => ?_
  refine Triple.modify fun m h => ?_
  obtain ⟨h, hfifo⟩ := h
  exact {
    dlab := h.dlab
    env := h.env
    rxRing := h.rxRing
    received := fun hdrop => by
      have hrec := h.received hdrop
      rw [h.rxBuffer] at hrec
      have hitems : (m.uart.rxBuffer.items) = [] := h.rxBuffer
      simpa [Machine.rxView, hitems] using hrec
    rxBuffer := h.rxBuffer
    complete := fun bytes' hlast hlen => by
      have hlast : (m.log.returned ++ [bytes]).getLast? = some bytes' := hlast
      rw [List.getLast?_concat] at hlast
      exact hfifo (Option.some.inj hlast ▸ hlen) }

/-! ### Runs -/

/-- The driver is initialised, no byte has been received, and there is no shared RX ring. -/
structure Idle (m : Machine) : Prop extends Started m where
  env : Conforming m.env
  rxRing : m.uart.rxRing = none
  rxFifo : m.chip.rxFifo = []
  received : m.log.received = []
  returned : m.log.returned = []

theorem Idle.stream {m : Machine} (h : Idle m) : Stream [] m.rxView where
  dlab := h.dlab
  env := h.env
  rxRing := h.rxRing
  received _ := by
    show m.log.returned.flatten ++ m.rxView.rxBuffer.items ++ [] ++ m.chip.rxFifo = m.log.received
    rw [h.returned, h.quiet.rxBuffer, h.rxFifo, h.received]
    rfl

/-- Every READ request of the run with room in its buffer finds `rx_buffer` empty. -/
def ReadsUnbuffered (fuel : ℕ) (ops : List UartOp) (m : Machine) : Prop :=
  ∀ pre len post, ops = pre ++ .read len :: post → 0 < len →
    (run fuel pre m).uart.rxBuffer.items = []

/-- The calls at issue: interrupts, READ requests and the passing of time. -/
def UartOp.IsReceive (op : UartOp) : Prop := op = .irq ∨ op = .wait ∨ ∃ len, op = .read len

/-- One call keeps the stream. -/
theorem exec_stream {fuel : ℕ} {op : UartOp} {m : Machine} (hop : op.IsReceive)
    (hbuf : ∀ len, op = .read len → 0 < len → m.uart.rxBuffer.items = [])
    (hm : Stream [] m.rxView) : Stream [] (exec fuel op m).2.rxView := by
  obtain rfl | rfl | ⟨len, rfl⟩ := hop
  · exact (closed_stream.kept.handleIrq fuel).snd hm
  · exact closed_stream.wait.snd hm
  · obtain rfl | hlen := Nat.eq_zero_or_pos len
    · -- a READ request without room reads nothing
      have hflat : (m.log.returned ++ [[]]).flatten = m.log.returned.flatten := by simp
      refine { hm with received := fun hdrop => ?_ }
      show (m.log.returned ++ [[]]).flatten ++ _ ++ _ ++ _ = _
      rw [hflat]
      exact hm.received hdrop
    · exact ((triple_read fuel len).snd ⟨hm, hbuf len rfl hlen⟩ :
        Answered len _).toStream

theorem run_stream {fuel : ℕ} {ops : List UartOp} (hops : ∀ op ∈ ops, op.IsReceive)
    {m : Machine} (hm : Stream [] m.rxView) (hbuf : ReadsUnbuffered fuel ops m) :
    Stream [] (run fuel ops m).rxView := by
  induction ops generalizing m with
  | nil => exact hm
  | cons op ops ih =>
    have hstep : Stream [] (exec fuel op m).2.rxView := by
      refine exec_stream (hops op List.mem_cons_self) (fun len hop hlen => ?_) hm
      exact hbuf [] len ops (by rw [hop]; rfl) hlen
    refine ih (fun op' hop' => hops op' (List.mem_cons_of_mem op hop')) hstep ?_
    intro pre len post hsplit hlen
    exact hbuf (op :: pre) len post (by rw [hsplit]; rfl) hlen

/-- **READ requests return the received bytes in order.**  In every run of interrupts and READ
requests without a shared RX ring and without a dropped byte in which every READ request with room
in its buffer finds `rx_buffer` empty, the results of the READ requests are together a prefix of
the bytes received; and when a READ request has filled its buffer only in part, they are all the
bytes received. -/
theorem reads_in_order {fuel : ℕ} {ops : List UartOp} {m : Machine} (hm : Idle m)
    (hops : ∀ op ∈ ops, op.IsReceive) (hbuf : ReadsUnbuffered fuel ops m)
    (hdrop : (run fuel ops m).uart.stats.rxSwDrop = 0) :
    (run fuel ops m).log.returned.flatten <+: (run fuel ops m).log.received ∧
      ∀ pre len bytes, ops = pre ++ [.read len] →
        (run fuel ops m).log.returned.getLast? = some bytes → bytes.length < len →
        (run fuel ops m).log.returned.flatten = (run fuel ops m).log.received := by
  have hrun := run_stream hops hm.stream hbuf
  constructor
  · have hrec := hrun.received hdrop
    rw [List.append_assoc, List.append_assoc] at hrec
    exact ⟨_, hrec⟩
  · rintro pre len bytes rfl hlast hlen
    -- the last call is looked at once more, from the state in which it is made
    have hpre : Stream [] (run fuel pre m).rxView := by
      refine run_stream (fun op hop => hops op (List.mem_append_left _ hop)) hm.stream ?_
      intro pre' len' post hsplit hlen'
      exact hbuf pre' len' (post ++ [.read len]) (by rw [hsplit]; simp) hlen'
    have hempty := hbuf pre len [] rfl (Nat.zero_lt_of_lt hlen)
    have hrun' : run fuel (pre ++ [.read len]) m = (exec fuel (.read len) (run fuel pre m)).2 :=
      run_append fuel pre [.read len] m
    have hans : Answered len (run fuel (pre ++ [.read len]) m).rxView := by
      rw [hrun']
      exact (triple_read fuel len).snd ⟨hpre, hempty⟩
    have hrec := hans.received hdrop
    rw [hans.rxBuffer, hans.complete bytes hlast hlen, List.append_nil, List.append_nil,
      List.append_nil] at hrec
    exact hrec

/-! ### Two runs -/

theorem readyLsr_dataReady (fifo : List UInt8) :
    EnvMove.readyLsr fifo &&& lsrDataReady ≠ 0 ↔ fifo ≠ [] := by
  unfold EnvMove.readyLsr
  split_ifs with h
  · exact ⟨fun hne => absurd (by decide) hne, fun hne => absurd h hne⟩
  · exact ⟨fun _ => h, fun _ => by decide⟩

theorem idle_initial (arrive : ℕ → List UInt8) (irq : ℕ → Bool) :
    Idle (.initial (.line arrive irq)) where
  dlab := (by decide : (0 : UInt8) &&& lcrDlab = 0)
  quiet := quiet_initial _
  env _ := readyLsr_dataReady
  rxRing := rfl
  rxFifo := rfl
  received := rfl
  returned := rfl

/-- A machine to which three bytes are sent, and two more with an interrupt. -/
def sentFive : Machine := .initial
  (.line (fun k => if k = 0 then [7, 8, 9] else if k = 8 then [10, 11] else []) fun k => k == 7)

/-- The three bytes are read by two requests; the interrupt moves the other two to `rx_buffer`. -/
theorem reads_in_order_two : (run 4 [.read 2, .read 16, .irq] sentFive).log.returned =
      [[7, 8], [9]] ∧
    (run 4 [.read 2, .read 16, .irq] sentFive).log.received = [7, 8, 9, 10, 11] ∧
    (run 4 [.read 2, .read 16, .irq] sentFive).log.returned.flatten <+:
      (run 4 [.read 2, .read 16, .irq] sentFive).log.received ∧
    (run 4 [.read 2, .read 16] sentFive).log.returned.flatten =
      (run 4 [.read 2, .read 16] sentFive).log.received := by
  have hreads : ReadsUnbuffered 4 [.read 2, .read 16, .irq] sentFive := by
    intro pre len post hsplit _
    rcases pre with _ | ⟨op₁, _ | ⟨op₂, pre⟩⟩
    · rfl
    · cases hsplit
      decide
    · have hmem : UartOp.read len ∈ [UartOp.irq] := by
        rw [(List.cons.inj (List.cons.inj hsplit).2).2]
        exact List.mem_append_right _ List.mem_cons_self
      exact absurd hmem (by simp)
  have hreads' : ReadsUnbuffered 4 [.read 2, .read 16] sentFive := by
    intro pre len post hsplit hlen
    exact hreads pre len (post ++ [.irq]) (by
      rw [← List.cons_append, ← List.append_assoc, ← hsplit]
      rfl) hlen
  have hops : ∀ op ∈ [UartOp.read 2, .read 16, .irq], op.IsReceive := by
    intro op hop
    simp only [List.mem_cons, List.not_mem_nil, or_false] at hop
    rcases hop with rfl | rfl | rfl
    · exact .inr (.inr ⟨2, rfl⟩)
    · exact .inr (.inr ⟨16, rfl⟩)
    · exact .inl rfl
  have hall := reads_in_order (idle_initial _ _) hops hreads (by decide)
  have htwo := reads_in_order (idle_initial _ _)
    (fun op hop => hops op (List.mem_append_left [.irq] hop)) hreads' (by decide)
  exact ⟨by decide, by decide, hall.1, htwo.2 [.read 2] 16 [9] rfl (by decide) (by decide)⟩

/-- A machine to which two bytes are sent, the second one after the first one's interrupt. -/
def sentTwo : Machine := .initial
  (.line (fun k => if k = 0 then [1] else if k = 6 then [2] else []) fun k => k == 0)

/-- The interrupt moves the first byte to `rx_buffer`; the READ request returns the second one. -/
theorem read_overtakes : Idle sentTwo ∧
    (run 4 [.irq, .read 16] sentTwo).uart.stats.rxSwDrop = 0 ∧
    (run 4 [.irq, .read 16] sentTwo).log.received = [1, 2] ∧
    (run 4 [.irq, .read 16] sentTwo).log.returned = [[2]] ∧
    ¬(run 4 [.irq, .read 16] sentTwo).log.returned.flatten <+:
      (run 4 [.irq, .read 16] sentTwo).log.received :=
  ⟨idle_initial _ _, by decide, by decide, by decide, by decide⟩

end GlendaDrivers.Uart
