import GlendaDrivers.Virtio.BlockCompletion

/-!
# No completion of the block driver is stranded (`virtio/block/src/server.rs`)

The service waits in `recv` for the kernel to deliver notifications.  The interrupt line is high
while InterruptStatus is not 0; the kernel masks it when it delivers the notification, and
unmasks it on `IrqHandler::ack`.  The interrupt path is split into its single steps: read
InterruptStatus, write InterruptAck, pop until the queue is empty, `IrqHandler::ack`.  The device
publishes used entries, and then sets the bit of InterruptStatus.

* `BlockServiceState`, `BlockServiceStep`: the service, the kernel, the client and the device;
* `BlockServiceState.Inv`: a published entry whose bit was set keeps the line high until the
  loop that pops it is entered;
* `block_wakeup`: when the service waits and nothing will wake it, all entries are popped that
  the device has announced.
-/

namespace GlendaDrivers

open VirtQueue VirtIOBlk

/-- What follows when the interrupt handler has returned. -/
inductive AfterDrain
  /-- `recv`, after a message without a protocol. -/
  | done
  /-- `IrqHandler::ack`, and `handle_ring` if the message also has a ring bit. -/
  | ack (ring : Bool)

/-- Where the service is. -/
inductive BlockServicePhase
  | recv
  /-- `interrupt_ack` is about to read InterruptStatus. -/
  | readStatus (next : AfterDrain)
  /-- `interrupt_ack` has read `v` and is about to write it to InterruptAck. -/
  | writeAck (v : UInt32) (next : AfterDrain)
  /-- `pop_completions`. -/
  | draining (next : AfterDrain)
  /-- `IrqHandler::ack`. -/
  | irqAck (ring : Bool)
  /-- `handle_ring` is about to be called. -/
  | ring
  | ringing

/-- The phase after `handle_irq`. -/
def AfterDrain.phase : AfterDrain → BlockServicePhase
  | .done => .recv
  | .ack ring => .irqAck ring

/-- The kernel's mask was set for the interrupt that is being handled. -/
def BlockServicePhase.InIrq : BlockServicePhase → Prop
  | .readStatus (.ack _) => True
  | .writeAck _ (.ack _) => True
  | .draining (.ack _) => True
  | .irqAck _ => True
  | _ => False

/-- The service with the kernel and the device. -/
structure BlockServiceState where
  sys : BlkState
  phase : BlockServicePhase
  /-- The kernel's mask of the interrupt line. -/
  masked : Bool
  /-- The bits of the badge that the next `recv` returns. -/
  irq : Bool
  ring : Bool
  /-- The number of published entries when the device last set the bit of InterruptStatus. -/
  announced : ℕ

namespace BlkState

/-- InterruptStatus. -/
def status (s : BlkState) : UInt32 := s.blk.transport.interruptStatus

/-- `handle_ring` fetches requests. -/
def fetch (s : BlkState) (server : IoUringServer) : BlkState :=
  { s with
    blk := { s.blk with ringServer := some (server.fetch 16).2 }
    phase := if (server.fetch 16).1 = [] then .idle else .submitting (server.fetch 16).1
    fetched := s.fetched ++ (server.fetch 16).1 }

/-- The device sets bits of InterruptStatus. -/
def raise (s : BlkState) (v : UInt32) : BlkState :=
  { s with blk := { s.blk with transport :=
    { s.blk.transport with interruptStatus := s.blk.transport.interruptStatus ||| v } } }

/-- `interrupt_ack` writes `v`, and `handle_irq` goes on to `pop_completions`. -/
def writeAck (s : BlkState) (v : UInt32) : BlkState :=
  { s with
    blk := { s.blk with transport := s.blk.transport.writeInterruptAck v }
    phase := .popping }

end BlkState

namespace BlockServiceState

/-- The service when `init` has returned. -/
def start (b : VirtIOBlk) : BlockServiceState := ⟨.start b, .recv, false, false, false, 0⟩

/-- The kernel can deliver the interrupt. -/
def Deliverable (s : BlockServiceState) : Prop := s.masked = false ∧ s.sys.status ≠ 0

/-- The service waits in `recv`, and nothing wakes it. -/
structure Quiet (s : BlockServiceState) : Prop where
  recv : s.phase = .recv
  irq : s.irq = false
  ring : s.ring = false
  line : ¬ s.Deliverable

/-- The device sets the bit of InterruptStatus for the entries it has published. -/
def announce (s : BlockServiceState) : BlockServiceState :=
  { s with sys := s.sys.raise 1, announced := s.sys.traffic.published.length }

end BlockServiceState

/-- One step of the service, the kernel, the client or the device. -/
inductive BlockServiceStep : BlockServiceState → BlockServiceState → Prop
  /-- A step of the client, the device, or the call of the driver that is under way. -/
  | call (s : BlockServiceState) (t : BlkState) (h : BlkStep s.sys t)
      (hidle : s.sys.phase = .idle → t.phase = .idle) :
      BlockServiceStep s { s with sys := t }
  | announce (s : BlockServiceState) : BlockServiceStep s s.announce
  /-- The client rings. -/
  | notify (s : BlockServiceState) : BlockServiceStep s { s with ring := true }
  /-- The kernel delivers the interrupt and masks the line. -/
  | deliver (s : BlockServiceState) (h : s.Deliverable) :
      BlockServiceStep s { s with masked := true, irq := true }
  /-- `recv` returns some of the pending bits. -/
  | receive (s : BlockServiceState) (irq ring : Bool) (hp : s.phase = .recv)
      (hirq : irq = true → s.irq = true) (hring : ring = true → s.ring = true)
      (hne : irq = true ∨ ring = true) :
      BlockServiceStep s { s with
        phase := if irq then .readStatus (.ack ring) else .ring
        irq := s.irq && !irq
        ring := s.ring && !ring }
  /-- `recv` returns a message without a protocol. -/
  | poll (s : BlockServiceState) (hp : s.phase = .recv) :
      BlockServiceStep s { s with phase := .readStatus .done }
  | readStatus (s : BlockServiceState) (next : AfterDrain) (hp : s.phase = .readStatus next) :
      BlockServiceStep s { s with
        phase := if s.sys.status = 0 then next.phase else .writeAck s.sys.status next }
  | writeAck (s : BlockServiceState) (v : UInt32) (next : AfterDrain)
      (hp : s.phase = .writeAck v next) :
      BlockServiceStep s { s with sys := s.sys.writeAck v, phase := .draining next }
  /-- `pop_completions` has returned. -/
  | drained (s : BlockServiceState) (next : AfterDrain) (hp : s.phase = .draining next)
      (hidle : s.sys.phase = .idle) :
      BlockServiceStep s { s with phase := next.phase }
  /-- `IrqHandler::ack`. -/
  | irqAck (s : BlockServiceState) (ring : Bool) (hp : s.phase = .irqAck ring) :
      BlockServiceStep s { s with phase := if ring then .ring else .recv, masked := false }
  /-- `handle_ring` is entered. -/
  | ring (s : BlockServiceState) (server : IoUringServer) (hp : s.phase = .ring)
      (hs : s.sys.blk.ringServer = some server) :
      BlockServiceStep s { s with sys := s.sys.fetch server, phase := .ringing }
  /-- `handle_ring` returns without a ring server. -/
  | ringNone (s : BlockServiceState) (hp : s.phase = .ring)
      (hs : s.sys.blk.ringServer = none) :
      BlockServiceStep s { s with phase := .recv }
  /-- `handle_ring` has returned. -/
  | ringDone (s : BlockServiceState) (hp : s.phase = .ringing) (hidle : s.sys.phase = .idle) :
      BlockServiceStep s { s with phase := .recv }

/-- A state that can be reached from `s`. -/
abbrev BlockServiceReach : BlockServiceState → BlockServiceState → Prop :=
  Relation.ReflTransGen BlockServiceStep

/-! ### The steps of the driver -/

/-- Submission leaves InterruptStatus alone. -/
theorem BlkInv.submit_status {b c : VirtIOBlk} {q : VirtQueue} {t : Traffic}
    {answers : ℕ → Option UInt8} {out : List Request} {held : List UInt16} {slot : ℕ → Fin 64}
    {userData : ℕ → UInt64} {sqe : Sqe} {r : Except Error Unit}
    (h : BlkInv b q t answers out held slot userData)
    (hsub : b.submitVirtioRequest sqe = .ret (r, c)) :
    c.transport.interruptStatus = b.transport.interruptStatus := by
  rcases submit_cases b sqe with ⟨-, hpan⟩ | ⟨r', c', hr, href⟩ | ⟨q₀, i, type, w, p, ha⟩
  · simp [hpan] at hsub
  · obtain ⟨-, rfl⟩ := Prod.mk.inj (Outcome.ret.inj (hr.symm.trans hsub))
    rcases href.state with rfl | ⟨i, type, -, rfl⟩
    · rfl
    · rfl
  · obtain rfl : q = q₀ := Option.some.inj (h.queue.symm.trans ha.queue)
    rcases Nat.lt_or_ge q.freeIds.length 3 with hlt | hge
    · obtain ⟨q₁, hok, -⟩ := h.submit_short ha hlt
      obtain ⟨-, rfl⟩ := Prod.mk.inj (Outcome.ret.inj (hok.symm.trans hsub))
      rfl
    · obtain ⟨d1, d2, d3, q₁, hok, -⟩ := h.submit_ok ha hge
      obtain ⟨-, rfl⟩ := Prod.mk.inj (Outcome.ret.inj (hok.symm.trans hsub))
      rfl

/-- What a step of the driver's system does to InterruptStatus, the used ring and the loop. -/
structure BlkProgress (s t : BlkState) : Prop where
  status : ∃ w, t.status = s.status ||| w
  pops : s.traffic.pops ≤ t.traffic.pops
  published : s.traffic.published.length ≤ t.traffic.published.length
  popping : s.phase = .popping →
    t.phase = .popping ∨ t.traffic.pops = t.traffic.published.length

/-- A step that does not enter `handle_irq`. -/
theorem BlkState.Inv.progress {s t : BlkState} {blkSize : UInt32}
    {before : List (UInt64 × Int32)} {q : VirtQueue} {out : List Request} {held : List UInt16}
    {slot : ℕ → Fin 64} {userData : ℕ → UInt64}
    (h : s.Inv blkSize before q out held slot userData) (hstep : BlkStep s t)
    (hidle : s.phase = .idle → t.phase = .idle) : BlkProgress s t := by
  -- steps that leave InterruptStatus and the used ring alone
  have same : t.status = s.status → t.traffic.pops = s.traffic.pops →
      t.traffic.published = s.traffic.published →
      (s.phase = .popping → t.phase = .popping) → BlkProgress s t := fun hs hp hu hphase =>
    ⟨⟨0, by rw [hs]; simp⟩, hp.ge, by rw [hu], fun hpop => Or.inl (hphase hpop)⟩
  cases hstep with
  | client server sqe hs => exact same rfl rfl rfl id
  | setup vaddr paddr size hp => exact same rfl rfl rfl id
  | fetch server hp hs => exact same rfl rfl rfl fun hpop => by simp [hp] at hpop
  | accept sqe todo b q₀ q' hp hb hq hq' =>
    exact same (h.blk.submit_status hb) rfl rfl fun hpop => by simp [hp] at hpop
  | reject sqe todo e b hp hb =>
    have hstatus := h.blk.submit_status hb
    exact same hstatus rfl rfl fun hpop => by simp [hp] at hpop
  | submitted hp => exact same rfl rfl rfl fun _ => rfl
  | irq hp =>
    have hack := hidle hp
    by_cases hz : s.blk.transport.interruptStatus = 0
    · refine same ?_ rfl rfl fun hpop => by simp [hp] at hpop
      simp [BlkState.status, Transport.interruptAck, hz]
    · simp [Transport.interruptAck, hz] at hack
  | pop b hp hb =>
    obtain ⟨r, -, d1, d2, d3, st, q', -, -, -, hpop, -⟩ := h.blk.pop_some (h.blk.pops_lt hb)
    obtain ⟨-, rfl⟩ := Prod.mk.inj (Outcome.ret.inj (hpop.symm.trans hb))
    refine ⟨⟨0, ?_⟩, Nat.le_succ _, le_rfl, Or.inl⟩
    show s.status = s.status ||| 0
    simp
  | popDone b hp hb =>
    -- the loop ends when no entry is left
    obtain ⟨hall, rfl⟩ := h.blk.pops_eq hb
    refine ⟨⟨0, ?_⟩, le_rfl, le_rfl, fun _ => Or.inr hall⟩
    show s.status = s.status ||| 0
    simp
  | raise v => exact ⟨⟨v, rfl⟩, le_rfl, le_rfl, Or.inl⟩
  | take q₀ hq hne => exact same rfl rfl rfl id
  | answer q₀ pos head status hq hhead hnew => exact same rfl rfl rfl id
  | publish q₀ pos elem hq hc ha =>
    refine ⟨⟨0, ?_⟩, le_rfl, ?_, Or.inl⟩
    · show s.status = s.status ||| 0
      simp
    · show _ ≤ (s.traffic.published ++ [_]).length
      rw [List.length_append]
      exact Nat.le_add_right _ _

/-- Acknowledging what was read is a step of the driver's system, after which the device sets
the bits again that were set since. -/
theorem BlkState.writeAck_run {s : BlkState} (v : UInt32) (hp : s.phase = .idle)
    (hs : s.status ≠ 0) : BlkReach s (s.writeAck v) := by
  have hirq := BlkStep.irq s hp
  have hack : s.blk.transport.interruptAck = (true, s.blk.transport.writeInterruptAck s.status) :=
    if_pos hs
  rw [hack] at hirq
  have hraise := BlkStep.raise { s with
    blk := { s.blk with transport := s.blk.transport.writeInterruptAck s.status }
    phase := .popping } (s.status &&& ~~~v)
  have hval : (s.blk.transport.writeInterruptAck s.status).interruptStatus |||
      (s.status &&& ~~~v) = (s.blk.transport.writeInterruptAck v).interruptStatus := by
    show (s.status &&& ~~~s.status) ||| (s.status &&& ~~~v) = s.status &&& ~~~v
    simp
  simp only [hval] at hraise
  exact (Relation.ReflTransGen.single hirq).tail hraise

/-! ### The invariant -/

namespace BlockServiceState

/-- The invariant: an announced entry that is not popped keeps the line high, unless the loop
runs that pops it; the line is masked iff the interrupt is pending or being handled. -/
structure Inv (s : BlockServiceState) : Prop where
  announced : s.announced ≤ s.sys.traffic.published.length
  wake : s.sys.traffic.pops < s.announced → s.sys.status ≠ 0 ∨ s.sys.phase = .popping
  idle : (∀ next, s.phase ≠ .draining next) → s.phase ≠ .ringing → s.sys.phase = .idle
  ack : ∀ v next, s.phase = .writeAck v next → v ≠ 0 ∧ ∃ w, s.sys.status = v ||| w
  masked : s.masked = true ↔ s.irq = true ∨ s.phase.InIrq
  once : s.phase.InIrq → s.irq = false

namespace Inv

variable {s t : BlockServiceState} {b : VirtIOBlk}

theorem start (b : VirtIOBlk) : Inv (start b) where
  announced := le_rfl
  wake := fun h => absurd h (lt_irrefl _)
  idle := fun _ _ => rfl
  ack := by simp [BlockServiceState.start]
  masked := by simp [BlockServiceState.start, BlockServicePhase.InIrq]
  once := fun h => h.elim

/-- A step of the client, the device or the call under way. -/
theorem call (h : s.Inv) {u : BlkState} (hidle : s.sys.phase = .idle → u.phase = .idle)
    (hp : BlkProgress s.sys u) : Inv { s with sys := u } := by
  obtain ⟨w, hw⟩ := hp.status
  refine
    { h with
      announced := h.announced.trans hp.published
      wake := fun hlt => ?_
      idle := fun hd hr => hidle (h.idle hd hr)
      ack := fun v next hph => ?_ }
  · rcases h.wake (lt_of_le_of_lt hp.pops hlt) with hs | hpop
    · left
      rw [hw]
      exact fun hz => hs (UInt32.or_eq_zero_iff.1 hz).1
    · rcases hp.popping hpop with hpop' | hall
      · exact Or.inr hpop'
      · have hle := h.announced.trans hp.published
        have hlt : u.traffic.pops < s.announced := hlt
        omega
  · obtain ⟨hv, w', hw'⟩ := h.ack v next hph
    refine ⟨hv, w' ||| w, ?_⟩
    show u.status = _
    rw [hw, hw', UInt32.or_assoc]

/-- The interrupt handler acknowledges what it has read. -/
theorem writeAck (h : s.Inv) {v : UInt32} {next : AfterDrain} (hp : s.phase = .writeAck v next) :
    Inv { s with sys := s.sys.writeAck v, phase := .draining next } := by
  refine
    { announced := h.announced
      wake := fun _ => Or.inr rfl
      idle := fun hd _ => absurd rfl (hd next)
      ack := fun _ _ hph => by simp at hph
      masked := ?_
      once := ?_ }
  · have hm := h.masked
    rw [hp] at hm
    cases next with
    | done => exact hm
    | ack ring => exact hm
  · have ho := h.once
    rw [hp] at ho
    cases next with
    | done => exact ho
    | ack ring => exact ho

/-- The service goes on to another phase, in or out of the handling of an interrupt as before. -/
theorem goto (h : s.Inv) {p : BlockServicePhase} (hidle : s.sys.phase = .idle)
    (hin : p.InIrq ↔ s.phase.InIrq)
    (hack : ∀ v next, p = .writeAck v next → v ≠ 0 ∧ ∃ w, s.sys.status = v ||| w) :
    Inv { s with phase := p } where
  announced := h.announced
  wake := h.wake
  idle := fun _ _ => hidle
  ack := hack
  masked := by
    rw [hin]
    exact h.masked
  once := fun hp => h.once (hin.1 hp)

/-- The device announces what it has published. -/
theorem announce (h : s.Inv) : s.announce.Inv := by
  refine
    { h with
      announced := le_rfl
      wake := fun _ => Or.inl fun hz => ?_
      ack := fun v next hp => ?_ }
  · exact absurd (UInt32.or_eq_zero_iff.1 hz).2 (by decide)
  · obtain ⟨hv, w, hw⟩ := h.ack v next hp
    refine ⟨hv, w ||| 1, ?_⟩
    show s.sys.status ||| 1 = _
    rw [hw, UInt32.or_assoc]

/-- The kernel delivers the interrupt. -/
theorem deliver (h : s.Inv) (hd : s.Deliverable) : Inv { s with masked := true, irq := true } := by
  refine { h with masked := by simp, once := fun hp => ?_ }
  have := h.masked.2 (Or.inr hp)
  rw [hd.1] at this
  exact absurd this (by simp)

/-- `recv` returns; with the bit of the interrupt, its handling starts. -/
theorem receive (h : s.Inv) {irq ring : Bool} (hp : s.phase = .recv)
    (hirq : irq = true → s.irq = true) :
    Inv { s with
      phase := if irq then .readStatus (.ack ring) else .ring
      irq := s.irq && !irq
      ring := s.ring && !ring } := by
  have hidle := h.idle (by simp [hp]) (by simp [hp])
  have hm := h.masked
  rw [hp] at hm
  refine
    { announced := h.announced
      wake := h.wake
      idle := fun _ _ => hidle
      ack := fun v next hph => ?_
      masked := ?_
      once := ?_ }
  · cases irq <;> simp at hph
  · cases irq with
    | false =>
      rw [show (s.irq && !false) = s.irq by simp]
      exact hm
    | true => simpa [BlockServicePhase.InIrq] using hm.2 (Or.inl (hirq rfl))
  · cases irq <;> simp [BlockServicePhase.InIrq]

/-- `interrupt_ack` reads InterruptStatus. -/
theorem readStatus (h : s.Inv) {next : AfterDrain} (hp : s.phase = .readStatus next) :
    Inv { s with
      phase := if s.sys.status = 0 then next.phase else .writeAck s.sys.status next } := by
  have hidle := h.idle (by simp [hp]) (by simp [hp])
  by_cases hz : s.sys.status = 0
  · rw [if_pos hz]
    refine h.goto hidle ?_ fun v next' hph => ?_
    · rw [hp]
      cases next <;> exact Iff.rfl
    · cases next <;> simp [AfterDrain.phase] at hph
  · rw [if_neg hz]
    refine h.goto hidle ?_ fun v next' hph => ?_
    · rw [hp]
      cases next <;> exact Iff.rfl
    · obtain ⟨rfl, -⟩ := BlockServicePhase.writeAck.inj hph
      exact ⟨hz, 0, by simp⟩

/-- The kernel unmasks the line. -/
theorem irqAck (h : s.Inv) {ring : Bool} (hp : s.phase = .irqAck ring) :
    Inv { s with phase := if ring then .ring else .recv, masked := false } := by
  have hidle := h.idle (by simp [hp]) (by simp [hp])
  have ho : s.irq = false := h.once (by rw [hp]; trivial)
  refine
    { announced := h.announced
      wake := h.wake
      idle := fun _ _ => hidle
      ack := fun v next' hph => ?_
      masked := ?_
      once := fun _ => ho }
  · cases ring <;> simp at hph
  · cases ring <;> simp [ho, BlockServicePhase.InIrq]

/-- `handle_ring` fetches. -/
theorem fetched (h : s.Inv) {server : IoUringServer} (hp : s.phase = .ring) :
    Inv { s with sys := s.sys.fetch server, phase := .ringing } := by
  have hidle := h.idle (by simp [hp]) (by simp [hp])
  have hm := h.masked
  rw [hp] at hm
  refine
    { announced := h.announced
      wake := fun hlt => Or.inl ?_
      idle := fun _ hr => absurd rfl hr
      ack := by simp
      masked := hm
      once := fun hf => hf.elim }
  rcases h.wake hlt with hs | hpop
  · exact hs
  · exact absurd (hidle.symm.trans hpop) (by simp)

/-- Every step keeps the invariant and is a run of the driver's system. -/
theorem step (h : s.Inv) (hb : b.Started) (hs : BlkReach (.start b) s.sys)
    (hstep : BlockServiceStep s t) : BlkReach s.sys t.sys ∧ t.Inv := by
  cases hstep with
  | call u hu hidle =>
    obtain ⟨q, out, held, slot, userData, hinv⟩ :=
      (BlkState.Inv.start hb (fun _ => 0) (fun _ => 0)).run hs
    exact ⟨.single hu, h.call hidle (hinv.progress hu hidle)⟩
  | announce => exact ⟨.single (.raise s.sys 1), h.announce⟩
  | notify => exact ⟨.refl, { h with }⟩
  | deliver hd => exact ⟨.refl, h.deliver hd⟩
  | receive irq ring hp hirq hring hne => exact ⟨.refl, h.receive hp hirq⟩
  | poll hp =>
    have hidle := h.idle (by simp [hp]) (by simp [hp])
    exact ⟨.refl, h.goto hidle (by rw [hp]; exact Iff.rfl) (by simp)⟩
  | readStatus next hp => exact ⟨.refl, h.readStatus hp⟩
  | writeAck v next hp =>
    obtain ⟨hv, w, hw⟩ := h.ack v next hp
    have hidle := h.idle (by simp [hp]) (by simp [hp])
    have hz : s.sys.status ≠ 0 := by
      rw [hw]
      exact fun hz => hv (UInt32.or_eq_zero_iff.1 hz).1
    exact ⟨BlkState.writeAck_run v hidle hz, h.writeAck hp⟩
  | drained next hp hidle =>
    refine ⟨.refl, h.goto hidle ?_ fun v next' hph => ?_⟩
    · rw [hp]
      cases next <;> exact Iff.rfl
    · cases next <;> simp [AfterDrain.phase] at hph
  | irqAck ring hp => exact ⟨.refl, h.irqAck hp⟩
  | ring server hp hs' =>
    have hidle := h.idle (by simp [hp]) (by simp [hp])
    exact ⟨.single (.fetch s.sys server hidle hs'), h.fetched hp⟩
  | ringNone hp hs' =>
    have hidle := h.idle (by simp [hp]) (by simp [hp])
    exact ⟨.refl, h.goto hidle (by rw [hp]; exact Iff.rfl) (by simp)⟩
  | ringDone hp hidle => exact ⟨.refl, h.goto hidle (by rw [hp]; exact Iff.rfl) (by simp)⟩

/-- The invariant holds along every run, which is one of the driver's system. -/
theorem run (hb : b.Started) (hrun : BlockServiceReach (.start b) s) :
    BlkReach (.start b) s.sys ∧ s.Inv := by
  induction hrun with
  | refl => exact ⟨.refl, Inv.start b⟩
  | tail _ hstep ih =>
    obtain ⟨hreach, hinv⟩ := ih
    obtain ⟨hreach', hinv'⟩ := hinv.step hb hreach hstep
    exact ⟨hreach.trans hreach', hinv'⟩

end Inv

end BlockServiceState

/-- **No completion is stranded.**  In every run of the service, the kernel, the client and the
device, when the service waits in `recv` and no notification is pending or can be delivered, the
driver has popped every used entry for which the device has set the bit of InterruptStatus.  If
there are others, the next step of the device makes the notification deliverable. -/
theorem block_wakeup {b : VirtIOBlk} (hb : b.Started) {s : BlockServiceState}
    (hs : BlockServiceReach (.start b) s) (hquiet : s.Quiet) :
    (s.announced = s.sys.traffic.published.length →
      s.sys.traffic.pops = s.sys.traffic.published.length ∧
        ∃ q, s.sys.blk.queue = some q ∧ q.pop = (none, q)) ∧
    (s.announced ≠ s.sys.traffic.published.length → s.announce.Deliverable) := by
  obtain ⟨hreach, h⟩ := BlockServiceState.Inv.run hb hs
  obtain ⟨q, out, held, slot, userData, hinv⟩ :=
    (BlkState.Inv.start hb (fun _ => 0) (fun _ => 0)).run hreach
  have hidle := h.idle (by simp [hquiet.recv]) (by simp [hquiet.recv])
  have hmask : s.masked = false := by
    rw [← Bool.not_eq_true, h.masked, hquiet.recv, hquiet.irq]
    simp [BlockServicePhase.InIrq]
  constructor
  · intro hall
    have hpops : s.sys.traffic.pops = s.sys.traffic.published.length := by
      by_contra hne
      have hlt : s.sys.traffic.pops < s.announced :=
        hall ▸ lt_of_le_of_ne hinv.blk.traffic.pops_le hne
      rcases h.wake hlt with hstatus | hpop
      · exact hquiet.line ⟨hmask, hstatus⟩
      · exact absurd (hidle.symm.trans hpop) (by simp)
    exact ⟨hpops, q, hinv.blk.queue, hinv.blk.traffic.pop_none hpops⟩
  · intro _
    refine ⟨hmask, fun hz => ?_⟩
    exact absurd (UInt32.or_eq_zero_iff.1 hz).2 (by decide)

/-! ### One request -/

/-- A step of the client, the device, or the call under way. -/
theorem BlockServiceReach.call {a s : BlockServiceState} {u : BlkState}
    (hs : BlockServiceReach a s) (h : BlkStep s.sys u)
    (hidle : s.sys.phase = .idle → u.phase = .idle) : BlockServiceReach a { s with sys := u } :=
  hs.tail (.call s u h hidle)

theorem not_idle {s : BlkState} {todo : List Sqe} {p : Prop} (hp : s.phase = .submitting todo)
    (hidle : s.phase = .idle) : p := by
  simp [hp] at hidle

/-- The client queues a request and rings, and the service submits it. -/
theorem exists_loaded_service :
    ∃ s, BlockServiceReach (.start (.initial 512)) s ∧ s.Quiet ∧ s.announced = 0 ∧
      s.sys.Loaded 1 := by
  let s₀ : BlockServiceState := .start (.initial 512)
  have h₀ := BlkState.Inv.start (started_initial 512) (fun _ => 0) (fun _ => 0)
  have h₁ := h₀.client rfl readBlock
  have h₂ := h₁.fetch rfl rfl
  obtain ⟨i, ha⟩ := BlkState.admitted_readBlock h₂ rfl (by decide)
  have hcons := h₂.blk.conservation
  rw [h₂.blk.someCount_eq] at hcons
  simp only [List.length_nil] at hcons
  obtain ⟨d1, d2, d3, q', hsub, -⟩ := h₂.blk.submit_ok ha (by rw [length_freeIds]; omega)
  obtain ⟨r, slot', userData', h₃⟩ := h₂.accept rfl hsub rfl
  have h₄ := h₃.submitted rfl
  have hnone := h₄.blk.pop_none rfl
  have h₅ := h₄.finish rfl
  have hring : BlockServiceReach s₀ _ :=
    (((BlockServiceReach.call .refl (.client s₀.sys ⟨[], []⟩ readBlock rfl) fun _ => rfl).tail
      (.notify _)).tail (.receive _ false true rfl (by simp) (fun _ => rfl) (Or.inr rfl))).tail
      (.ring _ ⟨[readBlock], []⟩ rfl rfl)
  have hsubmit : BlockServiceReach s₀ _ := BlockServiceReach.call hring
    (.accept _ readBlock [] _ _ q' rfl hsub h₂.blk.queue rfl) (not_idle rfl)
  have hsubmitted : BlockServiceReach s₀ _ :=
    BlockServiceReach.call hsubmit (.submitted _ rfl) (not_idle rfl)
  have hcall := BlockServiceReach.call hsubmitted (.popDone _ _ rfl hnone) fun _ => rfl
  refine ⟨_, hcall.tail (.ringDone _ rfl rfl), ⟨rfl, rfl, rfl, ?_⟩, rfl, ?_⟩
  · exact fun h => h.2 rfl
  · exact ⟨rfl, ⟨[], rfl⟩, rfl, rfl, rfl, rfl, rfl, q', [r], slot', userData', h₅, rfl⟩

/-- While the driver waits, the device answers the request, and does not set the bit yet. -/
theorem exists_published_service :
    ∃ s, BlockServiceReach (.start (.initial 512)) s ∧ s.Quiet ∧ s.sys.phase = .idle ∧
      s.sys.traffic.pops = 0 ∧ s.sys.traffic.published.length = 1 := by
  obtain ⟨s, hs, hquiet, -, hload⟩ := exists_loaded_service
  obtain ⟨u, hu, hidle, -, htransport, hpops, hpub⟩ := hload.exists_published
  have hrun : BlockServiceReach s { s with sys := u } := by
    clear hidle htransport hpops hpub
    induction hu with
    | refl => exact .refl
    | tail _ hstep ih =>
      have hnext := BlockServiceReach.call ih hstep.1 fun h => hstep.2.trans h
      exact hnext
  refine ⟨_, hs.trans hrun, ⟨hquiet.recv, hquiet.irq, hquiet.ring, ?_⟩, hidle, hpops, hpub⟩
  rintro ⟨hmask, hline⟩
  refine hquiet.line ⟨hmask, ?_⟩
  rw [BlkState.status, ← htransport]
  exact hline

/-- Between its two steps the device has published an entry that no notification announces. -/
theorem block_unannounced_entry :
    ∃ s, BlockServiceReach (.start (.initial 512)) s ∧ s.Quiet ∧
      ∃ q q' elem, s.sys.blk.queue = some q ∧ q.pop = (some elem, q') := by
  obtain ⟨s, hs, hquiet, -, hpops, hpub⟩ := exists_published_service
  obtain ⟨hreach, -⟩ := BlockServiceState.Inv.run (started_initial 512) hs
  obtain ⟨q, out, held, slot, userData, hinv⟩ :=
    (BlkState.Inv.start (started_initial 512) (fun _ => 0) (fun _ => 0)).run hreach
  obtain ⟨r, -, head, -, -, hpop, -⟩ := hinv.blk.traffic.pop (by
    rw [hpops, hpub]
    exact Nat.zero_lt_one)
  exact ⟨s, hs, hquiet, q, _, _, hinv.blk.queue, hpop⟩

/-- The interrupt of one read: it is delivered, acknowledged and handled, and unmasked. -/
theorem block_wakeup_read :
    ∃ s, BlockServiceReach (.start (.initial 512)) s ∧ s.Quiet ∧
      s.sys.traffic.published.length = 1 ∧ s.sys.traffic.pops = 1 := by
  obtain ⟨s, hs, hquiet, hidle, hpops, hpub⟩ := exists_published_service
  obtain ⟨hreach, h⟩ := BlockServiceState.Inv.run (started_initial 512) hs
  have hmask : s.masked = false := by
    rw [← Bool.not_eq_true, h.masked, hquiet.recv, hquiet.irq]
    simp [BlockServicePhase.InIrq]
  have hzero : s.sys.status = 0 := by
    by_contra hne
    exact hquiet.line ⟨hmask, hne⟩
  have hstatus : s.announce.sys.status = 1 := by
    show s.sys.status ||| 1 = 1
    rw [hzero]
    rfl
  have hdel : s.announce.Deliverable := ⟨hmask, by rw [hstatus]; decide⟩
  -- the handler up to its loop
  let s₁ : BlockServiceState :=
    { s.announce with phase := .readStatus (.ack false), masked := true, irq := false }
  have hrecv : BlockServiceReach (.start (.initial 512)) s₁ := by
    have h := ((hs.tail (.announce s)).tail (.deliver _ hdel)).tail
      (.receive _ true false hquiet.recv (fun _ => rfl) (by simp) (Or.inl rfl))
    simpa [s₁] using h
  have hread : BlockServiceReach (.start (.initial 512))
      { s₁ with phase := .writeAck 1 (.ack false) } := by
    have h := hrecv.tail (.readStatus s₁ (.ack false) rfl)
    rwa [show s₁.sys.status = 1 from hstatus, if_neg (by decide)] at h
  have hack : BlockServiceReach _ _ := hread.tail (.writeAck _ 1 (.ack false) rfl)
  -- one iteration of the loop, and its end
  obtain ⟨hreach₁, -⟩ := BlockServiceState.Inv.run (started_initial 512) hack
  obtain ⟨q₁, out₁, held₁, slot₁, userData₁, hinv₁⟩ :=
    (BlkState.Inv.start (started_initial 512) (fun _ => 0) (fun _ => 0)).run hreach₁
  have hlt : s.sys.traffic.pops < s.sys.traffic.published.length := by
    rw [hpops, hpub]
    exact Nat.zero_lt_one
  obtain ⟨r, -, d1, d2, d3, st, q', -, -, -, hpop, -⟩ := hinv₁.blk.pop_some hlt
  have hpopped : BlockServiceReach _ _ :=
    BlockServiceReach.call hack (.pop _ _ rfl hpop) fun hidle =>
      absurd (show BlkPhase.popping = .idle from hidle) (by simp)
  obtain ⟨hreach₂, -⟩ := BlockServiceState.Inv.run (started_initial 512) hpopped
  obtain ⟨q₂, out₂, held₂, slot₂, userData₂, hinv₂⟩ :=
    (BlkState.Inv.start (started_initial 512) (fun _ => 0) (fun _ => 0)).run hreach₂
  have hall : s.sys.traffic.pops + 1 = s.sys.traffic.published.length := by
    rw [hpops, hpub]
  have hdone := BlockServiceReach.call hpopped (.popDone _ _ rfl (hinv₂.blk.pop_none hall))
    fun _ => rfl
  -- the line is low, and unmasked
  have hend := (hdone.tail (.drained _ (.ack false) rfl rfl)).tail (.irqAck _ false rfl)
  have hlow : (s.sys.status ||| 1) &&& ~~~(1 : UInt32) = 0 := by
    rw [hzero]
    rfl
  have hmain := (block_wakeup (started_initial 512) hend
    ⟨rfl, rfl, hquiet.ring, fun hd => hd.2 hlow⟩).1 rfl
  exact ⟨_, hend, ⟨rfl, rfl, hquiet.ring, fun hd => hd.2 hlow⟩, hpub, hmain.1.trans hpub⟩

end GlendaDrivers
