import GlendaDrivers.Virtio.NetCompletion

/-!
# When events of the network driver are stranded (`virtio/net/src/server.rs`)

The service waits in `recv` for notifications of the client and of the kernel, whose badges may
be merged.  A message with the bit of the interrupt goes to `handle_irq`, any other to
`handle_ring`.  The kernel masks the interrupt line when it delivers the interrupt, until
`IrqHandler::ack`, which the service never calls.

* `NetServiceState`, `NetServiceStep`: the service, the kernel, the client and the device;
* `NetServiceState.Late`: no `handle_irq` will reach the queue again;
* `KeptStep`: a step that neither merges away a ring nor publishes an entry too late;
* `net_wakeup`: in a run of such steps nothing is stranded;
* `net_stranded`: a request and a used entry that are.
-/

namespace GlendaDrivers

open VirtQueue VirtIONet

/-- Where the service is. -/
inductive NetServicePhase
  | recv
  /-- `interrupt_ack` is about to read InterruptStatus. -/
  | readStatus
  /-- `interrupt_ack` has read `v` and is about to write it to InterruptAck. -/
  | writeAck (v : UInt32)
  /-- The loops of `handle_irq`. -/
  | draining
  /-- `handle_ring` is about to be called. -/
  | ring
  | ringing

/-- The service is in `handle_irq`. -/
def NetServicePhase.InIrq : NetServicePhase → Prop
  | .readStatus => True
  | .writeAck _ => True
  | .draining => True
  | _ => False

/-- The loop over queue `i` is still to end. -/
def NetPhase.Ahead (i : NetDir) : NetPhase → Prop
  | .popping .rx => True
  | .popping .tx => i = .tx
  | _ => False

namespace NetState

/-- InterruptStatus. -/
def status (s : NetState) : UInt32 := s.net.transport.interruptStatus

/-- The requests that wait in the ring. -/
def sq (s : NetState) : List Sqe := (s.net.ringServer.map (·.sq)).getD []

/-- The number of requests that the client has queued so far. -/
def queued (s : NetState) : ℕ := s.fetched.length + s.sq.length

/-- `handle_ring` fetches requests. -/
def fetch (s : NetState) (server : IoUringServer) : NetState :=
  { s with
    net := { s.net with ringServer := some (server.fetch 16).2 }
    phase := .submitting (server.fetch 16).1
    fetched := s.fetched ++ (server.fetch 16).1 }

/-- The device sets bits of InterruptStatus. -/
def raise (s : NetState) (v : UInt32) : NetState :=
  { s with net := { s.net with transport :=
    { s.net.transport with interruptStatus := s.net.transport.interruptStatus ||| v } } }

/-- `interrupt_ack` writes `v`, and `handle_irq` goes on if there is a ring server. -/
def writeAck (s : NetState) (v : UInt32) : NetState :=
  { s with
    net := { s.net with transport := s.net.transport.writeInterruptAck v }
    phase := if s.net.ringServer.isSome then .popping .rx else .idle }

end NetState

/-- The service with the kernel, the client and the device. -/
structure NetServiceState where
  sys : NetState
  phase : NetServicePhase
  /-- The kernel's mask of the interrupt line. -/
  masked : Bool
  /-- The bits of the badge that the next `recv` returns. -/
  irq : Bool
  ring : Bool
  /-- The number of requests that the client had queued when it last rang. -/
  rung : ℕ
  /-- The number of published entries when the device last set the bit of InterruptStatus. -/
  announced : NetDir → ℕ

namespace NetServiceState

/-- The service when `init` has returned. -/
def start (n : VirtIONet) : NetServiceState :=
  ⟨.start n, .recv, false, false, false, 0, fun _ => 0⟩

/-- The kernel can deliver the interrupt. -/
def Deliverable (s : NetServiceState) : Prop := s.masked = false ∧ s.sys.status ≠ 0

/-- The device sets the bit of InterruptStatus for the entries it has published. -/
def announce (s : NetServiceState) : NetServiceState :=
  { s with
    sys := s.sys.raise 1
    announced := fun i => (s.sys.traffic i).published.length }

/-- The service waits in `recv`, and nothing wakes it: every request was followed by its ring,
every used entry by its bit of InterruptStatus, and no notification is left. -/
structure Quiet (s : NetServiceState) : Prop where
  recv : s.phase = .recv
  irq : s.irq = false
  ring : s.ring = false
  line : ¬ s.Deliverable
  rung : s.rung = s.sys.queued
  announced : ∀ i, s.announced i = (s.sys.traffic i).published.length

/-- The interrupt was delivered, and `handle_irq`, which no other interrupt will call, does not
reach queue `i` again. -/
def Late (s : NetServiceState) (i : NetDir) : Prop :=
  s.masked = true ∧ s.irq = false ∧ s.phase ≠ .readStatus ∧ (∀ v, s.phase ≠ .writeAck v) ∧
    (s.phase = .draining → ¬ s.sys.phase.Ahead i)

end NetServiceState

/-- One step of the service, the kernel, the client or the device. -/
inductive NetServiceStep : NetServiceState → NetServiceState → Prop
  /-- A step of the client, who queues at most 16 requests at a time, of the device, or of the
  call of the driver that is under way. -/
  | call (s : NetServiceState) (t : NetState) (h : NetStep s.sys t)
      (hidle : s.sys.phase = .idle → t.phase = .idle)
      (hstatus : ∃ w, t.status = s.sys.status ||| w) (hsq : t.sq.length ≤ 16) :
      NetServiceStep s { s with sys := t }
  | announce (s : NetServiceState) : NetServiceStep s s.announce
  /-- The client rings. -/
  | notify (s : NetServiceState) : NetServiceStep s { s with ring := true, rung := s.sys.queued }
  /-- The kernel delivers the interrupt and masks the line. -/
  | deliver (s : NetServiceState) (h : s.Deliverable) :
      NetServiceStep s { s with masked := true, irq := true }
  /-- `recv` returns some of the pending bits.  With the bit of the interrupt, the other is not
  looked at. -/
  | receive (s : NetServiceState) (irq ring : Bool) (hp : s.phase = .recv)
      (hirq : irq = true → s.irq = true) (hring : ring = true → s.ring = true)
      (hne : irq = true ∨ ring = true) :
      NetServiceStep s { s with
        phase := if irq then .readStatus else .ring
        irq := s.irq && !irq
        ring := s.ring && !ring }
  | readStatus (s : NetServiceState) (hp : s.phase = .readStatus) :
      NetServiceStep s { s with
        phase := if s.sys.status = 0 then .recv else .writeAck s.sys.status }
  | writeAck (s : NetServiceState) (v : UInt32) (hp : s.phase = .writeAck v) :
      NetServiceStep s { s with sys := s.sys.writeAck v, phase := .draining }
  /-- `handle_irq` has returned. -/
  | drained (s : NetServiceState) (hp : s.phase = .draining) (hidle : s.sys.phase = .idle) :
      NetServiceStep s { s with phase := .recv }
  /-- `handle_ring` is entered. -/
  | ring (s : NetServiceState) (server : IoUringServer) (hp : s.phase = .ring)
      (hs : s.sys.net.ringServer = some server) :
      NetServiceStep s { s with sys := s.sys.fetch server, phase := .ringing }
  /-- `handle_ring` returns without a ring server. -/
  | ringNone (s : NetServiceState) (hp : s.phase = .ring)
      (hs : s.sys.net.ringServer = none) :
      NetServiceStep s { s with phase := .recv }
  /-- `handle_ring` has returned. -/
  | ringDone (s : NetServiceState) (hp : s.phase = .ringing) (hidle : s.sys.phase = .idle) :
      NetServiceStep s { s with phase := .recv }

/-- A state that can be reached from `s`. -/
abbrev NetServiceReach : NetServiceState → NetServiceState → Prop :=
  Relation.ReflTransGen NetServiceStep

/-- A step that keeps every event: no message with both bits takes the ring while requests wait,
and no used entry is published to a queue that `handle_irq` will not reach again. -/
structure KeptStep (s t : NetServiceState) : Prop where
  step : NetServiceStep s t
  ring : s.phase = .recv → t.phase = .readStatus → s.ring = true → t.ring = false → s.sys.sq = []
  published : ∀ i, (t.sys.traffic i).published ≠ (s.sys.traffic i).published → ¬ s.Late i

/-! ### The steps of the driver -/

/-- Submission leaves InterruptStatus and the ring alone. -/
theorem NetInv.submit_frame {n c : VirtIONet} {i : NetDir} {q : VirtQueue} {t : Traffic}
    {out : List Request} {held : List UInt16} {slot : ℕ → Fin 128} {userData : ℕ → UInt64}
    {sqe : Sqe} {r : Except VirtIOError Unit} (h : NetInv n i q t out held slot userData)
    (hsub : n.submit i sqe = .ret (r, c)) : c.ringServer = n.ringServer := by
  rcases h.submit_cases sqe with ⟨-, hok⟩ | ⟨e, q', lost, -, -, hok, -⟩ |
    ⟨d1, d2, rest, paddr, hids, hd⟩
  · obtain ⟨-, rfl⟩ := Prod.mk.inj (Outcome.ret.inj (hok.symm.trans hsub))
    rfl
  · obtain ⟨-, rfl⟩ := Prod.mk.inj (Outcome.ret.inj (hok.symm.trans hsub))
    rfl
  · obtain ⟨q', idx, hok, -⟩ := h.submit_ok hids hd
    obtain ⟨-, rfl⟩ := Prod.mk.inj (Outcome.ret.inj (hok.symm.trans hsub))
    rfl

/-- A completion leaves the waiting requests alone. -/
theorem VirtIONet.sq_complete (n : VirtIONet) (userData : UInt64) (result : Int32) :
    ((n.complete userData result).ringServer.map (·.sq)).getD [] =
      (n.ringServer.map (·.sq)).getD [] := by
  cases hs : n.ringServer with
  | none => simp [complete, hs]
  | some server => simp [complete, hs, IoUringServer.complete]

/-- What a step of the driver's system does to the rings and the loops. -/
structure NetProgress (s t : NetState) : Prop where
  fetched : t.fetched = s.fetched
  queued : s.sq.length ≤ t.sq.length
  pops : ∀ i, (s.traffic i).pops ≤ (t.traffic i).pops
  published : ∀ i, (s.traffic i).published.length ≤ (t.traffic i).published.length
  ahead : ∀ i, s.phase.Ahead i →
    t.phase.Ahead i ∨ (t.traffic i).pops = (t.traffic i).published.length

/-- A step at queue `i` that neither publishes nor pops. -/
theorem NetState.counts_setTraffic {s : NetState} {i : NetDir} {tr : Traffic}
    (hp : tr.pops = (s.traffic i).pops) (hu : tr.published = (s.traffic i).published) (j : NetDir) :
    (s.setTraffic i tr j).pops = (s.traffic j).pops ∧
      (s.setTraffic i tr j).published = (s.traffic j).published :=
  forall_setTraffic (p := fun j tr => tr.pops = (s.traffic j).pops ∧
    tr.published = (s.traffic j).published) ⟨hp, hu⟩ (fun _ _ => ⟨rfl, rfl⟩) j

/-- Submission leaves the ring server alone, whatever the opcode. -/
theorem NetState.Account.submitSqe_server {s : NetState} {before : List (UInt64 × Int32)}
    (h : s.Account before) {sqe : Sqe} {r : Except VirtIOError Unit} {n : VirtIONet}
    (hn : s.net.submitSqe sqe = .ret (r, n)) : n.ringServer = s.net.ringServer := by
  cases hi : netDir sqe.opcode with
  | none =>
    rw [submitSqe_none hi] at hn
    obtain ⟨-, rfl⟩ := Prod.mk.inj (Outcome.ret.inj hn)
    rfl
  | some i =>
    rw [submitSqe_eq hi] at hn
    obtain ⟨q, out, held, slot, userData, hinv, -⟩ := h.served i
    exact hinv.submit_frame hn

/-- A step that enters neither entry point. -/
theorem NetState.Account.progress {s t : NetState} {before : List (UInt64 × Int32)}
    (h : s.Account before) (hstep : NetStep s t) (hidle : s.phase = .idle → t.phase = .idle) :
    NetProgress s t := by
  -- steps that leave the used rings alone
  have same : t.fetched = s.fetched → s.sq.length ≤ t.sq.length →
      (∀ i, (t.traffic i).pops = (s.traffic i).pops ∧
        (t.traffic i).published = (s.traffic i).published) →
      (∀ i, s.phase.Ahead i → t.phase.Ahead i) → NetProgress s t := fun hf hq hp ha =>
    ⟨hf, hq, fun i => (hp i).1.ge, fun i => by rw [(hp i).2], fun i hi => Or.inl (ha i hi)⟩
  cases hstep with
  | client server sqe hs =>
    refine same rfl ?_ (fun _ => ⟨rfl, rfl⟩) fun _ => id
    simp [sq, hs, IoUringServer.push]
  | setup vaddr paddr size hp => exact same rfl le_rfl (fun _ => ⟨rfl, rfl⟩) fun _ => id
  | fetch server hp hs => simp at hidle hp; exact absurd (hidle hp) (by simp)
  | accept sqe todo i n q q' hp hn hi hq hq' =>
    have hserver := h.submitSqe_server hn
    refine same rfl ?_ (counts_setTraffic rfl rfl) fun j hj => ?_
    · exact le_of_eq (by simp [sq, hserver])
    · rw [hp] at hj
      exact hj.elim
  | reject sqe todo e n hp hn =>
    have hserver := h.submitSqe_server hn
    refine same rfl ?_ (fun _ => ⟨rfl, rfl⟩) fun j hj => ?_
    · refine le_of_eq (congrArg List.length ?_)
      show s.sq = ((n.complete sqe.userData (-1)).ringServer.map (·.sq)).getD []
      rw [sq_complete, hserver]
      rfl
    · rw [hp] at hj
      exact hj.elim
  | submitted hp =>
    refine same rfl le_rfl (fun _ => ⟨rfl, rfl⟩) fun j hj => ?_
    rw [hp] at hj
    exact hj.elim
  | irq hp =>
    refine same rfl le_rfl (fun _ => ⟨rfl, rfl⟩) fun j hj => ?_
    rw [hp] at hj
    exact hj.elim
  | pop i n hp hn =>
    obtain ⟨q, out, held, slot, userData, hinv, -⟩ := h.served i
    have hlt := hinv.pops_lt hn
    obtain ⟨r, -, d1, d2, q', -, -, hpop, -⟩ := hinv.pop_some hlt
    obtain ⟨-, rfl⟩ := Prod.mk.inj (Outcome.ret.inj (hpop.symm.trans hn))
    refine ⟨rfl, le_of_eq (congrArg List.length (sq_complete _ _ _).symm), ?_, ?_, fun _ => Or.inl⟩
    · exact forall_setTraffic (p := fun j tr => (s.traffic j).pops ≤ tr.pops) (Nat.le_succ _)
        fun _ _ => le_rfl
    · exact forall_setTraffic
        (p := fun j tr => (s.traffic j).published.length ≤ tr.published.length) le_rfl
        fun _ _ => le_rfl
  | popDone i n hp hn =>
    obtain ⟨q, out, held, slot, userData, hinv, -⟩ := h.served i
    -- the loop ends when no entry is left
    obtain ⟨hall, rfl⟩ := hinv.pops_eq hn
    refine ⟨rfl, le_rfl, fun _ => le_rfl, fun _ => le_rfl, fun j hj => ?_⟩
    rw [hp] at hj
    cases i with
    | rx =>
      cases j with
      | rx => exact Or.inr hall
      | tx => exact Or.inl rfl
    | tx =>
      obtain rfl : j = .tx := hj
      exact Or.inr hall
  | raise v => exact same rfl le_rfl (fun _ => ⟨rfl, rfl⟩) fun _ => id
  | write dma => exact same rfl le_rfl (fun _ => ⟨rfl, rfl⟩) fun _ => id
  | take i q hq hne =>
    exact same rfl le_rfl (counts_setTraffic rfl rfl) fun _ => id
  | publish i q pos elem hq hc =>
    refine ⟨rfl, le_rfl, ?_, ?_, fun _ => Or.inl⟩
    · exact forall_setTraffic (p := fun j tr => (s.traffic j).pops ≤ tr.pops) le_rfl
        fun _ _ => le_rfl
    · refine forall_setTraffic
        (p := fun j tr => (s.traffic j).published.length ≤ tr.published.length) ?_
        fun _ _ => le_rfl
      show _ ≤ ((s.traffic i).published ++ [_]).length
      rw [List.length_append]
      exact Nat.le_add_right _ _

/-- Acknowledging what was read is a step of the driver's system, after which the device sets
the bits again that were set since. -/
theorem NetState.writeAck_run {s : NetState} (v : UInt32) (hp : s.phase = .idle)
    (hs : s.status ≠ 0) : NetReach s (s.writeAck v) := by
  have hirq := NetStep.irq s hp
  have hack : s.net.transport.interruptAck = (true, s.net.transport.writeInterruptAck s.status) :=
    if_pos hs
  rw [hack] at hirq
  have hraise := NetStep.raise { s with
    net := { s.net with transport := s.net.transport.writeInterruptAck s.status }
    phase := if s.net.ringServer.isSome then .popping .rx else .idle } (s.status &&& ~~~v)
  have hval : (s.net.transport.writeInterruptAck s.status).interruptStatus |||
      (s.status &&& ~~~v) = (s.net.transport.writeInterruptAck v).interruptStatus := by
    show (s.status &&& ~~~s.status) ||| (s.status &&& ~~~v) = s.status &&& ~~~v
    simp
  simp only [hval] at hraise
  simp only [true_and] at hirq
  exact (Relation.ReflTransGen.single hirq).tail hraise

/-- Nothing is published as long as there is no ring server. -/
theorem NetState.Account.published_nil {s : NetState} {before : List (UInt64 × Int32)}
    (h : s.Account before) (hs : s.net.ringServer = none) (i : NetDir) :
    (s.traffic i).published = [] := by
  obtain ⟨q, out, held, slot, userData, hinv, -⟩ := h.served i
  obtain ⟨order, done, place, result, hbooks⟩ := h.books
  have hfetched : s.fetched = [] := by
    by_contra hne
    exact h.server hne hs
  rw [List.eq_nil_iff_forall_not_mem]
  intro p hp
  obtain ⟨head, htaken, -⟩ := hinv.traffic.id p hp
  have hlt := (List.getElem?_eq_some_iff.1 htaken).1.trans_le
    hinv.traffic.ring.taken_prefix.length_le
  rw [← h.length i] at hlt
  have hle := (hbooks.lt (List.getElem_mem hlt)).trans_le hbooks.ledger.handed_le
  rw [hfetched] at hle
  exact absurd hle (Nat.not_lt_zero _)

/-! ### The invariant -/

namespace NetServiceState

/-- The invariant: a request that was rung for is fetched, or its ring is pending; before the
interrupt is delivered the line is high once an entry was announced; and a queue that no
`handle_irq` will reach is popped. -/
structure Inv (s : NetServiceState) : Prop where
  idle : s.phase ≠ .draining → s.phase ≠ .ringing → s.sys.phase = .idle
  sq : s.sys.sq.length ≤ 16
  rung : s.rung ≤ s.sys.queued
  ring : s.sys.fetched.length < s.rung → s.ring = true ∨ s.phase = .ring
  announced : ∀ i, s.announced i ≤ (s.sys.traffic i).published.length
  unmasked : s.masked = false →
    s.irq = false ∧ ¬ s.phase.InIrq ∧ ∀ i, 0 < s.announced i → s.sys.status ≠ 0
  once : s.irq = true → ¬ s.phase.InIrq
  pending : s.irq = true ∨ s.phase = .readStatus → s.sys.status ≠ 0
  ack : ∀ v, s.phase = .writeAck v → v ≠ 0 ∧ ∃ w, s.sys.status = v ||| w
  late : ∀ i, s.Late i → (s.sys.traffic i).pops = (s.sys.traffic i).published.length

namespace Inv

variable {s t : NetServiceState} {n : VirtIONet} {before : List (UInt64 × Int32)}

theorem start (hsq : ∀ server, n.ringServer = some server → server.sq = []) :
    Inv (start n) where
  idle := fun _ _ => rfl
  sq := by
    cases hs : n.ringServer with
    | none => simp [NetServiceState.start, NetState.sq, NetState.start, hs]
    | some server => simp [NetServiceState.start, NetState.sq, NetState.start, hs, hsq server hs]
  rung := Nat.zero_le _
  ring := fun h => absurd h (Nat.not_lt_zero _)
  announced := fun _ => le_rfl
  unmasked := fun _ => ⟨rfl, id, fun _ h => absurd h (lt_irrefl _)⟩
  once := by simp [NetServiceState.start]
  pending := by simp [NetServiceState.start]
  ack := by simp [NetServiceState.start]
  late := fun _ _ => rfl

/-- A step of the client, the device or the call under way. -/
theorem call (h : s.Inv) {u : NetState} (hu : u.Account before) (hp : NetProgress s.sys u)
    (hidle : s.sys.phase = .idle → u.phase = .idle)
    (hstatus : ∃ w, u.status = s.sys.status ||| w) (hsq : u.sq.length ≤ 16)
    (hkept : ∀ i, (u.traffic i).published ≠ (s.sys.traffic i).published → ¬ s.Late i) :
    Inv { s with sys := u } := by
  obtain ⟨w, hw⟩ := hstatus
  have hnz : s.sys.status ≠ 0 → u.status ≠ 0 := by
    intro hs hz
    rw [hw] at hz
    exact hs (UInt32.or_eq_zero_iff.1 hz).1
  have hqueued : s.sys.queued ≤ u.queued := by
    rw [NetState.queued, NetState.queued, hp.fetched]
    exact Nat.add_le_add_left hp.queued _
  refine
    { idle := fun hd hr => hidle (h.idle hd hr)
      sq := hsq
      rung := h.rung.trans hqueued
      ring := fun hlt => h.ring (hp.fetched ▸ hlt)
      announced := fun i => (h.announced i).trans (hp.published i)
      unmasked := fun hm => ?_
      once := h.once
      pending := fun hpend => hnz (h.pending hpend)
      ack := fun v hph => ?_
      late := fun i hl => ?_ }
  · obtain ⟨hirq, hin, hann⟩ := h.unmasked hm
    exact ⟨hirq, hin, fun i hi => hnz (hann i hi)⟩
  · obtain ⟨hv, w', hw'⟩ := h.ack v hph
    refine ⟨hv, w' ||| w, ?_⟩
    show u.status = _
    rw [hw, hw', UInt32.or_assoc]
  · by_cases hs : s.Late i
    · -- the queue was empty, and nothing was published to it
      have hpub : (u.traffic i).published = (s.sys.traffic i).published := by
        by_contra hne
        exact hkept i hne hs
      obtain ⟨q, out, held, slot, userData, hinv, -⟩ := hu.served i
      have hle := hinv.traffic.pops_le
      have hge := hp.pops i
      have hall := h.late i hs
      show (u.traffic i).pops = (u.traffic i).published.length
      rw [hpub] at hle ⊢
      omega
    · -- the loop has ended in this step
      obtain ⟨hm, hirq, hr, hw, hd⟩ := hl
      have hahead : s.phase = .draining ∧ s.sys.phase.Ahead i := by
        by_contra hne
        exact hs ⟨hm, hirq, hr, hw, fun hph ha => hne ⟨hph, ha⟩⟩
      exact (hp.ahead i hahead.2).resolve_left (hd hahead.1)

/-- A queue that no `handle_irq` will reach is late from outside of `handle_irq` already. -/
theorem late_of_notInIrq (hs : ¬ s.phase.InIrq) (hmasked : s.masked = true) (hirq : s.irq = false)
    (i : NetDir) : s.Late i := by
  refine ⟨hmasked, hirq, ?_, ?_, ?_⟩
  · intro hp
    rw [hp] at hs
    exact hs trivial
  · intro v hp
    rw [hp] at hs
    exact hs trivial
  · intro hp
    rw [hp] at hs
    exact absurd trivial hs

/-- A step outside of `handle_irq` leaves the part of the invariant about interrupts. -/
theorem outside (h : s.Inv) {u : NetState} {p : NetServicePhase} {ring : Bool}
    (hs : ¬ s.phase.InIrq) (hp : ¬ p.InIrq) (hstatus : u.status = s.sys.status)
    (htraffic : u.traffic = s.sys.traffic) (hidle : p ≠ .draining → p ≠ .ringing → u.phase = .idle)
    (hsq : u.sq.length ≤ 16) (hrung : s.rung ≤ u.queued)
    (hring : u.fetched.length < s.rung → ring = true ∨ p = .ring) :
    Inv { s with sys := u, phase := p, ring := ring } where
  idle := hidle
  sq := hsq
  rung := hrung
  ring := hring
  announced := by
    rw [htraffic]
    exact h.announced
  unmasked := by
    intro hm
    refine ⟨(h.unmasked hm).1, hp, ?_⟩
    rw [hstatus]
    exact (h.unmasked hm).2.2
  once := fun _ => hp
  pending := by
    rintro (hirq | hread)
    · rw [hstatus]
      exact h.pending (Or.inl hirq)
    · exact absurd (show p.InIrq by rw [show p = _ from hread]; trivial) hp
  ack := by
    intro v hv
    exact absurd (show p.InIrq by rw [show p = _ from hv]; trivial) hp
  late := by
    intro i hl
    rw [htraffic]
    exact h.late i (late_of_notInIrq hs hl.1 hl.2.1 i)

/-- The part of the invariant about interrupts, when `handle_irq` goes on: the line is masked, and
no other interrupt is pending. -/
theorem inside (h : s.Inv) (hs : s.phase.InIrq) : s.masked = true ∧ s.irq = false := by
  constructor
  · by_contra hm
    exact (h.unmasked (Bool.eq_false_of_not_eq_true hm)).2.1 hs
  · by_contra hirq
    exact h.once (Bool.eq_true_of_not_eq_false hirq) hs

/-- The device announces what it has published. -/
theorem announce (h : s.Inv) : s.announce.Inv := by
  have hnz : s.sys.status ||| 1 ≠ 0 := fun hz =>
    absurd (UInt32.or_eq_zero_iff.1 hz).2 (by decide)
  refine
    { h with
      announced := fun _ => le_rfl
      unmasked := fun hm => ⟨(h.unmasked hm).1, (h.unmasked hm).2.1, fun _ _ => hnz⟩
      pending := fun _ => hnz
      ack := fun v hp => ?_ }
  obtain ⟨hv, w, hw⟩ := h.ack v hp
  refine ⟨hv, w ||| 1, ?_⟩
  show s.sys.status ||| 1 = _
  rw [hw, UInt32.or_assoc]

/-- The kernel delivers the interrupt. -/
theorem deliver (h : s.Inv) (hd : s.Deliverable) : Inv { s with masked := true, irq := true } := by
  obtain ⟨hirq, hin, -⟩ := h.unmasked hd.1
  exact
    { h with
      unmasked := fun hm => absurd hm (by simp)
      once := fun _ => hin
      pending := fun _ => hd.2
      late := fun i hl => absurd hl.2.1 (by simp) }

/-- A message with the bit of the interrupt goes to `handle_irq`.  It does not take the ring away
from waiting requests. -/
theorem receiveIrq (h : s.Inv) {ring : Bool} (hp : s.phase = .recv) (hirq : s.irq = true)
    (hring : s.ring = true → (s.ring && !ring) = false → s.sys.sq = []) :
    Inv { s with phase := .readStatus, irq := s.irq && !true, ring := s.ring && !ring } := by
  refine
    { h with
      idle := fun _ _ => h.idle (by simp [hp]) (by simp [hp])
      ring := fun hlt => ?_
      unmasked := fun hm => ?_
      once := fun hf => by simp at hf
      pending := fun _ => h.pending (Or.inl hirq)
      ack := by simp
      late := fun i hl => absurd rfl hl.2.2.1 }
  · have hr := (h.ring hlt).resolve_right (by simp [hp])
    cases hand : s.ring && !ring with
    | true => exact Or.inl rfl
    | false =>
      have hle := h.rung
      rw [NetState.queued, hring hr hand] at hle
      exact absurd hlt (by simpa using hle)
  · have := (h.unmasked hm).1
    rw [hirq] at this
    exact absurd this (by simp)

/-- `interrupt_ack` reads InterruptStatus, which is not 0. -/
theorem readStatus (h : s.Inv) (hp : s.phase = .readStatus) :
    Inv { s with phase := if s.sys.status = 0 then .recv else .writeAck s.sys.status } := by
  obtain ⟨hmasked, hirq⟩ := h.inside (by rw [hp]; trivial)
  have hnz := h.pending (Or.inr hp)
  rw [if_neg hnz]
  exact
    { h with
      idle := fun _ _ => h.idle (by simp [hp]) (by simp [hp])
      ring := fun hlt => Or.inl ((h.ring hlt).resolve_right (by simp [hp]))
      unmasked := fun hm => absurd (hmasked.symm.trans hm) (by simp)
      once := fun hi => absurd (hirq.symm.trans hi) (by simp)
      pending := fun _ => hnz
      ack := fun v hv => by
        obtain rfl := NetServicePhase.writeAck.inj hv
        exact ⟨hnz, 0, by simp⟩
      late := fun i hl => absurd rfl (hl.2.2.2.1 _) }

/-- `interrupt_ack` writes InterruptAck, and the loops of `handle_irq` start. -/
theorem writeAck (h : s.Inv) (hs : s.sys.Account before) {v : UInt32} (hp : s.phase = .writeAck v) :
    Inv { s with sys := s.sys.writeAck v, phase := .draining } := by
  obtain ⟨hmasked, hirq⟩ := h.inside (by rw [hp]; trivial)
  refine
    { idle := fun hd _ => absurd rfl hd
      sq := h.sq
      rung := h.rung
      ring := fun hlt => Or.inl ((h.ring hlt).resolve_right (by simp [hp]))
      announced := h.announced
      unmasked := fun hm => absurd (hmasked.symm.trans hm) (by simp)
      once := fun hi => absurd (hirq.symm.trans hi) (by simp)
      pending := fun hpend => ?_
      ack := by simp
      late := fun i hl => ?_ }
  · rcases hpend with hi | hf
    · exact absurd (hirq.symm.trans hi) (by simp)
    · simp at hf
  · have hahead := hl.2.2.2.2 rfl
    cases hserver : s.sys.net.ringServer with
    | some server =>
      refine absurd ?_ hahead
      simp [NetState.writeAck, hserver, NetPhase.Ahead]
    | none =>
      obtain ⟨q, out, held, slot, userData, hinv, -⟩ := hs.served i
      have hle := hinv.traffic.pops_le
      show (s.sys.traffic i).pops = (s.sys.traffic i).published.length
      rw [hs.published_nil hserver i] at hle ⊢
      exact Nat.le_zero.1 hle

/-- `handle_irq` returns. -/
theorem drained (h : s.Inv) (hp : s.phase = .draining) (hidle : s.sys.phase = .idle) :
    Inv { s with phase := .recv } := by
  obtain ⟨hmasked, hirq⟩ := h.inside (by rw [hp]; trivial)
  refine
    { h with
      idle := fun _ _ => hidle
      ring := fun hlt => Or.inl ((h.ring hlt).resolve_right (by simp [hp]))
      unmasked := fun hm => absurd (hmasked.symm.trans hm) (by simp)
      once := fun _ => id
      pending := fun hpend => ?_
      ack := by simp
      late := fun i hl => h.late i ⟨hmasked, hirq, by simp [hp], by simp [hp], fun _ => ?_⟩ }
  · rcases hpend with hi | hf
    · exact absurd (hirq.symm.trans hi) (by simp)
    · simp at hf
  · rw [hidle]
    exact id

/-- `handle_ring` fetches all requests. -/
theorem fetched (h : s.Inv) {server : IoUringServer} (hp : s.phase = .ring)
    (hserver : s.sys.net.ringServer = some server) :
    Inv { s with sys := s.sys.fetch server, phase := .ringing } := by
  have hsq : s.sys.sq = server.sq := by simp [NetState.sq, hserver]
  have hlen := h.sq
  rw [hsq] at hlen
  have hall : (s.sys.fetch server).fetched.length = s.sys.queued := by
    show (s.sys.fetched ++ (server.fetch 16).1).length = _
    rw [IoUringServer.fetch_eq, List.length_append, List.length_take, NetState.queued, hsq]
    omega
  have hrest : (s.sys.fetch server).sq = [] := by
    simp [NetState.sq, NetState.fetch, IoUringServer.fetch_eq, hlen]
  refine h.outside (u := s.sys.fetch server) (by rw [hp]; exact id) id rfl rfl ?_ ?_ ?_ ?_
  · exact fun _ hr => absurd rfl hr
  · rw [hrest]
    exact Nat.zero_le _
  · rw [NetState.queued, hall]
    exact h.rung.trans (Nat.le_add_right _ _)
  · intro hlt
    rw [hall] at hlt
    exact absurd hlt (Nat.not_lt.2 h.rung)

/-- Every step that keeps every event keeps the invariant. -/
theorem step (h : s.Inv) (hs : s.sys.Account before) (hstep : KeptStep s t) : t.Inv := by
  have hkept := hstep.published
  have hring := hstep.ring
  cases hstep.step with
  | call u hu hidle hstatus hsq =>
    exact h.call (hs.step hu) (hs.progress hu hidle) hidle hstatus hsq hkept
  | announce => exact h.announce
  | notify => exact { h with rung := le_rfl, ring := fun _ => Or.inl rfl }
  | deliver hd => exact h.deliver hd
  | receive irq ring hp hirq hring' hne =>
    cases irq with
    | false =>
      have hand : (s.irq && !false) = s.irq := by simp
      rw [hand]
      exact h.outside (by rw [hp]; exact id) id rfl rfl
        (fun _ _ => h.idle (by simp [hp]) (by simp [hp])) h.sq h.rung fun _ => Or.inr rfl
    | true => exact h.receiveIrq hp (hirq rfl) (hring hp rfl)
  | readStatus hp => exact h.readStatus hp
  | writeAck v hp => exact h.writeAck hs hp
  | drained hp hidle => exact h.drained hp hidle
  | ring server hp hserver => exact h.fetched hp hserver
  | ringNone hp hserver =>
    refine h.outside (by rw [hp]; exact id) id rfl rfl
      (fun _ _ => h.idle (by simp [hp]) (by simp [hp])) h.sq h.rung fun hlt => ?_
    have hnil : s.sys.sq = [] := by simp [NetState.sq, hserver]
    have hle := h.rung
    rw [NetState.queued, hnil] at hle
    exact absurd hlt (by simpa using hle)
  | ringDone hp hidle =>
    exact h.outside (by rw [hp]; exact id) id rfl rfl (fun _ _ => hidle) h.sq h.rung
      fun hlt => Or.inl ((h.ring hlt).resolve_right (by simp [hp]))

/-- A step of the service is a run of the driver's system. -/
theorem reach (h : s.Inv) (hstep : NetServiceStep s t) : NetReach s.sys t.sys := by
  cases hstep with
  | call u hu hidle hstatus hsq => exact .single hu
  | announce => exact .single (.raise s.sys 1)
  | writeAck v hp =>
    obtain ⟨hv, w, hw⟩ := h.ack v hp
    refine NetState.writeAck_run v (h.idle (by simp [hp]) (by simp [hp])) ?_
    rw [hw]
    exact fun hz => hv (UInt32.or_eq_zero_iff.1 hz).1
  | ring server hp hs =>
    exact .single (.fetch s.sys server (h.idle (by simp [hp]) (by simp [hp])) hs)
  | _ => exact .refl

/-- The invariant holds along every run of such steps. -/
theorem run (hn : n.Started) (hsq : ∀ server, n.ringServer = some server → server.sq = [])
    (hrun : Relation.ReflTransGen KeptStep (.start n) s) :
    s.sys.Account n.completions ∧ s.Inv := by
  induction hrun with
  | refl => exact ⟨NetState.Account.start hn, Inv.start hsq⟩
  | tail _ hstep ih =>
    obtain ⟨hacc, hinv⟩ := ih
    exact ⟨hacc.run (hinv.reach hstep.step), hinv.step hacc hstep⟩

end Inv

/-- Every request was fetched, and every used entry popped. -/
def Settled (s : NetServiceState) : Prop :=
  s.sys.sq = [] ∧ ∀ i, ∃ q, s.sys.net.queue i = some q ∧ q.pop = (none, q)

end NetServiceState

/-- **When no event is stranded.**  In every run in which no message with both bits takes the ring
while requests wait, and no used entry is published to a queue that `handle_irq` will not reach
again, when the service waits and nothing wakes it, every request was fetched and every used
entry popped. -/
theorem net_wakeup {n : VirtIONet} (hn : n.Started)
    (hsq : ∀ server, n.ringServer = some server → server.sq = []) {s : NetServiceState}
    (hs : Relation.ReflTransGen KeptStep (.start n) s) (hquiet : s.Quiet) : s.Settled := by
  obtain ⟨hacc, h⟩ := NetServiceState.Inv.run hn hsq hs
  constructor
  · -- the last ring was answered
    have hge : s.rung ≤ s.sys.fetched.length := by
      by_contra hlt
      rcases h.ring (Nat.not_le.1 hlt) with hr | hp
      · rw [hquiet.ring] at hr
        exact absurd hr (by simp)
      · rw [hquiet.recv] at hp
        exact absurd hp (by simp)
    rw [hquiet.rung, NetState.queued] at hge
    exact List.eq_nil_of_length_eq_zero (by omega)
  · intro i
    obtain ⟨q, out, held, slot, userData, hinv, -⟩ := hacc.served i
    refine ⟨q, hinv.queue, hinv.traffic.pop_none ?_⟩
    cases hm : s.masked with
    | true => exact h.late i ⟨hm, hquiet.irq, by simp [hquiet.recv], by simp [hquiet.recv],
        by simp [hquiet.recv]⟩
    | false =>
      -- the line is low: no entry was ever announced
      have hzero : (s.sys.traffic i).published.length = 0 := by
        rw [← hquiet.announced i]
        by_contra hne
        exact hquiet.line ⟨hm, (h.unmasked hm).2.2 i (Nat.pos_of_ne_zero hne)⟩
      have hle := hinv.traffic.pops_le
      omega

/-! ### Runs of the service -/

/-- What the device does beside the calls is a step of the service. -/
theorem beside_step (s : NetServiceState) {u v : NetState}
    (hu : Relation.ReflTransGen NetState.Beside s.sys u) (hv : u.Beside v)
    (hsq : s.sys.sq.length ≤ 16) : NetServiceStep { s with sys := u } { s with sys := v } := by
  have hserver := (NetState.beside_run hu).2.2.2.2
  refine .call _ v hv.step (fun hidle => hv.phase.trans hidle) ⟨0, ?_⟩ ?_
  · rw [NetState.status, hv.transport]
    show u.status = u.status ||| 0
    simp
  · rw [NetState.sq, hv.ringServer, hserver]
    exact hsq

/-- The device answers requests at any time. -/
theorem NetServiceReach.beside {s : NetServiceState} {u : NetState} (hsq : s.sys.sq.length ≤ 16)
    (hu : Relation.ReflTransGen NetState.Beside s.sys u) :
    NetServiceReach s { s with sys := u } := by
  induction hu with
  | refl => exact .refl
  | tail hv hstep ih => exact ih.tail (beside_step s hv hstep hsq)

/-- Runs that keep every event. -/
abbrev KeptReach : NetServiceState → NetServiceState → Prop := Relation.ReflTransGen KeptStep

namespace KeptReach

variable {a s t : NetServiceState} {u : NetState} {before : List (UInt64 × Int32)}

/-- A step that neither enters `handle_irq` nor publishes. -/
theorem other (hs : KeptReach a s) (h : NetServiceStep s t) (hp : t.phase ≠ .readStatus)
    (hpub : ∀ i, (t.sys.traffic i).published = (s.sys.traffic i).published) : KeptReach a t :=
  hs.tail ⟨h, fun _ hr => absurd hr hp, fun i hne => absurd (hpub i) hne⟩

/-- The message of the interrupt alone goes to `handle_irq`. -/
theorem receive (hs : KeptReach a s) (hp : s.phase = .recv) (hirq : s.irq = true) :
    KeptReach a { s with phase := .readStatus, irq := false } := by
  have h := NetServiceStep.receive s true false hp (fun _ => hirq) (by simp) (Or.inl rfl)
  have hkept : KeptStep s _ := ⟨h, fun _ _ hr hr' => absurd hr (by simpa using hr'),
    fun i hne => absurd rfl hne⟩
  simpa using hs.tail hkept

/-- A step of the call under way, or of the client. -/
theorem call (hs : KeptReach a s) (h : NetStep s.sys u)
    (hidle : s.sys.phase = .idle → u.phase = .idle) (hstatus : u.status = s.sys.status)
    (hsq : u.sq.length ≤ 16)
    (hpub : ∀ i, (u.traffic i).published = (s.sys.traffic i).published) :
    KeptReach a { s with sys := u } :=
  hs.tail ⟨.call s u h hidle ⟨0, by rw [hstatus]; simp⟩ hsq, fun hp hr => by
    simp [show s.phase = _ from hp] at hr, fun i hne => absurd (hpub i) hne⟩

/-- The device answers requests before the interrupt is delivered. -/
theorem beside (hs : KeptReach a s) (hm : s.masked = false) (hsq : s.sys.sq.length ≤ 16)
    (hu : Relation.ReflTransGen NetState.Beside s.sys u) : KeptReach a { s with sys := u } := by
  induction hu with
  | refl => exact hs
  | @tail v w hv hstep ih =>
    refine ih.tail ⟨beside_step s hv hstep hsq, fun hp hr => ?_, fun i _ hl => ?_⟩
    · simp [show s.phase = _ from hp] at hr
    · have hmask : s.masked = true := hl.1
      rw [hm] at hmask
      exact absurd hmask (by simp)

/-- A loop of `handle_irq` pops all entries of its queue. -/
theorem loop (hs : KeptReach a s) {i : NetDir} (hacc : s.sys.Account before)
    (hp : s.sys.phase = .popping i) (hsq : s.sys.sq.length ≤ 16) :
    ∃ u, KeptReach a { s with sys := u } ∧ u.Account before ∧
      u.phase = (if i = .rx then .popping .tx else .idle) ∧ u.status = s.sys.status ∧
      u.sq = s.sys.sq ∧ u.fetched = s.sys.fetched ∧
      u.traffic = s.sys.setTraffic i
        { s.sys.traffic i with pops := (s.sys.traffic i).published.length } := by
  obtain ⟨k, hk⟩ : ∃ k, (s.sys.traffic i).pops + k = (s.sys.traffic i).published.length := by
    obtain ⟨q, out, held, slot, userData, hinv, -⟩ := hacc.served i
    exact ⟨_, Nat.add_sub_of_le hinv.traffic.pops_le⟩
  induction k generalizing s with
  | zero =>
    obtain ⟨q, out, held, slot, userData, hinv, -⟩ := hacc.served i
    have hdone := NetStep.popDone s.sys i _ hp (hinv.pop_none hk)
    refine ⟨_, hs.call hdone (fun hidle => ?_) rfl hsq fun _ => rfl, hacc.step hdone, rfl, rfl, rfl,
      rfl, ?_⟩
    · rw [hp] at hidle
      exact absurd hidle (by simp)
    · show s.sys.traffic = Function.update s.sys.traffic i _
      rw [← hk]
      exact (Function.update_eq_self i s.sys.traffic).symm
  | succ k ih =>
    obtain ⟨q, out, held, slot, userData, hinv, -⟩ := hacc.served i
    obtain ⟨r, -, d1, d2, q', -, -, hpop, -⟩ := hinv.pop_some (by omega)
    set n := s.sys.net.completed i q' (slot r.pos) (userData r.pos)
      ((s.sys.traffic i).published[(s.sys.traffic i).pops]).2.len with hn
    let u : NetState := { s.sys with
      net := n
      traffic := s.sys.setTraffic i (s.sys.traffic i).pop
      calls := s.sys.calls ++ newCalls (s.sys.answered i) s.sys.net.completions n.completions }
    have hstep : NetStep s.sys u := .pop s.sys i _ hp hpop
    have hsame : u.sq = s.sys.sq := sq_complete _ _ _
    have htr : u.traffic i = (s.sys.traffic i).pop := NetState.setTraffic_self s.sys i _
    have hpub : ∀ j, (u.traffic j).published = (s.sys.traffic j).published :=
      NetState.forall_setTraffic
        (p := fun j tr => tr.published = (s.sys.traffic j).published) rfl fun _ _ => rfl
    have hrun : KeptReach a { s with sys := u } := by
      refine hs.call hstep (fun hidle => ?_) rfl (hsame ▸ hsq) hpub
      rw [hp] at hidle
      exact absurd hidle (by simp)
    obtain ⟨w, hw, hwacc, hwp, hws, hwq, hwf, hwt⟩ := ih hrun (hacc.step hstep) hp (hsame ▸ hsq) (by
      show (u.traffic i).pops + k = (u.traffic i).published.length
      rw [htr]
      show (s.sys.traffic i).pops + 1 + k = (s.sys.traffic i).published.length
      omega)
    refine ⟨w, hw, hwacc, hwp, hws, hwq.trans hsame, hwf, hwt.trans ?_⟩
    show u.setTraffic i { u.traffic i with pops := (u.traffic i).published.length } = _
    rw [htr, NetState.setTraffic]
    exact Function.update_idem _ _ _

/-- `handle_irq` acknowledges the interrupt and empties both queues. -/
theorem handleIrq (hs : KeptReach a s) (hacc : s.sys.Account before) (hp : s.phase = .readStatus)
    (hidle : s.sys.phase = .idle) (hz : s.sys.status ≠ 0)
    (hserver : s.sys.net.ringServer.isSome = true) (hsq : s.sys.sq.length ≤ 16) :
    ∃ u, KeptReach a { s with sys := u, phase := .recv } ∧ u.Account before ∧ u.status = 0 ∧
      u.sq = s.sys.sq ∧ u.fetched = s.sys.fetched ∧
      ∀ i, u.traffic i =
        { s.sys.traffic i with pops := (s.sys.traffic i).published.length } := by
  have hread : KeptReach a { s with phase := .writeAck s.sys.status } := by
    have h := NetServiceStep.readStatus s hp
    rw [if_neg hz] at h
    exact hs.other h (by simp) fun _ => rfl
  have hack : KeptReach a { s with sys := s.sys.writeAck s.sys.status, phase := .draining } :=
    hread.other (.writeAck _ s.sys.status rfl) (by simp) fun _ => rfl
  have hack' := hacc.run (NetState.writeAck_run s.sys.status hidle hz)
  obtain ⟨u, hu, huacc, hup, hus, huq, huf, hut⟩ := hack.loop (i := .rx) hack' (by
    show (if s.sys.net.ringServer.isSome then NetPhase.popping .rx else .idle) = _
    rw [if_pos hserver]) hsq
  obtain ⟨w, hw, hwacc, hwp, hws, hwq, hwf, hwt⟩ := KeptReach.loop hu (i := .tx) huacc hup
    (by rw [huq]; exact hsq)
  refine ⟨w, hw.other (.drained _ rfl hwp) (by simp) fun _ => rfl, hwacc, ?_, hwq.trans huq,
    hwf.trans huf, fun i => ?_⟩
  · rw [hws, hus]
    show s.sys.status &&& ~~~s.sys.status = 0
    simp
  · have hrx : u.traffic .rx =
        { s.sys.traffic .rx with pops := (s.sys.traffic .rx).published.length } := by
      rw [hut]
      exact NetState.setTraffic_self _ _ _
    have htx : u.traffic .tx = s.sys.traffic .tx := by
      rw [hut]
      exact NetState.setTraffic_of_ne _ (by simp) _
    rw [hwt]
    cases i with
    | rx => exact (NetState.setTraffic_of_ne _ (by simp) _).trans hrx
    | tx =>
      show u.setTraffic .tx { u.traffic .tx with pops := (u.traffic .tx).published.length } .tx = _
      rw [NetState.setTraffic_self, htx]

end KeptReach

/-! ### Two packets -/

/-- The client queues two buffers and rings, and the service submits both. -/
theorem exists_two_submitted :
    ∃ s, KeptReach (.start (.initial (some sharedPage))) s ∧ s.phase = .recv ∧
      s.masked = false ∧ s.irq = false ∧ s.ring = false ∧ s.sys.phase = .idle ∧
      s.sys.status = 0 ∧ s.sys.net.ringServer = some ⟨[], []⟩ ∧
      s.rung = s.sys.queued ∧ (s.sys.traffic .tx) = .init ∧
      ∃ d1 e1, s.sys.traffic .rx = (Traffic.init.submit d1).submit e1 := by
  obtain ⟨q, d1, d2, rest, h, hids⟩ := fetchedOne_free packetBuffer .rx
  have hd : dataPaddr (some sharedPage) packetBuffer = some 0x80000000 := by decide
  have hdir : netDir packetBuffer.opcode = some .rx := rfl
  -- the descriptors of the second request
  obtain ⟨q₁, idx, hsub, havail, -, -, -, h₁⟩ := h.submit_ok hids hd
  have hcons := h₁.conservation
  rw [h₁.someCount_eq, ← length_freeIds] at hcons
  obtain ⟨e1, e2, rest', hids'⟩ : ∃ e1 e2 rest', q₁.freeIds = e1 :: e2 :: rest' := by
    match hq : q₁.freeIds with
    | [] => simp [hq] at hcons
    | [e1] => simp [hq] at hcons
    | e1 :: e2 :: rest' => exact ⟨e1, e2, rest', rfl⟩
  obtain ⟨q₂, idx', hsub', havail', -, -, -, h₂⟩ := h₁.submit_ok hids' hd
  rw [← submitSqe_eq hdir] at hsub hsub'
  -- the run
  let s₀ : NetServiceState := .start (.initial (some sharedPage))
  have hpush : KeptReach s₀ _ := KeptReach.call .refl
    (.client s₀.sys ⟨[], []⟩ packetBuffer rfl) (fun _ => rfl) rfl (by decide) fun _ => rfl
  have hpush' : KeptReach s₀ _ := KeptReach.call hpush
    (.client _ ⟨[packetBuffer], []⟩ packetBuffer rfl) (fun _ => rfl) rfl (by decide) fun _ => rfl
  have hring := ((hpush'.other (.notify _) (by simp [s₀, NetServiceState.start])
    fun _ => rfl).other (.receive _ false true rfl (by simp) (fun _ => rfl) (Or.inr rfl))
    (by simp) fun _ => rfl).other (.ring _ ⟨[packetBuffer, packetBuffer], []⟩ rfl rfl) (by simp)
    fun _ => rfl
  have hpub : ∀ (v : NetState) (tr : Traffic), tr.published = (v.traffic .rx).published →
      ∀ i, (v.setTraffic .rx tr i).published = (v.traffic i).published := fun v tr htr =>
    NetState.forall_setTraffic
      (p := fun i tr => tr.published = (v.traffic i).published) htr fun _ _ => rfl
  have hfirst : KeptReach s₀ _ := KeptReach.call hring
    (.accept _ packetBuffer [packetBuffer] .rx _ q q₁ rfl hsub hdir h.queue
      (entered_queue _ _ _ _ _ _)) (fun hidle => absurd hidle (by simp [NetState.fetch])) rfl
    (Nat.zero_le 16) (hpub _ _ rfl)
  have hsecond : KeptReach s₀ _ := KeptReach.call hfirst
    (.accept _ packetBuffer [] .rx _ q₁ q₂ rfl hsub' hdir h₁.queue
      (entered_queue _ _ _ _ _ _)) (fun hidle => absurd hidle (by simp)) rfl
    (Nat.zero_le 16) (hpub _ _ rfl)
  have hdone := (KeptReach.call hsecond (.submitted _ rfl) (fun _ => rfl) rfl (Nat.zero_le 16)
    fun _ => rfl).other (.ringDone _ rfl rfl) (by simp) fun _ => rfl
  refine ⟨_, hdone, rfl, rfl, rfl, rfl, rfl, rfl, rfl, rfl, rfl, d1, e1, ?_⟩
  have htr : ∀ tr : NetDir → Traffic, tr .rx = Traffic.init →
      Function.update (Function.update tr .rx ((tr .rx).submit (q₁.readAvail q.mem.availIdx))) .rx
        ((Function.update tr .rx ((tr .rx).submit (q₁.readAvail q.mem.availIdx)) .rx).submit
          (q₂.readAvail q₁.mem.availIdx)) .rx = (Traffic.init.submit d1).submit e1 := by
    intro tr hrx
    rw [Function.update_self, Function.update_self, havail, havail', hrx]
  exact htr _ rfl

/-- The device answers the first request, and the kernel delivers the interrupt. -/
structure Delivered (s : NetServiceState) : Prop where
  run : KeptReach (.start (.initial (some sharedPage))) s
  account : s.sys.Account (VirtIONet.initial (some sharedPage)).completions
  recv : s.phase = .recv
  masked : s.masked = true
  irq : s.irq = true
  ring : s.ring = false
  idle : s.sys.phase = .idle
  status : s.sys.status ≠ 0
  server : s.sys.net.ringServer = some ⟨[], []⟩
  rung : s.rung = s.sys.queued
  announced : ∀ i, s.announced i = (s.sys.traffic i).published.length
  published : (s.sys.traffic .rx).published.length = 1
  outstanding : (s.sys.traffic .rx).taken.length < (s.sys.traffic .rx).submitted.length

theorem Delivered.sq {s : NetServiceState} (h : Delivered s) : s.sys.sq = [] := by
  rw [NetState.sq, h.server]
  rfl

theorem exists_delivered : ∃ s, Delivered s := by
  obtain ⟨s, hs, hp, hm, hirq, hring, hidle, hz, hserver, hrung, -, d1, e1, hrx⟩ :=
    exists_two_submitted
  have hnew : ∀ server, (VirtIONet.initial (some sharedPage)).ringServer = some server →
      server.sq = [] := by
    rintro server h
    obtain rfl := Option.some.inj h
    rfl
  obtain ⟨hacc, -⟩ := NetServiceState.Inv.run (started_initial (some sharedPage)) hnew hs
  obtain ⟨u, hu, htaken, hsub, hpops, hpub, -⟩ :=
    hacc.exists_published (i := .rx) (by rw [hrx]; exact Nat.zero_lt_succ 1) 74
  obtain ⟨hreach, hup, huf, hut, hus⟩ := NetState.beside_run hu
  have hsq : s.sys.sq.length ≤ 16 := by
    rw [NetState.sq, hserver]
    exact Nat.zero_le 16
  have hbeside := hs.beside hm hsq hu
  have hann := hbeside.other (.announce _) (by simp [NetServiceState.announce, hp]) fun _ => rfl
  have hnz : u.status ||| 1 ≠ 0 := fun hz => absurd (UInt32.or_eq_zero_iff.1 hz).2 (by decide)
  have hdel := hann.other (.deliver _ ⟨hm, hnz⟩) (by simp [NetServiceState.announce, hp])
    fun _ => rfl
  refine ⟨_, hdel, (hacc.run hreach).step (.raise u 1), hp, rfl, rfl, hring, hup.trans hidle, hnz,
    hus.trans hserver, ?_, fun _ => rfl, ?_, ?_⟩
  · show s.rung = u.fetched.length + ((u.net.ringServer.map (·.sq)).getD []).length
    rw [hrung, huf, hus]
    rfl
  · show (u.traffic .rx).published.length = 1
    rw [hpub, hrx]
    rfl
  · show (u.traffic .rx).taken.length < (u.traffic .rx).submitted.length
    rw [htaken, hsub, hrx]
    exact Nat.lt_add_one 1

/-- The interrupt is handled before anything else happens. -/
theorem Delivered.handled {s : NetServiceState} (h : Delivered s) :
    ∃ t, KeptReach (.start (.initial (some sharedPage))) t ∧ t.Quiet ∧
      t.sys.Account (VirtIONet.initial (some sharedPage)).completions ∧
      t.masked = true ∧ t.sys.sq = [] ∧ ∀ i, t.sys.traffic i =
        { s.sys.traffic i with pops := (s.sys.traffic i).published.length } := by
  have hrecv := h.run.receive h.recv h.irq
  obtain ⟨u, hu, huacc, -, huq, huf, hut⟩ := hrecv.handleIrq h.account rfl h.idle h.status
    (by rw [h.server]; rfl) (by rw [h.sq]; exact Nat.zero_le 16)
  refine ⟨_, hu, ⟨rfl, rfl, h.ring, ?_, ?_, fun i => ?_⟩, huacc, h.masked, huq.trans h.sq, hut⟩
  · rintro ⟨hm, -⟩
    exact absurd (h.masked.symm.trans hm) (by simp)
  · show s.rung = u.fetched.length + u.sq.length
    rw [h.rung, huf, huq]
    rfl
  · show s.announced i = (u.traffic i).published.length
    rw [h.announced i, hut i]

/-- One packet is received and its interrupt handled. -/
theorem net_wakeup_read :
    ∃ s : NetServiceState, s.Quiet ∧ s.Settled ∧ (s.sys.traffic .rx).pops = 1 := by
  obtain ⟨s, h⟩ := exists_delivered
  obtain ⟨t, ht, hquiet, -, -, -, htr⟩ := h.handled
  refine ⟨t, hquiet, net_wakeup (started_initial (some sharedPage)) ?_ ht hquiet, ?_⟩
  · rintro server hs
    obtain rfl := Option.some.inj hs
    rfl
  · rw [htr .rx]
    exact h.published

/-- A message with both bits goes to `handle_irq`. -/
theorem NetServiceStep.merged {s : NetServiceState} (hp : s.phase = .recv) (hirq : s.irq = true)
    (hring : s.ring = true) :
    NetServiceStep s { s with phase := .readStatus, irq := false, ring := false } := by
  simpa using receive s true true hp (fun _ => hirq) (fun _ => hring) (Or.inl rfl)

/-- **Stranded events.**  When the interrupt and the ring are merged into one message, the request
stays in the ring; and a packet that is received after the first interrupt stays in the used
ring. -/
theorem net_stranded :
    (∃ s, NetServiceReach (.start (.initial (some sharedPage))) s ∧ s.Quiet ∧ s.sys.sq ≠ []) ∧
    ∃ s, NetServiceReach (.start (.initial (some sharedPage))) s ∧ s.Quiet ∧
      ∃ q elem q', s.sys.net.queue .rx = some q ∧ q.pop = (some elem, q') := by
  have hlift : ∀ {a s}, KeptReach a s → NetServiceReach a s := fun h =>
    Relation.ReflTransGen.mono (show KeptStep ≤ NetServiceStep from fun _ _ hs => hs.step) _ _ h
  obtain ⟨s, h⟩ := exists_delivered
  constructor
  · -- the client queues a third buffer and rings while the interrupt is pending
    have hclient := NetStep.client s.sys ⟨[], []⟩ packetBuffer h.server
    have hpush := h.run.call hclient id rfl (Nat.succ_le_succ (Nat.zero_le 15)) fun _ => rfl
    have hrecv := ((hlift hpush).tail (.notify _)).tail (.merged h.recv h.irq rfl)
    -- and only `handle_irq` is called
    have hrefl : ∀ {a t}, NetServiceReach a t → KeptReach t t := fun _ => .refl
    obtain ⟨u, hu, -, -, huq, huf, hut⟩ := (hrefl hrecv).handleIrq (h.account.step hclient) rfl
      h.idle h.status rfl (Nat.succ_le_succ (Nat.zero_le 15))
    refine ⟨_, hrecv.trans (hlift hu), ⟨rfl, rfl, rfl, ?_, ?_, fun i => ?_⟩, ?_⟩
    · rintro ⟨hm, -⟩
      exact absurd (h.masked.symm.trans hm) (by simp)
    · show _ = u.fetched.length + u.sq.length
      rw [huf, huq]
      rfl
    · show s.announced i = (u.traffic i).published.length
      rw [h.announced i, hut i]
    · show u.sq ≠ []
      rw [huq]
      simp [NetState.sq, IoUringServer.push]
  · -- the device fills the second buffer after the first interrupt was handled
    obtain ⟨t, ht, hquiet, hacc, hm, hsq, htr⟩ := h.handled
    obtain ⟨u, hu, -, -, hpops, hpub, -⟩ := hacc.exists_published (i := .rx)
      (by rw [htr]; exact h.outstanding) 74
    obtain ⟨hreach, hup, huf, hut, hus⟩ := NetState.beside_run hu
    have hanswer := NetServiceReach.beside (hsq ▸ Nat.zero_le 16) hu
    have hrun := ((hlift ht).trans hanswer).tail (.announce _)
    obtain ⟨q, out, held, slot, userData, hinv, -⟩ := (hacc.run hreach).served .rx
    obtain ⟨r, -, head, -, -, hpop, -⟩ := hinv.traffic.pop (by
      rw [hpops, hpub, htr]
      exact Nat.lt_succ_self _)
    refine ⟨_, hrun, ⟨hquiet.recv, hquiet.irq, hquiet.ring, ?_, ?_, fun _ => rfl⟩, q, _, _,
      hinv.queue, hpop⟩
    · rintro ⟨hm', -⟩
      exact absurd (hm.symm.trans hm') (by simp)
    · show t.rung = u.fetched.length + ((u.net.ringServer.map (·.sq)).getD []).length
      rw [hquiet.rung, huf, hus]
      rfl

end GlendaDrivers
