import GlendaDrivers.Virtio.Ledger
import GlendaDrivers.Virtio.NetInv

/-!
# The network driver, its client and a conforming device

As for the block driver, the two entry points are split into their single steps, between any
two of which the client and the device can move.  A conforming device reads every available
head of either queue and publishes it once; it writes received headers to the DMA memory.

* `NetState`: the driver, where it is in its call, the traffic on its queues, and the history;
* `NetStep`: one step of the driver, the client or the device;
* `NetRingCall`: a call of `handle_ring`;
* `handleRing_call`, `handleRing_run`, `handleIrq_run`: the entry points of the source are runs of
  these steps.
-/

namespace GlendaDrivers

open VirtQueue

/-- Where the driver is in `handle_ring` or `handle_irq`. -/
inductive NetPhase
  | idle
  /-- `handle_ring`, with the fetched requests that are still to be submitted. -/
  | submitting (todo : List Sqe)
  /-- A loop of `handle_irq`. -/
  | popping (i : NetDir)

/-- The whole system. -/
structure NetState where
  net : VirtIONet
  phase : NetPhase
  traffic : NetDir → Traffic
  /-- The requests fetched so far. -/
  fetched : List Sqe
  /-- How many of them were handed to `submit`, or rejected for their opcode. -/
  handed : ℕ
  /-- The number of the request of each submitted head. -/
  accepted : NetDir → List ℕ
  /-- The calls of `complete`, each with the number of its request. -/
  calls : List (ℕ × UInt64 × Int32)

/-- The completions a driver has posted. -/
def VirtIONet.completions (n : VirtIONet) : List (UInt64 × Int32) := postedTo n.ringServer

namespace NetState

/-- The system when `init` has returned. -/
def start (n : VirtIONet) : NetState where
  net := n
  phase := .idle
  traffic _ := .init
  fetched := []
  handed := 0
  accepted _ := []
  calls := []

/-- The number of the request that the next used entry of queue `i` answers.  A used entry that
answers no request gets a number that no request has. -/
def answered (s : NetState) (i : NetDir) : ℕ :=
  (((s.traffic i).published[(s.traffic i).pops]?).bind fun p =>
    (s.accepted i)[p.1]?).getD s.fetched.length

/-- The traffic after queue `i` has seen `t`. -/
def setTraffic (s : NetState) (i : NetDir) (t : Traffic) : NetDir → Traffic :=
  Function.update s.traffic i t

end NetState

/-- The queue of a request. -/
def netDir : Opcode → Option NetDir
  | .read => some .rx
  | .write => some .tx
  | _ => none

/-- One step of the system. -/
inductive NetStep : NetState → NetState → Prop
  /-- The client queues a request. -/
  | client (s : NetState) (server : IoUringServer) (sqe : Sqe)
      (hs : s.net.ringServer = some server) :
      NetStep s { s with net := { s.net with ringServer := some (server.push sqe) } }
  /-- A shared buffer is registered. -/
  | setup (s : NetState) (vaddr paddr size : UInt64) (hp : s.phase = .idle) :
      NetStep s { s with net := s.net.setupShm vaddr paddr size }
  /-- `handle_ring` is entered and fetches up to 16 requests. -/
  | fetch (s : NetState) (server : IoUringServer) (hp : s.phase = .idle)
      (hs : s.net.ringServer = some server) :
      NetStep s { s with
        net := { s.net with ringServer := some (server.fetch 16).2 }
        phase := .submitting (server.fetch 16).1
        fetched := s.fetched ++ (server.fetch 16).1 }
  /-- A request is submitted. -/
  | accept (s : NetState) (sqe : Sqe) (todo : List Sqe) (i : NetDir) (n : VirtIONet)
      (q q' : VirtQueue) (hp : s.phase = .submitting (sqe :: todo))
      (hn : s.net.submitSqe sqe = .ret (.ok (), n)) (hi : netDir sqe.opcode = some i)
      (hq : s.net.queue i = some q) (hq' : n.queue i = some q') :
      NetStep s { s with
        net := n
        phase := .submitting todo
        traffic := s.setTraffic i ((s.traffic i).submit (q'.readAvail q.mem.availIdx))
        handed := s.handed + 1
        accepted := Function.update s.accepted i (s.accepted i ++ [s.handed])
        calls := s.calls ++ newCalls s.handed s.net.completions n.completions }
  /-- A request is rejected. -/
  | reject (s : NetState) (sqe : Sqe) (todo : List Sqe) (e : VirtIOError) (n : VirtIONet)
      (hp : s.phase = .submitting (sqe :: todo))
      (hn : s.net.submitSqe sqe = .ret (.error e, n)) :
      NetStep s { s with
        net := n.complete sqe.userData (-1)
        phase := .submitting todo
        handed := s.handed + 1
        calls := s.calls ++
          newCalls s.handed s.net.completions (n.complete sqe.userData (-1)).completions }
  /-- All fetched requests are submitted, and `handle_ring` returns. -/
  | submitted (s : NetState) (hp : s.phase = .submitting []) :
      NetStep s { s with phase := .idle }
  /-- `handle_irq` is entered. -/
  | irq (s : NetState) (hp : s.phase = .idle) :
      NetStep s { s with
        net := { s.net with transport := s.net.transport.interruptAck.2 }
        phase := if s.net.transport.interruptAck.1 ∧ s.net.ringServer.isSome then .popping .rx
          else .idle }
  /-- One entry is popped. -/
  | pop (s : NetState) (i : NetDir) (n : VirtIONet) (hp : s.phase = .popping i)
      (hn : s.net.popCompletion i = .ret (true, n)) :
      NetStep s { s with
        net := n
        traffic := s.setTraffic i (s.traffic i).pop
        calls := s.calls ++ newCalls (s.answered i) s.net.completions n.completions }
  /-- No entry is left: after the RX queue comes the TX queue, then the call returns. -/
  | popDone (s : NetState) (i : NetDir) (n : VirtIONet) (hp : s.phase = .popping i)
      (hn : s.net.popCompletion i = .ret (false, n)) :
      NetStep s { s with net := n, phase := if i = .rx then .popping .tx else .idle }
  /-- The device sets bits of InterruptStatus. -/
  | raise (s : NetState) (v : UInt32) :
      NetStep s { s with net := { s.net with transport :=
        { s.net.transport with interruptStatus := s.net.transport.interruptStatus ||| v } } }
  /-- The device writes to the headers. -/
  | write (s : NetState) (dma : UInt64 → UInt8) :
      NetStep s { s with net := { s.net with dma := dma } }
  /-- The device reads the next head. -/
  | take (s : NetState) (i : NetDir) (q : VirtQueue) (hq : s.net.queue i = some q)
      (hne : (s.traffic i).devAvail ≠ q.mem.availIdx) :
      NetStep s { s with traffic := s.setTraffic i ((s.traffic i).take q) }
  /-- The device publishes a head that it read. -/
  | publish (s : NetState) (i : NetDir) (q : VirtQueue) (pos : ℕ) (elem : UsedElem)
      (hq : s.net.queue i = some q) (hc : (s.traffic i).CanPublish pos elem) :
      NetStep s { s with
        net := s.net.setQueue i (q.publishUsed elem)
        traffic := s.setTraffic i ((s.traffic i).publish pos elem) }

/-- A state that can be reached from `s`. -/
abbrev NetReach : NetState → NetState → Prop := Relation.ReflTransGen NetStep

/-- A state that can be reached from `s` while a call of the driver goes on. -/
abbrev NetBusy : NetState → NetState → Prop :=
  Relation.ReflTransGen fun s t => NetStep s t ∧ s.phase ≠ .idle

theorem NetBusy.reach {s t : NetState} (h : NetBusy s t) : NetReach s t :=
  Relation.ReflTransGen.mono (show (fun s t => NetStep s t ∧ s.phase ≠ .idle) ≤ NetStep from
    fun _ _ hstep => hstep.1) _ _ h

/-- `handle_ring` has fetched its requests. -/
def NetState.entered (s : NetState) (server : IoUringServer) : NetState :=
  { s with
    net := { s.net with ringServer := some (server.fetch 16).2 }
    phase := .submitting (server.fetch 16).1
    fetched := s.fetched ++ (server.fetch 16).1 }

/-- `handle_ring` is entered in `s` with the ring server `server`, and returns in `t`. -/
structure NetRingCall (s : NetState) (server : IoUringServer) (t : NetState) : Prop where
  idle : s.phase = .idle
  installed : s.net.ringServer = some server
  busy : NetBusy (s.entered server) t
  returned : t.phase = .idle

theorem NetRingCall.reach {s t : NetState} {server : IoUringServer} (h : NetRingCall s server t) :
    NetReach s t := .head (.fetch s server h.idle h.installed) h.busy.reach

/-! ### The entry points of the source as runs -/

namespace VirtIONet

/-- A request is submitted to the queue of its opcode. -/
theorem submitSqe_eq {n : VirtIONet} {sqe : Sqe} {i : NetDir} (h : netDir sqe.opcode = some i) :
    n.submitSqe sqe = n.submit i sqe := by
  unfold submitSqe
  cases ho : sqe.opcode with
  | read =>
    rw [ho] at h
    obtain rfl := Option.some.inj h
    rfl
  | write =>
    rw [ho] at h
    obtain rfl := Option.some.inj h
    rfl
  | sync =>
    rw [ho] at h
    exact absurd h (by simp [netDir])
  | other code =>
    rw [ho] at h
    exact absurd h (by simp [netDir])

/-- Other opcodes are rejected. -/
theorem submitSqe_none {n : VirtIONet} {sqe : Sqe} (h : netDir sqe.opcode = none) :
    n.submitSqe sqe = .ret (.error .deviceNotFound, n) := by
  unfold submitSqe
  cases ho : sqe.opcode with
  | read =>
    rw [ho] at h
    exact absurd h (by simp [netDir])
  | write =>
    rw [ho] at h
    exact absurd h (by simp [netDir])
  | sync => rfl
  | other code => rfl

/-- A request can only be submitted to a queue. -/
theorem queue_of_submit {n n' : VirtIONet} {i : NetDir} {sqe : Sqe}
    (h : n.submit i sqe = .ret (.ok (), n')) :
    ∃ q q', n.queue i = some q ∧ n'.queue i = some q' := by
  unfold submit at h
  cases hq : n.queue i with
  | none => simp [hq] at h
  | some q =>
    simp only [hq] at h
    obtain ⟨⟨r1, q1⟩, -, h⟩ := Outcome.bind_eq_ret.1 h
    cases r1 with
    | none => simp at h
    | some d1 =>
      obtain ⟨⟨r2, q2⟩, -, h⟩ := Outcome.bind_eq_ret.1 h
      cases r2 with
      | none => simp at h
      | some d2 =>
        cases hd : dataPaddr n.buffer sqe with
        | none => simp [hd] at h
        | some p =>
          by_cases hlt : d1.toNat < 128
          · simp only [hd, dif_pos hlt] at h
            obtain ⟨-, rfl⟩ := Prod.mk.inj (Outcome.ret.inj h)
            exact ⟨q, _, rfl, setQueue_queue _ _ _⟩
          · simp [hd, hlt] at h

end VirtIONet

open VirtIONet

namespace NetState

theorem submitAll_run {sqes : List Sqe} {s : NetState} {n : VirtIONet}
    (hp : s.phase = .submitting sqes) (hn : submitAll sqes s.net = .ret n) :
    ∃ t, NetBusy s t ∧ t.net = n ∧ t.phase = .submitting [] := by
  have hbusy : s.phase ≠ .idle := by
    rw [hp]
    exact nofun
  induction sqes generalizing s with
  | nil => exact ⟨s, .refl, Outcome.ret.inj hn, hp⟩
  | cons sqe sqes ih =>
    obtain ⟨⟨r, c⟩, hr, hn⟩ := Outcome.bind_eq_ret.1 hn
    cases r with
    | ok u =>
      obtain ⟨i, hi⟩ : ∃ i, netDir sqe.opcode = some i := by
        by_contra hne
        rw [submitSqe_none (Option.eq_none_iff_forall_ne_some.2 fun i hi => hne ⟨i, hi⟩)] at hr
        simp at hr
      obtain ⟨q, q', hq, hq'⟩ := queue_of_submit (submitSqe_eq hi ▸ hr)
      obtain ⟨t, ht, htn, htp⟩ := ih (s := { s with
        net := c
        phase := .submitting sqes
        traffic := s.setTraffic i ((s.traffic i).submit (q'.readAvail q.mem.availIdx))
        handed := s.handed + 1
        accepted := Function.update s.accepted i (s.accepted i ++ [s.handed])
        calls := s.calls ++ newCalls s.handed s.net.completions c.completions }) rfl hn nofun
      exact ⟨t, .head ⟨.accept s sqe sqes i c q q' hp hr hi hq hq', hbusy⟩ ht, htn, htp⟩
    | error e =>
      obtain ⟨t, ht, htn, htp⟩ := ih (s := { s with
        net := c.complete sqe.userData (-1)
        phase := .submitting sqes
        handed := s.handed + 1
        calls := s.calls ++
          newCalls s.handed s.net.completions (c.complete sqe.userData (-1)).completions }) rfl hn
            nofun
      exact ⟨t, .head ⟨.reject s sqe sqes e c hp hr, hbusy⟩ ht, htn, htp⟩

theorem popCompletionsLoop_run {i : NetDir} {k : ℕ} {s : NetState} {n : VirtIONet}
    (hp : s.phase = .popping i) (hn : popCompletionsLoop i k s.net = .ret n) :
    ∃ t, NetReach s t ∧ t.net = n ∧ t.phase = if i = .rx then .popping .tx else .idle := by
  induction k generalizing s with
  | zero => simp [popCompletionsLoop] at hn
  | succ k ih =>
    obtain ⟨⟨more, c⟩, hm, hn⟩ := Outcome.bind_eq_ret.1 hn
    cases more with
    | true =>
      obtain ⟨t, ht, htn, htp⟩ := ih (s := { s with
        net := c
        traffic := s.setTraffic i (s.traffic i).pop
        calls := s.calls ++ newCalls (s.answered i) s.net.completions c.completions }) hp hn
      exact ⟨t, .head (.pop s i c hp hm) ht, htn, htp⟩
    | false => exact ⟨_, .single (.popDone s i c hp hm), Outcome.ret.inj hn, rfl⟩

/-- `handle_ring` is a call of the system. -/
theorem handleRing_call {s : NetState} {n : VirtIONet} {server : IoUringServer}
    (hp : s.phase = .idle) (hs : s.net.ringServer = some server)
    (hn : s.net.handleRing = .ret n) : ∃ t, NetRingCall s server t ∧ t.net = n := by
  unfold handleRing at hn
  simp only [hs] at hn
  obtain ⟨t, ht, htn, htp⟩ := submitAll_run (s := s.entered server) rfl hn
  have hbusy : t.phase ≠ .idle := by
    rw [htp]
    exact nofun
  exact ⟨_, ⟨hp, hs, ht.tail ⟨.submitted t htp, hbusy⟩, rfl⟩, htn⟩

/-- `handle_ring` is a run of the system. -/
theorem handleRing_run {s : NetState} {n : VirtIONet} (hp : s.phase = .idle)
    (hn : s.net.handleRing = .ret n) : ∃ t, NetReach s t ∧ t.net = n ∧ t.phase = .idle := by
  cases hs : s.net.ringServer with
  | none => exact ⟨s, .refl, by simpa [handleRing, hs] using hn, hp⟩
  | some server =>
    obtain ⟨t, ht, htn⟩ := handleRing_call hp hs hn
    exact ⟨t, ht.reach, htn, ht.returned⟩

/-- `handle_irq` is a run of the system. -/
theorem handleIrq_run {s : NetState} {n : VirtIONet} (hp : s.phase = .idle)
    (hn : s.net.handleIrq = .ret n) : ∃ t, NetReach s t ∧ t.net = n ∧ t.phase = .idle := by
  unfold handleIrq at hn
  have hirq := NetStep.irq s hp
  by_cases hgo : s.net.transport.interruptAck.1 = true ∧ s.net.ringServer.isSome = true
  · obtain ⟨hpend, hsome⟩ := hgo
    obtain ⟨server, hs⟩ := Option.isSome_iff_exists.1 hsome
    rw [if_pos ⟨hpend, hsome⟩] at hirq
    have hn : (do
        let n ← popCompletions { s.net with transport := s.net.transport.interruptAck.2 } .rx
        n.popCompletions .tx) = Outcome.ret n := by
      simpa only [hpend, hs, if_true] using hn
    obtain ⟨c, hc, hn⟩ := Outcome.bind_eq_ret.1 hn
    obtain ⟨t, ht, htn, htp⟩ := popCompletionsLoop_run (s := { s with
      net := { s.net with transport := s.net.transport.interruptAck.2 }
      phase := .popping .rx }) rfl hc
    subst htn
    obtain ⟨u, hu, hun, hup⟩ := popCompletionsLoop_run (i := .tx) (htp.trans (if_pos rfl)) hn
    exact ⟨u, (Relation.ReflTransGen.head hirq ht).trans hu, hun, hup⟩
  · rw [if_neg hgo] at hirq
    refine ⟨_, .single hirq, ?_, rfl⟩
    cases hpend : s.net.transport.interruptAck.1 with
    | false =>
      simp only [hpend] at hn
      exact Outcome.ret.inj hn
    | true =>
      cases hs : s.net.ringServer with
      | none =>
        simp only [hpend, hs, if_true] at hn
        rw [← hs] at hn
        exact Outcome.ret.inj hn
      | some server => exact absurd ⟨hpend, by simp [hs]⟩ hgo

end NetState

end GlendaDrivers
