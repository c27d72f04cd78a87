import GlendaDrivers.Virtio.BlockInv
import GlendaDrivers.Virtio.Ledger

/-!
# The block driver, its client and a conforming device

The driver's two entry points are split into their single steps (fetch the requests, submit
one request, pop one entry), so that the client and the device can move between any two of
them.  A conforming device reads every available head, writes the status byte of its chain,
and publishes it once.

* `BlkState`: the driver, where it is in its call, the traffic on its queue, and the history;
* `BlkStep`: one step of the driver, the client or the device;
* `BlkRingCall`: a call of `handle_ring`;
* `handleRing_call`, `handleRing_run`, `handleIrq_run`: the entry points of the source are runs of
  these steps.

The history numbers the requests in the order in which they were fetched.  A completion is
attributed to a request without looking at the driver's own tables: a completion posted when
a used entry is popped belongs to the request whose head the device published in that entry.
-/

namespace GlendaDrivers

open VirtQueue

/-- Where the driver is in `handle_ring` or `handle_irq`. -/
inductive BlkPhase
  | idle
  /-- `handle_ring`, with the fetched requests that are still to be submitted. -/
  | submitting (todo : List Sqe)
  /-- The loop of `pop_completions`. -/
  | popping

/-- The whole system. -/
structure BlkState where
  blk : VirtIOBlk
  phase : BlkPhase
  traffic : Traffic
  /-- The status byte the device wrote for the head it read at a position. -/
  answers : ℕ → Option UInt8
  /-- The requests fetched so far. -/
  fetched : List Sqe
  /-- How many of them were passed to `submit_virtio_request`. -/
  handed : ℕ
  /-- The number of the request of each submitted head. -/
  accepted : List ℕ
  /-- The calls of `complete`, each with the number of its request. -/
  calls : List (ℕ × UInt64 × Int32)

/-- The completions a driver has posted. -/
def VirtIOBlk.completions (b : VirtIOBlk) : List (UInt64 × Int32) := postedTo b.ringServer

namespace BlkState

/-- The system when `init` has returned. -/
def start (b : VirtIOBlk) : BlkState where
  blk := b
  phase := .idle
  traffic := .init
  answers _ := none
  fetched := []
  handed := 0
  accepted := []
  calls := []

/-- The number of the request that the next used entry answers.  A used entry that answers no
request gets a number that no request has. -/
def answered (s : BlkState) : ℕ :=
  ((s.traffic.published[s.traffic.pops]?).bind fun p => s.accepted[p.1]?).getD s.fetched.length

end BlkState

/-- One step of the system. -/
inductive BlkStep : BlkState → BlkState → Prop
  /-- The client queues a request. -/
  | client (s : BlkState) (server : IoUringServer) (sqe : Sqe)
      (hs : s.blk.ringServer = some server) :
      BlkStep s { s with blk := { s.blk with ringServer := some (server.push sqe) } }
  /-- A shared buffer is registered. -/
  | setup (s : BlkState) (vaddr paddr size : UInt64) (hp : s.phase = .idle) :
      BlkStep s { s with blk := s.blk.setupShm vaddr paddr size }
  /-- `handle_ring` is entered and fetches up to 16 requests. -/
  | fetch (s : BlkState) (server : IoUringServer) (hp : s.phase = .idle)
      (hs : s.blk.ringServer = some server) :
      BlkStep s { s with
        blk := { s.blk with ringServer := some (server.fetch 16).2 }
        phase := if (server.fetch 16).1 = [] then .idle else .submitting (server.fetch 16).1
        fetched := s.fetched ++ (server.fetch 16).1 }
  /-- A request is submitted. -/
  | accept (s : BlkState) (sqe : Sqe) (todo : List Sqe) (b : VirtIOBlk) (q q' : VirtQueue)
      (hp : s.phase = .submitting (sqe :: todo))
      (hb : s.blk.submitVirtioRequest sqe = .ret (.ok (), b))
      (hq : s.blk.queue = some q) (hq' : b.queue = some q') :
      BlkStep s { s with
        blk := b
        phase := .submitting todo
        traffic := s.traffic.submit (q'.readAvail q.mem.availIdx)
        handed := s.handed + 1
        accepted := s.accepted ++ [s.handed]
        calls := s.calls ++ newCalls s.handed s.blk.completions b.completions }
  /-- A request is rejected. -/
  | reject (s : BlkState) (sqe : Sqe) (todo : List Sqe) (e : Error) (b : VirtIOBlk)
      (hp : s.phase = .submitting (sqe :: todo))
      (hb : s.blk.submitVirtioRequest sqe = .ret (.error e, b)) :
      BlkStep s { s with
        blk := b.complete sqe.userData (-1)
        phase := .submitting todo
        handed := s.handed + 1
        calls := s.calls ++
          newCalls s.handed s.blk.completions (b.complete sqe.userData (-1)).completions }
  /-- All fetched requests are submitted; `handle_ring` goes on to `pop_completions`. -/
  | submitted (s : BlkState) (hp : s.phase = .submitting []) :
      BlkStep s { s with phase := .popping }
  /-- `handle_irq` is entered. -/
  | irq (s : BlkState) (hp : s.phase = .idle) :
      BlkStep s { s with
        blk := { s.blk with transport := s.blk.transport.interruptAck.2 }
        phase := if s.blk.transport.interruptAck.1 then .popping else .idle }
  /-- One entry is popped. -/
  | pop (s : BlkState) (b : VirtIOBlk) (hp : s.phase = .popping)
      (hb : s.blk.popCompletion = .ret (true, b)) :
      BlkStep s { s with
        blk := b
        traffic := s.traffic.pop
        calls := s.calls ++ newCalls s.answered s.blk.completions b.completions }
  /-- No entry is left, and the call returns. -/
  | popDone (s : BlkState) (b : VirtIOBlk) (hp : s.phase = .popping)
      (hb : s.blk.popCompletion = .ret (false, b)) :
      BlkStep s { s with blk := b, phase := .idle }
  /-- The device sets bits of InterruptStatus. -/
  | raise (s : BlkState) (v : UInt32) :
      BlkStep s { s with blk := { s.blk with transport :=
        { s.blk.transport with interruptStatus := s.blk.transport.interruptStatus ||| v } } }
  /-- The device reads the next head. -/
  | take (s : BlkState) (q : VirtQueue) (hq : s.blk.queue = some q)
      (hne : s.traffic.devAvail ≠ q.mem.availIdx) :
      BlkStep s { s with traffic := s.traffic.take q }
  /-- The device writes the status byte of a chain, the last descriptor of the chain. -/
  | answer (s : BlkState) (q : VirtQueue) (pos : ℕ) (head : UInt16) (status : UInt8)
      (hq : s.blk.queue = some q) (hhead : s.traffic.taken[pos]? = some head)
      (hnew : s.answers pos = none) :
      BlkStep s { s with
        blk := s.blk.deviceWrite (q.mem.desc (chainEnd q.mem.desc q.num.toNat head)).addr status
        answers := Function.update s.answers pos (some status) }
  /-- The device publishes a chain whose status byte it wrote. -/
  | publish (s : BlkState) (q : VirtQueue) (pos : ℕ) (elem : UsedElem)
      (hq : s.blk.queue = some q) (hc : s.traffic.CanPublish pos elem)
      (ha : s.answers pos ≠ none) :
      BlkStep s { s with
        blk := { s.blk with queue := some (q.publishUsed elem) }
        traffic := s.traffic.publish pos elem }

/-- A state that can be reached from `s`. -/
abbrev BlkReach : BlkState → BlkState → Prop := Relation.ReflTransGen BlkStep

/-- A state that can be reached from `s` while a call of the driver goes on. -/
abbrev BlkBusy : BlkState → BlkState → Prop :=
  Relation.ReflTransGen fun s t => BlkStep s t ∧ s.phase ≠ .idle

theorem BlkBusy.reach {s t : BlkState} (h : BlkBusy s t) : BlkReach s t :=
  Relation.ReflTransGen.mono (show (fun s t => BlkStep s t ∧ s.phase ≠ .idle) ≤ BlkStep from
    fun _ _ hstep => hstep.1) _ _ h

/-- `handle_ring` has fetched its requests. -/
def BlkState.entered (s : BlkState) (server : IoUringServer) : BlkState :=
  { s with
    blk := { s.blk with ringServer := some (server.fetch 16).2 }
    phase := if (server.fetch 16).1 = [] then .idle else .submitting (server.fetch 16).1
    fetched := s.fetched ++ (server.fetch 16).1 }

/-- `handle_ring` is entered in `s` with the ring server `server`, and returns in `t`. -/
structure BlkRingCall (s : BlkState) (server : IoUringServer) (t : BlkState) : Prop where
  idle : s.phase = .idle
  installed : s.blk.ringServer = some server
  busy : BlkBusy (s.entered server) t
  returned : t.phase = .idle

theorem BlkRingCall.reach {s t : BlkState} {server : IoUringServer} (h : BlkRingCall s server t) :
    BlkReach s t := .head (.fetch s server h.idle h.installed) h.busy.reach

/-! ### The entry points of the source as runs -/

namespace VirtIOBlk

variable {b b' : VirtIOBlk} {sqe : Sqe}

/-- A request can only be submitted to a queue. -/
theorem queue_of_submit (h : b.submitVirtioRequest sqe = .ret (.ok (), b')) :
    ∃ q q', b.queue = some q ∧ b'.queue = some q' := by
  rcases submit_cases b sqe with ⟨-, hp⟩ | ⟨r, c, hr, ⟨⟨e, rfl⟩, -⟩⟩ | ⟨q, i, type, w, p, ha⟩
  · simp [hp] at h
  · simp [hr] at h
  · rw [ha.submit, submitChain] at h
    obtain ⟨⟨r1, q1⟩, -, h⟩ := Outcome.bind_eq_ret.1 h
    cases r1 with
    | none => simp at h
    | some d1 =>
      obtain ⟨⟨r2, q2⟩, -, h⟩ := Outcome.bind_eq_ret.1 h
      cases r2 with
      | none => simp at h
      | some d2 =>
        obtain ⟨⟨r3, q3⟩, -, h⟩ := Outcome.bind_eq_ret.1 h
        cases r3 with
        | none => simp at h
        | some d3 =>
          obtain ⟨-, rfl⟩ := Prod.mk.inj (Outcome.ret.inj h)
          exact ⟨q, _, ha.queue, rfl⟩

end VirtIOBlk

open VirtIOBlk

theorem submitAll_run {sqes : List Sqe} {s : BlkState} {b : VirtIOBlk}
    (hp : s.phase = .submitting sqes) (hb : submitAll sqes s.blk = .ret b) :
    ∃ t, BlkBusy s t ∧ t.blk = b ∧ t.phase = .submitting [] := by
  have hbusy : s.phase ≠ .idle := by
    rw [hp]
    exact nofun
  induction sqes generalizing s with
  | nil => exact ⟨s, .refl, Outcome.ret.inj hb, hp⟩
  | cons sqe sqes ih =>
    obtain ⟨⟨r, c⟩, hr, hb⟩ := Outcome.bind_eq_ret.1 hb
    cases r with
    | ok u =>
      obtain ⟨q, q', hq, hq'⟩ := queue_of_submit hr
      obtain ⟨t, ht, htb, htp⟩ := ih (s := { s with
        blk := c
        phase := .submitting sqes
        traffic := s.traffic.submit (q'.readAvail q.mem.availIdx)
        handed := s.handed + 1
        accepted := s.accepted ++ [s.handed]
        calls := s.calls ++ newCalls s.handed s.blk.completions c.completions }) rfl hb nofun
      exact ⟨t, .head ⟨.accept s sqe sqes c q q' hp hr hq hq', hbusy⟩ ht, htb, htp⟩
    | error e =>
      obtain ⟨t, ht, htb, htp⟩ := ih (s := { s with
        blk := c.complete sqe.userData (-1)
        phase := .submitting sqes
        handed := s.handed + 1
        calls := s.calls ++
          newCalls s.handed s.blk.completions (c.complete sqe.userData (-1)).completions }) rfl hb
            nofun
      exact ⟨t, .head ⟨.reject s sqe sqes e c hp hr, hbusy⟩ ht, htb, htp⟩

theorem popCompletionsLoop_run {n : ℕ} {s : BlkState} {b : VirtIOBlk}
    (hp : s.phase = .popping) (hb : popCompletionsLoop n s.blk = .ret b) :
    ∃ t, BlkBusy s t ∧ t.blk = b ∧ t.phase = .idle := by
  have hbusy : s.phase ≠ .idle := by
    rw [hp]
    exact nofun
  induction n generalizing s with
  | zero => simp [popCompletionsLoop] at hb
  | succ n ih =>
    obtain ⟨⟨more, c⟩, hm, hb⟩ := Outcome.bind_eq_ret.1 hb
    cases more with
    | true =>
      obtain ⟨t, ht, htb, htp⟩ := ih (s := { s with
        blk := c
        traffic := s.traffic.pop
        calls := s.calls ++ newCalls s.answered s.blk.completions c.completions }) hp hb hbusy
      exact ⟨t, .head ⟨.pop s c hp hm, hbusy⟩ ht, htb, htp⟩
    | false =>
      exact ⟨_, .single ⟨.popDone s c hp hm, hbusy⟩, Outcome.ret.inj hb, rfl⟩

/-- `handle_ring` is a call of the system. -/
theorem handleRing_call {s : BlkState} {b : VirtIOBlk} {server : IoUringServer}
    (hp : s.phase = .idle) (hs : s.blk.ringServer = some server)
    (hb : s.blk.handleRing = .ret b) : ∃ t, BlkRingCall s server t ∧ t.blk = b := by
  simp only [handleRing, hs] at hb
  obtain ⟨c, hc, hb⟩ := Outcome.bind_eq_ret.1 hb
  by_cases he : (server.fetch 16).1 = []
  · have hphase : (s.entered server).phase = .idle := if_pos he
    rw [he] at hc hb
    exact ⟨_, ⟨hp, hs, .refl, hphase⟩, (Outcome.ret.inj hc).trans (by simpa using hb)⟩
  · have hphase : (s.entered server).phase = .submitting (server.fetch 16).1 := if_neg he
    rw [if_pos he] at hb
    obtain ⟨t, ht, htb, htp⟩ := submitAll_run hphase hc
    obtain ⟨u, hu, hub, hup⟩ :=
      popCompletionsLoop_run (s := { t with phase := .popping }) rfl (htb ▸ hb)
    have hbusy : t.phase ≠ .idle := by
      rw [htp]
      exact nofun
    exact ⟨u, ⟨hp, hs, (ht.tail ⟨.submitted t htp, hbusy⟩).trans hu, hup⟩, hub⟩

/-- `handle_ring` is a run of the system. -/
theorem handleRing_run {s : BlkState} {b : VirtIOBlk} (hp : s.phase = .idle)
    (hb : s.blk.handleRing = .ret b) : ∃ t, BlkReach s t ∧ t.blk = b ∧ t.phase = .idle := by
  cases hs : s.blk.ringServer with
  | none => exact ⟨s, .refl, by simpa [handleRing, hs] using hb, hp⟩
  | some server =>
    obtain ⟨t, ht, htb⟩ := handleRing_call hp hs hb
    exact ⟨t, ht.reach, htb, ht.returned⟩

/-- `handle_irq` is a run of the system. -/
theorem handleIrq_run {s : BlkState} {b : VirtIOBlk} (hp : s.phase = .idle)
    (hb : s.blk.handleIrq = .ret b) : ∃ t, BlkReach s t ∧ t.blk = b ∧ t.phase = .idle := by
  have hirq := BlkStep.irq s hp
  simp only [handleIrq] at hb
  cases hpend : s.blk.transport.interruptAck.1 with
  | false =>
    rw [hpend] at hb hirq
    exact ⟨_, .single hirq, Outcome.ret.inj hb, rfl⟩
  | true =>
    rw [hpend] at hb hirq
    obtain ⟨t, ht, htb, htp⟩ := popCompletionsLoop_run (s := { s with
      blk := { s.blk with transport := s.blk.transport.interruptAck.2 }
      phase := .popping }) rfl hb
    exact ⟨t, .head hirq ht.reach, htb, htp⟩

end GlendaDrivers
