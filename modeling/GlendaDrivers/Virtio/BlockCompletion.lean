import GlendaDrivers.Virtio.BlockRuns

/-!
# Every request of the block driver is completed once

* `BlkState.Fate`: what has become of a fetched request;
* `block_exactly_once`: the fates of all requests in every reachable state.
-/

namespace GlendaDrivers

open VirtQueue VirtIOBlk

namespace BlkState

/-- Request `n` is in the queue: it has entry `i` of `pending_info`, and a chain of three
descriptors that point to the header and the status byte of that entry. -/
structure Pending (s : BlkState) (n : ℕ) (sqe : Sqe) (i : Fin 64) (d1 d2 d3 : UInt16) :
    Prop where
  position : ∃ pos, s.accepted[pos]? = some n ∧ pos ∉ s.traffic.popped ∧
    s.traffic.submitted[pos]? = some d1
  entry : s.blk.pendingInfo i = some (sqe.userData, d1)
  chain : ∃ q isWrite paddr len, s.blk.queue = some q ∧
    IsChain q.mem.desc s.blk.dmaPaddr i isWrite paddr len d1 d2 d3

/-- What has become of the fetched request `n`. -/
inductive Fate (s : BlkState) (n : ℕ) (sqe : Sqe) : Prop
  /-- It was fetched, and `submit_virtio_request` was not called for it yet. -/
  | waiting (hn : s.handed ≤ n) (hcalls : callsOf s.calls n = [])
  /-- Its submission failed. -/
  | rejected (hn : n < s.handed) (hacc : n ∉ s.accepted)
      (hcalls : callsOf s.calls n = [(sqe.userData, -1)])
  /-- It is in the queue. -/
  | pending (i : Fin 64) (d1 d2 d3 : UInt16) (h : s.Pending n sqe i d1 d2 d3)
      (hcalls : callsOf s.calls n = [])
  /-- The device wrote `st` in its status byte, and its used entry was popped. -/
  | completed (pos : ℕ) (st : UInt8) (hacc : s.accepted[pos]? = some n)
      (hpos : pos ∈ s.traffic.popped) (hst : s.answers pos = some st)
      (hcalls : callsOf s.calls n = [(sqe.userData, if st = 0 then 0 else -1)])

namespace Inv

variable {s : BlkState} {blkSize : UInt32} {before : List (UInt64 × Int32)} {q : VirtQueue}
  {out : List Request} {held : List UInt16} {slot : ℕ → Fin 64} {userData : ℕ → UInt64}
  {sqe sqe' : Sqe} {n m : ℕ} {i j : Fin 64} {d1 d2 d3 e1 e2 e3 : UInt16}

/-- An outstanding request is pending. -/
theorem pending_of_mem (h : s.Inv blkSize before q out held slot userData) {r : Request}
    (hr : r ∈ out) : ∃ n sqe d1 d2 d3, s.accepted[r.pos]? = some n ∧ s.fetched[n]? = some sqe ∧
      r.chain = [d1, d2, d3] ∧ s.Pending n sqe (slot r.pos) d1 d2 d3 := by
  have hlt : r.pos < s.accepted.length := h.length ▸ h.blk.traffic.pos_lt hr
  have hacc : s.accepted[r.pos]? = some s.accepted[r.pos] := List.getElem?_eq_getElem hlt
  have hget := List.getElem?_eq_getElem
    ((h.ledger.lt _ (List.getElem_mem hlt)).trans_le h.ledger.handed_le)
  obtain ⟨d1, d2, d3, w, p, len, hc, hchain⟩ := h.blk.chain r hr
  obtain ⟨head, hhead, he⟩ := h.blk.pending.entry r hr
  obtain rfl : d1 = head := by simpa [hc] using hhead
  have hsub := h.blk.traffic.head r hr
  rw [hhead] at hsub
  have hnp := ((h.blk.traffic.mem_out r.pos).1 (List.mem_map_of_mem hr)).2
  rw [h.named r.pos _ _ hacc hget] at he
  exact ⟨_, _, d1, d2, d3, hacc, hget, hc,
    ⟨r.pos, hacc, hnp, hsub.symm⟩, he, q, w, p, len, h.blk.queue, hchain⟩

/-- A pending request is outstanding. -/
theorem mem_of_pending (h : s.Inv blkSize before q out held slot userData)
    (hp : s.Pending n sqe i d1 d2 d3) :
    ∃ r ∈ out, slot r.pos = i ∧ s.accepted[r.pos]? = some n ∧ r.chain.head? = some d1 := by
  obtain ⟨pos, hacc, hnp, hsub⟩ := hp.position
  obtain ⟨r, hr, rfl⟩ := List.mem_map.1 ((h.blk.traffic.mem_out pos).2
    ⟨(List.getElem?_eq_some_iff.1 hsub).1, hnp⟩)
  obtain ⟨r', hr', hslot, -, hhead⟩ := h.blk.pending.eq_some hp.entry
  have hhead' : r.chain.head? = some d1 := by rw [h.blk.traffic.head r hr, hsub]
  obtain rfl := h.blk.traffic.eq_of_mem_chain hr hr'
    (List.mem_of_mem_head? (by rw [hhead']; rfl)) (List.mem_of_mem_head? (by rw [hhead]; rfl))
  exact ⟨r, hr, hslot, hacc, hhead⟩

/-- Two pending requests share neither the slot nor the head. -/
theorem pending_ne (h : s.Inv blkSize before q out held slot userData)
    (hp : s.Pending n sqe i d1 d2 d3) (hp' : s.Pending m sqe' j e1 e2 e3) (hnm : n ≠ m) :
    i ≠ j ∧ d1 ≠ e1 := by
  obtain ⟨r, hr, hslot, hacc, hhead⟩ := h.mem_of_pending hp
  obtain ⟨r', hr', hslot', hacc', hhead'⟩ := h.mem_of_pending hp'
  have hne : r ≠ r' := by
    rintro rfl
    exact hnm (Option.some.inj (hacc.symm.trans hacc'))
  refine ⟨fun hij => ?_, fun hd => ?_⟩
  · exact hne (h.blk.pending.inj r hr r' hr' (by rw [hslot, hslot', hij]))
  · exact hne (h.blk.traffic.eq_of_mem_chain hr hr'
      (List.mem_of_mem_head? (by rw [hhead]; rfl))
      (List.mem_of_mem_head? (by rw [hhead', hd]; rfl)))

/-- Every fetched request has a fate. -/
theorem fate (h : s.Inv blkSize before q out held slot userData)
    (hn : s.fetched[n]? = some sqe) : s.Fate n sqe := by
  rcases Nat.lt_or_ge n s.handed with hlt | hge
  swap
  · exact .waiting hge (h.ledger.waiting hge)
  by_cases hacc : n ∈ s.accepted
  swap
  · exact .rejected hlt hacc (h.ledger.rejected n sqe hn hlt hacc)
  obtain ⟨pos, hpos⟩ := List.getElem?_of_mem hacc
  by_cases hpop : pos ∈ s.traffic.popped
  · obtain ⟨v, hv, hcalls⟩ := h.ledger.done pos n sqe hpos hn hpop
    obtain ⟨st, hst, rfl⟩ := Option.map_eq_some_iff.1 hv
    exact .completed pos st hpos hpop hst hcalls
  · have hlt := (List.getElem?_eq_some_iff.1 hpos).1
    rw [h.length] at hlt
    obtain ⟨r, hr, rfl⟩ := List.mem_map.1 ((h.blk.traffic.mem_out pos).2 ⟨hlt, hpop⟩)
    obtain ⟨n', sqe', d1, d2, d3, hacc', hget, -, hp⟩ := h.pending_of_mem hr
    obtain rfl := Option.some.inj (hpos.symm.trans hacc')
    obtain rfl := Option.some.inj (hn.symm.trans hget)
    exact .pending _ d1 d2 d3 hp (h.ledger.pending _ n hpos hpop)

/-- A pop that takes an entry completes the pending request that the entry answers, and frees
its three descriptors. -/
theorem completes (h : s.Inv blkSize before q out held slot userData) {b : VirtIOBlk}
    (hb : s.blk.popCompletion = .ret (true, b)) :
    ∃ sqe i d1 d2 d3 q', s.fetched[s.answered]? = some sqe ∧
      s.Pending s.answered sqe i d1 d2 d3 ∧ b.queue = some q' ∧
      q'.freeIds = [d3, d2, d1] ++ q.freeIds ∧
      b.pendingInfo = Function.update s.blk.pendingInfo i none := by
  have hlt := h.blk.pops_lt hb
  obtain ⟨r, hr, d1, d2, d3, st, q', hpos, hc, -, hpop, hids, -⟩ := h.blk.pop_some hlt
  obtain rfl : s.blk.completed q' (slot r.pos) (userData r.pos) st = b :=
    (Prod.mk.inj (Outcome.ret.inj (hpop.symm.trans hb))).2
  obtain ⟨n, sqe, e1, e2, e3, hacc, hget, hc', hp⟩ := h.pending_of_mem hr
  obtain ⟨rfl, rfl, rfl⟩ : d1 = e1 ∧ d2 = e2 ∧ d3 = e3 := by simpa [hc] using hc'
  have hanswered : s.answered = n := by
    simp [answered, List.getElem?_eq_getElem hlt, ← hpos, hacc]
  rw [hanswered]
  exact ⟨sqe, slot r.pos, d1, d2, d3, q', hget, hp, rfl, hids, rfl⟩

/-- With a block size that is not zero no call panics. -/
theorem submit_returns (h : s.Inv blkSize before q out held slot userData) (hz : blkSize ≠ 0)
    (sqe : Sqe) : (s.blk.submitVirtioRequest sqe).Returns := by
  rcases submit_cases s.blk sqe with ⟨h0, -⟩ | ⟨r, c, hr, -⟩ | ⟨q₀, i, type, w, p, ha⟩
  · exact absurd (h.blkSize.symm.trans h0) hz
  · exact ⟨_, hr⟩
  · obtain rfl : q = q₀ := Option.some.inj (h.blk.queue.symm.trans ha.queue)
    rcases Nat.lt_or_ge q.freeIds.length 3 with hlt | hge
    · obtain ⟨q₁, hsub, -⟩ := h.blk.submit_short ha hlt
      exact ⟨_, hsub⟩
    · obtain ⟨d1, d2, d3, q₁, hsub, -⟩ := h.blk.submit_ok ha hge
      exact ⟨_, hsub⟩

theorem pop_returns (h : s.Inv blkSize before q out held slot userData) :
    s.blk.popCompletion.Returns := by
  rcases Nat.lt_or_ge s.traffic.pops s.traffic.published.length with hlt | hge
  · obtain ⟨r, hr, d1, d2, d3, st, q', -, -, -, hpop, -⟩ := h.blk.pop_some hlt
    exact ⟨_, hpop⟩
  · exact ⟨_, h.blk.pop_none (le_antisymm h.blk.traffic.pops_le hge)⟩

end Inv

end BlkState

/-- **Exactly-once completion.**  After every run of the driver's two entry points and a
conforming device, in any interleaving: every fetched request waits or is pending without a
completion, or it has received exactly one, with its own user data, and with result 0 iff the
device wrote 0 in its status byte, and -1 if its submission failed.  All completions are for
fetched requests, the entries of `pending_info` are the pending requests, two of which share
neither slot nor head, and popping an entry frees the chain of the request that it answers and
nothing else.  No call panics. -/
theorem block_exactly_once {b : VirtIOBlk} (hb : b.Started) (hz : b.blkSize ≠ 0) {s : BlkState}
    (hs : BlkReach (.start b) s) :
    (∀ n sqe, s.fetched[n]? = some sqe → s.Fate n sqe) ∧
    ((∀ c ∈ s.calls, c.1 < s.fetched.length) ∧
      s.blk.completions = b.completions ++ s.calls.map Prod.snd) ∧
    (∀ i info, s.blk.pendingInfo i = some info → ∃ n sqe d2 d3, s.fetched[n]? = some sqe ∧
      s.Pending n sqe i info.2 d2 d3) ∧
    (∀ n sqe i d1 d2 d3 m sqe' j e1 e2 e3, s.Pending n sqe i d1 d2 d3 →
      s.Pending m sqe' j e1 e2 e3 → n ≠ m → i ≠ j ∧ d1 ≠ e1) ∧
    (∀ b', s.blk.popCompletion = .ret (true, b') → ∃ sqe i d1 d2 d3 q q',
      s.fetched[s.answered]? = some sqe ∧ s.Pending s.answered sqe i d1 d2 d3 ∧
      s.blk.queue = some q ∧ b'.queue = some q' ∧ q'.freeIds = [d3, d2, d1] ++ q.freeIds ∧
      b'.pendingInfo = Function.update s.blk.pendingInfo i none) ∧
    (∀ sqe, (s.blk.submitVirtioRequest sqe).Returns) ∧ s.blk.popCompletion.Returns := by
  obtain ⟨q, out, held, slot, userData, h⟩ :=
    (BlkState.Inv.start hb (fun _ => 0) (fun _ => 0)).run hs
  refine ⟨fun n sqe hn => h.fate hn, ⟨fun c hc => ?_, h.posted⟩, fun i info hi => ?_, ?_,
    fun b' hb' => ?_, h.submit_returns hz, h.pop_returns⟩
  · exact (h.ledger.calls_lt c hc).trans_le h.ledger.handed_le
  · obtain ⟨r, hr, rfl, -, hhead⟩ := h.blk.pending.eq_some hi
    obtain ⟨n, sqe, d1, d2, d3, -, hget, hc, hp⟩ := h.pending_of_mem hr
    obtain rfl : d1 = info.2 := by simpa [hc] using hhead
    exact ⟨n, sqe, d2, d3, hget, hp⟩
  · intro n sqe i d1 d2 d3 m sqe' j e1 e2 e3 hp hp' hnm
    exact h.pending_ne hp hp' hnm
  · obtain ⟨sqe, i, d1, d2, d3, q', hget, hp, hq', hids, hi⟩ := h.completes hb'
    exact ⟨sqe, i, d1, d2, d3, q, q', hget, hp, h.blk.queue, hq', hids, hi⟩

/-! ### One request -/

/-- The device answers the first request, while the driver waits. -/
theorem BlkState.Loaded.exists_published {k : ℕ} {s : BlkState} (h : s.Loaded (k + 1)) :
    ∃ t, Relation.ReflTransGen (fun s t => BlkStep s t ∧ t.phase = s.phase) s t ∧
      t.phase = .idle ∧ t.fetched = s.fetched ∧ t.blk.transport = s.blk.transport ∧
      t.traffic.pops = 0 ∧ t.traffic.published.length = 1 := by
  obtain ⟨q, out, slot, userData, hinv, hlen⟩ := h.inv
  have hq := hinv.blk.queue
  have hpops : s.traffic.pops = 0 := by
    simpa [h.published] using hinv.blk.traffic.pops_le
  have hne : s.traffic.devAvail ≠ q.mem.availIdx := by
    rw [ne_eq, hinv.blk.traffic.ring.devAvail_eq, h.taken]
    intro he
    have := hinv.blk.traffic.length
    rw [← he, hlen, hpops] at this
    simp at this
  -- the device reads the head, writes the status byte and publishes the head
  let head := q.readAvail s.traffic.devAvail
  let s₁ : BlkState := { s with traffic := s.traffic.take q }
  have h₁ : BlkStep s s₁ := .take s q hq hne
  have htaken : s₁.traffic.taken[0]? = some head := by
    show (s.traffic.taken ++ [_])[0]? = _
    simp [h.taken, head]
  let s₂ : BlkState := { s₁ with
    blk := s₁.blk.deviceWrite (q.mem.desc (chainEnd q.mem.desc q.num.toNat head)).addr 0
    answers := Function.update s₁.answers 0 (some 0) }
  have h₂ : BlkStep s₁ s₂ := .answer s₁ q 0 head 0 hq htaken (by
    show s.answers 0 = none
    rw [h.answers])
  let elem : UsedElem := ⟨head.toUInt32, 1⟩
  let s₃ : BlkState := { s₂ with
    blk := { s₂.blk with queue := some (q.publishUsed elem) }
    traffic := s₂.traffic.publish 0 elem }
  have hpub : s₂.traffic.published = [] := h.published
  have h₃ : BlkStep s₂ s₃ := .publish s₂ q 0 elem hq ⟨by simp [hpub], head, htaken, rfl⟩ (by
    simp [s₂])
  refine ⟨s₃, ((Relation.ReflTransGen.single ⟨h₁, rfl⟩).tail ⟨h₂, rfl⟩).tail ⟨h₃, rfl⟩, h.idle,
    rfl, rfl, hpops, ?_⟩
  show (s₂.traffic.published ++ [_]).length = 1
  rw [hpub]
  rfl

/-- One block read: the device answers it, and an interrupt completes it. -/
theorem block_exactly_once_read :
    ∃ s, BlkReach (.start (.initial 512)) s ∧ s.fetched = [readBlock] ∧ s.traffic.pops = 1 ∧
      s.Fate 0 readBlock ∧ s.blk.completions = s.calls.map Prod.snd := by
  obtain ⟨s, hs, h⟩ := BlkState.exists_loaded (show 1 ≤ 42 by decide)
  obtain ⟨t, ht, hidle, hfetched, -, hpops, hpub⟩ := h.exists_published
  have ht : BlkReach s t := Relation.ReflTransGen.mono
    (show (fun s t => BlkStep s t ∧ t.phase = s.phase) ≤ BlkStep from fun _ _ h => h.1) _ _ ht
  -- the device raises the interrupt, and the driver takes it
  let t₁ : BlkState := { t with blk := { t.blk with transport :=
    { t.blk.transport with interruptStatus := t.blk.transport.interruptStatus ||| 1 } } }
  have h₁ : BlkStep t t₁ := .raise t 1
  have hack : t₁.blk.transport.interruptAck.1 = true := by
    simp [t₁, Transport.interruptAck]
  have h₂ := BlkStep.irq t₁ hidle
  rw [if_pos hack] at h₂
  have hrun : BlkReach _ _ := (hs.trans (ht.tail h₁)).tail h₂
  obtain ⟨q, out, held, slot, userData, hinv⟩ :=
    (BlkState.Inv.start (started_initial 512) (fun _ => 0) (fun _ => 0)).run hrun
  obtain ⟨r, -, d1, d2, d3, st, q', -, -, -, hpop, -⟩ := hinv.blk.pop_some (by
    show t.traffic.pops < t.traffic.published.length
    rw [hpops, hpub]
    exact Nat.zero_lt_one)
  have hrun' := hrun.tail (.pop _ _ rfl hpop)
  have hmain := block_exactly_once (started_initial 512)
    (show (512 : UInt32) ≠ 0 by decide) hrun'
  have hfetched : t.fetched = [readBlock] := hfetched.trans h.fetched
  refine ⟨_, hrun', hfetched, ?_, hmain.1 0 readBlock ?_, hmain.2.1.2⟩
  · show t.traffic.pops + 1 = 1
    rw [hpops]
  · show t.fetched[0]? = some readBlock
    rw [hfetched]
    rfl

end GlendaDrivers
