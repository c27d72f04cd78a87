import GlendaDrivers.Virtio.BlockStore

/-!
# Requests of the block driver that are served

* `Quiet.exists_served`: an idle driver serves any request that fits on the disk;
* `block_read_written`: a client reads what it wrote.
-/

namespace GlendaDrivers

open VirtQueue VirtIOBlk BlockDisk

namespace StoreState

/-- The driver has nothing left to fetch, no shared buffer, and a device with a disk of `disk`
bytes. -/
structure Ready (s : StoreState) (disk : ℕ) : Prop where
  server : ∃ completions, s.sys.blk.ringServer = some ⟨[], completions⟩
  buffer : s.sys.blk.buffer = none
  base : s.sys.blk.dmaPaddr = 0
  length : s.disk.length = disk

/-- The driver waits with nothing in its queue. -/
structure Quiet (s : StoreState) (size : UInt32) (disk : ℕ) : Prop extends s.Ready disk where
  idle : s.sys.phase = .idle
  inv : ∃ before q slot userData, s.sys.Inv size before q [] [] slot userData

/-- The driver has submitted `sqe`, request `n`, and its device has not read it. -/
structure Asked (s : StoreState) (size : UInt32) (disk n : ℕ) (sqe : Sqe) : Prop
    extends s.Ready disk where
  phase : s.sys.phase = .submitting []
  inv : ∃ before q r slot userData, s.sys.Inv size before q [r] [] slot userData
  taken : s.sys.traffic.taken.length = s.sys.traffic.pops
  accepted : s.sys.accepted[s.sys.traffic.pops]? = some n
  fetched : s.sys.fetched[n]? = some sqe
  found : ∃ q head r, s.sys.blk.queue = some q ∧
    s.sys.traffic.submitted[s.sys.traffic.pops]? = some head ∧
      s.sys.blk.deviceRequest q head = r ∧ r.transfer = sqe.transfer 512 ∧ r.addr = sqe.addr ∧
        r.len = sqe.len

/-- The device has served `sqe`, request `n`, and the driver has not popped it. -/
structure Answered (s : StoreState) (size : UInt32) (disk n : ℕ) (sqe : Sqe) : Prop
    extends s.Ready disk where
  phase : s.sys.phase = .submitting []
  inv : ∃ before q r slot userData, s.sys.Inv size before q [r] [] slot userData
  published : s.sys.traffic.published.length = s.sys.traffic.pops + 1
  answered : s.sys.answers s.sys.traffic.pops = some virtioBlkSOk
  accepted : s.sys.accepted[s.sys.traffic.pops]? = some n
  fetched : s.sys.fetched[n]? = some sqe

theorem quiet_initial (size : UInt32) (disk : List UInt8) (mem : UInt64 → UInt8) :
    Quiet (.start (.initial size) disk mem) size disk.length where
  server := ⟨[], rfl⟩
  buffer := rfl
  base := rfl
  length := rfl
  idle := rfl
  inv := ⟨_, _, fun _ => 0, fun _ => 0, BlkState.Inv.start (started_initial size) _ _⟩

variable {s t : StoreState} {size : UInt32} {disk n : ℕ} {sqe : Sqe}

/-- A step of the driver that answers nothing. -/
theorem reach_move {u v : BlkState} (hs : s.sys = u) (h : BlkStep u v)
    (ha : v.answers = u.answers) : ∃ t, StoreStep s t ∧ t.sys = v ∧ t.disk = s.disk := by
  subst hs
  exact ⟨_, .move s v h ha, rfl, rfl⟩

/-- The client queues a request, and the driver submits it. -/
theorem Quiet.exists_asked (h : s.Quiet size disk) (hz : size ≠ 0) (hal : sqe.len % size = 0)
    (hm : sqe.Moving) :
    ∃ t, StoreReach s t ∧ t.Asked size disk s.sys.fetched.length sqe ∧
      t.sys.fetched = s.sys.fetched ++ [sqe] := by
  obtain ⟨completions, hserver⟩ := h.server
  obtain ⟨before, q, slot, userData, h₀⟩ := h.inv
  obtain ⟨⟨type, w⟩, htype⟩ : ∃ type, requestType sqe.opcode = some type := by
    rcases hm with hop | hop
    · exact ⟨_, congrArg requestType hop⟩
    · exact ⟨_, congrArg requestType hop⟩
  have hhanded : s.sys.handed = s.sys.fetched.length := by
    have htodo := h₀.todo
    rw [h.idle] at htodo
    exact htodo
  have hlen := h₀.blk.traffic.length
  rw [List.length_nil, Nat.add_zero] at hlen
  -- the client queues the request, and the driver fetches and submits it
  obtain ⟨s₁, hstep₁, hs₁, hd₁⟩ := reach_move rfl (.client s.sys _ sqe hserver) rfl
  have h₁ := h₀.client hserver sqe
  rw [← hs₁] at h₁
  have hidle : s₁.sys.phase = .idle := by
    rw [hs₁]
    exact h.idle
  have hserver₁ : s₁.sys.blk.ringServer = some ⟨[sqe], completions⟩ := by rw [hs₁]; rfl
  obtain ⟨s₂, hstep₂, hs₂, hd₂⟩ := reach_move rfl (.fetch s₁.sys _ hidle hserver₁) rfl
  have h₂ := h₁.fetch hidle hserver₁
  rw [← hs₂] at h₂
  have hphase : s₂.sys.phase = .submitting [sqe] := by rw [hs₂]; rfl
  have hbuffer : s₂.sys.blk.buffer = none := by
    rw [hs₂, hs₁]
    exact h.buffer
  obtain ⟨i, ha⟩ := BlkState.admitted_of_free h₂ hz hal htype hbuffer (Nat.zero_lt_succ 63)
  have hfree := h₂.blk.conservation
  rw [h₂.blk.someCount_eq, ← length_freeIds] at hfree
  simp only [List.length_nil] at hfree
  obtain ⟨d1, d2, d3, q', hsub, havail, -⟩ := h₂.blk.submit_ok ha (by omega)
  obtain ⟨s₃, hstep₃, hs₃, hd₃⟩ :=
    reach_move rfl (.accept s₂.sys _ [] _ _ _ hphase hsub h₂.blk.queue rfl) rfl
  obtain ⟨r, slot', userData', h₃⟩ := h₂.accept hphase hsub rfl
  obtain ⟨req, hasks, hreq⟩ := h₂.accept_asks hsub rfl
  rw [← hs₃] at h₃
  have hfetched : s₂.sys.fetched = s.sys.fetched ++ [sqe] := by rw [hs₂, hs₁]; rfl
  have htraffic : s₂.sys.traffic = s.sys.traffic := by rw [hs₂, hs₁]
  have hreq' : req.transfer = sqe.transfer 512 ∧ req.addr = sqe.addr ∧ req.len = sqe.len := by
    unfold asks dataPaddr at hasks
    rw [htype, hbuffer] at hasks
    obtain rfl := Option.some.inj hasks
    refine ⟨?_, rfl, rfl⟩
    rw [DeviceRequest.transfer, Sqe.transfer, Nat.mul_comm]
    rcases hm with hop | hop
    · have htype' := Option.some.inj ((congrArg requestType hop).symm.trans htype)
      obtain ⟨rfl, rfl⟩ := Prod.mk.inj htype'
      simp [hop, virtioBlkTIn, virtioBlkTOut]
    · have htype' := Option.some.inj ((congrArg requestType hop).symm.trans htype)
      obtain ⟨rfl, rfl⟩ := Prod.mk.inj htype'
      simp [hop]
  refine ⟨s₃, ((Relation.ReflTransGen.single hstep₁).tail hstep₂).tail hstep₃, ?_, ?_⟩
  · refine
      { server := ⟨completions, by rw [hs₃]; show s₂.sys.blk.ringServer = _; rw [hs₂]; rfl⟩
        buffer := by rw [hs₃]; exact hbuffer
        base := by rw [hs₃]; show s₂.sys.blk.dmaPaddr = 0; rw [hs₂, hs₁]; exact h.base
        length := by rw [hd₃, hd₂, hd₁]; exact h.length
        phase := by rw [hs₃]
        inv := ⟨before, _, r, slot', userData', h₃⟩
        taken := ?_
        accepted := ?_
        fetched := ?_
        found := ?_ }
    · rw [hs₃]
      show s₂.sys.traffic.taken.length = s₂.sys.traffic.pops
      have hle := h₀.blk.traffic.ring.taken_prefix.length_le
      have hpub := h₀.blk.traffic.ring.published_le
      have hpops := h₀.blk.traffic.ring.pops_le
      rw [htraffic]
      omega
    · have hlen' := h₂.length
      rw [htraffic, hlen] at hlen'
      have hhanded₂ : s₂.sys.handed = s.sys.handed := by rw [hs₂, hs₁]
      rw [hs₃]
      show (s₂.sys.accepted ++ [s₂.sys.handed])[s₂.sys.traffic.pops]? = _
      rw [htraffic, ← hlen', List.getElem?_concat_length, hhanded₂, hhanded]
    · rw [hs₃]
      show s₂.sys.fetched[_]? = _
      rw [hfetched, List.getElem?_concat_length]
    · rw [hs₃]
      refine ⟨q', _, req, rfl, ?_, hreq, hreq'⟩
      show (s₂.sys.traffic.submitted ++ [_])[s₂.sys.traffic.pops]? = _
      rw [htraffic, ← hlen, List.getElem?_concat_length]
  · rw [hs₃]
    exact hfetched

/-- The device serves the request. -/
theorem Asked.exists_answered (h : s.Asked size disk n sqe)
    (hfits : sqe.off.toNat * 512 + sqe.len.toNat ≤ disk)
    (hmem : Disjoint (Bytes.span sqe.addr sqe.len.toNat) (Bytes.span 0 16384)) :
    ∃ t, StoreReach s t ∧ t.Answered size disk n sqe ∧ t.sys.fetched = s.sys.fetched := by
  obtain ⟨completions, hserver⟩ := h.server
  obtain ⟨before, q, r, slot, userData, h₀⟩ := h.inv
  obtain ⟨q₀, head, req, hq₀, hhead, hreq, htransfer, haddr, hlen⟩ := h.found
  obtain rfl : q = q₀ := Option.some.inj (h₀.blk.queue.symm.trans hq₀)
  have hsub := h₀.blk.traffic.length
  have hpops := h₀.blk.traffic.pops_le
  have hpub := h₀.blk.traffic.ring.published_le
  have htaken := h.taken
  rw [List.length_singleton] at hsub
  rw [List.length_map] at hpub
  -- the device reads the head
  have hne : s.sys.traffic.devAvail ≠ q.mem.availIdx := fun he => by
    have heq := congrArg List.length (h₀.blk.traffic.ring.devAvail_eq.1 he)
    omega
  have hread : q.readAvail s.sys.traffic.devAvail = head := by
    have hnext := (h₀.blk.traffic.ring.take hne).1
    rw [htaken, hhead] at hnext
    exact (Option.some.inj hnext).symm
  obtain ⟨s₁, hstep₁, hs₁, hd₁⟩ := reach_move rfl (.take s.sys q hq₀ hne) rfl
  have h₁ : s₁.sys.Inv size before q [r] [] slot userData := by
    rw [hs₁]
    exact { h₀ with blk := h₀.blk.take hne }
  have hblk₁ : s₁.sys.blk = s.sys.blk := by rw [hs₁]
  have hpops₁ : s₁.sys.traffic.pops = s.sys.traffic.pops := by rw [hs₁]; rfl
  have htaken₁ : s₁.sys.traffic.taken[s.sys.traffic.pops]? = some head := by
    rw [hs₁, ← htaken]
    show (s.sys.traffic.taken ++ [_])[_]? = _
    rw [List.getElem?_concat_length, hread]
  have hnew : s₁.sys.answers s.sys.traffic.pops = none := by
    by_contra hans
    rw [hs₁] at hans
    have hlt := h₀.blk.answers_lt _ hans
    omega
  have hstart : req.transfer.start + req.transfer.len = sqe.off.toNat * 512 + sqe.len.toNat := by
    rw [htransfer]
    rfl
  -- it serves the request
  have hfits₁ : req.transfer.start + req.transfer.len ≤ s₁.disk.length := by
    rw [hstart, hd₁, h.length]
    exact hfits
  have hmem₁ : Disjoint (Bytes.span req.addr req.len.toNat)
      (Bytes.span s₁.sys.blk.dmaPaddr 16384) := by
    rw [haddr, hlen, hblk₁, h.base]
    exact hmem
  obtain ⟨s₂, hstep₂, hs₂, hd₂⟩ : ∃ s₂, StoreStep s₁ s₂ ∧ s₂.sys = { s₁.sys with
      blk := s₁.sys.blk.deviceWrite (q.mem.desc (chainEnd q.mem.desc q.num.toNat head)).addr
        virtioBlkSOk
      answers := Function.update s₁.sys.answers s.sys.traffic.pops (some virtioBlkSOk) } ∧
      s₂.disk.length = disk :=
    ⟨_, .serve s₁ q s.sys.traffic.pops n head req h₁.blk.queue htaken₁ hnew
      (by rw [hs₁]; exact h.accepted) (by rw [hblk₁]; exact hreq) hfits₁ hmem₁, rfl,
      (DeviceRequest.makes_serve hfits₁ s₁.mem).length_eq.trans (by rw [hd₁, h.length])⟩
  have h₂ : s₂.sys.Inv size before q [r] [] slot userData := by
    rw [hs₂]
    exact h₁.answer htaken₁ hnew virtioBlkSOk
  have hans₂ : s₂.sys.answers s.sys.traffic.pops = some virtioBlkSOk := by
    rw [hs₂]
    exact Function.update_self _ _ _
  have hsys₂ : s₂.sys.traffic = s₁.sys.traffic := by rw [hs₂]
  -- it publishes the head
  have hcan : s₂.sys.traffic.CanPublish s.sys.traffic.pops ⟨head.toUInt32, 1⟩ := by
    refine ⟨fun hm => ?_, head, by rw [hsys₂]; exact htaken₁, rfl⟩
    rw [hsys₂, hs₁] at hm
    obtain ⟨p, hp, he⟩ := List.mem_map.1 hm
    obtain ⟨_, hget, -⟩ := h₀.blk.traffic.id p hp
    have hlt := (List.getElem?_eq_some_iff.1 hget).1
    omega
  have hans₂' : s₂.sys.answers s.sys.traffic.pops ≠ none := by
    rw [hans₂]
    exact Option.some_ne_none _
  obtain ⟨s₃, hstep₃, hs₃, hd₃⟩ :=
    reach_move rfl (.publish s₂.sys q _ _ h₂.blk.queue hcan hans₂') rfl
  have h₃ := h₂.publish hcan hans₂'
  rw [← hs₃] at h₃
  refine ⟨s₃, ((Relation.ReflTransGen.single hstep₁).tail hstep₂).tail hstep₃, ?_, ?_⟩
  · exact
      { server := ⟨completions, by rw [hs₃, hs₂, hs₁]; exact hserver⟩
        buffer := by rw [hs₃, hs₂, hs₁]; exact h.buffer
        base := by rw [hs₃, hs₂, hs₁]; exact h.base
        length := by rw [hd₃]; exact hd₂
        phase := by rw [hs₃, hs₂, hs₁]; exact h.phase
        inv := ⟨before, _, r, slot, userData, h₃⟩
        published := by
          rw [hs₃, hs₂, hs₁]
          show (s.sys.traffic.published ++ [_]).length = s.sys.traffic.pops + 1
          rw [List.length_append, List.length_singleton]
          omega
        answered := by
          rw [show s₃.sys.traffic.pops = s.sys.traffic.pops by rw [hs₃, hs₂, hs₁]; rfl, hs₃]
          exact hans₂
        accepted := by rw [hs₃, hs₂, hs₁]; exact h.accepted
        fetched := by rw [hs₃, hs₂, hs₁]; exact h.fetched }
  · rw [hs₃, hs₂, hs₁]

/-- The driver completes the request. -/
theorem Answered.exists_quiet (h : s.Answered size disk n sqe) :
    ∃ t, StoreReach s t ∧ t.Quiet size disk ∧ t.sys.fetched = s.sys.fetched ∧
      callsOf t.sys.calls n = [(sqe.userData, 0)] := by
  obtain ⟨completions, hserver⟩ := h.server
  obtain ⟨before, q, r, slot, userData, h₀⟩ := h.inv
  have hlen := h₀.blk.traffic.length
  rw [List.length_singleton] at hlen
  have hpub := h.published
  obtain ⟨s₁, hstep₁, hs₁, hd₁⟩ := reach_move rfl (.submitted s.sys h.phase) rfl
  have h₁ := h₀.submitted h.phase
  rw [← hs₁] at h₁
  have htraffic₁ : s₁.sys.traffic = s.sys.traffic := by rw [hs₁]
  obtain ⟨r', -, -, -, -, st, q', -, -, -, hpop, -⟩ := h₁.blk.pop_some (by rw [htraffic₁]; omega)
  have hphase₁ : s₁.sys.phase = .popping := by rw [hs₁]
  obtain ⟨s₂, hstep₂, hs₂, hd₂⟩ := reach_move rfl (.pop s₁.sys _ hphase₁ hpop) rfl
  obtain ⟨q'', out, h₂⟩ := h₁.pop hphase₁ hpop
  rw [← hs₂] at h₂
  have htraffic₂ : s₂.sys.traffic = s.sys.traffic.pop := by
    rw [hs₂]
    exact congrArg Traffic.pop htraffic₁
  have hpops₂ : s₂.sys.traffic.pops = s₂.sys.traffic.published.length := by
    rw [htraffic₂]
    exact hpub.symm
  have hout : out = [] := by
    have hlen' := h₂.blk.traffic.length
    rw [htraffic₂] at hlen'
    have hlen' : s.sys.traffic.submitted.length = s.sys.traffic.pops + 1 + out.length := hlen'
    exact List.eq_nil_of_length_eq_zero (by omega)
  obtain rfl := hout
  have hphase₂ : s₂.sys.phase = .popping := by
    rw [hs₂]
    exact hphase₁
  obtain ⟨s₃, hstep₃, hs₃, hd₃⟩ :=
    reach_move rfl (.popDone s₂.sys _ hphase₂ (h₂.blk.pop_none hpops₂)) rfl
  have h₃ := h₂.finish hphase₂
  rw [← hs₃] at h₃
  refine ⟨s₃, ((Relation.ReflTransGen.single hstep₁).tail hstep₂).tail hstep₃, ?_, ?_, ?_⟩
  · exact
      { server := ⟨completions ++ [(userData r'.pos, statusResult st)], by
          rw [hs₃, hs₂, hs₁, completed, hserver]; rfl⟩
        buffer := by rw [hs₃, hs₂, hs₁]; exact h.buffer
        base := by rw [hs₃, hs₂, hs₁]; exact h.base
        length := by rw [hd₃, hd₂, hd₁]; exact h.length
        idle := by rw [hs₃]
        inv := ⟨before, q'', slot, userData, h₃⟩ }
  · rw [hs₃, hs₂, hs₁]
  · -- the popped entry answers the request
    have hacc : s₃.sys.accepted[s.sys.traffic.pops]? = some n := by
      rw [hs₃, hs₂, hs₁]
      exact h.accepted
    have hfetched : s₃.sys.fetched[n]? = some sqe := by
      rw [hs₃, hs₂, hs₁]
      exact h.fetched
    have hpopped : s.sys.traffic.pops ∈ s₃.sys.traffic.popped := by
      by_contra hnm
      have hlt := (List.getElem?_eq_some_iff.1 hacc).1
      rw [h₃.length] at hlt
      exact List.not_mem_nil ((h₃.blk.traffic.mem_out _).2 ⟨hlt, hnm⟩)
    obtain ⟨v, hv, hcalls⟩ := h₃.ledger.done _ n sqe hacc hfetched hpopped
    have hans : s₃.sys.answers s.sys.traffic.pops = some virtioBlkSOk := by
      rw [hs₃, hs₂, hs₁]
      exact h.answered
    rw [BlkState.result, hans] at hv
    obtain rfl := Option.some.inj hv
    exact hcalls

/-- A request that fits on the disk can be served, and the driver waits again. -/
theorem Quiet.exists_served (h : s.Quiet size disk) (hz : size ≠ 0) (hal : sqe.len % size = 0)
    (hm : sqe.Moving) (hfits : sqe.off.toNat * 512 + sqe.len.toNat ≤ disk)
    (hmem : Disjoint (Bytes.span sqe.addr sqe.len.toNat) (Bytes.span 0 16384)) :
    ∃ t, StoreReach s t ∧ t.Quiet size disk ∧ t.sys.fetched = s.sys.fetched ++ [sqe] ∧
      callsOf t.sys.calls s.sys.fetched.length = [(sqe.userData, 0)] := by
  obtain ⟨t, ht, hasked, hfetched⟩ := h.exists_asked hz hal hm
  obtain ⟨u, hu, hans, hsame⟩ := hasked.exists_answered hfits hmem
  obtain ⟨v, hv, hquiet, hsame', hcalls⟩ := hans.exists_quiet
  exact ⟨v, (ht.trans hu).trans hv, hquiet, hsame'.trans (hsame.trans hfetched), hcalls⟩

end StoreState

/-- **A client of the block driver reads what it wrote.**  Between the states `s₀` and `s` a WRITE
is fetched and completed with 0, and between `s` and `t` a READ of the same bytes.  If every other
WRITE to some of these bytes was completed before `s₀`, then the device moved to the client, for
the READ, the bytes that it moved for the WRITE.  As in every such run, the device serves no request
with data in the driver's pages. -/
theorem block_read_written {b : VirtIOBlk} (hb : b.Started) {d₀ : List UInt8}
    {m₀ : UInt64 → UInt8} {s₀ s t : StoreState} (hs₀ : StoreReach (.start b d₀ m₀) s₀)
    (hs : StoreReach s₀ s) (ht : StoreReach s t) {nw nr : ℕ} {w r : Sqe}
    (hw : s.sys.fetched[nw]? = some w) (hnw : s₀.sys.fetched.length ≤ nw)
    (hr : t.sys.fetched[nr]? = some r) (hnr : s.sys.fetched.length ≤ nr)
    (hwop : w.opcode = .write) (hrop : r.opcode = .read) (hoff : r.off = w.off)
    (hlen : r.len = w.len) (hwdone : callsOf s.sys.calls nw = [(w.userData, 0)])
    (hrdone : callsOf t.sys.calls nr = [(r.userData, 0)])
    (hothers : ∀ n sqe, t.sys.fetched[n]? = some sqe → n ≠ nw → sqe.opcode = .write →
      callsOf s₀.sys.calls n ≠ [] ∨ Disjoint (sqe.transfer 512).bytes (w.transfer 512).bytes) :
    ∃ data, (nw, ⟨w.transfer 512, data⟩) ∈ t.log ∧ (nr, ⟨r.transfer 512, data⟩) ∈ t.log := by
  obtain ⟨h₀, q, out, held, slot, userData, hinv₀⟩ := StoreState.Inv.run (.start b d₀ m₀)
    (BlkState.Inv.start hb (fun _ => 0) fun _ => 0) hs₀
  obtain ⟨h₁, q', out', held', slot', userData', hinv₁⟩ := h₀.run hinv₀ hs
  obtain ⟨h₂, q'', out'', held'', slot'', userData'', hinv₂⟩ := h₁.run hinv₁ ht
  obtain ⟨hlog₀, hcalls, -⟩ := StoreState.continues_run hinv₀ hs
  obtain ⟨hlog₁, -, hfetched, -⟩ := StoreState.continues_run hinv₁ ht
  exact (h₀.serial hinv₀).read_written (h₁.serial hinv₁) (h₂.serial hinv₂) hlog₀ hlog₁ hcalls
    hfetched hw hnw hr hnr hwop hrop hoff hlen hwdone (by decide) hrdone (by decide) hothers

/-! ### One sector -/

/-- A request for sector 1. -/
def sectorOne (op : Opcode) : Sqe := ⟨op, 1, 0x10000, 512, 0⟩

/-- A WRITE of sector 1 is served, and then a READ. -/
theorem exists_write_read : ∃ s t, StoreReach (.start (.initial 512) (List.replicate 1024 0)
      fun _ => 1) s ∧ StoreReach s t ∧ s.sys.fetched = [sectorOne .write] ∧
    t.sys.fetched = [sectorOne .write, sectorOne .read] ∧
      callsOf s.sys.calls 0 = [(0, 0)] ∧ callsOf t.sys.calls 1 = [(0, 0)] := by
  have hmem : Disjoint (Bytes.span 0x10000 512) (Bytes.span 0 16384) := by
    have h := Bytes.disjoint_span (a := 0) (d := 0) (e := 0x10000) (k := 16384) (n := 512)
      (by decide) (by decide)
    rw [UInt64.zero_add, UInt64.zero_add] at h
    exact h.symm
  have hquiet := StoreState.quiet_initial 512 (List.replicate 1024 0) fun _ => 1
  rw [List.length_replicate] at hquiet
  obtain ⟨s, hs, hquiet, hfetched, hcalls⟩ := hquiet.exists_served (by decide)
    (show (sectorOne .write).len % 512 = 0 by decide) (.inr rfl) (by decide) hmem
  obtain ⟨t, ht, -, hfetched', hcalls'⟩ := hquiet.exists_served (by decide)
    (show (sectorOne .read).len % 512 = 0 by decide) (.inl rfl) (by decide) hmem
  rw [hfetched] at hfetched' hcalls'
  exact ⟨s, t, hs, ht, hfetched, hfetched', hcalls, hcalls'⟩

/-- The two requests are in the log of the second state. -/
theorem block_store_sector : ∃ s, StoreReach (.start (.initial 512) (List.replicate 1024 0)
      fun _ => 1) s ∧ s.sys.fetched = [sectorOne .write, sectorOne .read] ∧
    SerialDisk 512 (fun _ => 0) (List.replicate 1024 0) s.disk s.sys.fetched s.sys.calls s.log := by
  obtain ⟨s, t, hs, ht, -, hfetched, -⟩ := exists_write_read
  exact ⟨t, hs.trans ht, hfetched, (block_store (started_initial 512) (hs.trans ht) .refl).1⟩

/-- The READ moves what the WRITE moved. -/
theorem block_read_written_sector : ∃ t data, StoreReach (.start (.initial 512)
      (List.replicate 1024 0) fun _ => 1) t ∧
    (0, ⟨(sectorOne .write).transfer 512, data⟩) ∈ t.log ∧
      (1, ⟨(sectorOne .read).transfer 512, data⟩) ∈ t.log := by
  obtain ⟨s, t, hs, ht, hfetched, hfetched', hcalls, hcalls'⟩ := exists_write_read
  have hw : s.sys.fetched[0]? = some (sectorOne .write) := by rw [hfetched]; rfl
  have hr : t.sys.fetched[1]? = some (sectorOne .read) := by rw [hfetched']; rfl
  obtain ⟨data, hw, hr⟩ := block_read_written (started_initial 512) .refl hs ht hw le_rfl hr
    (by rw [hfetched]; exact le_rfl) rfl rfl rfl rfl hcalls hcalls'
    fun n sqe hn hne hop => by
      -- the only other request is the READ
      rw [hfetched'] at hn
      rcases n with _ | _ | n
      · exact absurd rfl hne
      · obtain rfl := Option.some.inj hn
        exact nomatch hop
      · exact nomatch hn
  exact ⟨t, data, hs.trans ht, hw, hr⟩

end GlendaDrivers
