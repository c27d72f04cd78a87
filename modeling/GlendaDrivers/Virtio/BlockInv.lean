import GlendaDrivers.Virtio.BlockSpec
import GlendaDrivers.Virtio.Pending

/-!
# The invariant of the block driver and its device

Every outstanding request has an entry of `pending_info`, the header and the status byte of
that entry, and a chain of three descriptors that point to them.

* `BlkInv`: the driver's tables, the queue and the outstanding requests agree;
* `BlkInv.submit_ok`, `submit_short`, `refused`: one request;
* `BlkInv.pop_none`, `pop_some`: one iteration of `pop_completions`;
* `BlkInv.take`, `answer`, `publish`: the device.
-/

namespace GlendaDrivers

open VirtQueue

/-- The descriptor at the end of the chain from `head`, following at most `n` links. -/
def chainEnd (desc : UInt16 → Descriptor) : ℕ → UInt16 → UInt16
  | 0, d => d
  | n + 1, d => if (desc d).flags &&& descFNext = 0 then d else chainEnd desc n (desc d).next

namespace VirtIOBlk

/-- The driver after a request was submitted in slot `i` with the head `d1`. -/
def entered (b : VirtIOBlk) (q : VirtQueue) (i : Fin 64) (type : UInt32) (sqe : Sqe)
    (d1 : UInt16) : VirtIOBlk :=
  { b.writeHeader i type sqe.off with
    queue := some q
    pendingInfo := Function.update b.pendingInfo i (some (sqe.userData, d1))
    transport := b.transport.notifyQueue 0 }

/-- The result of a request whose status byte is `st`. -/
def statusResult (st : UInt8) : Int32 := if st = virtioBlkSOk then 0 else -1

/-- The driver after the request in slot `i` was completed with status `st`. -/
def completed (b : VirtIOBlk) (q : VirtQueue) (i : Fin 64) (userData : UInt64) (st : UInt8) :
    VirtIOBlk :=
  { b with
    queue := some q
    pendingInfo := Function.update b.pendingInfo i none
    ringServer := b.ringServer.map (·.complete userData (statusResult st)) }

/-- The device writes a byte of the DMA memory. -/
def deviceWrite (b : VirtIOBlk) (paddr : UInt64) (v : UInt8) : VirtIOBlk :=
  { b with dma := Bytes.write b.dma (paddr - b.dmaPaddr) [v] }

end VirtIOBlk

open VirtIOBlk

/-- The driver `b` with the queue `q`, the traffic on the queue, the status bytes the device
wrote, and the outstanding requests `out`, each with its slot and user data.  The descriptors
`held` are lost: not free, and in no chain. -/
structure BlkInv (b : VirtIOBlk) (q : VirtQueue) (t : Traffic) (answers : ℕ → Option UInt8)
    (out : List Request) (held : List UInt16) (slot : ℕ → Fin 64) (userData : ℕ → UInt64) :
    Prop where
  queue : b.queue = some q
  num : q.num = 128
  dmaVaddr : b.dmaVaddr ≠ 0
  traffic : TrafficInv q t out held
  pending : PendingInv b.pendingInfo out slot userData
  chain : ∀ r ∈ out, ∃ d1 d2 d3 isWrite paddr len, r.chain = [d1, d2, d3] ∧
    IsChain q.mem.desc b.dmaPaddr (slot r.pos) isWrite paddr len d1 d2 d3
  status : ∀ r ∈ out, ∀ st, answers r.pos = some st → b.dma (statusOffset (slot r.pos)) = st
  answers_lt : ∀ pos, answers pos ≠ none → pos < t.taken.length
  answered : ∀ p ∈ t.published, answers p.1 ≠ none

namespace BlkInv

variable {b b' : VirtIOBlk} {q q' : VirtQueue} {t : Traffic} {answers : ℕ → Option UInt8}
  {out : List Request} {held : List UInt16} {slot : ℕ → Fin 64} {userData : ℕ → UInt64}
  {sqe : Sqe} {i : Fin 64} {type : UInt32} {isWrite : Bool} {paddr : UInt64}

/-- The driver after `init`. -/
theorem start (hb : b.Started) (slot : ℕ → Fin 64) (userData : ℕ → UInt64) :
    BlkInv b (.fresh 0 128 (b.dmaPaddr + 8192) .zeroed) .init (fun _ => none) [] [] slot
      userData where
  queue := hb.queue
  num := rfl
  dmaVaddr := hb.dmaVaddr
  traffic := TrafficInv.fresh 0 128 _ (show 128 ∣ 2 ^ 16 by decide)
  pending := by
    rw [hb.pendingInfo]
    exact .empty slot userData
  chain := by simp
  status := by simp
  answers_lt := by simp
  answered := by simp [Traffic.init]

/-- The invariant is not about the transport, the ring server and the client's buffer. -/
theorem congr (h : BlkInv b q t answers out held slot userData) (hq : b'.queue = b.queue)
    (hv : b'.dmaVaddr = b.dmaVaddr) (hp : b'.dmaPaddr = b.dmaPaddr) (hd : b'.dma = b.dma)
    (hi : b'.pendingInfo = b.pendingInfo) : BlkInv b' q t answers out held slot userData where
  queue := hq.trans h.queue
  num := h.num
  dmaVaddr := by rw [hv]; exact h.dmaVaddr
  traffic := h.traffic
  pending := by rw [hi]; exact h.pending
  chain := by rw [hp]; exact h.chain
  status := by rw [hd]; exact h.status
  answers_lt := h.answers_lt
  answered := h.answered

theorem length_chain (h : BlkInv b q t answers out held slot userData) {r : Request}
    (hr : r ∈ out) : r.chain.length = 3 := by
  obtain ⟨d1, d2, d3, -, -, -, hc, -⟩ := h.chain r hr
  rw [hc]
  rfl

theorem someCount_eq (h : BlkInv b q t answers out held slot userData) :
    someCount b.pendingInfo = out.length := h.pending.someCount_eq h.traffic.nodup_out

/-- Every descriptor is free, of a pending request, or lost. -/
theorem conservation (h : BlkInv b q t answers out held slot userData) :
    q.numFree.toNat + 3 * someCount b.pendingInfo + held.length = 128 := by
  have := h.traffic.conservation fun r hr => h.length_chain hr
  rw [h.num] at this
  rw [h.someCount_eq]
  exact this

/-- The slot of a new request is not the slot of an outstanding one. -/
theorem slot_ne (h : BlkInv b q t answers out held slot userData) (hi : b.freeSlot = some i)
    {r : Request} (hr : r ∈ out) : slot r.pos ≠ i := by
  rintro rfl
  obtain ⟨head, -, he⟩ := h.pending.entry r hr
  have hf := (Fin.find?_eq_some_iff.1 hi).1
  rw [he] at hf
  exact absurd hf (by simp)

/-- Preparing a free slot. -/
theorem writeHeader (h : BlkInv b q t answers out held slot userData) (hi : b.freeSlot = some i)
    (type : UInt32) (sector : UInt64) :
    BlkInv (b.writeHeader i type sector) q t answers out held slot userData :=
  { h with
    status := fun r hr st hst => by
      rw [writeHeader_status b (h.slot_ne hi hr)]
      exact h.status r hr st hst }

/-- A request that is rejected by a check. -/
theorem refused (h : BlkInv b q t answers out held slot userData) {r : Except Error Unit}
    (hr : Refused b b' sqe r) : BlkInv b' q t answers out held slot userData := by
  rcases hr.state with rfl | ⟨i, type, hi, rfl⟩
  · exact h
  · exact h.writeHeader hi type sqe.off

/-- What an admitted request does to the queue while three descriptors are free. -/
theorem submit_chain (h : BlkInv b q t answers out held slot userData)
    (ha : b.Admitted sqe q i type isWrite paddr) (hfree : 3 ≤ q.freeIds.length) :
    ∃ d1 d2 d3 q', b.submitVirtioRequest sqe =
        .ret (.ok (), b.entered (q'.submit d1) i type sqe d1) ∧
      TrafficInv q' t out ([d1, d2, d3] ++ held) ∧ SameRings q q' ∧
      q.freeIds = [d1, d2, d3] ++ q'.freeIds ∧
      IsChain q'.mem.desc b.dmaPaddr i isWrite paddr sqe.len d1 d2 d3 ∧
      ∀ x, x ∉ [d1, d2, d3] → q'.mem.desc x = q.mem.desc x := by
  obtain ⟨d1, d2, d3, rest, hids⟩ : ∃ d1 d2 d3 rest, q.freeIds = d1 :: d2 :: d3 :: rest := by
    match hq : q.freeIds, hfree with
    | d1 :: d2 :: d3 :: rest, _ => exact ⟨d1, d2, d3, rest, rfl⟩
  have hw := h.writeHeader ha.slot type sqe.off
  obtain ⟨q', hsub, htraffic, hsame, hrest, hchain, hdesc⟩ :=
    submitChain_ok (b.writeHeader i type sqe.off) sqe i isWrite paddr hw.traffic hids
  refine ⟨d1, d2, d3, q', ha.submit.trans hsub, htraffic, hsame, ?_, hchain, hdesc⟩
  rw [hids, hrest]
  rfl

/-- A request that is admitted while three descriptors are free. -/
theorem submit_ok (h : BlkInv b q t answers out held slot userData)
    (ha : b.Admitted sqe q i type isWrite paddr) (hfree : 3 ≤ q.freeIds.length) :
    ∃ d1 d2 d3 q', b.submitVirtioRequest sqe = .ret (.ok (), b.entered q' i type sqe d1) ∧
      q'.readAvail q.mem.availIdx = d1 ∧ q.freeIds = [d1, d2, d3] ++ q'.freeIds ∧
      IsChain q'.mem.desc b.dmaPaddr i isWrite paddr sqe.len d1 d2 d3 ∧
      BlkInv (b.entered q' i type sqe d1) q' (t.submit d1) answers
        (out ++ [⟨t.submitted.length, [d1, d2, d3]⟩]) held
        (Function.update slot t.submitted.length i)
        (Function.update userData t.submitted.length sqe.userData) := by
  have hw := h.writeHeader ha.slot type sqe.off
  obtain ⟨d1, d2, d3, q', hsub, htraffic, hsame, hids, hchain, hdesc⟩ := h.submit_chain ha hfree
  have hinv := htraffic.submit hchain.linked (show [d1, d2, d3].head? = some d1 from rfl)
  have hk : t.submitted.length ∉ out.map Request.pos := fun hm =>
    absurd ((h.traffic.mem_out _).1 hm).1 (lt_irrefl _)
  have hi : b.pendingInfo i = none :=
    Option.isNone_iff_eq_none.1 (Fin.find?_eq_some_iff.1 ha.slot).1
  have hslot : ∀ r ∈ out, Function.update slot t.submitted.length i r.pos = slot r.pos :=
    fun r hr => Function.update_of_ne (by rintro he; exact hk (he ▸ List.mem_map_of_mem hr)) _ _
  refine ⟨d1, d2, d3, q'.submit d1, hsub, hsame.readAvail_submit d1, hids, hchain, ?_⟩
  refine
    { queue := rfl
      num := hsame.num.trans h.num
      dmaVaddr := h.dmaVaddr
      traffic := hinv
      pending := h.pending.insert hi hk rfl
      chain := ?_
      status := ?_
      answers_lt := h.answers_lt
      answered := h.answered }
  · intro r hr
    rcases List.mem_append.1 hr with hr | hr
    · obtain ⟨e1, e2, e3, w, p, len, hc, hchain'⟩ := h.chain r hr
      rw [hslot r hr]
      refine ⟨e1, e2, e3, w, p, len, hc, hchain'.congr fun x hx => hdesc x fun hm => ?_⟩
      exact htraffic.notMem_held hr (hc ▸ hx) (List.mem_append_left _ hm)
    · obtain rfl := List.mem_singleton.1 hr
      refine ⟨d1, d2, d3, isWrite, paddr, sqe.len, rfl, ?_⟩
      rw [Function.update_self]
      exact hchain
  · intro r hr st hst
    rcases List.mem_append.1 hr with hr | hr
    · rw [hslot r hr]
      exact hw.status r hr st hst
    · obtain rfl := List.mem_singleton.1 hr
      have hlt := h.answers_lt t.submitted.length (by simp [hst])
      have := h.traffic.ring.taken_prefix.length_le
      omega

/-- A request that is admitted while fewer than three descriptors are free takes those. -/
theorem submit_short (h : BlkInv b q t answers out held slot userData)
    (ha : b.Admitted sqe q i type isWrite paddr) (hfree : q.freeIds.length < 3) :
    ∃ q', b.submitVirtioRequest sqe = .ret (.error .outOfMemory,
        { b.writeHeader i type sqe.off with queue := some q' }) ∧
      q'.freeIds = [] ∧ SameRings q q' ∧
      BlkInv { b.writeHeader i type sqe.off with queue := some q' } q' t answers out
        (q.freeIds.reverse ++ held) slot userData := by
  have hw := h.writeHeader ha.slot type sqe.off
  obtain ⟨q', hsub, htraffic, hsame, hids, hdesc⟩ :=
    submitChain_short (b.writeHeader i type sqe.off) sqe i isWrite paddr hw.traffic hfree
  refine ⟨q', ha.submit.trans hsub, hids, hsame, ?_⟩
  exact
    { hw with
      queue := rfl
      num := hsame.num.trans h.num
      traffic := htraffic
      chain := by rw [hdesc]; exact hw.chain }

/-! ### Completion -/

/-- Without an unread used entry the loop ends. -/
theorem pop_none (h : BlkInv b q t answers out held slot userData)
    (hp : t.pops = t.published.length) : b.popCompletion = .ret (false, b) := by
  have hb : { b with queue := some q } = b := by
    rw [← h.queue]
  simp [popCompletion, h.queue, h.traffic.pop_none hp, hb]

/-- The entry of `pending_info` that the head of an outstanding request belongs to. -/
theorem slotOf (h : BlkInv b q t answers out held slot userData) {r : Request} (hr : r ∈ out)
    {head : UInt16} (hhead : r.chain.head? = some head) :
    b.slotOf head.toUInt32 = some (slot r.pos) := by
  obtain ⟨x, hx, he⟩ := h.pending.entry r hr
  obtain rfl := Option.some.inj (hx.symm.trans hhead)
  have hid : x.toUInt32.toUInt16 = x := UInt16.toUInt16_toUInt32 x
  refine Fin.find?_eq_some_iff.2 ⟨by simp [he, hid], fun j hj => ?_⟩
  cases hinfo : b.pendingInfo j with
  | none => rfl
  | some info =>
    obtain ⟨r', hr', rfl, -, hhead'⟩ := h.pending.eq_some hinfo
    by_cases heq : info.2 = x
    · -- the other request has the same head, so it is the same request
      have hmem : x ∈ r.chain := List.mem_of_mem_head? (by rw [hhead]; rfl)
      have hmem' : x ∈ r'.chain := List.mem_of_mem_head? (by rw [hhead', heq]; rfl)
      obtain rfl := h.traffic.eq_of_mem_chain hr hr' hmem hmem'
      exact absurd hj (lt_irrefl _)
    · simp [hid, heq]

/-- What the pop of an unread used entry does to the queue. -/
theorem pop_chain (h : BlkInv b q t answers out held slot userData)
    (hp : t.pops < t.published.length) :
    ∃ r ∈ out, ∃ d1 d2 d3 st q', r.pos = t.published[t.pops].1 ∧ r.chain = [d1, d2, d3] ∧
      answers r.pos = some st ∧
      b.popCompletion = .ret (true, b.completed q' (slot r.pos) (userData r.pos) st) ∧
      q'.freeIds = [d3, d2, d1] ++ q.freeIds ∧ TrafficInv q' t.pop (out.erase r) held ∧
      q'.num = q.num ∧ ∀ r' ∈ out.erase r, ∀ x ∈ r'.chain, q'.mem.desc x = q.mem.desc x := by
  obtain ⟨r, hr, head, hpos, hhead, hpop, hinv⟩ := h.traffic.pop hp
  obtain ⟨d1, d2, d3, w, p, len, hc, hchain⟩ := h.chain r hr
  obtain rfl : d1 = head := by simpa [hc] using hhead
  obtain ⟨x, hx, he⟩ := h.pending.entry r hr
  obtain rfl := Option.some.inj (hhead.symm.trans hx)
  obtain ⟨st, hst⟩ := Option.ne_none_iff_exists'.1 (h.answered _ (List.getElem_mem hp))
  rw [← hpos] at hst
  have hlinked : Linked q.popUsed.mem.desc r.chain := hc ▸ hchain.linked
  obtain ⟨q', hq', hinv', hsame, hids, hframe⟩ := hinv.freeChain hlinked hhead
  have hstatus := h.status r hr st hst
  refine ⟨r, hr, d1, d2, d3, st, q', hpos, hc, hst, ?_, by rw [hids, hc]; rfl, hinv', hsame.num,
    hframe⟩
  simp only [popCompletion, h.queue, hpop, h.slotOf hr hhead, he, hq', Outcome.ret_bind,
    hstatus]
  rfl

/-- An unread used entry completes the request whose head the device published in it: with the
status the device wrote for it, and returning its three descriptors. -/
theorem pop_some (h : BlkInv b q t answers out held slot userData)
    (hp : t.pops < t.published.length) :
    ∃ r ∈ out, ∃ d1 d2 d3 st q', r.pos = t.published[t.pops].1 ∧ r.chain = [d1, d2, d3] ∧
      answers r.pos = some st ∧
      b.popCompletion = .ret (true, b.completed q' (slot r.pos) (userData r.pos) st) ∧
      q'.freeIds = [d3, d2, d1] ++ q.freeIds ∧
      BlkInv (b.completed q' (slot r.pos) (userData r.pos) st) q' t.pop answers (out.erase r) held
        slot userData := by
  obtain ⟨r, hr, d1, d2, d3, st, q', hpos, hc, hst, hpop, hids, hinv', hnum, hframe⟩ :=
    h.pop_chain hp
  refine ⟨r, hr, d1, d2, d3, st, q', hpos, hc, hst, hpop, hids, ?_⟩
  · have hmem : ∀ r' ∈ out.erase r, r' ∈ out := fun r' => List.mem_of_mem_erase
    exact
      { queue := rfl
        num := hnum.trans h.num
        dmaVaddr := h.dmaVaddr
        traffic := hinv'
        pending := h.pending.erase h.traffic.nodup_out hr
        chain := fun r' hr' => by
          obtain ⟨e1, e2, e3, w', p', len', hc', hchain'⟩ := h.chain r' (hmem r' hr')
          exact ⟨e1, e2, e3, w', p', len', hc',
            hchain'.congr fun x hx => hframe r' hr' x (hc' ▸ hx)⟩
        status := fun r' hr' => h.status r' (hmem r' hr')
        answers_lt := h.answers_lt
        answered := h.answered }

/-- A completion comes from an unread used entry. -/
theorem pops_lt (h : BlkInv b q t answers out held slot userData) {c : VirtIOBlk}
    (hb : b.popCompletion = .ret (true, c)) : t.pops < t.published.length := by
  by_contra hge
  rw [h.pop_none (le_antisymm h.traffic.pops_le (Nat.not_lt.1 hge))] at hb
  simp at hb

/-- The loop ends when no used entry is left, and changes nothing then. -/
theorem pops_eq (h : BlkInv b q t answers out held slot userData) {c : VirtIOBlk}
    (hb : b.popCompletion = .ret (false, c)) : t.pops = t.published.length ∧ b = c := by
  by_cases hlt : t.pops < t.published.length
  · obtain ⟨r, hr, d1, d2, d3, st, q', -, -, -, hpop, -⟩ := h.pop_some hlt
    simp [hpop] at hb
  · have hall := le_antisymm h.traffic.pops_le (Nat.not_lt.1 hlt)
    rw [h.pop_none hall] at hb
    exact ⟨hall, (Prod.mk.inj (Outcome.ret.inj hb)).2⟩

/-! ### The device -/

/-- The device reads the next head. -/
theorem take (h : BlkInv b q t answers out held slot userData)
    (hne : t.devAvail ≠ q.mem.availIdx) :
    BlkInv b q (t.take q) answers out held slot userData :=
  { h with
    traffic := h.traffic.take hne
    answers_lt := fun pos hpos => by
      have := h.answers_lt pos hpos
      show pos < (t.taken ++ [_]).length
      rw [List.length_append]
      omega }

/-- A head the device read and has not answered belongs to an outstanding request. -/
theorem exists_of_taken (h : BlkInv b q t answers out held slot userData) {pos : ℕ}
    {head : UInt16} (hhead : t.taken[pos]? = some head) (hnew : answers pos = none) :
    ∃ r ∈ out, r.pos = pos ∧ r.chain.head? = some head := by
  obtain ⟨zs, hzs⟩ := h.traffic.ring.taken_prefix
  have hlt := (List.getElem?_eq_some_iff.1 hhead).1
  have hsub : t.submitted[pos]? = some head := by
    rw [← hzs, List.getElem?_append_left hlt, hhead]
  have hnp : pos ∉ t.popped := fun hm => by
    obtain ⟨p, hp, rfl⟩ := List.mem_map.1 hm
    exact h.answered p (List.mem_of_mem_take hp) hnew
  obtain ⟨r, hr, rfl⟩ := List.mem_map.1 ((h.traffic.mem_out pos).2
    ⟨(List.getElem?_eq_some_iff.1 hsub).1, hnp⟩)
  exact ⟨r, hr, rfl, by rw [h.traffic.head r hr, hsub]⟩

/-- The last descriptor of the chain of an outstanding request is its status byte. -/
theorem chainEnd_eq (h : BlkInv b q t answers out held slot userData) {r : Request}
    (hr : r ∈ out) {head : UInt16} (hhead : r.chain.head? = some head) :
    (q.mem.desc (chainEnd q.mem.desc q.num.toNat head)).addr =
      b.dmaPaddr + statusOffset (slot r.pos) := by
  obtain ⟨d1, d2, d3, w, p, len, hc, hchain⟩ := h.chain r hr
  obtain rfl : d1 = head := by simpa [hc] using hhead
  obtain ⟨h1, h2, h3⟩ := hchain.linked.imp id fun hl => hl.imp id id
  have hend : chainEnd q.mem.desc q.num.toNat d1 = d3 := by
    rw [h.num, show (128 : UInt16).toNat = 125 + 1 + 1 + 1 from rfl]
    simp only [Linked] at h3
    simp [chainEnd, h1, h2, h3]
  rw [hend, hchain.status]

/-- The device writes the status byte of a request. -/
theorem answer (h : BlkInv b q t answers out held slot userData) {pos : ℕ} {head : UInt16}
    (hhead : t.taken[pos]? = some head) (hnew : answers pos = none) (st : UInt8) :
    BlkInv (b.deviceWrite (q.mem.desc (chainEnd q.mem.desc q.num.toNat head)).addr st) q t
      (Function.update answers pos (some st)) out held slot userData := by
  obtain ⟨r, hr, rfl, hhead'⟩ := h.exists_of_taken hhead hnew
  have hoff : b.dmaPaddr + statusOffset (slot r.pos) - b.dmaPaddr = statusOffset (slot r.pos) := by
    rw [UInt64.add_comm, UInt64.add_sub_cancel]
  rw [h.chainEnd_eq hr hhead']
  refine
    { h with
      status := fun r' hr' st' hst' => ?_
      answers_lt := fun pos hpos => ?_
      answered := fun p hp => ?_ }
  · show Bytes.write b.dma (_ - b.dmaPaddr) [st] (statusOffset (slot r'.pos)) = st'
    rw [hoff]
    by_cases he : r'.pos = r.pos
    · rw [he, Function.update_self] at hst'
      rw [he, Bytes.write_singleton]
      exact Option.some.inj hst'
    · rw [Function.update_of_ne he] at hst'
      rw [Bytes.write_singleton_of_ne, h.status r' hr' st' hst']
      intro hs
      exact he (congrArg Request.pos (h.pending.inj r' hr' r hr (statusOffset_inj hs)))
  · by_cases he : pos = r.pos
    · rw [he]
      exact (List.getElem?_eq_some_iff.1 hhead).1
    · rw [Function.update_of_ne he] at hpos
      exact h.answers_lt pos hpos
  · by_cases he : p.1 = r.pos
    · simp [he]
    · rw [Function.update_of_ne he]
      exact h.answered p hp

/-- The device publishes a request whose status byte it wrote. -/
theorem publish (h : BlkInv b q t answers out held slot userData) {pos : ℕ} {elem : UsedElem}
    (hc : t.CanPublish pos elem) (ha : answers pos ≠ none) :
    BlkInv { b with queue := some (q.publishUsed elem) } (q.publishUsed elem)
      (t.publish pos elem) answers out held slot userData :=
  { h with
    queue := rfl
    traffic := h.traffic.publish hc
    answered := fun p hp => by
      rcases List.mem_append.1 hp with hp | hp
      · exact h.answered p hp
      · obtain rfl := List.mem_singleton.1 hp
        exact ha }

end BlkInv

end GlendaDrivers
