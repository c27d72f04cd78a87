import GlendaDrivers.Virtio.Net
import GlendaDrivers.Virtio.Pending

/-!
# The invariant of a queue of the network driver

Every outstanding request has a chain of two descriptors, header and payload, and the entry of
the table of pending requests whose index is the head of the chain.  The header lies in the DMA
memory, at the offset of the head.

* `IsPacket`: the descriptors of a request;
* `NetInv n i q t out held slot userData`: queue `i` of the driver and the outstanding requests;
* `NetInv.submit_ok`, `submit_stray`, `submit_none`, `submit_one`: one request, by the number of
  free descriptors and the outcome of the address check;
* `NetInv.pop_none`, `pop_some`: one iteration of a loop of `handle_irq`;
* `NetInv.take`, `publish`: the device;
* `NetInv.frame`: what happens to one queue does not concern the other.
-/

namespace GlendaDrivers

open VirtQueue VirtIONet

/-- Where `init` puts the queues in the DMA memory. -/
def NetDir.queueOffset : NetDir → UInt64
  | .rx => 8192
  | .tx => 12288

namespace VirtIONet

/-- The descriptors of a request to queue `i`, with the DMA memory at `base`. -/
structure IsPacket (desc : UInt16 → Descriptor) (base : UInt64) (i : NetDir) (paddr : UInt64)
    (len : UInt32) (d1 d2 : UInt16) : Prop where
  header : desc d1 = ⟨base + hdrOffset i d1, UInt32.ofNat sizeOfVirtioNetHdr,
    if i = .rx then descFNext ||| descFWrite else descFNext, d2⟩
  payload : desc d2 = ⟨paddr, len, if i = .rx then descFWrite else 0, 0⟩

theorem IsPacket.congr {desc desc' : UInt16 → Descriptor} {base paddr : UInt64} {i : NetDir}
    {len : UInt32} {d1 d2 : UInt16} (h : IsPacket desc base i paddr len d1 d2)
    (hd : ∀ x ∈ [d1, d2], desc' x = desc x) : IsPacket desc' base i paddr len d1 d2 :=
  ⟨(hd d1 (by simp)).trans h.header, (hd d2 (by simp)).trans h.payload⟩

theorem IsPacket.linked {desc : UInt16 → Descriptor} {base paddr : UInt64} {i : NetDir}
    {len : UInt32} {d1 d2 : UInt16} (h : IsPacket desc base i paddr len d1 d2) :
    Linked desc [d1, d2] := by
  refine ⟨?_, by rw [h.header], ?_⟩
  · rw [h.header]
    cases i
    · show (descFNext ||| descFWrite) &&& descFNext ≠ 0
      decide
    · show descFNext &&& descFNext ≠ 0
      decide
  · show (desc d2).flags &&& descFNext = 0
    rw [h.payload]
    cases i
    · show descFWrite &&& descFNext = 0
      decide
    · show (0 : UInt16) &&& descFNext = 0
      decide

/-- The driver after a request was submitted to queue `i` with the head `d1`. -/
def entered (n : VirtIONet) (i : NetDir) (q : VirtQueue) (sqe : Sqe) (d1 : UInt16)
    (idx : Fin 128) : VirtIONet :=
  { (n.setPending i idx (some (sqe.userData, d1))).setQueue i q with
    dma := Bytes.write n.dma (hdrOffset i d1) virtioNetHdrDefault
    transport := n.transport.notifyQueue i.qidx }

/-- The driver after the request in entry `idx` was completed with a used length of `len`. -/
def completed (n : VirtIONet) (i : NetDir) (q : VirtQueue) (idx : Fin 128) (userData : UInt64)
    (len : UInt32) : VirtIONet :=
  ((n.setPending i idx none).complete userData (resultLen i len)).setQueue i q

@[simp] theorem setQueue_queue (n : VirtIONet) (i : NetDir) (q : VirtQueue) :
    (n.setQueue i q).queue i = some q := Function.update_self _ _ _

@[simp] theorem entered_queue (n : VirtIONet) (i : NetDir) (q : VirtQueue) (sqe : Sqe)
    (d1 : UInt16) (idx : Fin 128) : (n.entered i q sqe d1 idx).queue i = some q :=
  Function.update_self _ _ _

/-- Writing back the queue that is there changes nothing. -/
theorem setQueue_eq {n : VirtIONet} {i : NetDir} {q : VirtQueue} (h : n.queue i = some q) :
    n.setQueue i q = n := by
  rw [setQueue, ← h, Function.update_eq_self]

end VirtIONet

/-- Queue `i` of the driver `n`, which is `q`, the traffic on it, and the outstanding requests
`out`, each with its entry and user data.  The descriptors `held` are lost. -/
structure NetInv (n : VirtIONet) (i : NetDir) (q : VirtQueue) (t : Traffic) (out : List Request)
    (held : List UInt16) (slot : ℕ → Fin 128) (userData : ℕ → UInt64) : Prop where
  queue : n.queue i = some q
  num : q.num = 128
  paddr : q.paddr = n.dmaPaddr + i.queueOffset
  traffic : TrafficInv q t out held
  pending : PendingInv (n.pending i) out slot userData
  chain : ∀ r ∈ out, ∃ d1 d2 paddr len, r.chain = [d1, d2] ∧ (slot r.pos).val = d1.toNat ∧
    IsPacket q.mem.desc n.dmaPaddr i paddr len d1 d2

namespace NetInv

variable {n n' : VirtIONet} {i j : NetDir} {q q' : VirtQueue} {t : Traffic} {out : List Request}
  {held : List UInt16} {slot : ℕ → Fin 128} {userData : ℕ → UInt64} {sqe : Sqe} {paddr : UInt64}
  {d1 d2 : UInt16} {rest : List UInt16}

/-- The driver after `init`. -/
theorem start (hn : n.Started) (i : NetDir) (slot : ℕ → Fin 128) (userData : ℕ → UInt64) :
    ∃ q, NetInv n i q .init [] [] slot userData := by
  have hpend : PendingInv (n.pending i) [] slot userData := by
    rw [hn.pending]
    exact .empty slot userData
  cases i with
  | rx =>
    exact ⟨_, hn.rx, rfl, rfl, TrafficInv.fresh 0 128 _ (show 128 ∣ 2 ^ 16 by decide), hpend,
      by simp⟩
  | tx =>
    exact ⟨_, hn.tx, rfl, UInt64.add_assoc _ 8192 4096,
      TrafficInv.fresh 1 128 _ (show 128 ∣ 2 ^ 16 by decide), hpend, by simp⟩

/-- The invariant is about the queue and the table of its direction only. -/
theorem frame (h : NetInv n i q t out held slot userData) (hq : n'.queue i = n.queue i)
    (hp : n'.pending i = n.pending i) (hd : n'.dmaPaddr = n.dmaPaddr) :
    NetInv n' i q t out held slot userData where
  queue := hq.trans h.queue
  num := h.num
  paddr := by rw [hd]; exact h.paddr
  traffic := h.traffic
  pending := by rw [hp]; exact h.pending
  chain := by rw [hd]; exact h.chain

theorem length_chain (h : NetInv n i q t out held slot userData) {r : Request} (hr : r ∈ out) :
    r.chain.length = 2 := by
  obtain ⟨d1, d2, paddr, len, hc, -⟩ := h.chain r hr
  rw [hc]
  rfl

theorem someCount_eq (h : NetInv n i q t out held slot userData) :
    someCount (n.pending i) = out.length := h.pending.someCount_eq h.traffic.nodup_out

/-- Every descriptor is free, of a pending request, or lost. -/
theorem conservation (h : NetInv n i q t out held slot userData) :
    q.numFree.toNat + 2 * someCount (n.pending i) + held.length = 128 := by
  have := h.traffic.conservation fun r hr => h.length_chain hr
  rw [h.num] at this
  rw [h.someCount_eq]
  exact this

/-- Without requests there are descriptors for one. -/
theorem two_free (h : NetInv n i q t [] [] slot userData) :
    ∃ d1 d2 rest, q.freeIds = d1 :: d2 :: rest := by
  have hcons := h.conservation
  rw [h.someCount_eq, ← length_freeIds] at hcons
  match hids : q.freeIds with
  | [] => simp [hids] at hcons
  | [d1] => simp [hids] at hcons
  | d1 :: d2 :: rest => exact ⟨d1, d2, rest, rfl⟩

/-! ### Submission -/

/-- Without a free descriptor the request is rejected. -/
theorem submit_none (h : NetInv n i q t out held slot userData) (hids : q.freeIds = [])
    (sqe : Sqe) : n.submit i sqe = .ret (.error .oom, n) := by
  simp [VirtIONet.submit, h.queue, allocDesc_nil hids, setQueue_eq h.queue]

/-- With one free descriptor the request is rejected, and the descriptor lost. -/
theorem submit_one (h : NetInv n i q t out held slot userData) (hids : q.freeIds = [d1])
    (sqe : Sqe) : ∃ q', n.submit i sqe = .ret (.error .oom, n.setQueue i q') ∧ SameRings q q' ∧
      NetInv (n.setQueue i q') i q' t out (d1 :: held) slot userData := by
  obtain ⟨h1, hids1, hinv1⟩ := h.traffic.allocDesc hids
  refine ⟨_, ?_, sameRings_popFree q, ⟨setQueue_queue _ _ _, h.num, h.paddr, hinv1, h.pending,
    h.chain⟩⟩
  simp [VirtIONet.submit, h.queue, h1, allocDesc_nil hids1]

/-- A request out of the boundary of the shared buffer loses the two descriptors it took. -/
theorem submit_stray (h : NetInv n i q t out held slot userData)
    (hids : q.freeIds = d1 :: d2 :: rest) (hd : dataPaddr n.buffer sqe = none) :
    ∃ q', n.submit i sqe = .ret (.error .invalidHeader, n.setQueue i q') ∧ SameRings q q' ∧
      q'.freeIds = rest ∧ NetInv (n.setQueue i q') i q' t out (d2 :: d1 :: held) slot userData := by
  obtain ⟨h1, hids1, hinv1⟩ := h.traffic.allocDesc hids
  obtain ⟨h2, hids2, hinv2⟩ := hinv1.allocDesc hids1
  refine ⟨_, ?_, (sameRings_popFree q).trans (sameRings_popFree _), hids2,
    ⟨setQueue_queue _ _ _, h.num, h.paddr, hinv2, h.pending, h.chain⟩⟩
  simp [VirtIONet.submit, h.queue, h1, h2, hd]

/-- What a request that passes the address check does to the queue while two descriptors are
free. -/
theorem submit_packet (h : NetInv n i q t out held slot userData)
    (hids : q.freeIds = d1 :: d2 :: rest) (hd : dataPaddr n.buffer sqe = some paddr) :
    ∃ q' idx, n.submit i sqe = .ret (.ok (), n.entered i (q'.submit d1) sqe d1 idx) ∧
      idx.val = d1.toNat ∧ TrafficInv q' t out ([d1, d2] ++ held) ∧ SameRings q q' ∧
      q'.freeIds = rest ∧ IsPacket q'.mem.desc n.dmaPaddr i paddr sqe.len d1 d2 ∧
      ∀ x, x ∉ [d1, d2] → q'.mem.desc x = q.mem.desc x := by
  obtain ⟨h1, hids1, hinv1⟩ := h.traffic.allocDesc hids
  obtain ⟨h2, hids2, hinv2⟩ := hinv1.allocDesc hids1
  have hinv3 : TrafficInv q.popFree.popFree t out ([d1, d2] ++ held) :=
    hinv2.perm (List.Perm.swap d1 d2 held)
  have hlt : d1.toNat < 128 := by
    have := hinv3.free.allocated_lt (show d1 ∈ _ by simp)
    rw [UInt16.lt_iff_toNat_lt] at this
    have hnum : q.popFree.popFree.num = 128 := h.num
    rw [hnum] at this
    exact this
  have hne : d1 ≠ d2 := by
    rintro rfl
    have := hinv3.free.nodup_allocated
    simp at this
  let w1 : Descriptor := ⟨n.dmaPaddr + hdrOffset i d1, UInt32.ofNat sizeOfVirtioNetHdr,
    if i = .rx then descFNext ||| descFWrite else descFNext, d2⟩
  let w2 : Descriptor := ⟨paddr, sqe.len, if i = .rx then descFWrite else 0, 0⟩
  obtain ⟨e1, hw1⟩ := hinv3.writeDesc (show d1 ∈ _ by simp) w1
  obtain ⟨e2, hw2⟩ := hw1.writeDesc (show d2 ∈ _ by simp) w2
  refine ⟨(q.popFree.popFree.writeDesc d1 w1).writeDesc d2 w2, ⟨d1.toNat, hlt⟩, ?_, rfl, hw2, ?_,
    by rw [e2, e1, hids2], ⟨?_, ?_⟩, ?_⟩
  · simp only [VirtIONet.submit, h.queue, h1, h2, hd, Outcome.ret_bind, dif_pos hlt]
    rfl
  · exact ((sameRings_popFree q).trans (sameRings_popFree _)).trans
      ((sameRings_writeDesc _ d1 w1).trans (sameRings_writeDesc _ d2 w2))
  · simp [writeDesc, setDesc, Function.update_of_ne hne, w1]
  · simp [writeDesc, setDesc, w2]
  · intro x hx
    simp only [List.mem_cons, List.not_mem_nil, or_false, not_or] at hx
    simp [writeDesc, setDesc, popFree, Function.update_of_ne hx.1, Function.update_of_ne hx.2]

/-- A request that passes the address check while two descriptors are free is submitted. -/
theorem submit_ok (h : NetInv n i q t out held slot userData)
    (hids : q.freeIds = d1 :: d2 :: rest) (hd : dataPaddr n.buffer sqe = some paddr) :
    ∃ q' idx, n.submit i sqe = .ret (.ok (), n.entered i q' sqe d1 idx) ∧
      q'.readAvail q.mem.availIdx = d1 ∧ q'.freeIds = rest ∧ (q'.mem.desc d1).next = d2 ∧
      q'.mem.desc d2 = ⟨paddr, sqe.len, if i = .rx then descFWrite else 0, 0⟩ ∧
      NetInv (n.entered i q' sqe d1 idx) i q' (t.submit d1)
        (out ++ [⟨t.submitted.length, [d1, d2]⟩]) held
        (Function.update slot t.submitted.length idx)
        (Function.update userData t.submitted.length sqe.userData) := by
  obtain ⟨q', idx, hsub, hidx, htraffic, hsame, hrest, hpacket, hdesc⟩ := h.submit_packet hids hd
  have hk : t.submitted.length ∉ out.map Request.pos := fun hm =>
    absurd ((h.traffic.mem_out _).1 hm).1 (lt_irrefl _)
  have hidle : n.pending i idx = none := by
    by_contra hsome
    -- an entry would be that of an outstanding request with the same head
    obtain ⟨r, hr, hslot⟩ := h.pending.occupied _ hsome
    obtain ⟨e1, e2, _, _, hc, hval, -⟩ := h.chain r hr
    have heq : e1 = d1 := by
      rw [← UInt16.toNat_inj, ← hval, hslot, hidx]
    exact htraffic.notMem_held hr (show d1 ∈ r.chain by simp [hc, heq]) (by simp)
  refine ⟨q'.submit d1, idx, hsub, hsame.readAvail_submit d1, hrest, ?_, hpacket.2, ?_⟩
  · show (q'.mem.desc d1).next = d2
    rw [hpacket.1]
  · refine
      { queue := setQueue_queue _ _ _
        num := hsame.num.trans h.num
        paddr := hsame.paddr.trans h.paddr
        traffic := htraffic.submit hpacket.linked (show [d1, d2].head? = some d1 from rfl)
        pending := ?_
        chain := ?_ }
    · show PendingInv (Function.update n.pending i _ i) _ _ _
      rw [Function.update_self]
      exact h.pending.insert hidle hk rfl
    · intro r hr
      rcases List.mem_append.1 hr with hr | hr
      · rw [Function.update_of_ne (by rintro he; exact hk (he ▸ List.mem_map_of_mem hr))]
        obtain ⟨e1, e2, p, len, hc, hval, hpkt⟩ := h.chain r hr
        refine ⟨e1, e2, p, len, hc, hval, hpkt.congr fun x hx => hdesc x fun hx' => ?_⟩
        -- a descriptor of another request is not one of the new ones
        exact htraffic.notMem_held hr (hc ▸ hx) (List.mem_append_left _ hx')
      · obtain rfl := List.mem_singleton.1 hr
        exact ⟨d1, d2, paddr, sqe.len, rfl, by rw [Function.update_self]; exact hidx, hpacket⟩

/-! ### Completion -/

/-- Without an unread used entry the loop ends. -/
theorem pop_none (h : NetInv n i q t out held slot userData)
    (hp : t.pops = t.published.length) : n.popCompletion i = .ret (false, n) := by
  simp [popCompletion, h.queue, h.traffic.pop_none hp, setQueue_eq h.queue]

/-- An unread used entry completes the request whose head the device published in it, and
returns its two descriptors. -/
theorem pop_some (h : NetInv n i q t out held slot userData)
    (hp : t.pops < t.published.length) :
    ∃ r ∈ out, ∃ d1 d2 q', r.pos = t.published[t.pops].1 ∧ r.chain = [d1, d2] ∧
      n.popCompletion i = .ret (true,
        n.completed i q' (slot r.pos) (userData r.pos) t.published[t.pops].2.len) ∧
      q'.freeIds = [d2, d1] ++ q.freeIds ∧
      NetInv (n.completed i q' (slot r.pos) (userData r.pos) t.published[t.pops].2.len) i q' t.pop
        (out.erase r) held slot userData := by
  obtain ⟨r, hr, head, hpos, hhead, hpop, hinv⟩ := h.traffic.pop hp
  obtain ⟨d1, d2, _, _, hc, hval, -⟩ := h.chain r hr
  obtain rfl : d1 = head := by simpa [hc] using hhead
  obtain ⟨x, hx, he⟩ := h.pending.entry r hr
  obtain rfl := Option.some.inj (hhead.symm.trans hx)
  obtain ⟨q', hq', hinv', hsame, hids, hdesc⟩ := hinv.freeChain (h.traffic.linked r hr) hhead
  have hid : d1.toUInt32.toNat = (slot r.pos).val := by rw [UInt16.toNat_toUInt32, hval]
  have hlt : d1.toUInt32.toNat < 128 := hid ▸ (slot r.pos).isLt
  have hslot : (⟨d1.toUInt32.toNat, hlt⟩ : Fin 128) = slot r.pos := Fin.ext hid
  refine ⟨r, hr, d1, d2, q', hpos, hc, ?_, by rw [hids, hc]; rfl, ?_⟩
  · simp only [popCompletion, h.queue, hpop, dif_pos hlt, hslot, he, hq', Outcome.ret_bind]
    rfl
  · exact
      { queue := setQueue_queue _ _ _
        num := hsame.num.trans h.num
        paddr := hsame.paddr.trans h.paddr
        traffic := hinv'
        pending := by
          show PendingInv (Function.update n.pending i _ i) _ _ _
          rw [Function.update_self]
          exact h.pending.erase h.traffic.nodup_out hr
        chain := fun r' hr' => by
          obtain ⟨e1, e2, p, len, hc', hval', hpkt⟩ := h.chain r' (List.mem_of_mem_erase hr')
          exact ⟨e1, e2, p, len, hc', hval', hpkt.congr fun x hx => hdesc r' hr' x (hc' ▸ hx)⟩ }

/-- A completion comes from an unread used entry. -/
theorem pops_lt (h : NetInv n i q t out held slot userData) {c : VirtIONet}
    (hn : n.popCompletion i = .ret (true, c)) : t.pops < t.published.length := by
  by_contra hge
  rw [h.pop_none (le_antisymm h.traffic.pops_le (Nat.not_lt.1 hge))] at hn
  simp at hn

/-- The loop ends when no used entry is left, and changes nothing then. -/
theorem pops_eq (h : NetInv n i q t out held slot userData) {c : VirtIONet}
    (hn : n.popCompletion i = .ret (false, c)) : t.pops = t.published.length ∧ n = c := by
  by_cases hlt : t.pops < t.published.length
  · obtain ⟨r, hr, d1, d2, q', -, -, hpop, -⟩ := h.pop_some hlt
    simp [hpop] at hn
  · have hall := le_antisymm h.traffic.pops_le (Nat.not_lt.1 hlt)
    rw [h.pop_none hall] at hn
    exact ⟨hall, (Prod.mk.inj (Outcome.ret.inj hn)).2⟩

/-! ### The device -/

/-- The device reads the next head. -/
theorem take (h : NetInv n i q t out held slot userData) (hne : t.devAvail ≠ q.mem.availIdx) :
    NetInv n i q (t.take q) out held slot userData :=
  { h with traffic := h.traffic.take hne }

/-- The device publishes a head that it read. -/
theorem publish (h : NetInv n i q t out held slot userData) {pos : ℕ} {elem : UsedElem}
    (hc : t.CanPublish pos elem) :
    NetInv (n.setQueue i (q.publishUsed elem)) i (q.publishUsed elem) (t.publish pos elem) out held
      slot userData where
  queue := setQueue_queue _ _ _
  num := h.num
  paddr := h.paddr
  traffic := h.traffic.publish hc
  pending := h.pending
  chain := h.chain

end NetInv

end GlendaDrivers
