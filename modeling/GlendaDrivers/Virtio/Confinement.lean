import GlendaDrivers.Virtio.BlockRuns
import GlendaDrivers.Virtio.NetRuns

/-!
# Payloads and the shared buffer

Both drivers translate the address of a request to a physical address, after a check that the
request lies in the shared buffer.  The check compares sums of 64-bit words, which wrap: for
an address close to the end of the address space `addr + len` wraps to a small value and passes.

* `Confined`: a payload descriptor lies in the buffer, at the place of the client's range;
* `Escapes`: the request passes the check and does not lie in the buffer;
* `confined_iff`: the translation of a request is confined iff it does not escape;
* `dma_confined_iff`: when a request is confined, or rejected without reaching the device, for
  both drivers and in every reachable state;
* `dma_escape`: a request whose payload lies outside of the buffer.
-/

namespace GlendaDrivers

open VirtQueue

/-- The addresses `[a, a + n)`, as unbounded integers. -/
def addrRange (a : UInt64) (n : ℕ) : Set ℤ := Set.Ico (a.toNat : ℤ) (a.toNat + n)

/-- Neither the client's range of the buffer nor its physical range wraps. -/
structure SharedMemory.NoWrap (shm : SharedMemory) : Prop where
  vaddr : shm.clientVaddr.toNat + shm.size.toNat ≤ 2 ^ 64
  paddr : shm.paddr.toNat + shm.size.toNat ≤ 2 ^ 64

/-- The descriptor's range lies in the buffer, and is the client's range, moved to where the
buffer is. -/
def Confined (shm : SharedMemory) (sqe : Sqe) (d : Descriptor) : Prop :=
  addrRange d.addr d.len.toNat ⊆ addrRange shm.paddr shm.size.toNat ∧
    addrRange d.addr d.len.toNat =
      (fun x => x + ((shm.paddr.toNat : ℤ) - shm.clientVaddr.toNat)) ''
        addrRange sqe.addr sqe.len.toNat

/-- The request passes the check in 64-bit arithmetic, but ends after the buffer. -/
def Escapes (shm : SharedMemory) (sqe : Sqe) : Prop :=
  shm.clientVaddr ≤ sqe.addr ∧ sqe.addr + sqe.len.toUInt64 ≤ shm.clientVaddr + shm.size ∧
    shm.clientVaddr.toNat + shm.size.toNat < sqe.addr.toNat + sqe.len.toNat

/-! ### The translation -/

variable {shm : SharedMemory} {sqe : Sqe} {paddr : UInt64}

theorem dataPaddr_eq_some : dataPaddr (some shm) sqe = some paddr ↔
    shm.clientVaddr ≤ sqe.addr ∧ sqe.addr + sqe.len.toUInt64 ≤ shm.clientVaddr + shm.size ∧
      shm.paddr + (sqe.addr - shm.clientVaddr) = paddr := by
  simp only [dataPaddr]
  by_cases h : sqe.addr < shm.clientVaddr ∨
      sqe.addr + sqe.len.toUInt64 > shm.clientVaddr + shm.size
  · rw [if_pos h]
    simp only [reduceCtorEq, false_iff, not_and]
    intro h1 h2
    rcases h with h | h
    · exact absurd h (UInt64.not_lt.2 h1)
    · exact absurd h (UInt64.not_lt.2 h2)
  · rw [if_neg h]
    rw [not_or, gt_iff_lt, UInt64.not_lt, UInt64.not_lt] at h
    simp [h.1, h.2]

/-- A request that escapes passes the check. -/
theorem Escapes.dataPaddr (h : Escapes shm sqe) :
    dataPaddr (some shm) sqe = some (shm.paddr + (sqe.addr - shm.clientVaddr)) :=
  dataPaddr_eq_some.2 ⟨h.1, h.2.1, rfl⟩

/-- A request that passes the check without escaping ends in the buffer. -/
theorem end_le (hd : dataPaddr (some shm) sqe = some paddr) (hn : ¬ Escapes shm sqe) :
    sqe.addr.toNat + sqe.len.toNat ≤ shm.clientVaddr.toNat + shm.size.toNat := by
  obtain ⟨h1, h2, -⟩ := dataPaddr_eq_some.1 hd
  by_contra hlt
  exact hn ⟨h1, h2, not_le.1 hlt⟩

/-- Only a range that is not empty can escape. -/
theorem Escapes.len_pos (h : Escapes shm sqe) (hw : shm.NoWrap) : 0 < sqe.len.toNat := by
  obtain ⟨h1, h2, h3⟩ := h
  have hv := hw.vaddr
  have hs := shm.size.toNat_lt
  rw [UInt64.le_iff_toNat_le] at h1 h2
  rw [UInt64.toNat_add, UInt64.toNat_add, UInt32.toNat_toUInt64] at h2
  by_contra hz
  have hz : sqe.len.toNat = 0 := by omega
  rw [hz, Nat.add_zero, Nat.mod_eq_of_lt sqe.addr.toNat_lt] at h2
  rcases Nat.lt_or_ge (shm.clientVaddr.toNat + shm.size.toNat) (2 ^ 64) with hlt | hge
  · rw [Nat.mod_eq_of_lt hlt] at h2
    omega
  · have he : shm.clientVaddr.toNat + shm.size.toNat = 2 ^ 64 := le_antisymm hv hge
    rw [he, Nat.mod_self] at h2
    omega

/-- The translation of a request that passes the check is confined iff it does not escape. -/
theorem confined_iff (hw : shm.NoWrap) (hd : dataPaddr (some shm) sqe = some paddr)
    {d : Descriptor} (haddr : d.addr = paddr) (hlen : d.len = sqe.len) :
    Confined shm sqe d ↔ ¬ Escapes shm sqe := by
  obtain ⟨h1, -, hp⟩ := dataPaddr_eq_some.1 hd
  have hle := UInt64.le_iff_toNat_le.1 h1
  have hsub : (sqe.addr - shm.clientVaddr).toNat = sqe.addr.toNat - shm.clientVaddr.toNat :=
    UInt64.toNat_sub_of_le _ _ h1
  have hphys := hw.paddr
  rw [Confined, haddr, hlen]
  simp only [addrRange, Set.image_add_const_Ico]
  constructor
  · rintro ⟨hin, heq⟩ hesc
    have hpos := hesc.len_pos hw
    have hend := hesc.2.2
    have hlt : (paddr.toNat : ℤ) < paddr.toNat + sqe.len.toNat := by omega
    -- the translated range starts where it should, and so ends after the buffer
    have hstart : (sqe.addr.toNat : ℤ) + (shm.paddr.toNat - shm.clientVaddr.toNat) ∈
        Set.Ico (paddr.toNat : ℤ) (paddr.toNat + sqe.len.toNat) := by
      rw [heq]
      exact ⟨le_rfl, by omega⟩
    have hstart' : (paddr.toNat : ℤ) ∈
        Set.Ico ((sqe.addr.toNat : ℤ) + (shm.paddr.toNat - shm.clientVaddr.toNat))
          (sqe.addr.toNat + sqe.len.toNat + (shm.paddr.toNat - shm.clientVaddr.toNat)) := by
      rw [← heq]
      exact ⟨le_rfl, hlt⟩
    have hbounds := (Set.Ico_subset_Ico_iff hlt).1 hin
    have := hstart.1
    have := hstart'.1
    omega
  · intro hn
    have hend := end_le hd hn
    rcases Nat.eq_zero_or_pos sqe.len.toNat with hz | hpos
    · simp [hz]
    · have hpaddr : paddr.toNat = shm.paddr.toNat + (sqe.addr.toNat - shm.clientVaddr.toNat) := by
        rw [← hp, UInt64.toNat_add, hsub, Nat.mod_eq_of_lt (by omega)]
      refine ⟨Set.Ico_subset_Ico (by omega) (by omega), ?_⟩
      congr 1 <;> omega

/-! ### The drivers -/

/-- The payload of the chain with head `head`: its second descriptor. -/
def VirtQueue.payload (q : VirtQueue) (head : UInt16) : Descriptor :=
  q.mem.desc (q.mem.desc head).next

/-- What a call that submits `sqe` to the queue `q` must do, by its result and the queue it
leaves: place a payload that is confined, or fail without reaching the available ring. -/
def SubmitConfined {ε : Type} (shm : SharedMemory) (sqe : Sqe) (q : VirtQueue) :
    Outcome (Except ε Unit × Option VirtQueue) → Prop
  | .ret (.ok (), some q') => Confined shm sqe (q'.payload (q'.readAvail q.mem.availIdx))
  | .ret (.error _, some q') =>
      q'.mem.availIdx = q.mem.availIdx ∧ q'.mem.availRing = q.mem.availRing
  | _ => False

/-- The block driver and a request of a client with the buffer `shm`. -/
def VirtIOBlk.Confines (b : VirtIOBlk) (shm : SharedMemory) (sqe : Sqe) : Prop :=
  ∃ q, b.queue = some q ∧
    SubmitConfined shm sqe q ((fun r => (r.1, r.2.queue)) <$> b.submitVirtioRequest sqe)

/-- Queue `i` of the network driver and a request of a client with the buffer `shm`. -/
def VirtIONet.Confines (n : VirtIONet) (i : NetDir) (shm : SharedMemory) (sqe : Sqe) : Prop :=
  ∃ q, n.queue i = some q ∧
    SubmitConfined shm sqe q ((fun r => (r.1, r.2.queue i)) <$> n.submit i sqe)

/-- Nothing but the address check can reject the request. -/
structure VirtIOBlk.Ready (b : VirtIOBlk) (sqe : Sqe) : Prop where
  aligned : sqe.len % b.blkSize = 0
  slot : b.freeSlot ≠ none
  opcode : requestType sqe.opcode ≠ none
  free : ∃ q, b.queue = some q ∧ 3 ≤ q.numFree.toNat

/-- Nothing but the address check can reject the request. -/
def VirtIONet.Ready (n : VirtIONet) (i : NetDir) : Prop :=
  ∃ q, n.queue i = some q ∧ 2 ≤ q.numFree.toNat

section Block

open VirtIOBlk

variable {b : VirtIOBlk} {q : VirtQueue} {t : Traffic} {answers : ℕ → Option UInt8}
  {out : List Request} {held : List UInt16} {slot : ℕ → Fin 64} {userData : ℕ → UInt64}

theorem BlkInv.confines_iff (h : BlkInv b q t answers out held slot userData)
    (hbuf : b.buffer = some shm) (hw : shm.NoWrap) (sqe : Sqe) :
    b.Confines shm sqe ↔ b.blkSize ≠ 0 ∧ ¬ (b.Ready sqe ∧ Escapes shm sqe) := by
  have hc : ∀ x, b.submitVirtioRequest sqe = x → (b.Confines shm sqe ↔
      SubmitConfined shm sqe q ((fun r => (r.1, r.2.queue)) <$> x)) := by
    rintro x rfl
    refine ⟨?_, fun hs => ⟨q, h.queue, hs⟩⟩
    rintro ⟨q', hq', hs⟩
    obtain rfl : q = q' := Option.some.inj (h.queue.symm.trans hq')
    exact hs
  -- a request that is ready and escapes is submitted
  have hok : b.blkSize ≠ 0 → b.Ready sqe → Escapes shm sqe →
      ∃ b', b.submitVirtioRequest sqe = .ret (.ok (), b') := by
    rintro hz ⟨hal, hslot, hop, q', hq', hfree⟩ hesc
    obtain rfl : q = q' := Option.some.inj (h.queue.symm.trans hq')
    obtain ⟨i, hi⟩ := Option.ne_none_iff_exists'.1 hslot
    obtain ⟨⟨type, w⟩, htype⟩ := Option.ne_none_iff_exists'.1 hop
    have ha : b.Admitted sqe q i type w _ :=
      ⟨hz, hal, hq', hi, h.dmaVaddr, htype, hbuf ▸ hesc.dataPaddr⟩
    obtain ⟨d1, d2, d3, q', hsub, -⟩ := h.submit_ok ha (by rwa [length_freeIds])
    exact ⟨_, hsub⟩
  rcases submit_cases b sqe with ⟨hz, hpan⟩ | ⟨r, b', hr, href⟩ | ⟨q₀, i, type, w, p, ha⟩
  · rw [hc _ hpan, Outcome.map_panic]
    simp [SubmitConfined, hz]
  · have hq' : b'.queue = some q := by
      rcases href.state with rfl | ⟨i, type, -, rfl⟩
      · exact h.queue
      · exact h.queue
    obtain ⟨e, rfl⟩ := href.error
    have hz : b.blkSize ≠ 0 := by
      intro hz
      simp [submitVirtioRequest, hz] at hr
    rw [hc _ hr, Outcome.map_ret, hq']
    refine iff_of_true ⟨rfl, rfl⟩ ⟨hz, ?_⟩
    rintro ⟨hready, hesc⟩
    obtain ⟨b'', hsub⟩ := hok hz hready hesc
    simp [hsub] at hr
  · obtain rfl : q = q₀ := Option.some.inj (h.queue.symm.trans ha.queue)
    have hd : dataPaddr (some shm) sqe = some p := hbuf ▸ ha.data
    rcases Nat.lt_or_ge q.freeIds.length 3 with hlt | hge
    · obtain ⟨q', hsub, -, hsame, -⟩ := h.submit_short ha hlt
      rw [hc _ hsub, Outcome.map_ret]
      refine iff_of_true ⟨hsame.availIdx, hsame.availRing⟩ ⟨ha.blkSize, ?_⟩
      rintro ⟨⟨-, -, -, q₀, hq₀, hfree⟩, -⟩
      obtain rfl : q = q₀ := Option.some.inj (h.queue.symm.trans hq₀)
      rw [length_freeIds] at hlt
      omega
    · obtain ⟨d1, d2, d3, q', hsub, havail, -, hchain, -⟩ := h.submit_ok ha hge
      have hready : b.Ready sqe := ⟨ha.aligned, by simp [ha.slot], by simp [ha.opcode], q, h.queue,
        by rwa [length_freeIds] at hge⟩
      have hpay : q'.payload d1 = q'.mem.desc d2 := by rw [payload, hchain.header]
      rw [hc _ hsub, Outcome.map_ret]
      show Confined shm sqe (q'.payload (q'.readAvail q.mem.availIdx)) ↔ _
      rw [havail, confined_iff hw hd (by rw [hpay, hchain.data]) (by rw [hpay, hchain.data])]
      simp [ha.blkSize, hready]

end Block

section Net

open VirtIONet

variable {n : VirtIONet} {i : NetDir} {q : VirtQueue} {t : Traffic} {out : List Request}
  {held : List UInt16} {slot : ℕ → Fin 128} {userData : ℕ → UInt64}

theorem NetInv.confines_iff (h : NetInv n i q t out held slot userData)
    (hbuf : n.buffer = some shm) (hw : shm.NoWrap) (sqe : Sqe) :
    n.Confines i shm sqe ↔ ¬ (n.Ready i ∧ Escapes shm sqe) := by
  have hc : ∀ x, n.submit i sqe = x → (n.Confines i shm sqe ↔
      SubmitConfined shm sqe q ((fun r => (r.1, r.2.queue i)) <$> x)) := by
    rintro x rfl
    refine ⟨?_, fun hs => ⟨q, h.queue, hs⟩⟩
    rintro ⟨q', hq', hs⟩
    obtain rfl : q = q' := Option.some.inj (h.queue.symm.trans hq')
    exact hs
  rcases h.submit_cases sqe with ⟨hnil, hsub⟩ | ⟨e, q', lost, -, hwhy, hsub, hsame, -⟩ |
    ⟨d1, d2, rest, p, hids, hd⟩
  · rw [hc _ hsub, Outcome.map_ret, h.queue]
    refine iff_of_true ⟨rfl, rfl⟩ ?_
    rintro ⟨⟨q₀, hq₀, hfree⟩, -⟩
    obtain rfl : q = q₀ := Option.some.inj (h.queue.symm.trans hq₀)
    rw [← length_freeIds, hnil] at hfree
    simp at hfree
  · rw [hc _ hsub, Outcome.map_ret, setQueue_queue]
    refine iff_of_true ⟨hsame.availIdx, hsame.availRing⟩ ?_
    rintro ⟨⟨q₀, hq₀, hfree⟩, hesc⟩
    obtain rfl : q = q₀ := Option.some.inj (h.queue.symm.trans hq₀)
    rcases hwhy with hlen | hd
    · rw [← length_freeIds] at hfree
      omega
    · rw [hbuf, hesc.dataPaddr] at hd
      exact absurd hd (by simp)
  · obtain ⟨q', idx, hsub, havail, -, hnext, hpay, -⟩ := h.submit_ok hids hd
    have hpay' : q'.payload d1 = q'.mem.desc d2 := by rw [payload, hnext]
    have hready : n.Ready i := ⟨q, h.queue, by rw [← length_freeIds, hids]; simp⟩
    rw [hc _ hsub, Outcome.map_ret, entered_queue]
    show Confined shm sqe (q'.payload (q'.readAvail q.mem.availIdx)) ↔ _
    rw [havail, confined_iff hw (hbuf ▸ hd) (by rw [hpay', hpay]) (by rw [hpay', hpay])]
    simp [hready]

end Net

/-- **Confinement of payloads.**  In every reachable state of either driver, with a registered
buffer that does not wrap, and for every request: the payload that is placed lies in the buffer,
at the place of the client's range, or the request is rejected without reaching the device, if
and only if the block size is not 0 (block driver), and the request does not, with nothing else
to reject it, pass the check by a sum that wraps. -/
theorem dma_confined_iff {shm : SharedMemory} (hw : shm.NoWrap) (sqe : Sqe) :
    (∀ b s, b.Started → BlkReach (.start b) s → s.blk.buffer = some shm →
      (s.blk.Confines shm sqe ↔ s.blk.blkSize ≠ 0 ∧ ¬ (s.blk.Ready sqe ∧ Escapes shm sqe))) ∧
    (∀ n s i, n.Started → NetReach (.start n) s → s.net.buffer = some shm →
      (s.net.Confines i shm sqe ↔ ¬ (s.net.Ready i ∧ Escapes shm sqe))) := by
  constructor
  · intro b s hb hs hbuf
    obtain ⟨q, out, held, slot, userData, h⟩ :=
      (BlkState.Inv.start hb (fun _ => 0) (fun _ => 0)).run hs
    exact h.blk.confines_iff hbuf hw sqe
  · intro n s i hn hs hbuf
    obtain ⟨held, h⟩ := (NetState.inv_start hn).run hs
    obtain ⟨q, out, slot, userData, h'⟩ := h i
    exact h'.confines_iff hbuf hw sqe

theorem noWrap_sharedPage : sharedPage.NoWrap := ⟨by decide, by decide⟩

/-- A request of one block at the start of the buffer, after `setup_shm`. -/
theorem dma_confined_read :
    (VirtIOBlk.setupShm (.initial 512) 0x10000 0x80000000 0x1000).Confines sharedPage
      ⟨.read, 0, 0x10000, 512, 0⟩ ∧
    ∀ i, (VirtIONet.setupShm (.initial none) 0x10000 0x80000000 0x1000).Confines i sharedPage
      ⟨.read, 0, 0x10000, 512, 0⟩ := by
  have hno : ¬ Escapes sharedPage ⟨.read, 0, 0x10000, 512, 0⟩ := by
    unfold Escapes
    decide
  obtain ⟨hblk, hnet⟩ := dma_confined_iff noWrap_sharedPage ⟨.read, 0, 0x10000, 512, 0⟩
  have hb : BlkReach (.start (.initial 512)) _ := .single (.setup _ 0x10000 0x80000000 0x1000 rfl)
  have hn : NetReach (.start (.initial none)) _ := .single (.setup _ 0x10000 0x80000000 0x1000 rfl)
  refine ⟨(hblk _ _ (VirtIOBlk.started_initial 512) hb rfl).2 ⟨?_, fun h => hno h.2⟩,
    fun i => (hnet _ _ i (VirtIONet.started_initial none) hn rfl).2 fun h => hno h.2⟩
  show (512 : UInt32) ≠ 0
  decide

/-- A request of 512 bytes at the end of the address space: `addr + len` wraps to 0 and passes,
and the payload lies below the buffer, whose first byte is at 0x80000000. -/
theorem dma_escape :
    sharedPage.NoWrap ∧
    dataPaddr (some sharedPage) ⟨.write, 0, 0xFFFFFFFFFFFFFE00, 512, 0⟩ = some 0x7FFEFE00 ∧
    (∃ s, BlkReach (.start (.initial 512)) s ∧ s.blk.buffer = some sharedPage ∧
      ¬ s.blk.Confines sharedPage ⟨.write, 0, 0xFFFFFFFFFFFFFE00, 512, 0⟩) ∧
    ∃ s, NetReach (.start (.initial none)) s ∧ s.net.buffer = some sharedPage ∧
      ¬ s.net.Confines .tx sharedPage ⟨.write, 0, 0xFFFFFFFFFFFFFE00, 512, 0⟩ := by
  have hesc : Escapes sharedPage ⟨.write, 0, 0xFFFFFFFFFFFFFE00, 512, 0⟩ := by
    unfold Escapes
    decide
  have hfree : ∀ {index : UInt32} {paddr : UInt64},
      3 ≤ (fresh index 128 paddr .zeroed).numFree.toNat := by
    intro index paddr
    show 3 ≤ (128 : UInt16).toNat
    decide
  have hb : BlkReach (.start (.initial 512)) _ := .single (.setup _ 0x10000 0x80000000 0x1000 rfl)
  have hn : NetReach (.start (.initial none)) _ := .single (.setup _ 0x10000 0x80000000 0x1000 rfl)
  refine ⟨noWrap_sharedPage, hesc.dataPaddr, ⟨_, hb, rfl, fun hc => ?_⟩, ⟨_, hn, rfl, fun hc => ?_⟩⟩
  · obtain ⟨q, out, held, slot, userData, h⟩ :=
      (BlkState.Inv.start (VirtIOBlk.started_initial 512) (fun _ => 0) (fun _ => 0)).run hb
    have hslot : (VirtIOBlk.initial 512).freeSlot ≠ none := by decide
    exact ((h.blk.confines_iff rfl noWrap_sharedPage _).1 hc).2
      ⟨⟨rfl, hslot, by decide, _, rfl, hfree⟩, hesc⟩
  · obtain ⟨held, h⟩ := (NetState.inv_start (VirtIONet.started_initial none)).run hn
    obtain ⟨q, out, slot, userData, h'⟩ := h .tx
    exact (h'.confines_iff rfl noWrap_sharedPage _).1 hc
      ⟨⟨_, rfl, (by decide : 2 ≤ 3).trans hfree⟩, hesc⟩

end GlendaDrivers
