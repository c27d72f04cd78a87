import GlendaDrivers.Lib.BlockDisk
import GlendaDrivers.Sys.Ramdisk
import GlendaDrivers.Virtio.BlockRuns

/-!
# Which bytes of the disk the two block drivers address

* `VirtIOBlk.deviceRequest`: the request that a device finds in a chain, and the transfer it makes;
* `BlkState.Headed`: the device finds every outstanding request as the client made it, whatever
  happened since its submission;
* `Ramdisk.Moves`, `BlkState.Moves`: the transfers of accepted requests;
* `block_geometry`: when capacities and transfers are those of blocks;
* `blocks_overlap`: two blocks that share bytes.

The capacity field and the sectors of a VirtIO disk count 512 bytes, whatever its block size.
-/

namespace GlendaDrivers

open VirtQueue VirtIOBlk BlockDisk

/-! ### The device's view -/

/-- A request as a device finds it. -/
structure DeviceRequest where
  type : ℕ
  sector : ℕ
  addr : UInt64
  len : UInt32
  deriving DecidableEq

/-- What a device moves for a READ or a WRITE. -/
def DeviceRequest.transfer (r : DeviceRequest) : Transfer :=
  ⟨512 * r.sector, r.len.toNat, r.type = virtioBlkTOut.toNat⟩

/-- The request in the chain at `head`: the header in the first descriptor's buffer, and the
buffer of the second descriptor. -/
def VirtIOBlk.deviceRequest (b : VirtIOBlk) (q : VirtQueue) (head : UInt16) : DeviceRequest :=
  let first := q.mem.desc head
  let header := Bytes.read b.dma (first.addr - b.dmaPaddr) first.len.toNat
  let data := q.mem.desc first.next
  ⟨Bytes.ofLittle (header.take 4), Bytes.ofLittle (header.drop 8), data.addr, data.len⟩

/-- The header as a device reads it. -/
theorem ofLittle_header (type : UInt32) (sector : UInt64) :
    Bytes.ofLittle ((virtIOBlkReq type sector).take 4) = type.toNat ∧
      Bytes.ofLittle ((virtIOBlkReq type sector).drop 8) = sector.toNat := by
  have htype : (virtIOBlkReq type sector).take 4 = Bytes.little 4 type.toNat := by
    rw [virtIOBlkReq, List.append_assoc, List.take_left' (Bytes.length_little _ _)]
  have hsector : (virtIOBlkReq type sector).drop 8 = Bytes.little 8 sector.toNat := by
    rw [virtIOBlkReq, List.drop_left' (by simp)]
  rw [htype, hsector]
  exact ⟨Bytes.ofLittle_little type.toNat_lt, Bytes.ofLittle_little sector.toNat_lt⟩

/-! ### Headers keep their bytes -/

theorem length_virtIOBlkReq (type : UInt32) (sector : UInt64) :
    (virtIOBlkReq type sector).length = 16 := by
  simp [virtIOBlkReq]

/-- The bytes of two slots are apart. -/
theorem disjoint_header {i j : Fin 64} (h : i ≠ j) :
    Disjoint (Bytes.span (reqOffset i) 16) (Bytes.span (reqOffset j) 16) := by
  have hi := i.isLt
  have hj := j.isLt
  have hi' := reqOffset_toNat i
  have hj' := reqOffset_toNat j
  rw [← UInt64.zero_add (reqOffset i), ← UInt64.zero_add (reqOffset j)]
  rcases Nat.lt_or_gt_of_ne (Fin.val_ne_of_ne h) with hlt | hgt
  · exact Bytes.disjoint_span (by omega) (by omega)
  · exact (Bytes.disjoint_span (by omega) (by omega)).symm

/-- Headers and status bytes are apart. -/
theorem disjoint_header_status (i j : Fin 64) :
    Disjoint (Bytes.span (reqOffset i) 16) (Bytes.span (statusOffset j) 1) := by
  have hi := i.isLt
  have hj := j.isLt
  have hi' := reqOffset_toNat i
  have hj' := statusOffset_toNat j
  rw [← UInt64.zero_add (reqOffset i), ← UInt64.zero_add (statusOffset j)]
  exact Bytes.disjoint_span (by omega) (by omega)

namespace VirtIOBlk

variable {b : VirtIOBlk} {i j : Fin 64}

/-- Slot `i` as `writeHeader` leaves it. -/
theorem read_writeHeader (b : VirtIOBlk) (i : Fin 64) (type : UInt32) (sector : UInt64) :
    Bytes.read (b.writeHeader i type sector).dma (reqOffset i) 16 = virtIOBlkReq type sector := by
  have hlen := length_virtIOBlkReq type sector
  rw [writeHeader, Bytes.read_write_of_disjoint (disjoint_header_status i i), ← hlen]
  exact Bytes.read_write _ _ (by rw [hlen]; norm_num)

/-- Another slot is left alone. -/
theorem read_writeHeader_of_ne (b : VirtIOBlk) (h : j ≠ i) (type : UInt32) (sector : UInt64) :
    Bytes.read (b.writeHeader i type sector).dma (reqOffset j) 16 =
      Bytes.read b.dma (reqOffset j) 16 := by
  rw [writeHeader, Bytes.read_write_of_disjoint (disjoint_header_status j i)]
  refine Bytes.read_write_of_disjoint ?_
  rw [length_virtIOBlkReq]
  exact disjoint_header h

/-- A status byte is not part of a header. -/
theorem read_deviceWrite (b : VirtIOBlk) (i j : Fin 64) (v : UInt8) :
    Bytes.read (b.deviceWrite (b.dmaPaddr + statusOffset i) v).dma (reqOffset j) 16 =
      Bytes.read b.dma (reqOffset j) 16 := by
  have hoff : b.dmaPaddr + statusOffset i - b.dmaPaddr = statusOffset i := by
    rw [UInt64.add_comm, UInt64.add_sub_cancel]
  rw [deviceWrite, hoff]
  exact Bytes.read_write_of_disjoint (disjoint_header_status j i)

end VirtIOBlk

/-- The request in a chain whose header is in slot `i`. -/
theorem VirtIOBlk.IsChain.deviceRequest {b : VirtIOBlk} {q : VirtQueue} {i : Fin 64}
    {isWrite : Bool} {paddr : UInt64} {len : UInt32} {d1 d2 d3 : UInt16}
    (h : IsChain q.mem.desc b.dmaPaddr i isWrite paddr len d1 d2 d3) :
    b.deviceRequest q d1 =
      ⟨Bytes.ofLittle ((Bytes.read b.dma (reqOffset i) 16).take 4),
        Bytes.ofLittle ((Bytes.read b.dma (reqOffset i) 16).drop 8), paddr, len⟩ := by
  have hoff : b.dmaPaddr + reqOffset i - b.dmaPaddr = reqOffset i := by
    rw [UInt64.add_comm, UInt64.add_sub_cancel]
  simp only [VirtIOBlk.deviceRequest, h.header, h.data, hoff]
  rfl

/-- What a device finds in the chain of an outstanding request depends on its descriptors and on
its header only. -/
theorem BlkInv.deviceRequest_congr {b b' : VirtIOBlk} {q q' : VirtQueue} {t : Traffic}
    {answers : ℕ → Option UInt8} {out : List Request} {held : List UInt16} {slot : ℕ → Fin 64}
    {userData : ℕ → UInt64} (h : BlkInv b q t answers out held slot userData) {r : Request}
    (hr : r ∈ out) {head : UInt16} (hhead : r.chain.head? = some head)
    (hdesc : ∀ x ∈ r.chain, q'.mem.desc x = q.mem.desc x) (hbase : b'.dmaPaddr = b.dmaPaddr)
    (hdma : Bytes.read b'.dma (reqOffset (slot r.pos)) 16 =
      Bytes.read b.dma (reqOffset (slot r.pos)) 16) :
    b'.deviceRequest q' head = b.deviceRequest q head := by
  obtain ⟨d1, d2, d3, w, p, len, hc, hchain⟩ := h.chain r hr
  obtain rfl : d1 = head := by simpa [hc] using hhead
  have hchain' : IsChain q'.mem.desc b'.dmaPaddr (slot r.pos) w p len d1 d2 d3 := by
    rw [hbase]
    exact hchain.congr fun x hx => hdesc x (hc ▸ hx)
  rw [hchain.deviceRequest, hchain'.deviceRequest, hdma]

namespace BlkState

/-- The device finds a request as the client made it. -/
def Finds (s : BlkState) (q : VirtQueue) (head : UInt16) (sqe : Sqe) : Prop :=
  ∃ type isWrite paddr, requestType sqe.opcode = some (type, isWrite) ∧
    s.blk.deviceRequest q head = ⟨type.toNat, sqe.off.toNat, paddr, sqe.len⟩

/-- The request `sqe` was submitted with the head `head`, and was not popped. -/
structure Outstanding (s : BlkState) (pos : ℕ) (sqe : Sqe) (head : UInt16) : Prop where
  request : ∃ n, s.accepted[pos]? = some n ∧ s.fetched[n]? = some sqe
  submitted : s.traffic.submitted[pos]? = some head
  notMem : pos ∉ s.traffic.popped

/-- The device finds every outstanding request as the client made it, its length in whole
blocks. -/
def Headed (s : BlkState) : Prop :=
  ∀ pos sqe head, s.Outstanding pos sqe head →
    sqe.len % s.blk.blkSize = 0 ∧ ∃ q, s.blk.queue = some q ∧ s.Finds q head sqe

namespace Headed

variable {s t : BlkState} {blkSize : UInt32} {before : List (UInt64 × Int32)} {q q' : VirtQueue}
  {out : List Request} {held : List UInt16} {slot : ℕ → Fin 64} {userData : ℕ → UInt64}
  {sqe : Sqe} {todo : List Sqe} {pos : ℕ} {head : UInt16}

/-- One outstanding request, whose chain and header are left alone. -/
theorem keepOne (h : s.Headed) (hs : s.Inv blkSize before q out held slot userData)
    (hq' : t.blk.queue = some q') (hsize : t.blk.blkSize = s.blk.blkSize)
    (hbase : t.blk.dmaPaddr = s.blk.dmaPaddr) (ho : s.Outstanding pos sqe head)
    (hkept : ∀ r ∈ out, r.pos = pos → (∀ x ∈ r.chain, q'.mem.desc x = q.mem.desc x) ∧
      Bytes.read t.blk.dma (reqOffset (slot r.pos)) 16 =
        Bytes.read s.blk.dma (reqOffset (slot r.pos)) 16) :
    sqe.len % t.blk.blkSize = 0 ∧ ∃ q, t.blk.queue = some q ∧ t.Finds q head sqe := by
  obtain ⟨hlen, q₀, hq, type, w, paddr, hop, hreq⟩ := h pos sqe head ho
  obtain rfl : q = q₀ := Option.some.inj (hs.blk.queue.symm.trans hq)
  obtain ⟨r, hr, rfl⟩ := List.mem_map.1 ((hs.blk.traffic.mem_out pos).2
    ⟨(List.getElem?_eq_some_iff.1 ho.submitted).1, ho.notMem⟩)
  have hhead : r.chain.head? = some head := (hs.blk.traffic.head r hr).trans ho.submitted
  obtain ⟨hdesc, hdma⟩ := hkept r hr rfl
  refine ⟨hsize ▸ hlen, q', hq', type, w, paddr, hop, ?_⟩
  rw [hs.blk.deviceRequest_congr hr hhead hdesc hbase hdma, hreq]

/-- A step that leaves the headers and the descriptors alone, and submits nothing. -/
theorem keep (h : s.Headed) (hs : s.Inv blkSize before q out held slot userData)
    (hq' : t.blk.queue = some q') (hsize : t.blk.blkSize = s.blk.blkSize)
    (hbase : t.blk.dmaPaddr = s.blk.dmaPaddr)
    (hout : ∀ pos sqe head, t.Outstanding pos sqe head → s.Outstanding pos sqe head)
    (hdesc : ∀ r ∈ out, ∀ x ∈ r.chain, q'.mem.desc x = q.mem.desc x)
    (hdma : ∀ r ∈ out, Bytes.read t.blk.dma (reqOffset (slot r.pos)) 16 =
      Bytes.read s.blk.dma (reqOffset (slot r.pos)) 16) : t.Headed := fun pos sqe head ho =>
  h.keepOne hs hq' hsize hbase (hout pos sqe head ho) fun r hr _ => ⟨hdesc r hr, hdma r hr⟩

/-- A request is submitted. -/
theorem accept (h : s.Headed) (hs : s.Inv blkSize before q out held slot userData)
    {b : VirtIOBlk} (hp : s.phase = .submitting (sqe :: todo))
    (hb : s.blk.submitVirtioRequest sqe = .ret (.ok (), b)) (hq' : b.queue = some q') :
    Headed { s with
      blk := b
      phase := .submitting todo
      traffic := s.traffic.submit (q'.readAvail q.mem.availIdx)
      handed := s.handed + 1
      accepted := s.accepted ++ [s.handed]
      calls := s.calls ++ newCalls s.handed s.blk.completions b.completions } := by
  obtain ⟨hget, -⟩ := hs.next hp
  rcases submit_cases s.blk sqe with ⟨-, hpan⟩ | ⟨r, c, hr, ⟨⟨e, rfl⟩, -⟩⟩ | ⟨q₀, i, type, w, p, ha⟩
  · simp [hpan] at hb
  · simp [hr] at hb
  obtain rfl : q = q₀ := Option.some.inj (hs.blk.queue.symm.trans ha.queue)
  rcases Nat.lt_or_ge q.freeIds.length 3 with hlt | hge
  · obtain ⟨q₁, hsub, -⟩ := hs.blk.submit_short ha hlt
    simp [hsub] at hb
  obtain ⟨d1, d2, d3, q₁, hsub, htraffic, hsame, -, hchain, hdesc⟩ := hs.blk.submit_chain ha hge
  obtain rfl : s.blk.entered (q₁.submit d1) i type sqe d1 = b :=
    (Prod.mk.inj (Outcome.ret.inj (hsub.symm.trans hb))).2
  obtain rfl : q₁.submit d1 = q' := Option.some.inj hq'
  rw [hsame.readAvail_submit d1]
  intro pos sqe' head ho
  obtain ⟨n, hacc, hget'⟩ := ho.request
  have hacc : (s.accepted ++ [s.handed])[pos]? = some n := hacc
  have hsubm : (s.traffic.submitted ++ [d1])[pos]? = some head := ho.submitted
  rcases Nat.lt_or_ge pos s.accepted.length with hlt | hge
  · -- a request that was outstanding before
    rw [List.getElem?_append_left hlt] at hacc
    rw [List.getElem?_append_left (hs.length ▸ hlt)] at hsubm
    refine h.keepOne hs rfl rfl rfl ⟨⟨n, hacc, hget'⟩, hsubm, ho.notMem⟩ fun r hr _ => ⟨?_, ?_⟩
    · intro x hx
      exact hdesc x fun hm => htraffic.notMem_held hr hx (List.mem_append_left _ hm)
    · exact read_writeHeader_of_ne s.blk (hs.blk.slot_ne ha.slot hr) type sqe.off
  · -- the new one
    have hlt := (List.getElem?_eq_some_iff.1 hacc).1
    rw [List.length_append, List.length_singleton] at hlt
    obtain rfl : pos = s.accepted.length := by omega
    obtain rfl : s.handed = n := by simpa using hacc
    obtain rfl : d1 = head := by
      rw [hs.length] at hsubm
      simpa using hsubm
    obtain rfl := Option.some.inj (hget.symm.trans hget')
    refine ⟨ha.aligned, _, rfl, type, w, p, ha.opcode, ?_⟩
    have hchain' : IsChain (q₁.submit d1).mem.desc
      (s.blk.entered (q₁.submit d1) i type sqe d1).dmaPaddr i w p sqe.len d1 d2 d3 := hchain
    have hread : Bytes.read (s.blk.entered (q₁.submit d1) i type sqe d1).dma (reqOffset i) 16 =
      virtIOBlkReq type sqe.off := read_writeHeader s.blk i type sqe.off
    obtain ⟨htype, hsector⟩ := ofLittle_header type sqe.off
    show (s.blk.entered (q₁.submit d1) i type sqe d1).deviceRequest (q₁.submit d1) d1 = _
    rw [hchain'.deviceRequest, hread, htype, hsector]

/-- The outstanding requests of a state with the same requests and the same traffic. -/
theorem outstanding_of_eq (ha : t.accepted = s.accepted) (hf : t.fetched = s.fetched)
    (hsub : t.traffic.submitted = s.traffic.submitted) (hpop : t.traffic.popped = s.traffic.popped)
    (pos : ℕ) (sqe : Sqe) (head : UInt16) (ho : t.Outstanding pos sqe head) :
    s.Outstanding pos sqe head := by
  obtain ⟨⟨n, hacc, hget⟩, hhead, hnm⟩ := ho
  exact ⟨⟨n, ha ▸ hacc, hf ▸ hget⟩, hsub ▸ hhead, hpop ▸ hnm⟩

/-- A step that leaves the requests, their queue and the driver's memory alone. -/
theorem of_eq (h : s.Headed) (hs : s.Inv blkSize before q out held slot userData)
    (hq : t.blk.queue = s.blk.queue) (hz : t.blk.blkSize = s.blk.blkSize)
    (hb : t.blk.dmaPaddr = s.blk.dmaPaddr) (hd : t.blk.dma = s.blk.dma)
    (ha : t.accepted = s.accepted) (hf : t.fetched = s.fetched)
    (hsub : t.traffic.submitted = s.traffic.submitted)
    (hpop : t.traffic.popped = s.traffic.popped) : t.Headed := by
  refine h.keep hs (hq.trans hs.blk.queue) hz hb (outstanding_of_eq ha hf hsub hpop)
    (fun _ _ _ _ => rfl) fun _ _ => ?_
  rw [hd]

/-- A request is rejected; the header of a request that was not submitted may be written. -/
theorem reject (h : s.Headed) (hs : s.Inv blkSize before q out held slot userData) {e : Error}
    {b : VirtIOBlk} (hb : s.blk.submitVirtioRequest sqe = .ret (.error e, b))
    (hblk : t.blk.queue = (b.complete sqe.userData (-1)).queue ∧
      t.blk.blkSize = (b.complete sqe.userData (-1)).blkSize ∧
      t.blk.dmaPaddr = (b.complete sqe.userData (-1)).dmaPaddr ∧
      t.blk.dma = (b.complete sqe.userData (-1)).dma)
    (ha : t.accepted = s.accepted) (hf : t.fetched = s.fetched) (ht : t.traffic = s.traffic) :
    t.Headed := by
  obtain ⟨hq, hz, hbase, hd⟩ := hblk
  have hout := outstanding_of_eq ha hf (congrArg _ ht) (congrArg _ ht)
  rcases submit_cases s.blk sqe with ⟨-, hpan⟩ | ⟨r, c, hr, href⟩ | ⟨q₀, i, type, w, p, hadm⟩
  · simp [hpan] at hb
  · obtain ⟨-, rfl⟩ := Prod.mk.inj (Outcome.ret.inj (hr.symm.trans hb))
    rcases href.state with rfl | ⟨i, type, hi, rfl⟩
    · exact h.of_eq hs hq hz hbase hd ha hf (congrArg _ ht) (congrArg _ ht)
    · refine h.keep hs (hq.trans hs.blk.queue) hz hbase hout (fun _ _ _ _ => rfl) fun r hr => ?_
      rw [hd]
      exact read_writeHeader_of_ne s.blk (hs.blk.slot_ne hi hr) type sqe.off
  · obtain rfl : q = q₀ := Option.some.inj (hs.blk.queue.symm.trans hadm.queue)
    rcases Nat.lt_or_ge q.freeIds.length 3 with hlt | hge
    · obtain ⟨q₁, hsub, -, -, -, hdesc⟩ := submitChain_short (s.blk.writeHeader i type sqe.off)
        sqe i w p hs.blk.traffic hlt
      obtain ⟨-, rfl⟩ := Prod.mk.inj (Outcome.ret.inj ((hadm.submit.trans hsub).symm.trans hb))
      refine h.keep hs hq hz hbase hout (fun _ _ x _ => by rw [hdesc]) fun r hr => ?_
      rw [hd]
      exact read_writeHeader_of_ne s.blk (hs.blk.slot_ne hadm.slot hr) type sqe.off
    · obtain ⟨d1, d2, d3, q₁, hsub, -⟩ := hs.blk.submit_chain hadm hge
      simp [hsub] at hb

/-- A completion is popped; the request that it answers is not outstanding any more. -/
theorem pop (h : s.Headed) (hs : s.Inv blkSize before q out held slot userData) {b : VirtIOBlk}
    (hb : s.blk.popCompletion = .ret (true, b)) {calls : List (ℕ × UInt64 × Int32)} :
    Headed { s with blk := b, traffic := s.traffic.pop, calls := calls } := by
  have hpops := hs.blk.pops_lt hb
  obtain ⟨r, hr, d1, d2, d3, st, q₁, hpos, -, -, hpop, -, -, -, hframe⟩ := hs.blk.pop_chain hpops
  obtain rfl : s.blk.completed q₁ (slot r.pos) (userData r.pos) st = b :=
    (Prod.mk.inj (Outcome.ret.inj (hpop.symm.trans hb))).2
  rintro pos sqe head ⟨hreq, hhead, hnm⟩
  have hnm : pos ∉ s.traffic.pop.popped := hnm
  rw [s.traffic.popped_pop hpops, ← hpos, List.mem_append, not_or, List.mem_singleton] at hnm
  refine h.keepOne hs rfl rfl rfl ⟨hreq, hhead, hnm.1⟩ fun r' hr' hpos' => ⟨?_, rfl⟩
  -- the request is not the one that was popped
  have hne : r' ≠ r := by
    rintro rfl
    exact hnm.2 hpos'.symm
  exact hframe r' ((List.mem_erase_of_ne hne).2 hr')

/-- Every step keeps the headers of the outstanding requests. -/
theorem step (h : s.Headed) (hs : s.Inv blkSize before q out held slot userData)
    (hstep : BlkStep s t) : t.Headed := by
  cases hstep with
  | client server sqe hserver => exact h.of_eq hs rfl rfl rfl rfl rfl rfl rfl rfl
  | setup vaddr paddr size hp => exact h.of_eq hs rfl rfl rfl rfl rfl rfl rfl rfl
  | fetch server hp hserver =>
    refine h.keep hs hs.blk.queue rfl rfl ?_ (fun _ _ _ _ => rfl) fun _ _ => rfl
    rintro pos sqe head ⟨⟨n, hacc, hget⟩, hhead, hnm⟩
    have hlt := hs.ledger.lt n (List.mem_of_getElem? hacc)
    exact ⟨⟨n, hacc, hs.ledger.getElem?_of_lt hlt _ ▸ hget⟩, hhead, hnm⟩
  | accept sqe todo b q₀ q' hp hb hq hq' =>
    obtain rfl : q = q₀ := Option.some.inj (hs.blk.queue.symm.trans hq)
    exact h.accept hs hp hb hq'
  | reject sqe todo e b hp hb => exact h.reject hs hb ⟨rfl, rfl, rfl, rfl⟩ rfl rfl rfl
  | submitted hp => exact h.of_eq hs rfl rfl rfl rfl rfl rfl rfl rfl
  | irq hp => exact h.of_eq hs rfl rfl rfl rfl rfl rfl rfl rfl
  | pop b hp hb => exact h.pop hs hb
  | popDone b hp hb =>
    obtain rfl := hs.popDone hb
    exact h.of_eq hs rfl rfl rfl rfl rfl rfl rfl rfl
  | raise v => exact h.of_eq hs rfl rfl rfl rfl rfl rfl rfl rfl
  | take q₀ hq hne => exact h.of_eq hs rfl rfl rfl rfl rfl rfl rfl rfl
  | answer q₀ pos head status hq hhead hnew =>
    obtain rfl : q = q₀ := Option.some.inj (hs.blk.queue.symm.trans hq)
    obtain ⟨r, hr, -, hhead'⟩ := hs.blk.exists_of_taken hhead hnew
    rw [hs.blk.chainEnd_eq hr hhead']
    exact h.keep hs hs.blk.queue rfl rfl (outstanding_of_eq rfl rfl rfl rfl)
      (fun _ _ _ _ => rfl) fun r' _ => read_deviceWrite s.blk _ _ _
  | publish q₀ pos elem hq hc ha =>
    obtain rfl : q = q₀ := Option.some.inj (hs.blk.queue.symm.trans hq)
    have hpop : (s.traffic.publish pos elem).popped = s.traffic.popped :=
      s.traffic.popped_publish hs.blk.traffic.pops_le pos elem
    exact h.keep hs rfl rfl rfl (outstanding_of_eq rfl rfl rfl hpop) (fun _ _ _ _ => rfl)
      fun _ _ => rfl

/-- In every reachable state. -/
theorem run {b : VirtIOBlk} (hb : b.Started) (hs : BlkReach (.start b) s) :
    s.Headed ∧ s.blk.blkSize = b.blkSize := by
  have hstart := Inv.start hb (fun _ => 0) fun _ => 0
  have hnone : Headed (.start b) := by
    rintro pos sqe head ⟨⟨n, hacc, -⟩, -⟩
    simp [BlkState.start] at hacc
  have hrun : s.Headed := by
    induction hs with
    | refl => exact hnone
    | tail hreach hstep ih =>
      obtain ⟨q, out, held, slot, userData, hinv⟩ := hstart.run hreach
      exact ih.step hinv hstep
  obtain ⟨q, out, held, slot, userData, hinv⟩ := hstart.run hs
  exact ⟨hrun, hinv.blkSize⟩

end Headed

end BlkState

/-! ### Geometry -/

/-- A request of whole blocks, and a transfer of exactly these blocks. -/
def Sqe.Exact (sqe : Sqe) (blockSize : ℕ) (t : Transfer) : Prop :=
  ∃ k, sqe.len.toNat = k * blockSize ∧ Addresses t blockSize sqe.off.toNat k

/-- Two requests of whole blocks for different blocks. -/
def Sqe.Different (sqe sqe' : Sqe) (blockSize : ℕ) : Prop :=
  ∃ k k', sqe.len.toNat = k * blockSize ∧ sqe'.len.toNat = k' * blockSize ∧
    (sqe.off.toNat + k ≤ sqe'.off.toNat ∨ sqe'.off.toNat + k' ≤ sqe.off.toNat)

theorem Sqe.exact_iff {sqe : Sqe} {blockSize : ℕ} {t : Transfer} (hlen : t.len = sqe.len.toNat)
    (hmod : sqe.len.toNat % blockSize = 0) :
    sqe.Exact blockSize t ↔ t.start = sqe.off.toNat * blockSize ∨ sqe.len = 0 := by
  have hzero : t.len = 0 ↔ sqe.len = 0 := by
    rw [hlen, ← UInt32.toNat_zero, UInt32.toNat_inj]
  have hk : sqe.len.toNat = sqe.len.toNat / blockSize * blockSize :=
    (Nat.div_mul_cancel (Nat.dvd_of_mod_eq_zero hmod)).symm
  rw [← hzero]
  constructor
  · rintro ⟨k, hk, ha⟩
    exact (addresses_iff (hlen.trans hk)).1 ha
  · intro h
    exact ⟨_, hk, (addresses_iff (hlen.trans hk)).2 h⟩

/-- Exact transfers for different blocks do not meet. -/
theorem Sqe.Exact.disjoint {sqe sqe' : Sqe} {blockSize : ℕ} {t t' : Transfer} (hb : 0 < blockSize)
    (h : sqe.Exact blockSize t) (h' : sqe'.Exact blockSize t')
    (hd : sqe.Different sqe' blockSize) : Disjoint t.bytes t'.bytes := by
  obtain ⟨k, hk, ha⟩ := h
  obtain ⟨k', hk', ha'⟩ := h'
  obtain ⟨l, l', hl, hl', hne⟩ := hd
  obtain rfl := Nat.eq_of_mul_eq_mul_right hb (hl.symm.trans hk)
  obtain rfl := Nat.eq_of_mul_eq_mul_right hb (hl'.symm.trans hk')
  exact ha.disjoint ha' hne

/-- Exact transfers for one request do the same. -/
theorem Sqe.Exact.serve_eq {sqe : Sqe} {blockSize : ℕ} {t t' : Transfer} (hb : 0 < blockSize)
    (h : sqe.Exact blockSize t) (h' : sqe.Exact blockSize t') (hdir : t.toDisk = t'.toDisk)
    (d : List UInt8) {buf : List UInt8} (hbuf : buf.length = sqe.len.toNat) :
    t.serve d buf = t'.serve d buf := by
  obtain ⟨k, hk, ha⟩ := h
  obtain ⟨k', hk', ha'⟩ := h'
  obtain rfl := Nat.eq_of_mul_eq_mul_right hb (hk.symm.trans hk')
  exact ha.serve_eq ha' hdir d (hbuf.trans hk)

namespace Ramdisk

variable {r : Ramdisk} {sqe : Sqe} {t : Transfer}

/-- The transfer of an accepted READ or WRITE. -/
def Moves (r : Ramdisk) (sqe : Sqe) (t : Transfer) : Prop :=
  ∃ result copy, r.processSqe sqe = .ret (.ok (result, some copy)) ∧ copy.transfer = t

/-- The end of the request is below `2 ^ 64`, or it is empty. -/
def Fits (r : Ramdisk) (sqe : Sqe) : Prop :=
  sqe.len = 0 ∨ sqe.off.toNat * r.blockSize.toNat + sqe.len.toNat < 2 ^ 64

theorem Moves.cases (h : r.Moves sqe t) :
    sqe.len % r.blockSize = 0 ∧ t.start = (sqe.off * r.blockSize.toUInt64).toNat ∧
      t.len = sqe.len.toNat ∧ (t.toDisk = true ↔ sqe.opcode = .write) ∧
      sqe.off * r.blockSize.toUInt64 + sqe.len.toUInt64 ≤ UInt64.ofNat r.data.length := by
  obtain ⟨result, copy, hcopy, rfl⟩ := h
  unfold processSqe at hcopy
  split at hcopy
  · simp at hcopy
  split at hcopy
  · simp at hcopy
  rename_i hmod
  split at hcopy
  · simp at hcopy
  dsimp only at hcopy
  split at hcopy
  · simp at hcopy
  rename_i hle
  refine ⟨not_not.1 hmod, ?_⟩
  split at hcopy
  · rename_i hop
    obtain ⟨-, rfl⟩ := by simpa using hcopy
    exact ⟨rfl, rfl, by simp [Copy.transfer, hop], UInt64.not_lt.1 hle⟩
  · rename_i hop
    obtain ⟨-, rfl⟩ := by simpa using hcopy
    exact ⟨rfl, rfl, by simp [Copy.transfer, hop], UInt64.not_lt.1 hle⟩
  · simp at hcopy
  · simp at hcopy

/-- The sum of the two checks of the source, in unbounded integers. -/
theorem Moves.le (h : r.Moves sqe t) (hs : r.data.length < 2 ^ 63)
    (hfit : sqe.off.toNat * r.blockSize.toNat + sqe.len.toNat < 2 ^ 64) :
    t.start = sqe.off.toNat * r.blockSize.toNat ∧
      sqe.off.toNat * r.blockSize.toNat + sqe.len.toNat ≤ r.data.length := by
  obtain ⟨-, hstart, -, -, hle⟩ := h.cases
  have hprod : (sqe.off * r.blockSize.toUInt64).toNat = sqe.off.toNat * r.blockSize.toNat := by
    rw [UInt64.toNat_mul, UInt32.toNat_toUInt64, Nat.mod_eq_of_lt (by omega)]
  rw [UInt64.le_iff_toNat_le, UInt64.toNat_add, hprod, UInt32.toNat_toUInt64,
    Nat.mod_eq_of_lt hfit, UInt64.toNat_ofNat', Nat.mod_eq_of_lt (by omega)] at hle
  exact ⟨hstart.trans hprod, hle⟩

theorem Moves.mod (h : r.Moves sqe t) : sqe.len.toNat % r.blockSize.toNat = 0 := by
  have hmod := congrArg UInt32.toNat h.cases.1
  rwa [UInt32.toNat_mod] at hmod

/-- An accepted request moves its blocks, inside the disk, iff it fits. -/
theorem Moves.exact_iff (h : r.Moves sqe t) (hs : r.data.length < 2 ^ 63) :
    sqe.Exact r.blockSize.toNat t ∧ t.bytes ⊆ Set.Iio r.data.length ↔ r.Fits sqe := by
  obtain ⟨-, hstart, hlen, -, -⟩ := h.cases
  rw [Sqe.exact_iff hlen h.mod]
  constructor
  · rintro ⟨hoff | hz, hsub⟩
    · by_cases hz : sqe.len = 0
      · exact Or.inl hz
      · -- the last byte is a byte of the disk
        right
        have hpos : 0 < sqe.len.toNat :=
          Nat.pos_of_ne_zero fun h0 => hz (UInt32.toNat_inj.1 h0)
        have hlast : t.start + t.len - 1 ∈ t.bytes := by
          rw [Transfer.bytes, Set.mem_Ico]
          omega
        have hlt : t.start + t.len - 1 < r.data.length := hsub hlast
        omega
    · exact Or.inl hz
  · rintro (hz | hfit)
    · refine ⟨Or.inr hz, ?_⟩
      rw [Transfer.bytes, hlen, hz, UInt32.toNat_zero, Nat.add_zero, Set.Ico_self]
      exact Set.empty_subset _
    · obtain ⟨hoff, hle⟩ := h.le hs hfit
      refine ⟨Or.inl hoff, fun x hx => ?_⟩
      rw [Transfer.bytes, Set.mem_Ico] at hx
      rw [Set.mem_Iio]
      omega

/-- The capacity is the size in whole blocks. -/
theorem capacity_eq (hb : r.blockSize ≠ 0) (hs : r.data.length < 2 ^ 63) :
    ∃ c, r.capacity = .ret c ∧
      c.toNat * r.blockSize.toNat = r.data.length / r.blockSize.toNat * r.blockSize.toNat := by
  refine ⟨_, if_neg hb, ?_⟩
  rw [UInt64.toNat_div, UInt64.toNat_ofNat', UInt32.toNat_toUInt64, Nat.mod_eq_of_lt (by omega)]

end Ramdisk

namespace BlkState

variable {s : BlkState} {sqe : Sqe} {t : Transfer}

/-- The transfer that the device makes for an accepted READ or WRITE. -/
def Moves (s : BlkState) (sqe : Sqe) (t : Transfer) : Prop :=
  ∃ pos head q, s.Outstanding pos sqe head ∧ s.blk.queue = some q ∧
    (s.blk.deviceRequest q head).transfer = t

theorem Headed.exists_moves (hs : s.Headed) (pos : ℕ) (head : UInt16)
    (ho : s.Outstanding pos sqe head) : ∃ t, s.Moves sqe t := by
  obtain ⟨-, q, hq, -⟩ := hs pos sqe head ho
  exact ⟨_, pos, head, q, ho, hq, rfl⟩

theorem Moves.cases (hs : s.Headed) (h : s.Moves sqe t) :
    sqe.len % s.blk.blkSize = 0 ∧ t.start = 512 * sqe.off.toNat ∧ t.len = sqe.len.toNat ∧
      (t.toDisk = true ↔ sqe.opcode = .write) := by
  obtain ⟨pos, head, q, ho, hq, rfl⟩ := h
  obtain ⟨hlen, q₀, hq₀, type, w, paddr, hop, hreq⟩ := hs pos sqe head ho
  obtain rfl : q = q₀ := Option.some.inj (hq.symm.trans hq₀)
  rw [hreq]
  refine ⟨hlen, rfl, rfl, ?_⟩
  cases hc : sqe.opcode <;> simp only [hc, requestType, Option.some.injEq, Prod.mk.injEq,
    reduceCtorEq] at hop
  · obtain ⟨rfl, -⟩ := hop
    simp [DeviceRequest.transfer, virtioBlkTIn, virtioBlkTOut]
  · obtain ⟨rfl, -⟩ := hop
    simp [DeviceRequest.transfer, virtioBlkTOut]

end BlkState

namespace VirtIOBlk

/-- The block size is a sector, or the request is empty or starts at byte 0. -/
def InSectors (b : VirtIOBlk) (sqe : Sqe) : Prop :=
  b.blkSize = 512 ∨ sqe.off = 0 ∨ sqe.len = 0

/-- The number of sectors is the number of blocks. -/
def CountsBlocks (b : VirtIOBlk) (config : ℕ → UInt8) : Prop :=
  (b.blkSize.toNat ≤ 512 ∨ capacity config = 0) ∧
    (capacity config).toNat * (512 - b.blkSize.toNat) < b.blkSize.toNat

theorem capacity_iff {b : VirtIOBlk} (hb : b.blkSize ≠ 0) (config : ℕ → UInt8) :
    (capacity config).toNat * b.blkSize.toNat =
        512 * (capacity config).toNat / b.blkSize.toNat * b.blkSize.toNat ↔
      b.CountsBlocks config := by
  have hpos : 0 < b.blkSize.toNat := Nat.pos_of_ne_zero fun h0 => hb (UInt32.toNat_inj.1 h0)
  have hzero : capacity config = 0 ↔ (capacity config).toNat = 0 := by
    rw [← UInt64.toNat_inj, UInt64.toNat_zero]
  rw [capacity_mul_iff hpos, CountsBlocks, hzero]
  generalize (capacity config).toNat = c
  generalize b.blkSize.toNat = n at hpos
  rcases Nat.le_total n 512 with hn | hn
  · -- the sectors are the blocks and what is left of each
    have hsplit : c * (512 - n) + c * n = 512 * c := by
      rw [← Nat.mul_add, Nat.sub_add_cancel hn, Nat.mul_comm]
    rw [Nat.add_mul, Nat.one_mul]
    constructor
    · rintro ⟨h₁, h₂⟩
      exact ⟨Or.inl hn, by omega⟩
    · rintro ⟨-, h⟩
      omega
  · rw [Nat.sub_eq_zero_of_le hn, Nat.mul_zero]
    constructor
    · rintro ⟨h₁, -⟩
      rw [Nat.mul_comm] at h₁
      rcases Nat.eq_zero_or_pos c with hc | hc
      · exact ⟨Or.inr hc, hpos⟩
      · exact ⟨Or.inl (Nat.le_of_mul_le_mul_right h₁ hc), hpos⟩
    · rintro ⟨hle | hc, -⟩
      · obtain rfl : n = 512 := le_antisymm hle hn
        omega
      · rw [hc]
        omega

end VirtIOBlk

theorem BlkState.Moves.exact_iff {s : BlkState} {sqe : Sqe} {t : Transfer} (hs : s.Headed)
    (h : s.Moves sqe t) : sqe.Exact s.blk.blkSize.toNat t ↔ s.blk.InSectors sqe := by
  obtain ⟨hmod, hstart, hlen, -⟩ := h.cases hs
  have hmod := congrArg UInt32.toNat hmod
  rw [UInt32.toNat_mod] at hmod
  have hsize : s.blk.blkSize = 512 ↔ s.blk.blkSize.toNat = 512 := by
    rw [← UInt32.toNat_inj]
    rfl
  have hoff : sqe.off = 0 ↔ sqe.off.toNat = 0 := by
    rw [← UInt64.toNat_inj, UInt64.toNat_zero]
  rw [Sqe.exact_iff hlen hmod, hstart, InSectors, hsize, hoff, Nat.mul_comm, mul_eq_mul_left_iff,
    eq_comm, or_assoc]

/-- **The geometry of the block drivers.**  The capacity of the RAM disk is always its size in
whole blocks, and that of a VirtIO disk iff its sectors are its blocks.  An accepted READ or WRITE
of the RAM disk moves exactly its blocks iff its end does not wrap, and one of a VirtIO disk iff
its blocks are sectors, or it is empty or starts at byte 0.  Requests of either driver that meet
these conditions do not meet each other when their blocks are different, and one request does the
same to the same disk through either driver. -/
theorem block_geometry {r : Ramdisk} (hr : r.blockSize ≠ 0) (hlen : r.data.length < 2 ^ 63)
    {b : VirtIOBlk} (hb : b.Started) (hz : b.blkSize ≠ 0) {s : BlkState}
    (hs : BlkReach (.start b) s) :
    ((∃ c, r.capacity = .ret c ∧
        c.toNat * r.blockSize.toNat = r.data.length / r.blockSize.toNat * r.blockSize.toNat) ∧
      ∀ sqe t, r.Moves sqe t →
        (sqe.Exact r.blockSize.toNat t ∧ t.bytes ⊆ Set.Iio r.data.length ↔ r.Fits sqe)) ∧
    ((∀ config, (capacity config).toNat * b.blkSize.toNat =
          512 * (capacity config).toNat / b.blkSize.toNat * b.blkSize.toNat ↔
        b.CountsBlocks config) ∧
      ∀ sqe t, s.Moves sqe t → (sqe.Exact b.blkSize.toNat t ↔ b.InSectors sqe)) ∧
    (r.blockSize = b.blkSize → ∀ sqe sqe' t t',
      r.Moves sqe t ∧ r.Fits sqe ∨ s.Moves sqe t ∧ b.InSectors sqe →
      r.Moves sqe' t' ∧ r.Fits sqe' ∨ s.Moves sqe' t' ∧ b.InSectors sqe' →
      (sqe.Different sqe' b.blkSize.toNat → Disjoint t.bytes t'.bytes) ∧
      (sqe = sqe' → ∀ d buf, buf.length = sqe.len.toNat → t.serve d buf = t'.serve d buf)) := by
  obtain ⟨hheaded, hsize⟩ := BlkState.Headed.run hb hs
  have hvirtio : ∀ sqe t, s.Moves sqe t → (sqe.Exact b.blkSize.toNat t ↔ b.InSectors sqe) := by
    intro sqe t h
    have h := h.exact_iff hheaded
    rwa [InSectors, hsize] at h
  refine ⟨⟨r.capacity_eq hr hlen, fun sqe t h => h.exact_iff hlen⟩, ⟨capacity_iff hz, hvirtio⟩,
    fun hrb => ?_⟩
  have hpos : 0 < b.blkSize.toNat := Nat.pos_of_ne_zero fun h0 => hz (UInt32.toNat_inj.1 h0)
  -- an accepted request of either driver
  have main : ∀ sqe t, r.Moves sqe t ∧ r.Fits sqe ∨ s.Moves sqe t ∧ b.InSectors sqe →
      sqe.Exact b.blkSize.toNat t ∧ (t.toDisk = true ↔ sqe.opcode = .write) := by
    rintro sqe t (⟨h, hfit⟩ | ⟨h, hin⟩)
    · have hexact := ((h.exact_iff hlen).2 hfit).1
      rw [hrb] at hexact
      exact ⟨hexact, h.cases.2.2.2.1⟩
    · exact ⟨(hvirtio sqe t h).2 hin, (h.cases hheaded).2.2.2⟩
  intro sqe sqe' t t' h h'
  obtain ⟨he, hdir⟩ := main sqe t h
  obtain ⟨he', hdir'⟩ := main sqe' t' h'
  refine ⟨fun hd => he.disjoint hpos he' hd, ?_⟩
  rintro rfl d buf hbuf
  exact he.serve_eq hpos he' (Bool.eq_iff_iff.2 (hdir.trans hdir'.symm)) d hbuf

/-! ### One block -/

/-- A READ of block `off`. -/
def readAt (n : UInt32) (off : UInt64) : Sqe := ⟨.read, off, 0, n, 0⟩

/-- The block is requested. -/
theorem exists_moves {n : UInt32} (hn : n ≠ 0) (off : UInt64) :
    ∃ s, BlkReach (.start (.initial n)) s ∧ ∃ t, s.Moves (readAt n off) t := by
  have h₀ := BlkState.Inv.start (started_initial n) (fun _ => 0) fun _ => 0
  have h₁ := (h₀.client rfl (readAt n off)).fetch rfl rfl
  have hfetched : BlkReach (.start (.initial n)) _ :=
    (Relation.ReflTransGen.single (BlkStep.client _ ⟨[], []⟩ (readAt n off) rfl)).tail
      (.fetch _ _ rfl rfl)
  have hmod : (readAt n off).len % n = 0 := by
    show n % n = 0
    simp
  obtain ⟨i, ha⟩ := BlkState.admitted_of_free h₁ hn hmod rfl rfl (Nat.zero_lt_succ 63)
  have hfree := h₁.blk.conservation
  rw [h₁.blk.someCount_eq, ← length_freeIds] at hfree
  simp only [List.length_nil] at hfree
  obtain ⟨d1, d2, d3, q, hsub, -⟩ := h₁.blk.submit_ok ha (by omega)
  have hrun := hfetched.tail (.accept _ _ _ _ _ _ rfl hsub h₁.blk.queue rfl)
  obtain ⟨hheaded, -⟩ := BlkState.Headed.run (started_initial n) hrun
  exact ⟨_, hrun, hheaded.exists_moves 0 (q.readAvail 0) ⟨⟨0, rfl, rfl⟩, rfl, List.not_mem_nil⟩⟩

/-- A RAM disk of one block of 512 bytes. -/
def oneBlock : Ramdisk := .new (List.replicate 512 0)

theorem length_oneBlock : oneBlock.data.length = 512 := List.length_replicate

/-- With blocks of one sector, reading block 1 moves the bytes of block 1. -/
theorem block_geometry_read :
    ∃ s, BlkReach (.start (.initial 512)) s ∧
      ∃ t, s.Moves (readAt 512 1) t ∧ (readAt 512 1).Exact 512 t := by
  obtain ⟨s, hs, t, ht⟩ := exists_moves (n := 512) (by decide) 1
  have h := block_geometry (r := oneBlock) (by decide) (by rw [length_oneBlock]; norm_num)
    (started_initial 512) (show (512 : UInt32) ≠ 0 by decide) hs
  exact ⟨s, hs, t, ht, (h.2.1.2 _ _ ht).2 (Or.inl rfl)⟩

/-- **Overlapping blocks.**  With blocks of 4096 bytes the capacity counts sectors, the first two
blocks share bytes, and a VirtIO disk moves other bytes than block 1; and a RAM disk answers for a
block far behind its end with its first block. -/
theorem blocks_overlap :
    (∃ config, (capacity config).toNat * 4096 ≠ 512 * (capacity config).toNat / 4096 * 4096) ∧
    (∃ s s' t t', BlkReach (.start (.initial 4096)) s ∧ BlkReach (.start (.initial 4096)) s' ∧
      s.Moves (readAt 4096 0) t ∧ s'.Moves (readAt 4096 1) t' ∧
      (readAt 4096 0).Different (readAt 4096 1) 4096 ∧ ¬ Disjoint t.bytes t'.bytes ∧
      ¬ (readAt 4096 1).Exact 4096 t') ∧
    oneBlock.Moves (readAt 512 0x80000000000000) ⟨0, 512, false⟩ ∧
      ¬ (readAt 512 0x80000000000000).Exact 512 ⟨0, 512, false⟩ := by
  refine ⟨⟨fun i => if i = 0 then 8 else 0, by decide⟩, ?_, ?_, ?_⟩
  · obtain ⟨s, hs, t, ht⟩ := exists_moves (n := 4096) (by decide) 0
    obtain ⟨s', hs', t', ht'⟩ := exists_moves (n := 4096) (by decide) 1
    obtain ⟨hheaded, -⟩ := BlkState.Headed.run (started_initial 4096) hs
    obtain ⟨hheaded', hsize⟩ := BlkState.Headed.run (started_initial 4096) hs'
    obtain ⟨-, hstart, hlen, -⟩ := ht.cases hheaded
    obtain ⟨-, hstart', hlen', -⟩ := ht'.cases hheaded'
    refine ⟨s, s', t, t', hs, hs', ht, ht', ⟨1, 1, rfl, rfl, Or.inl le_rfl⟩, ?_, ?_⟩
    · -- byte 512 is in both
      refine Set.not_disjoint_iff.2 ⟨512, ?_, ?_⟩
      · rw [Transfer.bytes, hstart, hlen]
        exact ⟨by decide, by decide⟩
      · rw [Transfer.bytes, hstart', hlen']
        exact ⟨by decide, by decide⟩
    · have hexact := ht'.exact_iff hheaded'
      rw [InSectors, hsize] at hexact
      rw [show (4096 : ℕ) = (initial 4096).blkSize.toNat from rfl, hexact]
      simp [initial, readAt]
  · refine ⟨512, ⟨0, 0, 512, false⟩, ?_, rfl⟩
    simp only [Ramdisk.processSqe, length_oneBlock]
    rfl
  · rw [Sqe.exact_iff rfl (by decide)]
    decide

end GlendaDrivers
