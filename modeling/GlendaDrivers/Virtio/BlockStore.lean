import GlendaDrivers.Service.SerialDisk
import GlendaDrivers.Virtio.BlockCompletion
import GlendaDrivers.Virtio.BlockGeometry

/-!
# The block driver and its disk as one store

The device of the block driver gets a disk, and the client a memory.  A request that the device
serves moves bytes between the two while the driver, the client and the device go on.  The memory is
apart from the driver's own: without a shared buffer the driver passes any address on to the device,
and the runs are those in which the data of the requests that are served are not in its pages.

* `BlkStep.frame`, `BlkStep.request_kept`, `accept_asks`: the device finds a request, as long as it
  is outstanding, as the driver made it;
* `StoreState`, `StoreStep`: the driver, its device, the disk and the memory;
* `StoreState.Inv`: the disk is what the served requests made of it;
* `block_store`: the requests take effect one after the other, each before it is completed.
-/

namespace GlendaDrivers

open VirtQueue VirtIOBlk BlockDisk

/-- The request that the driver makes of `sqe`, as the device should find it. -/
def VirtIOBlk.asks (b : VirtIOBlk) (sqe : Sqe) : Option DeviceRequest :=
  (requestType sqe.opcode).bind fun type =>
    (dataPaddr b.buffer sqe).map fun paddr => ⟨type.1.toNat, sqe.off.toNat, paddr, sqe.len⟩

/-! ### Requests that are outstanding -/

section Frame

variable {s t : BlkState} {blkSize : UInt32} {before : List (UInt64 × Int32)} {q q' : VirtQueue}
  {out : List Request} {held : List UInt16} {slot : ℕ → Fin 64} {userData : ℕ → UInt64}
  {sqe : Sqe} {todo : List Sqe} {b : VirtIOBlk}

/-- The chain and the header of `r` are the same for the drivers `b`, with the queue `q`, and
`b'`. -/
structure Kept (b b' : VirtIOBlk) (q : VirtQueue) (slot : ℕ → Fin 64) (r : Request) : Prop where
  queue : ∃ q', b'.queue = some q' ∧ ∀ x ∈ r.chain, q'.mem.desc x = q.mem.desc x
  base : b'.dmaPaddr = b.dmaPaddr
  header : Bytes.read b'.dma (reqOffset (slot r.pos)) 16 =
    Bytes.read b.dma (reqOffset (slot r.pos)) 16

/-- What is not about the queue and the driver's memory changes nothing. -/
theorem Kept.of_eq {b' : VirtIOBlk} {r : Request} (hq : b.queue = some q)
    (hq' : b'.queue = b.queue) (hp : b'.dmaPaddr = b.dmaPaddr) (hd : b'.dma = b.dma) :
    Kept b b' q slot r where
  queue := ⟨q, hq'.trans hq, fun _ _ => rfl⟩
  base := hp
  header := by rw [hd]

/-- A submitted request leaves the other ones alone. -/
theorem BlkState.Inv.kept_accept (hs : s.Inv blkSize before q out held slot userData)
    (hb : s.blk.submitVirtioRequest sqe = .ret (.ok (), b)) {r : Request} (hr : r ∈ out) :
    Kept s.blk b q slot r := by
  rcases submit_cases s.blk sqe with ⟨-, hpan⟩ | ⟨res, c, hr', ⟨⟨e, rfl⟩, -⟩⟩ |
    ⟨q₀, i, type, w, p, ha⟩
  · simp [hpan] at hb
  · simp [hr'] at hb
  obtain rfl : q = q₀ := Option.some.inj (hs.blk.queue.symm.trans ha.queue)
  rcases Nat.lt_or_ge q.freeIds.length 3 with hlt | hge
  · obtain ⟨q₁, hsub, -⟩ := hs.blk.submit_short ha hlt
    simp [hsub] at hb
  obtain ⟨d1, d2, d3, q₁, hsub, htraffic, -, -, -, hdesc⟩ := hs.blk.submit_chain ha hge
  obtain rfl : s.blk.entered (q₁.submit d1) i type sqe d1 = b :=
    (Prod.mk.inj (Outcome.ret.inj (hsub.symm.trans hb))).2
  refine ⟨⟨_, rfl, fun x hx => ?_⟩, rfl, ?_⟩
  · exact hdesc x fun hm => htraffic.notMem_held hr hx (List.mem_append_left _ hm)
  · exact read_writeHeader_of_ne s.blk (hs.blk.slot_ne ha.slot hr) type sqe.off

/-- So does a rejected one. -/
theorem BlkState.Inv.kept_reject (hs : s.Inv blkSize before q out held slot userData) {e : Error}
    (hb : s.blk.submitVirtioRequest sqe = .ret (.error e, b)) {r : Request} (hr : r ∈ out) :
    Kept s.blk (b.complete sqe.userData (-1)) q slot r := by
  rcases submit_cases s.blk sqe with ⟨-, hpan⟩ | ⟨res, c, hr', href⟩ | ⟨q₀, i, type, w, p, hadm⟩
  · simp [hpan] at hb
  · obtain ⟨-, rfl⟩ := Prod.mk.inj (Outcome.ret.inj (hr'.symm.trans hb))
    rcases href.state with rfl | ⟨i, type, hi, rfl⟩
    · exact .of_eq hs.blk.queue rfl rfl rfl
    · refine ⟨⟨q, hs.blk.queue, fun _ _ => rfl⟩, rfl, ?_⟩
      exact read_writeHeader_of_ne s.blk (hs.blk.slot_ne hi hr) type sqe.off
  · obtain rfl : q = q₀ := Option.some.inj (hs.blk.queue.symm.trans hadm.queue)
    rcases Nat.lt_or_ge q.freeIds.length 3 with hlt | hge
    · obtain ⟨q₁, hsub, -, -, -, hdesc⟩ := submitChain_short (s.blk.writeHeader i type sqe.off)
        sqe i w p hs.blk.traffic hlt
      obtain ⟨-, rfl⟩ := Prod.mk.inj (Outcome.ret.inj ((hadm.submit.trans hsub).symm.trans hb))
      refine ⟨⟨q₁, rfl, fun x _ => by rw [hdesc]⟩, rfl, ?_⟩
      exact read_writeHeader_of_ne s.blk (hs.blk.slot_ne hadm.slot hr) type sqe.off
    · obtain ⟨d1, d2, d3, q₁, hsub, -⟩ := hs.blk.submit_chain hadm hge
      simp [hsub] at hb

/-- A popped completion leaves the requests alone that it does not answer. -/
theorem BlkState.Inv.kept_pop (hs : s.Inv blkSize before q out held slot userData)
    (hb : s.blk.popCompletion = .ret (true, b)) {r : Request} (hr : r ∈ out)
    (hnm : r.pos ∉ s.traffic.pop.popped) : Kept s.blk b q slot r := by
  have hpops := hs.blk.pops_lt hb
  obtain ⟨r', hr', d1, d2, d3, st, q₁, hpos, -, -, hpop, -, -, -, hframe⟩ :=
    hs.blk.pop_chain hpops
  obtain rfl : s.blk.completed q₁ (slot r'.pos) (userData r'.pos) st = b :=
    (Prod.mk.inj (Outcome.ret.inj (hpop.symm.trans hb))).2
  rw [s.traffic.popped_pop hpops, ← hpos, List.mem_append, not_or, List.mem_singleton] at hnm
  have hne : r ≠ r' := by
    rintro rfl
    exact hnm.2 rfl
  exact ⟨⟨q₁, rfl, hframe r ((List.mem_erase_of_ne hne).2 hr)⟩, rfl, rfl⟩

/-- Every step leaves the chains and the headers of the requests alone that stay outstanding. -/
theorem BlkStep.kept (hs : s.Inv blkSize before q out held slot userData) (hstep : BlkStep s t)
    {r : Request} (hr : r ∈ out) (hnm : r.pos ∉ t.traffic.popped) :
    Kept s.blk t.blk q slot r := by
  have hq := hs.blk.queue
  cases hstep with
  | client server sqe hserver => exact .of_eq hq rfl rfl rfl
  | setup vaddr paddr size hp => exact .of_eq hq rfl rfl rfl
  | fetch server hp hserver => exact .of_eq hq rfl rfl rfl
  | accept sqe todo b q₀ q' hp hb hq₀ hq' => exact hs.kept_accept hb hr
  | reject sqe todo e b hp hb => exact hs.kept_reject hb hr
  | submitted hp => exact .of_eq hq rfl rfl rfl
  | irq hp => exact .of_eq hq rfl rfl rfl
  | pop b hp hb => exact hs.kept_pop hb hr hnm
  | popDone b hp hb =>
    obtain rfl := hs.popDone hb
    exact .of_eq hq rfl rfl rfl
  | raise v => exact .of_eq hq rfl rfl rfl
  | take q₀ hq₀ hne => exact .of_eq hq rfl rfl rfl
  | answer q₀ pos head status hq₀ hhead hnew =>
    obtain rfl : q = q₀ := Option.some.inj (hq.symm.trans hq₀)
    obtain ⟨r', hr', -, hhead'⟩ := hs.blk.exists_of_taken hhead hnew
    rw [hs.blk.chainEnd_eq hr' hhead']
    exact ⟨⟨q, hq, fun _ _ => rfl⟩, rfl, read_deviceWrite s.blk _ _ _⟩
  | publish q₀ pos elem hq₀ hc ha =>
    obtain rfl : q = q₀ := Option.some.inj (hq.symm.trans hq₀)
    exact ⟨⟨_, rfl, fun _ _ => rfl⟩, rfl, rfl⟩

/-- What was popped stays popped. -/
theorem BlkStep.popped_subset (hs : s.Inv blkSize before q out held slot userData)
    (hstep : BlkStep s t) {pos : ℕ} (h : pos ∈ s.traffic.popped) : pos ∈ t.traffic.popped := by
  cases hstep with
  | pop b hp hb =>
    show pos ∈ s.traffic.pop.popped
    rw [s.traffic.popped_pop (hs.blk.pops_lt hb)]
    exact List.mem_append_left _ h
  | publish q₀ pos' elem hq₀ hc ha =>
    show pos ∈ (s.traffic.publish pos' elem).popped
    rw [s.traffic.popped_publish hs.blk.traffic.pops_le]
    exact h
  | _ => exact h

/-- A request that stays outstanding is the same to the device. -/
theorem BlkStep.request_kept (hs : s.Inv blkSize before q out held slot userData)
    (hstep : BlkStep s t) (hq' : t.blk.queue = some q') {pos : ℕ} {head : UInt16}
    (hhead : s.traffic.submitted[pos]? = some head) (hnm : pos ∉ t.traffic.popped) :
    t.blk.deviceRequest q' head = s.blk.deviceRequest q head := by
  obtain ⟨r, hr, rfl⟩ := List.mem_map.1 ((hs.blk.traffic.mem_out pos).2
    ⟨(List.getElem?_eq_some_iff.1 hhead).1, fun h => hnm (hstep.popped_subset hs h)⟩)
  have hkept := hstep.kept hs hr hnm
  obtain ⟨q₁, hq₁, hdesc⟩ := hkept.queue
  obtain rfl : q' = q₁ := Option.some.inj (hq'.symm.trans hq₁)
  exact hs.blk.deviceRequest_congr hr ((hs.blk.traffic.head r hr).trans hhead) hdesc hkept.base
    hkept.header

/-- A new request is to the device what the driver asks for. -/
theorem BlkState.Inv.accept_asks (hs : s.Inv blkSize before q out held slot userData)
    (hb : s.blk.submitVirtioRequest sqe = .ret (.ok (), b)) (hq' : b.queue = some q') :
    ∃ r, s.blk.asks sqe = some r ∧
      b.deviceRequest q' (q'.readAvail q.mem.availIdx) = r := by
  rcases submit_cases s.blk sqe with ⟨-, hpan⟩ | ⟨res, c, hr, ⟨⟨e, rfl⟩, -⟩⟩ |
    ⟨q₀, i, type, w, p, ha⟩
  · simp [hpan] at hb
  · simp [hr] at hb
  obtain rfl : q = q₀ := Option.some.inj (hs.blk.queue.symm.trans ha.queue)
  rcases Nat.lt_or_ge q.freeIds.length 3 with hlt | hge
  · obtain ⟨q₁, hsub, -⟩ := hs.blk.submit_short ha hlt
    simp [hsub] at hb
  obtain ⟨d1, d2, d3, q₁, hsub, -, hsame, -, hchain, -⟩ := hs.blk.submit_chain ha hge
  obtain rfl : s.blk.entered (q₁.submit d1) i type sqe d1 = b :=
    (Prod.mk.inj (Outcome.ret.inj (hsub.symm.trans hb))).2
  obtain rfl : q₁.submit d1 = q' := Option.some.inj hq'
  refine ⟨⟨type.toNat, sqe.off.toNat, p, sqe.len⟩, ?_, ?_⟩
  · rw [asks, ha.opcode, ha.data]
    rfl
  · have hchain' : IsChain (q₁.submit d1).mem.desc
      (s.blk.entered (q₁.submit d1) i type sqe d1).dmaPaddr i w p sqe.len d1 d2 d3 := hchain
    have hread : Bytes.read (s.blk.entered (q₁.submit d1) i type sqe d1).dma (reqOffset i) 16 =
      virtIOBlkReq type sqe.off := read_writeHeader s.blk i type sqe.off
    obtain ⟨htype, hsector⟩ := ofLittle_header type sqe.off
    rw [hsame.readAvail_submit d1, hchain'.deviceRequest, hread, htype, hsector]

/-- What a step adds to the history: nothing, or one request. -/
inductive BlkStep.Adds (s t : BlkState) : Prop
  | nothing (ha : t.accepted = s.accepted) (hs : t.traffic.submitted = s.traffic.submitted)
  | request {sqe : Sqe} {r : DeviceRequest} {q : VirtQueue} {head : UInt16}
      (ha : t.accepted = s.accepted ++ [s.handed]) (hget : s.fetched[s.handed]? = some sqe)
      (hs : t.traffic.submitted = s.traffic.submitted ++ [head]) (hasks : s.blk.asks sqe = some r)
      (hq : t.blk.queue = some q) (hr : t.blk.deviceRequest q head = r)

theorem BlkStep.adds (hs : s.Inv blkSize before q out held slot userData) (hstep : BlkStep s t) :
    BlkStep.Adds s t := by
  cases hstep with
  | accept sqe todo b q₀ q' hp hb hq₀ hq' =>
    obtain rfl : q = q₀ := Option.some.inj (hs.blk.queue.symm.trans hq₀)
    obtain ⟨r, hasks, hr⟩ := hs.accept_asks hb hq'
    exact .request rfl (hs.next hp).1 rfl hasks hq' hr
  | _ => exact .nothing rfl rfl

theorem BlkStep.fetched_prefix (hstep : BlkStep s t) : s.fetched <+: t.fetched := by
  cases hstep with
  | fetch server hp hserver => exact List.prefix_append _ _
  | _ => exact List.prefix_rfl

/-- Completions are only added. -/
theorem BlkStep.calls_prefix (hstep : BlkStep s t) : s.calls <+: t.calls := by
  cases hstep with
  | accept sqe todo b q₀ q' hp hb hq₀ hq' => exact List.prefix_append _ _
  | reject sqe todo e b hp hb => exact List.prefix_append _ _
  | pop b hp hb => exact List.prefix_append _ _
  | _ => exact List.prefix_rfl

end Frame

/-! ### The store -/

/-- A request served by a device: what is moved, the disk and the memory. -/
def DeviceRequest.serve (r : DeviceRequest) (disk : List UInt8) (mem : UInt64 → UInt8) :
    Moved × List UInt8 × (UInt64 → UInt8) :=
  let t := r.transfer
  if t.toDisk then
    let data := Bytes.read mem r.addr t.len
    (⟨t, data⟩, write disk t.start data, mem)
  else
    let data := read disk t.start t.len
    (⟨t, data⟩, disk, Bytes.write mem r.addr data)

/-- The driver and its device, with the disk and the memory. -/
structure StoreState where
  sys : BlkState
  disk : List UInt8
  /-- The physical memory outside of the driver's pages. -/
  mem : UInt64 → UInt8
  /-- The accepted requests, as the driver made them. -/
  asked : List DeviceRequest
  /-- The requests that were served, by their numbers, with what was moved. -/
  log : List (ℕ × Moved)

namespace StoreState

/-- The store when `init` has returned. -/
def start (b : VirtIOBlk) (disk : List UInt8) (mem : UInt64 → UInt8) : StoreState where
  sys := .start b
  disk := disk
  mem := mem
  asked := []
  log := []

/-- The requests that are accepted between the state and `t`. -/
def newlyAsked (s : StoreState) (t : BlkState) : List DeviceRequest :=
  (t.accepted.drop s.sys.accepted.length).filterMap fun n =>
    (s.sys.fetched[n]?).bind s.sys.blk.asks

/-- The device has written the status byte of the chain at `head`, which it read at position
`pos`. -/
def answer (s : StoreState) (q : VirtQueue) (pos : ℕ) (head : UInt16) (status : UInt8) :
    StoreState :=
  { s with sys := { s.sys with
    blk := s.sys.blk.deviceWrite (q.mem.desc (chainEnd q.mem.desc q.num.toNat head)).addr status
    answers := Function.update s.sys.answers pos (some status) } }

end StoreState

/-- One step of the store.  A device serves a request or leaves the disk and the memory alone, and
it tells which in the status byte. -/
inductive StoreStep : StoreState → StoreState → Prop
  /-- A step that answers no request. -/
  | move (s : StoreState) (t : BlkState) (h : BlkStep s.sys t) (ha : t.answers = s.sys.answers) :
      StoreStep s { s with sys := t, asked := s.asked ++ s.newlyAsked t }
  /-- The client writes to its memory. -/
  | poke (s : StoreState) (mem : UInt64 → UInt8) : StoreStep s { s with mem := mem }
  /-- The device refuses a request. -/
  | refuse (s : StoreState) (q : VirtQueue) (pos : ℕ) (head : UInt16) (status : UInt8)
      (hq : s.sys.blk.queue = some q) (hhead : s.sys.traffic.taken[pos]? = some head)
      (hnew : s.sys.answers pos = none) (hst : status ≠ virtioBlkSOk) :
      StoreStep s (s.answer q pos head status)
  /-- The device serves a request that fits on the disk and whose data is not in the driver's four
  pages, which the driver does not check. -/
  | serve (s : StoreState) (q : VirtQueue) (pos n : ℕ) (head : UInt16) (r : DeviceRequest)
      (hq : s.sys.blk.queue = some q) (hhead : s.sys.traffic.taken[pos]? = some head)
      (hnew : s.sys.answers pos = none) (hn : s.sys.accepted[pos]? = some n)
      (hr : s.sys.blk.deviceRequest q head = r)
      (hfits : r.transfer.start + r.transfer.len ≤ s.disk.length)
      (hmem : Disjoint (Bytes.span r.addr r.len.toNat) (Bytes.span s.sys.blk.dmaPaddr 16384)) :
      StoreStep s { s.answer q pos head virtioBlkSOk with
        disk := (r.serve s.disk s.mem).2.1
        mem := (r.serve s.disk s.mem).2.2
        log := s.log ++ [(n, (r.serve s.disk s.mem).1)] }

/-- A state that can be reached from `s`. -/
abbrev StoreReach : StoreState → StoreState → Prop := Relation.ReflTransGen StoreStep

/-- Serving a request is a transfer. -/
theorem DeviceRequest.makes_serve {r : DeviceRequest} {disk : List UInt8}
    (hfits : r.transfer.start + r.transfer.len ≤ disk.length) (mem : UInt64 → UInt8) :
    (r.serve disk mem).1.Makes disk (r.serve disk mem).2.1 := by
  rw [serve]
  split_ifs with hdir
  · exact .of_write hdir hfits (Bytes.length_read _ _ _)
  · exact .of_read (Bool.eq_false_iff.2 hdir) hfits

/-! ### What the requests did -/

namespace StoreState

variable {s t : StoreState} {d₀ : List UInt8} {b : VirtIOBlk}

/-- The invariant: the log is a journal of the disk, of the requests that the device answered with
OK, and the device finds the outstanding requests as they were made. -/
structure Inv (s : StoreState) (d₀ : List UInt8) : Prop where
  journal : Journal d₀ (s.log.map Prod.snd) s.disk
  nodup : (s.log.map Prod.fst).Nodup
  length : s.asked.length = s.sys.accepted.length
  found : ∀ (pos : ℕ) (head : UInt16) (r : DeviceRequest) (q : VirtQueue),
    s.sys.traffic.submitted[pos]? = some head → pos ∉ s.sys.traffic.popped →
      s.asked[pos]? = some r → s.sys.blk.queue = some q → s.sys.blk.deviceRequest q head = r
  made : ∀ (pos n : ℕ) (sqe : Sqe) (r : DeviceRequest), s.sys.accepted[pos]? = some n →
    s.sys.fetched[n]? = some sqe → s.asked[pos]? = some r →
      ∃ type, requestType sqe.opcode = some type ∧
        r.transfer = ⟨512 * sqe.off.toNat, sqe.len.toNat, type.1 = virtioBlkTOut⟩
  served : ∀ (pos n : ℕ), s.sys.accepted[pos]? = some n →
    (n ∈ s.log.map Prod.fst ↔ s.sys.answers pos = some virtioBlkSOk)
  moved : ∀ e ∈ s.log, ∃ (pos : ℕ) (r : DeviceRequest), s.sys.accepted[pos]? = some e.1 ∧
    s.asked[pos]? = some r ∧ e.2.transfer = r.transfer

/-- The transfer that the driver asks for. -/
theorem transfer_of_asks {sqe : Sqe} {r : DeviceRequest} (h : b.asks sqe = some r) :
    ∃ type, requestType sqe.opcode = some type ∧
      r.transfer = ⟨512 * sqe.off.toNat, sqe.len.toNat, type.1 = virtioBlkTOut⟩ := by
  unfold asks at h
  obtain ⟨type, htype, h⟩ := Option.bind_eq_some_iff.1 h
  obtain ⟨paddr, -, rfl⟩ := Option.map_eq_some_iff.1 h
  refine ⟨type, htype, ?_⟩
  unfold DeviceRequest.transfer
  simp only [UInt32.toNat_inj]

theorem Inv.start (b : VirtIOBlk) (d₀ : List UInt8) (m₀ : UInt64 → UInt8) :
    Inv (.start b d₀ m₀) d₀ where
  journal := .nil d₀
  nodup := List.nodup_nil
  length := rfl
  found pos head r q hhead := by simp [StoreState.start, BlkState.start, Traffic.init] at hhead
  made pos n sqe r hacc := by simp [StoreState.start, BlkState.start] at hacc
  served pos n hacc := by simp [StoreState.start, BlkState.start] at hacc
  moved e he := absurd he List.not_mem_nil

section Step

variable {blkSize : UInt32} {before : List (UInt64 × Int32)} {q : VirtQueue}
  {out : List Request} {held : List UInt16} {slot : ℕ → Fin 64} {userData : ℕ → UInt64}

/-- The requests of the log were accepted. -/
theorem Inv.lt_handed (h : s.Inv d₀) (hs : s.sys.Inv blkSize before q out held slot userData)
    {n : ℕ} (hn : n ∈ s.log.map Prod.fst) : n < s.sys.handed := by
  obtain ⟨e, he, rfl⟩ := List.mem_map.1 hn
  obtain ⟨pos, r, hacc, -⟩ := h.moved e he
  exact hs.ledger.lt _ (List.mem_of_getElem? hacc)

/-- A request that was fetched keeps its number. -/
theorem fetched_eq (hs : s.sys.Inv blkSize before q out held slot userData) {u : BlkState}
    (hstep : BlkStep s.sys u) {pos n : ℕ} (hacc : s.sys.accepted[pos]? = some n) :
    u.fetched[n]? = s.sys.fetched[n]? := by
  obtain ⟨more, hmore⟩ := hstep.fetched_prefix
  rw [← hmore]
  exact hs.ledger.getElem?_of_lt (hs.ledger.lt n (List.mem_of_getElem? hacc)) more

/-- A step that answers no request. -/
theorem Inv.move (h : s.Inv d₀) (hs : s.sys.Inv blkSize before q out held slot userData)
    {u : BlkState} (hstep : BlkStep s.sys u) (ha : u.answers = s.sys.answers) :
    Inv { s with sys := u, asked := s.asked ++ s.newlyAsked u } d₀ := by
  have hfound : ∀ pos head r q', s.sys.traffic.submitted[pos]? = some head →
      pos ∉ u.traffic.popped → s.asked[pos]? = some r → u.blk.queue = some q' →
        u.blk.deviceRequest q' head = r := by
    intro pos head r q' hhead hnm hr hq'
    rw [hstep.request_kept hs hq' hhead hnm]
    exact h.found pos head r q hhead (fun hm => hnm (hstep.popped_subset hs hm)) hr hs.blk.queue
  cases hstep.adds hs with
  | nothing hacc hsub =>
    have hnew : s.asked ++ s.newlyAsked u = s.asked := by
      rw [newlyAsked, hacc, List.drop_length, List.filterMap_nil, List.append_nil]
    rw [hnew]
    refine
      { journal := h.journal
        nodup := h.nodup
        length := h.length.trans (congrArg List.length hacc).symm
        found := fun pos head r q' hhead => hfound pos head r q' (hsub ▸ hhead)
        made := fun pos n sqe r hn hget => ?_
        served := fun pos n hn => ?_
        moved := fun e he => ?_ }
    · replace hn : s.sys.accepted[pos]? = some n := hacc ▸ hn
      exact h.made pos n sqe r hn ((fetched_eq hs hstep hn).symm.trans hget)
    · rw [ha]
      exact h.served pos n (hacc ▸ hn)
    · obtain ⟨pos, r, hn, hr⟩ := h.moved e he
      exact ⟨pos, r, hacc.symm ▸ hn, hr⟩
  | @request sqe r q' head hacc hget hsub hasks hq' hr =>
    have hnew : s.newlyAsked u = [r] := by
      rw [newlyAsked, hacc, List.drop_left, List.filterMap_cons_some (b := r), List.filterMap_nil]
      rw [hget, Option.bind_some, hasks]
    rw [hnew]
    have hlen := h.length
    have hlen' := hs.length
    -- a position of `accepted` is an old one or the new one
    have hcases : ∀ {pos n}, u.accepted[pos]? = some n → s.sys.accepted[pos]? = some n ∨
        pos = s.sys.accepted.length ∧ n = s.sys.handed := by
      intro pos n hn
      rw [hacc] at hn
      rcases Nat.lt_or_ge pos s.sys.accepted.length with hlt | hge
      · rw [List.getElem?_append_left hlt] at hn
        exact .inl hn
      · rw [List.getElem?_append_right hge, List.getElem?_singleton] at hn
        split_ifs at hn with hz
        exact .inr ⟨by omega, (Option.some.inj hn).symm⟩
    refine
      { journal := h.journal
        nodup := h.nodup
        length := ?_
        found := fun pos head' r' q₁ hhead hnm hr' hq₁ => ?_
        made := fun pos n sqe' r' hn hget' hr' => ?_
        served := fun pos n hn => ?_
        moved := fun e he => ?_ }
    · show (s.asked ++ [r]).length = u.accepted.length
      rw [hacc, List.length_append, List.length_append, hlen]
      rfl
    · replace hhead : (s.sys.traffic.submitted ++ [head])[pos]? = some head' := hsub ▸ hhead
      replace hr' : (s.asked ++ [r])[pos]? = some r' := hr'
      rcases Nat.lt_or_ge pos s.sys.accepted.length with hlt | hge
      · rw [List.getElem?_append_left (by omega)] at hhead hr'
        exact hfound pos head' r' q₁ hhead hnm hr' hq₁
      · have hlt := (List.getElem?_eq_some_iff.1 hr').1
        rw [List.length_append, List.length_singleton] at hlt
        obtain rfl : pos = s.sys.accepted.length := by omega
        rw [hlen', List.getElem?_concat_length] at hhead
        rw [← hlen, List.getElem?_concat_length] at hr'
        obtain rfl := Option.some.inj hhead
        obtain rfl := Option.some.inj hr'
        obtain rfl := Option.some.inj (hq'.symm.trans hq₁)
        exact hr
    · replace hr' : (s.asked ++ [r])[pos]? = some r' := hr'
      rcases hcases hn with hn | ⟨rfl, rfl⟩
      · have hlt := (List.getElem?_eq_some_iff.1 hn).1
        rw [List.getElem?_append_left (by omega)] at hr'
        exact h.made pos n sqe' r' hn ((fetched_eq hs hstep hn).symm.trans hget') hr'
      · rw [← hlen, List.getElem?_concat_length] at hr'
        obtain rfl := Option.some.inj hr'
        obtain ⟨more, hmore⟩ := hstep.fetched_prefix
        have hsame : u.fetched[s.sys.handed]? = s.sys.fetched[s.sys.handed]? := by
          rw [← hmore]
          exact List.getElem?_append_left (List.getElem?_eq_some_iff.1 hget).1
        obtain rfl := Option.some.inj (hget.symm.trans (hsame.symm.trans hget'))
        exact transfer_of_asks hasks
    · show n ∈ s.log.map Prod.fst ↔ u.answers pos = _
      rw [ha]
      rcases hcases hn with hn | ⟨rfl, rfl⟩
      · exact h.served pos n hn
      · refine iff_of_false (fun hm => (h.lt_handed hs hm).ne rfl) fun hok => ?_
        have hlt := hs.blk.answers_lt _ (by rw [hok]; exact Option.some_ne_none _)
        have hle := hs.blk.traffic.ring.taken_prefix.length_le
        omega
    · obtain ⟨pos, r', hn, hr', hm⟩ := h.moved e he
      have hlt := (List.getElem?_eq_some_iff.1 hn).1
      refine ⟨pos, r', ?_, ?_, hm⟩
      · show u.accepted[pos]? = _
        rw [hacc, List.getElem?_append_left hlt]
        exact hn
      · show (s.asked ++ [r])[pos]? = _
        rw [List.getElem?_append_left (by omega)]
        exact hr'

/-- A position that the device has not answered was not popped. -/
theorem notMem_popped (hs : s.sys.Inv blkSize before q out held slot userData) {pos : ℕ}
    (hnew : s.sys.answers pos = none) : pos ∉ s.sys.traffic.popped := by
  intro hm
  obtain ⟨p, hp, rfl⟩ := List.mem_map.1 hm
  exact hs.blk.answered p (List.mem_of_mem_take hp) hnew

section Answer

variable {pos : ℕ} {head : UInt16} {status : UInt8}

/-- An answer leaves the outstanding requests alone. -/
theorem Inv.found_answer (h : s.Inv d₀)
    (hs : s.sys.Inv blkSize before q out held slot userData)
    (hhead : s.sys.traffic.taken[pos]? = some head) (hnew : s.sys.answers pos = none)
    {pos' : ℕ} {head' : UInt16} {r : DeviceRequest} {q' : VirtQueue}
    (hhead' : s.sys.traffic.submitted[pos']? = some head')
    (hnm : pos' ∉ s.sys.traffic.popped) (hr : s.asked[pos']? = some r)
    (hq' : (s.answer q pos head status).sys.blk.queue = some q') :
    (s.answer q pos head status).sys.blk.deviceRequest q' head' = r := by
  have hstep := BlkStep.answer s.sys q pos head status hs.blk.queue hhead hnew
  exact (hstep.request_kept hs hq' hhead' hnm).trans
    (h.found pos' head' r q hhead' hnm hr hs.blk.queue)

/-- The device refuses a request. -/
theorem Inv.refuse (h : s.Inv d₀) (hs : s.sys.Inv blkSize before q out held slot userData)
    (hhead : s.sys.traffic.taken[pos]? = some head) (hnew : s.sys.answers pos = none)
    (hst : status ≠ virtioBlkSOk) : Inv (s.answer q pos head status) d₀ :=
  { h with
    found := fun _ _ _ _ hhead' hnm hr hq' => h.found_answer hs hhead hnew hhead' hnm hr hq'
    served := fun pos' n hn => by
      show n ∈ s.log.map Prod.fst ↔ Function.update s.sys.answers pos (some status) pos' = _
      by_cases he : pos' = pos
      · subst he
        rw [Function.update_self]
        refine iff_of_false (fun hm => ?_) fun hok => hst (Option.some.inj hok)
        exact absurd (hnew.symm.trans ((h.served pos' n hn).1 hm)) nofun
      · rw [Function.update_of_ne he]
        exact h.served pos' n hn }

/-- The device serves a request. -/
theorem Inv.serve (h : s.Inv d₀) (hs : s.sys.Inv blkSize before q out held slot userData)
    {n : ℕ} {r : DeviceRequest} (hhead : s.sys.traffic.taken[pos]? = some head)
    (hnew : s.sys.answers pos = none) (hn : s.sys.accepted[pos]? = some n)
    (hr : s.sys.blk.deviceRequest q head = r)
    (hfits : r.transfer.start + r.transfer.len ≤ s.disk.length) :
    Inv { s.answer q pos head virtioBlkSOk with
      disk := (r.serve s.disk s.mem).2.1
      mem := (r.serve s.disk s.mem).2.2
      log := s.log ++ [(n, (r.serve s.disk s.mem).1)] } d₀ := by
  have hnot : n ∉ s.log.map Prod.fst := fun hm =>
    absurd (hnew.symm.trans ((h.served pos n hn).1 hm)) nofun
  refine
    { journal := ?_
      nodup := ?_
      length := h.length
      found := fun _ _ _ _ hhead' hnm hr hq' => h.found_answer hs hhead hnew hhead' hnm hr hq'
      made := h.made
      served := fun pos' n' hn' => ?_
      moved := fun e he => ?_ }
  · show Journal d₀ ((s.log ++ [_]).map Prod.snd) _
    rw [List.map_append]
    exact h.journal.snoc (DeviceRequest.makes_serve hfits s.mem)
  · show ((s.log ++ [_]).map Prod.fst).Nodup
    rw [List.map_append, List.map_singleton, List.nodup_append]
    refine ⟨h.nodup, List.nodup_singleton _, fun a ha b hb => ?_⟩
    obtain rfl := List.mem_singleton.1 hb
    rintro rfl
    exact hnot ha
  · show n' ∈ (s.log ++ [_]).map Prod.fst ↔
      Function.update s.sys.answers pos (some virtioBlkSOk) pos' = _
    rw [List.map_append, List.map_singleton, List.mem_append, List.mem_singleton]
    by_cases he : pos' = pos
    · subst he
      rw [Function.update_self]
      exact iff_of_true (.inr (Option.some.inj (hn'.symm.trans hn))) rfl
    · have hne : n' ≠ n := by
        rintro rfl
        exact he ((List.getElem?_inj (List.getElem?_eq_some_iff.1 hn').1 hs.ledger.nodup).1
          (hn'.trans hn.symm))
      rw [Function.update_of_ne he, or_iff_left hne]
      exact h.served pos' n' hn'
  · rcases List.mem_append.1 he with he | he
    · exact h.moved e he
    · obtain rfl := List.mem_singleton.1 he
      have hlt : pos < s.asked.length := by
        rw [h.length]
        exact (List.getElem?_eq_some_iff.1 hn).1
      obtain ⟨zs, hzs⟩ := hs.blk.traffic.ring.taken_prefix
      have hsub : s.sys.traffic.submitted[pos]? = some head := by
        rw [← hzs, List.getElem?_append_left (List.getElem?_eq_some_iff.1 hhead).1, hhead]
      have hsame : s.asked[pos] = r :=
        (h.found pos head _ q hsub (notMem_popped hs hnew) (List.getElem?_eq_getElem hlt)
          hs.blk.queue).symm.trans hr
      refine ⟨pos, s.asked[pos], hn, List.getElem?_eq_getElem hlt, ?_⟩
      rw [hsame, DeviceRequest.serve]
      split_ifs <;> rfl

end Answer

/-! ### Runs -/

/-- A step of the store is a step of the driver and its device, or leaves them alone. -/
theorem sys_step (h : StoreStep s t) : t.sys = s.sys ∨ BlkStep s.sys t.sys := by
  cases h with
  | move t h ha => exact .inr h
  | poke mem => exact .inl rfl
  | refuse q pos head status hq hhead hnew hst => exact .inr (.answer _ q pos head _ hq hhead hnew)
  | serve q pos n head r hq hhead hnew hn hr hfits hmem =>
    exact .inr (.answer _ q pos head _ hq hhead hnew)

/-- Every step keeps the invariant. -/
theorem Inv.step (h : s.Inv d₀) (hs : s.sys.Inv blkSize before q out held slot userData)
    (hstep : StoreStep s t) : t.Inv d₀ := by
  cases hstep with
  | move t hstep ha => exact h.move hs hstep ha
  | poke mem => exact { h with }
  | refuse q₀ pos head status hq hhead hnew hst =>
    obtain rfl : q = q₀ := Option.some.inj (hs.blk.queue.symm.trans hq)
    exact h.refuse hs hhead hnew hst
  | serve q₀ pos n head r hq hhead hnew hn hr hfits hmem =>
    obtain rfl : q = q₀ := Option.some.inj (hs.blk.queue.symm.trans hq)
    exact h.serve hs hhead hnew hn hr hfits

/-- The invariant holds along every run. -/
theorem Inv.run (h : s.Inv d₀) (hs : s.sys.Inv blkSize before q out held slot userData)
    (hrun : StoreReach s t) : t.Inv d₀ ∧ ∃ q out held slot userData,
      t.sys.Inv blkSize before q out held slot userData := by
  induction hrun with
  | refl => exact ⟨h, q, out, held, slot, userData, hs⟩
  | tail _ hstep ih =>
    obtain ⟨h, q', out', held', slot', userData', hs⟩ := ih
    refine ⟨h.step hs hstep, ?_⟩
    rcases sys_step hstep with he | hstep
    · rw [he]
      exact ⟨q', out', held', slot', userData', hs⟩
    · obtain ⟨q'', out'', held'', slot'', userData'', hs, -⟩ := hs.step hstep
      exact ⟨q'', out'', held'', slot'', userData'', hs⟩

/-- The log of a step goes on with what was not completed before. -/
theorem continues_step (hs : s.sys.Inv blkSize before q out held slot userData)
    (hstep : StoreStep s t) : Continues s.sys.calls s.log t.log := by
  cases hstep with
  | serve q₀ pos n head r hq hhead hnew hn hr hfits hmem =>
    refine ⟨_, rfl, fun e he => ?_⟩
    obtain rfl := List.mem_singleton.1 he
    exact hs.ledger.pending pos n hn (notMem_popped hs hnew)
  | _ => exact .refl _ _

/-- The log of a run goes on with what was not completed before, and calls are only added. -/
theorem continues_run (hs : s.sys.Inv blkSize before q out held slot userData)
    (hrun : StoreReach s t) : Continues s.sys.calls s.log t.log ∧ s.sys.calls <+: t.sys.calls ∧
      s.sys.fetched <+: t.sys.fetched ∧ ∃ q out held slot userData,
        t.sys.Inv blkSize before q out held slot userData := by
  induction hrun with
  | refl =>
    exact ⟨.refl _ _, List.prefix_rfl, List.prefix_rfl, q, out, held, slot, userData, hs⟩
  | tail _ hstep ih =>
    obtain ⟨hlog, hcalls, hfetched, q', out', held', slot', userData', hs⟩ := ih
    have hlog' := hlog.trans (continues_step hs hstep) hcalls
    rcases sys_step hstep with he | hsys
    · rw [he]
      exact ⟨hlog', hcalls, hfetched, q', out', held', slot', userData', hs⟩
    · obtain ⟨q'', out'', held'', slot'', userData'', hs, -⟩ := hs.step hsys
      exact ⟨hlog', hcalls.trans hsys.calls_prefix, hfetched.trans hsys.fetched_prefix, q'', out'',
        held'', slot'', userData'', hs⟩

/-- The store is a serial disk. -/
theorem Inv.serial (h : s.Inv d₀) (hs : s.sys.Inv blkSize before q out held slot userData) :
    SerialDisk 512 (fun _ => 0) d₀ s.disk s.sys.fetched s.sys.calls s.log where
  journal := h.journal
  once := h.nodup
  asked e he := by
    obtain ⟨pos, r, hacc, hr, ht⟩ := h.moved e he
    have hlt := hs.ledger.lt e.1 (List.mem_of_getElem? hacc)
    obtain ⟨sqe, hget⟩ : ∃ sqe, s.sys.fetched[e.1]? = some sqe :=
      ⟨_, List.getElem?_eq_getElem (hlt.trans_le hs.ledger.handed_le)⟩
    obtain ⟨type, htype, hr⟩ := h.made pos e.1 sqe r hacc hget hr
    refine ⟨sqe, hget, ?_⟩
    rw [ht, hr, Sqe.transfer, Nat.mul_comm, Sqe.Moving]
    cases hop : sqe.opcode with
    | read =>
      obtain rfl := Option.some.inj ((congrArg requestType hop).symm.trans htype)
      exact ⟨.inl rfl, by simp [virtioBlkTIn, virtioBlkTOut]⟩
    | write =>
      obtain rfl := Option.some.inj ((congrArg requestType hop).symm.trans htype)
      exact ⟨.inr rfl, by simp⟩
    | sync =>
      rw [hop] at htype
      simp [requestType] at htype
    | other code =>
      rw [hop] at htype
      simp [requestType] at htype
  told n sqe hget := by
    -- a request that is not in the log was answered with another status, or not at all
    have hnot : n ∉ s.sys.accepted → n ∉ s.log.map Prod.fst := by
      intro hna hm
      obtain ⟨e, he, rfl⟩ := List.mem_map.1 hm
      obtain ⟨pos, -, hacc, -⟩ := h.moved e he
      exact hna (List.mem_of_getElem? hacc)
    cases hs.fate hget with
    | waiting hn hcalls => exact .inl hcalls
    | rejected hn hna hcalls => exact .inr (.inr ⟨hnot hna, -1, hcalls, fun _ => by decide⟩)
    | pending i d1 d2 d3 hp hcalls => exact .inl hcalls
    | completed pos st hacc hpop hst hcalls =>
      have hserved := h.served pos n hacc
      by_cases hok : st = virtioBlkSOk
      · rw [if_pos (show st = 0 from hok)] at hcalls
        exact .inr (.inl ⟨hserved.2 (hok ▸ hst), hcalls⟩)
      · rw [if_neg (show st ≠ 0 from hok)] at hcalls
        refine .inr (.inr ⟨fun hm => hok ?_, -1, hcalls, fun _ => by decide⟩)
        exact Option.some.inj (hst.symm.trans (hserved.1 hm))

end Step

end StoreState

open StoreState in
/-- **The block driver and its device are a serial disk.**  Whatever the client, the driver and the
device do, as long as the device serves no request with data in the driver's pages: in a state `s`
that was reached from `init` the disk is what the requests of the log made of it, one after the
other, each once, and a request is completed with 0 iff it is in the log; and what is added to the
log after `s` was not completed in `s`. -/
theorem block_store {b : VirtIOBlk} (hb : b.Started) {d₀ : List UInt8} {m₀ : UInt64 → UInt8}
    {s t : StoreState} (hs : StoreReach (.start b d₀ m₀) s) (ht : StoreReach s t) :
    SerialDisk 512 (fun _ => 0) d₀ s.disk s.sys.fetched s.sys.calls s.log ∧
      Continues s.sys.calls s.log t.log := by
  obtain ⟨h, q, out, held, slot, userData, hinv⟩ := Inv.run (.start b d₀ m₀)
    (BlkState.Inv.start hb (fun _ => 0) fun _ => 0) hs
  exact ⟨h.serial hinv, (continues_run hinv ht).1⟩

end GlendaDrivers
