import GlendaDrivers.Virtio.Block
import GlendaDrivers.Virtio.Traffic

/-!
# What one request does to the block driver

* `Admitted`: a request passes all checks that come before the first `alloc_desc`;
* `submit_cases`: a request panics, is rejected by a check, or is admitted and handed to
  `submitChain`;
* `submitChain_ok`, `submitChain_short`: with three free descriptors the request is submitted,
  with fewer it is rejected and takes those there are.
-/

namespace GlendaDrivers

open VirtQueue

namespace VirtIOBlk

/-! ### Headers and status bytes -/

theorem statusOffset_toNat (i : Fin 64) : (statusOffset i).toNat = 1024 + i := by
  have := i.isLt
  simp only [statusOffset, sizeOfVirtIOBlkReq, UInt64.toNat_ofNat']
  omega

theorem reqOffset_toNat (i : Fin 64) : (reqOffset i).toNat = 16 * i := by
  have := i.isLt
  simp only [reqOffset, sizeOfVirtIOBlkReq, UInt64.toNat_ofNat']
  omega

theorem statusOffset_inj {i j : Fin 64} (h : statusOffset i = statusOffset j) : i = j := by
  have := congrArg UInt64.toNat h
  rw [statusOffset_toNat, statusOffset_toNat] at this
  exact Fin.ext (by omega)

/-- Preparing slot `i` does not touch the status byte of another slot. -/
theorem writeHeader_status (b : VirtIOBlk) {i j : Fin 64} (hij : j ≠ i) (type : UInt32)
    (sector : UInt64) :
    (b.writeHeader i type sector).dma (statusOffset j) = b.dma (statusOffset j) := by
  have hne : statusOffset j ≠ statusOffset i := fun h => hij (statusOffset_inj h)
  simp only [writeHeader]
  rw [Bytes.write_singleton_of_ne _ hne]
  refine Bytes.write_of_le ?_
  have hi := i.isLt
  rw [UInt64.toNat_sub, statusOffset_toNat, reqOffset_toNat]
  simp only [virtIOBlkReq, List.length_append, Bytes.length_little]
  omega

/-! ### Submission -/

/-- The request passes every check before the first `alloc_desc`; it will use slot `i`. -/
structure Admitted (b : VirtIOBlk) (sqe : Sqe) (q : VirtQueue) (i : Fin 64) (type : UInt32)
    (isWrite : Bool) (paddr : UInt64) : Prop where
  blkSize : b.blkSize ≠ 0
  aligned : sqe.len % b.blkSize = 0
  queue : b.queue = some q
  slot : b.freeSlot = some i
  dmaVaddr : b.dmaVaddr ≠ 0
  opcode : requestType sqe.opcode = some (type, isWrite)
  data : dataPaddr b.buffer sqe = some paddr

variable {b b' : VirtIOBlk} {sqe : Sqe} {q : VirtQueue} {i : Fin 64} {type : UInt32}
  {isWrite : Bool} {paddr : UInt64} {r : Except Error Unit}

theorem Admitted.submit (h : b.Admitted sqe q i type isWrite paddr) :
    b.submitVirtioRequest sqe =
      (b.writeHeader i type sqe.off).submitChain q i isWrite paddr sqe := by
  have hdata : dataPaddr (b.writeHeader i type sqe.off).buffer sqe = some paddr := h.data
  simp [submitVirtioRequest, h.blkSize, h.aligned, h.queue, h.slot, h.dmaVaddr, h.opcode, hdata]

/-- A request rejected by a check at most prepares a slot that is not in use. -/
structure Refused (b b' : VirtIOBlk) (sqe : Sqe) (r : Except Error Unit) : Prop where
  error : ∃ e, r = .error e
  state : b' = b ∨ ∃ i type, b.freeSlot = some i ∧ b' = b.writeHeader i type sqe.off

theorem submit_cases (b : VirtIOBlk) (sqe : Sqe) :
    (b.blkSize = 0 ∧ b.submitVirtioRequest sqe = .panic) ∨
    (∃ r b', b.submitVirtioRequest sqe = .ret (r, b') ∧ Refused b b' sqe r) ∨
    (∃ q i type isWrite paddr, b.Admitted sqe q i type isWrite paddr) := by
  by_cases hbs : b.blkSize = 0
  · exact Or.inl ⟨hbs, by simp [submitVirtioRequest, hbs]⟩
  right
  -- the checks that fail before the header is written
  have refuse : ∀ e, b.submitVirtioRequest sqe = .ret (.error e, b) →
      ∃ r b', b.submitVirtioRequest sqe = .ret (r, b') ∧ Refused b b' sqe r :=
    fun e h => ⟨_, _, h, ⟨e, rfl⟩, Or.inl rfl⟩
  by_cases hal : sqe.len % b.blkSize = 0
  swap
  · exact Or.inl (refuse .invalidArgs (by simp [submitVirtioRequest, hbs, hal]))
  cases hq : b.queue with
  | none => exact Or.inl (refuse .notInitialized (by simp [submitVirtioRequest, hbs, hal, hq]))
  | some q =>
    cases hi : b.freeSlot with
    | none =>
      exact Or.inl (refuse .outOfMemory (by simp [submitVirtioRequest, hbs, hal, hq, hi]))
    | some i =>
      by_cases hv : b.dmaVaddr = 0
      · exact Or.inl (refuse .notInitialized (by
          simp [submitVirtioRequest, hbs, hal, hq, hi, hv]))
      cases hop : requestType sqe.opcode with
      | none =>
        exact Or.inl (refuse .notSupported (by
          simp [submitVirtioRequest, hbs, hal, hq, hi, hv, hop]))
      | some tw =>
        obtain ⟨type, isWrite⟩ := tw
        cases hd : dataPaddr b.buffer sqe with
        | none =>
          have hd' : dataPaddr (b.writeHeader i type sqe.off).buffer sqe = none := hd
          exact Or.inl ⟨.error .invalidArgs, b.writeHeader i type sqe.off, by
            simp [submitVirtioRequest, hbs, hal, hq, hi, hv, hop, hd'],
            ⟨_, rfl⟩, Or.inr ⟨i, type, hi, rfl⟩⟩
        | some paddr =>
          exact Or.inr ⟨q, i, type, isWrite, paddr, hbs, hal, hq, hi, hv, hop, hd⟩

/-! ### The chain -/

variable {t : Traffic} {out : List Request} {held rest : List UInt16} {d1 d2 d3 : UInt16}

/-- The descriptors of a request in slot `i`, with the DMA memory at `base`. -/
structure IsChain (desc : UInt16 → Descriptor) (base : UInt64) (i : Fin 64) (isWrite : Bool)
    (paddr : UInt64) (len : UInt32) (d1 d2 d3 : UInt16) : Prop where
  header : desc d1 = ⟨base + reqOffset i, 16, descFNext, d2⟩
  data : desc d2 = ⟨paddr, len, if isWrite then descFNext else descFNext ||| descFWrite, d3⟩
  status : desc d3 = ⟨base + statusOffset i, 1, descFWrite, 0⟩

theorem IsChain.congr {desc desc' : UInt16 → Descriptor} {base : UInt64} {len : UInt32}
    (h : IsChain desc base i isWrite paddr len d1 d2 d3)
    (hd : ∀ x ∈ [d1, d2, d3], desc' x = desc x) :
    IsChain desc' base i isWrite paddr len d1 d2 d3 :=
  ⟨(hd d1 (by simp)).trans h.header, (hd d2 (by simp)).trans h.data,
    (hd d3 (by simp)).trans h.status⟩

theorem IsChain.linked {desc : UInt16 → Descriptor} {base : UInt64} {len : UInt32}
    (h : IsChain desc base i isWrite paddr len d1 d2 d3) : Linked desc [d1, d2, d3] := by
  refine ⟨?_, by rw [h.header], ?_, by rw [h.data], ?_⟩
  · rw [h.header]
    show descFNext &&& descFNext ≠ 0
    decide
  · rw [h.data]
    cases isWrite
    · show (descFNext ||| descFWrite) &&& descFNext ≠ 0
      decide
    · show descFNext &&& descFNext ≠ 0
      decide
  · show (desc d3).flags &&& descFNext = 0
    rw [h.status]
    show descFWrite &&& descFNext = 0
    decide

variable (b i isWrite paddr sqe) in
/-- With three free descriptors the request is submitted. -/
theorem submitChain_ok (h : TrafficInv q t out held) (hids : q.freeIds = d1 :: d2 :: d3 :: rest) :
    ∃ q', b.submitChain q i isWrite paddr sqe = .ret (.ok (), { b with
        queue := some (q'.submit d1)
        pendingInfo := Function.update b.pendingInfo i (some (sqe.userData, d1))
        transport := b.transport.notifyQueue 0 }) ∧
      TrafficInv q' t out ([d1, d2, d3] ++ held) ∧ SameRings q q' ∧ q'.freeIds = rest ∧
      IsChain q'.mem.desc b.dmaPaddr i isWrite paddr sqe.len d1 d2 d3 ∧
      ∀ x, x ∉ [d1, d2, d3] → q'.mem.desc x = q.mem.desc x := by
  obtain ⟨h1, hids1, hinv1⟩ := h.allocDesc hids
  obtain ⟨h2, hids2, hinv2⟩ := hinv1.allocDesc hids1
  obtain ⟨h3, hids3, hinv3⟩ := hinv2.allocDesc hids2
  have hperm : (d3 :: d2 :: d1 :: held).Perm ([d1, d2, d3] ++ held) :=
    (List.reverse_perm [d1, d2, d3]).append_right held
  have hnd : [d1, d2, d3].Nodup :=
    (hinv3.perm hperm).free.nodup_allocated.of_append_left.of_append_left
  simp only [List.nodup_cons, List.mem_cons, List.not_mem_nil, or_false, not_or] at hnd
  obtain ⟨⟨h12, h13⟩, h23, -⟩ := hnd
  let w1 : Descriptor :=
    ⟨b.dmaPaddr + reqOffset i, UInt32.ofNat sizeOfVirtIOBlkReq, descFNext, d2⟩
  let w2 : Descriptor :=
    ⟨paddr, sqe.len, if isWrite then descFNext else descFNext ||| descFWrite, d3⟩
  let w3 : Descriptor := ⟨b.dmaPaddr + statusOffset i, 1, descFWrite, 0⟩
  obtain ⟨e1, hw1⟩ := (hinv3.perm hperm).writeDesc (show d1 ∈ _ by simp) w1
  obtain ⟨e2, hw2⟩ := hw1.writeDesc (show d2 ∈ _ by simp) w2
  obtain ⟨e3, hw3⟩ := hw2.writeDesc (show d3 ∈ _ by simp) w3
  refine ⟨_, ?_, hw3, ?_, by rw [e3, e2, e1, hids3], ⟨?_, ?_, ?_⟩, ?_⟩
  · simp only [submitChain, h1, h2, h3, Outcome.ret_bind]
    rfl
  · have hpopped : SameRings q q.popFree.popFree.popFree :=
      ((sameRings_popFree q).trans (sameRings_popFree _)).trans (sameRings_popFree _)
    have hwritten : SameRings q.popFree.popFree.popFree
        (((q.popFree.popFree.popFree.writeDesc d1 w1).writeDesc d2 w2).writeDesc d3 w3) :=
      ((sameRings_writeDesc _ d1 w1).trans (sameRings_writeDesc _ d2 w2)).trans
        (sameRings_writeDesc _ d3 w3)
    exact hpopped.trans hwritten
  · simp [writeDesc, setDesc, Function.update_of_ne h13, Function.update_of_ne h12, w1,
      sizeOfVirtIOBlkReq]
  · simp [writeDesc, setDesc, Function.update_of_ne h23, w2]
  · simp [writeDesc, setDesc, w3]
  · intro x hx
    simp only [List.mem_cons, List.not_mem_nil, or_false, not_or] at hx
    simp [writeDesc, setDesc, Function.update_of_ne hx.1, Function.update_of_ne hx.2.1,
      Function.update_of_ne hx.2.2, popFree]

variable (b i isWrite paddr sqe) in
/-- With fewer than three free descriptors the request is rejected, and holds them all. -/
theorem submitChain_short (h : TrafficInv q t out held) (hids : q.freeIds.length < 3) :
    ∃ q', b.submitChain q i isWrite paddr sqe =
        .ret (.error .outOfMemory, { b with queue := some q' }) ∧
      TrafficInv q' t out (q.freeIds.reverse ++ held) ∧ SameRings q q' ∧ q'.freeIds = [] ∧
      q'.mem.desc = q.mem.desc := by
  match hq : q.freeIds, hids with
  | [], _ =>
    have h1 := allocDesc_nil hq
    exact ⟨q, by simp [submitChain, h1], h, SameRings.refl q, hq, rfl⟩
  | [d1], _ =>
    obtain ⟨h1, hids1, hinv1⟩ := h.allocDesc hq
    have h2 := allocDesc_nil hids1
    exact ⟨_, by simp [submitChain, h1, h2], hinv1, sameRings_popFree q, hids1, rfl⟩
  | [d1, d2], _ =>
    obtain ⟨h1, hids1, hinv1⟩ := h.allocDesc hq
    obtain ⟨h2, hids2, hinv2⟩ := hinv1.allocDesc hids1
    have h3 := allocDesc_nil hids2
    exact ⟨_, by simp [submitChain, h1, h2, h3], hinv2,
      (sameRings_popFree q).trans (sameRings_popFree _), hids2, rfl⟩

end VirtIOBlk

end GlendaDrivers
