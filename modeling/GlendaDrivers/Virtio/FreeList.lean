import GlendaDrivers.Virtio.Queue

/-!
# The free list of a virtqueue

The free list has no terminator: its last link keeps whatever was in the descriptor, and the
links of descriptors in use are overwritten by the chains built from them.  The invariant
`FreeInv q allocated` therefore speaks of the walk of length `num_free` only: together with
the descriptors in use it is a list of all ids below `num`, each once.

* `FreeInv.fresh`, `allocDesc`, `freeDesc`, `writeDesc`: the operations keep it;
* `FreeInv.freeChain`: returning a whole chain of descriptors in use;
* `DescState.Run`: sequences of operations;
* `freeList_invariant`: what it means for every sequence of operations.
-/

namespace GlendaDrivers

namespace VirtQueue

@[simp] theorem length_freeIds (q : VirtQueue) : q.freeIds.length = q.numFree.toNat := by
  simp [freeIds]

/-- The queue after `alloc_desc` took the head of the free list. -/
def popFree (q : VirtQueue) : VirtQueue :=
  { q with freeHead := q.next q.freeHead, numFree := q.numFree - 1 }

/-- The queue after `free_desc id`. -/
def pushFree (q : VirtQueue) (id : UInt16) : VirtQueue :=
  { q.setDesc id { q.mem.desc id with next := q.freeHead, flags := descFNext } with
    freeHead := id, numFree := q.numFree + 1 }

/-- `q` and `q'` differ at most in the descriptor table and the free list. -/
structure SameRings (q q' : VirtQueue) : Prop where
  index : q'.index = q.index
  num : q'.num = q.num
  paddr : q'.paddr = q.paddr
  lastUsedIdx : q'.lastUsedIdx = q.lastUsedIdx
  availIdx : q'.mem.availIdx = q.mem.availIdx
  availRing : q'.mem.availRing = q.mem.availRing
  usedIdx : q'.mem.usedIdx = q.mem.usedIdx
  usedRing : q'.mem.usedRing = q.mem.usedRing

theorem SameRings.refl (q : VirtQueue) : SameRings q q := ⟨rfl, rfl, rfl, rfl, rfl, rfl, rfl, rfl⟩

theorem SameRings.trans {q q' q'' : VirtQueue} (h : SameRings q q') (h' : SameRings q' q'') :
    SameRings q q'' where
  index := h'.index.trans h.index
  num := h'.num.trans h.num
  paddr := h'.paddr.trans h.paddr
  lastUsedIdx := h'.lastUsedIdx.trans h.lastUsedIdx
  availIdx := h'.availIdx.trans h.availIdx
  availRing := h'.availRing.trans h.availRing
  usedIdx := h'.usedIdx.trans h.usedIdx
  usedRing := h'.usedRing.trans h.usedRing

theorem sameRings_popFree (q : VirtQueue) : SameRings q q.popFree :=
  ⟨rfl, rfl, rfl, rfl, rfl, rfl, rfl, rfl⟩

theorem sameRings_pushFree (q : VirtQueue) (id : UInt16) : SameRings q (q.pushFree id) :=
  ⟨rfl, rfl, rfl, rfl, rfl, rfl, rfl, rfl⟩

theorem sameRings_writeDesc (q : VirtQueue) (id : UInt16) (d : Descriptor) :
    SameRings q (q.writeDesc id d) := ⟨rfl, rfl, rfl, rfl, rfl, rfl, rfl, rfl⟩

/-- The free list and the descriptors in use are together all ids below `num`, each once. -/
structure FreeInv (q : VirtQueue) (allocated : List UInt16) : Prop where
  nodup : (q.freeIds ++ allocated).Nodup
  lt : ∀ id ∈ q.freeIds ++ allocated, id < q.num
  count : q.numFree.toNat + allocated.length = q.num.toNat

variable {q q' : VirtQueue} {allocated allocated' chain : List UInt16} {id : UInt16}

theorem FreeInv.perm (h : FreeInv q allocated) (hp : allocated.Perm allocated') :
    FreeInv q allocated' where
  nodup := (hp.append_left q.freeIds).nodup_iff.1 h.nodup
  lt id hid := h.lt id (((hp.append_left q.freeIds).mem_iff).2 hid)
  count := by rw [← hp.length_eq]; exact h.count

theorem FreeInv.nodup_allocated (h : FreeInv q allocated) : allocated.Nodup :=
  h.nodup.of_append_right

theorem FreeInv.allocated_lt (h : FreeInv q allocated) (hid : id ∈ allocated) : id < q.num :=
  h.lt id (by simp [hid])

theorem FreeInv.notMem_freeIds (h : FreeInv q allocated) (hid : id ∈ allocated) :
    id ∉ q.freeIds := fun hf => (List.disjoint_of_nodup_append h.nodup) hf hid

/-- A list with every id below `num` free. -/
theorem FreeInv.perm_range (h : FreeInv q []) :
    (q.freeIds.map UInt16.toNat).Perm (List.range q.num.toNat) := by
  have hnodup : (q.freeIds.map UInt16.toNat).Nodup := by
    refine h.nodup.of_append_left.map fun a b hab => ?_
    exact UInt16.toNat_inj.1 hab
  have hsub : (q.freeIds.map UInt16.toNat) ⊆ List.range q.num.toNat := by
    intro n hn
    obtain ⟨id, hid, rfl⟩ := List.mem_map.1 hn
    exact List.mem_range.2 (h.lt id (List.mem_append_left _ hid))
  refine (List.subperm_of_subset hnodup hsub).perm_of_length_le ?_
  have hcount : q.numFree.toNat + 0 = q.num.toNat := h.count
  rw [List.length_map, length_freeIds, List.length_range]
  omega

/-! ### The initial list -/

theorem linkDescs_next (desc : UInt16 → Descriptor) {n i : ℕ} (hi : i < n) (hn : n ≤ 65536) :
    (linkDescs desc n (UInt16.ofNat i)).next = UInt16.ofNat (i + 1) := by
  induction n with
  | zero => omega
  | succ n ih =>
    simp only [linkDescs]
    rcases Nat.lt_or_ge i n with hlt | hge
    · rw [Function.update_of_ne, ih hlt (by omega)]
      rw [ne_eq, ← UInt16.toNat_inj, UInt16.toNat_ofNat', UInt16.toNat_ofNat']
      omega
    · obtain rfl : i = n := by omega
      rw [Function.update_self]

/-- All links of a new queue but the last. -/
theorem fresh_next (index : UInt32) (num : UInt16) (paddr : UInt64) (mem : QueueMem) {i : ℕ}
    (hi : i + 1 < num.toNat) :
    (fresh index num paddr mem).next (UInt16.ofNat i) = UInt16.ofNat (i + 1) := by
  have hlt := num.toNat_lt
  have hlast : (num - 1).toNat = num.toNat - 1 :=
    UInt16.toNat_sub_of_le num 1 (UInt16.le_iff_toNat_le.2 (by simp; omega))
  simp only [next, fresh]
  rw [Function.update_of_ne, linkDescs_next mem.desc (by omega) (by omega)]
  rw [ne_eq, ← UInt16.toNat_inj, hlast, UInt16.toNat_ofNat']
  omega

theorem walk_fresh (index : UInt32) (num : UInt16) (paddr : UInt64) (mem : QueueMem) (n i : ℕ)
    (h : i + n ≤ num.toNat) :
    Threaded.walk (fresh index num paddr mem).next n (UInt16.ofNat i) =
      (List.range' i n).map UInt16.ofNat := by
  induction n generalizing i with
  | zero => rfl
  | succ n ih =>
    rw [Threaded.walk_succ, List.range'_succ, List.map_cons]
    cases n with
    | zero => rfl
    | succ n => rw [fresh_next index num paddr mem (by omega), ih (i + 1) (by omega)]

theorem freeIds_fresh (index : UInt32) (num : UInt16) (paddr : UInt64) (mem : QueueMem) :
    (fresh index num paddr mem).freeIds = (List.range' 0 num.toNat).map UInt16.ofNat :=
  walk_fresh index num paddr mem num.toNat 0 (by omega)

theorem FreeInv.fresh (index : UInt32) (num : UInt16) (paddr : UInt64) (mem : QueueMem) :
    FreeInv (VirtQueue.fresh index num paddr mem) [] := by
  have hlt := num.toNat_lt
  refine ⟨?_, ?_, rfl⟩
  · rw [List.append_nil, freeIds_fresh]
    refine List.Nodup.map_on (fun x hx y hy hxy => ?_) List.nodup_range'
    rw [← UInt16.toNat_inj, UInt16.toNat_ofNat', UInt16.toNat_ofNat'] at hxy
    simp only [List.mem_range'_1] at hx hy
    omega
  · intro id hid
    rw [List.append_nil, freeIds_fresh, List.mem_map] at hid
    obtain ⟨i, hi, rfl⟩ := hid
    rw [List.mem_range'_1] at hi
    show UInt16.ofNat i < num
    rw [UInt16.lt_iff_toNat_lt, UInt16.toNat_ofNat']
    omega

/-! ### The operations -/

theorem freeIds_eq_nil : q.freeIds = [] ↔ q.numFree = 0 := by
  rw [← List.length_eq_zero_iff, length_freeIds, ← UInt16.toNat_inj]
  rfl

/-- With an empty free list `alloc_desc` returns `None`. -/
theorem allocDesc_nil (h : q.freeIds = []) : q.allocDesc = .ret (none, q) := by
  simp [allocDesc, freeIds_eq_nil.1 h]

/-- With a free list `id :: rest`, `alloc_desc` returns `id`. -/
theorem FreeInv.allocDesc {rest : List UInt16} (h : FreeInv q allocated)
    (hq : q.freeIds = id :: rest) :
    q.allocDesc = .ret (some id, q.popFree) ∧ q.popFree.freeIds = rest ∧
      FreeInv q.popFree (id :: allocated) := by
  have hlen : q.numFree.toNat = rest.length + 1 := by rw [← length_freeIds, hq]; rfl
  have hne : q.numFree ≠ 0 := by rw [ne_eq, ← UInt16.toNat_inj]; simp [hlen]
  have hsub : (q.numFree - 1).toNat = rest.length := by
    rw [UInt16.toNat_sub_of_le _ _ (UInt16.le_iff_toNat_le.2 (by simp [hlen])), hlen]
    simp
  have hwalk : q.freeHead :: Threaded.walk q.next rest.length (q.next q.freeHead) = id :: rest := by
    rw [← hq, freeIds, hlen, Threaded.walk_succ]
  obtain ⟨rfl, hrest⟩ := List.cons.inj hwalk
  have hids : q.popFree.freeIds = rest := by
    rw [← hrest, freeIds, popFree, hsub, hrest]
    exact hrest
  refine ⟨?_, hids, ?_, ?_, ?_⟩
  · have hid : q.freeHead < q.num := h.lt _ (by simp [hq])
    simp [VirtQueue.allocDesc, hne, row, hid, popFree, VirtQueue.next]
  · have := h.nodup
    rw [hq] at this
    rw [hids]
    exact (List.perm_middle.nodup_iff).2 this
  · intro x hx
    rw [hids] at hx
    exact h.lt x (by rw [hq]; simpa [or_left_comm] using hx)
  · have := h.count
    show (q.numFree - 1).toNat + (allocated.length + 1) = q.num.toNat
    omega

/-- A descriptor in use can be freed. -/
theorem FreeInv.freeDesc (h : FreeInv q allocated) (hid : id ∈ allocated) :
    q.freeDesc id = .ret (q.pushFree id) ∧ (q.pushFree id).freeIds = id :: q.freeIds ∧
      FreeInv (q.pushFree id) (allocated.erase id) := by
  have hpos := List.length_pos_of_mem hid
  have hcount := h.count
  have hnum := q.num.toNat_lt
  have hadd : (q.numFree + 1).toNat = q.numFree.toNat + 1 := by
    rw [UInt16.toNat_add]
    simp only [UInt16.toNat_one]
    omega
  have hnext : (q.pushFree id).next = Function.update q.next id q.freeHead := by
    funext x
    by_cases hx : x = id
    · subst hx; simp [VirtQueue.next, pushFree, setDesc]
    · simp [VirtQueue.next, pushFree, setDesc, Function.update_of_ne hx]
  have hids : (q.pushFree id).freeIds = id :: q.freeIds := by
    show Threaded.walk (q.pushFree id).next (q.numFree + 1).toNat id = _
    rw [hnext, hadd]
    exact Threaded.walk_push (h.notMem_freeIds hid)
  have hperm : (id :: q.freeIds ++ allocated.erase id).Perm (q.freeIds ++ allocated) :=
    (List.perm_middle.symm.trans ((List.perm_cons_erase hid).symm.append_left _))
  refine ⟨?_, hids, ?_, ?_, ?_⟩
  · simp [VirtQueue.freeDesc, row, h.allocated_lt hid, pushFree, setDesc]
  · rw [hids]
    exact hperm.nodup_iff.2 h.nodup
  · intro x hx
    rw [hids] at hx
    exact h.lt x (hperm.mem_iff.1 hx)
  · show (q.numFree + 1).toNat + (allocated.erase id).length = q.num.toNat
    rw [List.length_erase_of_mem hid]
    omega

/-- The contents of a descriptor in use can be overwritten. -/
theorem FreeInv.writeDesc (h : FreeInv q allocated) (hid : id ∈ allocated) (d : Descriptor) :
    (q.writeDesc id d).freeIds = q.freeIds ∧ FreeInv (q.writeDesc id d) allocated := by
  have hids : (q.writeDesc id d).freeIds = q.freeIds := by
    refine Threaded.walk_congr fun x hx => ?_
    have hne : x ≠ id := by rintro rfl; exact h.notMem_freeIds hid hx
    simp [VirtQueue.next, VirtQueue.writeDesc, setDesc, Function.update_of_ne hne]
  refine ⟨hids, ?_, ?_, h.count⟩
  · rw [hids]; exact h.nodup
  · rw [hids]; exact h.lt

/-- The rings are not part of the free list. -/
theorem FreeInv.submit (h : FreeInv q allocated) (head : UInt16) :
    FreeInv (q.submit head) allocated := ⟨h.nodup, h.lt, h.count⟩

/-! ### Chains -/

/-- `chain` is linked by the descriptors' `next` fields, and its last descriptor ends it. -/
def Linked (desc : UInt16 → Descriptor) : List UInt16 → Prop
  | [] => False
  | [d] => (desc d).flags &&& descFNext = 0
  | d :: e :: rest =>
      (desc d).flags &&& descFNext ≠ 0 ∧ (desc d).next = e ∧ Linked desc (e :: rest)

theorem Linked.congr {desc desc' : UInt16 → Descriptor} (h : Linked desc chain)
    (hd : ∀ x ∈ chain, desc' x = desc x) : Linked desc' chain := by
  induction chain with
  | nil => exact h
  | cons d rest ih =>
    cases rest with
    | nil => simpa [Linked, hd d (by simp)] using h
    | cons e rest =>
      obtain ⟨hf, hn, hr⟩ := h
      refine ⟨?_, ?_, ih hr fun x hx => hd x (by simp [hx])⟩
      · rw [hd d (by simp)]; exact hf
      · rw [hd d (by simp)]; exact hn

/-- The loop over a chain in use returns its descriptors to the front of the free list. -/
theorem FreeInv.freeChainLoop {n : ℕ} (h : FreeInv q (chain ++ allocated))
    (hl : Linked q.mem.desc chain) (hn : chain.length ≤ n) {head : UInt16}
    (hhead : chain.head? = some head) :
    ∃ q', freeChainLoop n head q = .ret q' ∧ FreeInv q' allocated ∧ SameRings q q' ∧
      q'.freeIds = chain.reverse ++ q.freeIds ∧
      ∀ x ∉ chain, q'.mem.desc x = q.mem.desc x := by
  induction chain generalizing q n head with
  | nil => exact hl.elim
  | cons d rest ih =>
    obtain rfl : d = head := by simpa using hhead
    obtain ⟨n, rfl⟩ : ∃ m, n = m + 1 := ⟨n - 1, by simp at hn; omega⟩
    have hmem : d ∈ d :: rest ++ allocated := by simp
    obtain ⟨hfree, hids, hinv⟩ := h.freeDesc hmem
    rw [List.cons_append, List.erase_cons_head] at hinv
    have hrow : q.row d = .ret (q.mem.desc d) := by simp [row, h.allocated_lt hmem]
    have hframe : ∀ x ≠ d, (q.pushFree d).mem.desc x = q.mem.desc x := fun x hx => by
      simp [pushFree, setDesc, Function.update_of_ne hx]
    cases rest with
    | nil =>
      refine ⟨q.pushFree d, ?_, hinv, sameRings_pushFree q d, by simpa using hids, ?_⟩
      · have hf : (q.mem.desc d).flags &&& descFNext = 0 := hl
        simp [VirtQueue.freeChainLoop, hrow, hfree, hf]
      · intro x hx
        exact hframe x (by simpa using hx)
    | cons e rest =>
      obtain ⟨hf, hnext, hrest⟩ := hl
      have hd : d ∉ e :: rest := by
        have := h.nodup_allocated
        rw [List.cons_append, List.nodup_cons] at this
        exact fun hm => this.1 (List.mem_append_left _ hm)
      have hlinked : Linked (q.pushFree d).mem.desc (e :: rest) :=
        hrest.congr fun x hx => hframe x (by rintro rfl; exact hd hx)
      obtain ⟨q', hq', hinv', hsame, hids', hdesc⟩ :=
        ih hinv hlinked (by simpa using hn) (show (e :: rest).head? = some e from rfl)
      refine ⟨q', ?_, hinv', (sameRings_pushFree q d).trans hsame, ?_, ?_⟩
      · simp [VirtQueue.freeChainLoop, hrow, hfree, hf, hnext, hq']
      · rw [hids', hids]; simp
      · intro x hx
        rw [List.mem_cons, not_or] at hx
        rw [hdesc x hx.2, hframe x hx.1]

/-- Returning a chain in use. -/
theorem FreeInv.freeChain (h : FreeInv q (chain ++ allocated)) (hl : Linked q.mem.desc chain)
    {head : UInt16} (hhead : chain.head? = some head) :
    ∃ q', q.freeChain head = .ret q' ∧ FreeInv q' allocated ∧ SameRings q q' ∧
      q'.freeIds = chain.reverse ++ q.freeIds ∧
      ∀ x ∉ chain, q'.mem.desc x = q.mem.desc x := by
  have hcount := h.count
  rw [List.length_append] at hcount
  exact h.freeChainLoop hl (by omega) hhead

end VirtQueue

/-! ### Runs of the three operations -/

open VirtQueue

/-- An operation on the descriptor table. -/
inductive DescOp
  | alloc
  | free (id : UInt16)
  | write (id : UInt16) (desc : Descriptor)

/-- A queue and the ids handed out by `alloc_desc` and not freed since. -/
structure DescState where
  q : VirtQueue
  allocated : List UInt16

/-- `free_desc` and `write_desc` are called for ids in use only. -/
def DescState.Enabled (s : DescState) : DescOp → Prop
  | .alloc => True
  | .free id => id ∈ s.allocated
  | .write id _ => id ∈ s.allocated

def DescState.step (s : DescState) : DescOp → Outcome DescState
  | .alloc => do
      let (r, q) ← s.q.allocDesc
      return ⟨q, r.toList ++ s.allocated⟩
  | .free id => do
      let q ← s.q.freeDesc id
      return ⟨q, s.allocated.erase id⟩
  | .write id desc => return ⟨s.q.writeDesc id desc, s.allocated⟩

/-- The states after the operations `ops`. -/
inductive DescState.Run : DescState → List DescOp → DescState → Prop
  | nil (s : DescState) : Run s [] s
  | snoc {s t u : DescState} {ops : List DescOp} {op : DescOp} :
      Run s ops t → t.Enabled op → t.step op = .ret u → Run s (ops ++ [op]) u

theorem DescState.step_inv {s : DescState} {op : DescOp} (h : FreeInv s.q s.allocated)
    (hop : s.Enabled op) :
    ∃ t, s.step op = .ret t ∧ FreeInv t.q t.allocated ∧ t.q.num = s.q.num := by
  cases op with
  | alloc =>
    cases hids : s.q.freeIds with
    | nil => exact ⟨s, by simp [step, allocDesc_nil hids], h, rfl⟩
    | cons id rest =>
      obtain ⟨ha, -, hinv⟩ := h.allocDesc hids
      exact ⟨⟨s.q.popFree, id :: s.allocated⟩, by simp [step, ha], hinv, rfl⟩
  | free id =>
    obtain ⟨hf, -, hinv⟩ := h.freeDesc hop
    exact ⟨⟨s.q.pushFree id, s.allocated.erase id⟩, by simp [step, hf], hinv, rfl⟩
  | write id desc =>
    exact ⟨⟨s.q.writeDesc id desc, s.allocated⟩, rfl, (h.writeDesc hop desc).2, rfl⟩

theorem DescState.run_inv {s t : DescState} {ops : List DescOp} (h : FreeInv s.q s.allocated)
    (hrun : Run s ops t) : FreeInv t.q t.allocated ∧ t.q.num = s.q.num := by
  induction hrun with
  | nil => exact ⟨h, rfl⟩
  | snoc _ hop hstep ih =>
    obtain ⟨ih, hn⟩ := ih
    obtain ⟨u, hu, hinv, hnum⟩ := step_inv ih hop
    obtain rfl := Outcome.ret.inj (hstep.symm.trans hu)
    exact ⟨hinv, hnum.trans hn⟩

/-- **The free list of a virtqueue.**  After every sequence of the three operations on a new
queue the walk of length `num_free` visits distinct ids below `num` that are not in use, and
with the ids in use it makes up the table; every further operation returns, `alloc_desc`
hands out an id that is not in use, or `None` exactly when all are, and `num_free` neither
over- nor underflows. -/
theorem freeList_invariant (index : UInt32) (num : UInt16) (paddr : UInt64) (mem : QueueMem)
    (hnum : 1 ≤ num) :
    ∃ q, VirtQueue.new index num paddr mem = .ret q ∧
    ∀ (ops : List DescOp) (s : DescState), DescState.Run ⟨q, []⟩ ops s →
    (s.allocated.Nodup ∧ s.q.freeIds.length = s.q.numFree.toNat ∧ s.q.freeIds.Nodup ∧
      ∀ id ∈ s.q.freeIds, id < num ∧ id ∉ s.allocated) ∧
    s.q.numFree.toNat + s.allocated.length = num.toNat ∧
    (∃ r q', s.q.allocDesc = .ret (r, q') ∧
      (r = none ↔ s.allocated.length = num.toNat) ∧
      ∀ id, r = some id → id ∉ s.allocated ∧ q'.numFree.toNat + 1 = s.q.numFree.toNat) ∧
    (∀ id ∈ s.allocated, ∃ q', s.q.freeDesc id = .ret q' ∧
      q'.numFree.toNat = s.q.numFree.toNat + 1) := by
  have hne : num ≠ 0 := by
    rintro rfl
    exact absurd hnum (by decide)
  refine ⟨fresh index num paddr mem, by simp [VirtQueue.new, hne], fun ops s hrun => ?_⟩
  obtain ⟨h, hn⟩ := DescState.run_inv (FreeInv.fresh index num paddr mem) hrun
  have hn : s.q.num = num := hn
  have hcount := h.count
  rw [hn] at hcount
  refine ⟨⟨h.nodup_allocated, length_freeIds _, h.nodup.of_append_left, fun id hid => ⟨?_, ?_⟩⟩,
    hcount, ?_, ?_⟩
  · exact hn ▸ h.lt id (List.mem_append_left _ hid)
  · exact fun ha => h.notMem_freeIds ha hid
  · cases hids : s.q.freeIds with
    | nil =>
      have hz : s.q.numFree.toNat = 0 := by rw [← length_freeIds, hids]; rfl
      exact ⟨none, s.q, allocDesc_nil hids, by simp; omega, by simp⟩
    | cons id rest =>
      obtain ⟨ha, hr, hinv⟩ := h.allocDesc hids
      have hlen : s.q.numFree.toNat = rest.length + 1 := by rw [← length_freeIds, hids]; rfl
      have hlen' : s.q.popFree.numFree.toNat = rest.length := by rw [← length_freeIds, hr]
      refine ⟨some id, s.q.popFree, ha, by simp; omega, ?_⟩
      intro x hx
      obtain rfl : id = x := by simpa using hx
      exact ⟨fun hmem => h.notMem_freeIds hmem (by simp [hids]), by omega⟩
  · intro id hid
    obtain ⟨hf, hids, -⟩ := h.freeDesc hid
    refine ⟨_, hf, ?_⟩
    rw [← length_freeIds, hids, List.length_cons, length_freeIds]

/-- A table of three: two descriptors handed out, the first of them returned. -/
theorem freeList_invariant_three :
    ∃ q s, VirtQueue.new 0 3 0 .zeroed = .ret q ∧
      DescState.Run ⟨q, []⟩ [.alloc, .alloc, .free 0] s ∧ s.allocated = [1] ∧
      s.q.freeIds = [0, 2] ∧ s.q.freeIds.Nodup ∧
      s.q.numFree.toNat + s.allocated.length = (3 : UInt16).toNat := by
  obtain ⟨q, hq, h⟩ := freeList_invariant 0 3 0 .zeroed (by decide)
  obtain rfl : fresh 0 3 0 .zeroed = q := Outcome.ret.inj hq
  have halloc : ∀ s : DescState, s.Enabled .alloc := fun _ => trivial
  have hfree : DescState.Enabled ⟨(fresh 0 3 0 .zeroed).popFree.popFree, [1, 0]⟩ (.free 0) :=
    List.mem_cons_of_mem _ (List.mem_singleton_self 0)
  have hrun : DescState.Run ⟨fresh 0 3 0 .zeroed, []⟩ [.alloc, .alloc, .free 0] _ :=
    .snoc (.snoc (.snoc (.nil _) (halloc _) rfl) (halloc _) rfl) hfree rfl
  exact ⟨_, _, hq, hrun, rfl, rfl, (h _ _ hrun).1.2.2.1, (h _ _ hrun).2.1⟩

end GlendaDrivers
