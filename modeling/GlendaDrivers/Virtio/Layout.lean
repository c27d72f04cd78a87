import GlendaDrivers.Lib.Align
import GlendaDrivers.Lib.Bytes
import GlendaDrivers.Virtio.Registers

/-!
# Where a virtqueue lies in memory

The source computes the place of the three areas of a queue in `desc_table`, `avail_ring`,
`submit`, `used_ring` and `pop`, once more in `setup_queue` for the device, and a size for all
of them in `queue_size_in_bytes`.

* `descTable`, `availRing`, `usedRing`: the pointers of the driver;
* `submitAccesses`, `popAccesses`: what `submit` and `pop` dereference;
* `Placed`: the areas are disjoint and aligned, hold every access, and are those the device is
  told;
* `Sized`: the areas lie in `queue_size_in_bytes` bytes;
* `virtqueue_layout`: every queue of a power of two entries is placed, and only that of one entry
  is sized.
-/

namespace GlendaDrivers

/-- `queue_size_in_bytes`. -/
def queueSizeInBytes (num : UInt16) : UInt64 :=
  let num := num.toUInt64
  let descSize := 16 * num
  let availSize := 6 + 2 * num
  let usedSize := 6 + 8 * num
  descSize + availSize + usedSize

/-- The bytes that a pointer reaches when it is dereferenced. -/
structure Access where
  addr : UInt64
  size : ℕ
  deriving DecidableEq

def Access.span (a : Access) : Set UInt64 := Bytes.span a.addr a.size

namespace VirtQueue

/-- `desc_table()`. -/
def descTable (_ : VirtQueue) (vaddr : UInt64) : UInt64 := vaddr

/-- `&desc_table()[id]`. -/
def descPtr (q : VirtQueue) (vaddr : UInt64) (id : UInt16) : UInt64 :=
  q.descTable vaddr + 16 * id.toUInt64

/-- `avail_ring()`. -/
def availRing (q : VirtQueue) (vaddr : UInt64) : UInt64 :=
  let offset := 16 * q.num.toUInt64
  vaddr + offset

/-- `used_ring()`. -/
def usedRing (q : VirtQueue) (vaddr : UInt64) : UInt64 :=
  let offset := (16 * q.num.toUInt64 + 6 + 2 * q.num.toUInt64 + 3) &&& ~~~3
  vaddr + offset

/-- `size_of::<Used>()`: the fields `flags` and `idx`, and an array of length 0. -/
def sizeOfUsed : UInt64 := 4

/-- What `submit` dereferences when the available index is `idx`: the index, the slot of the
ring, and the index again. -/
def submitAccesses (q : VirtQueue) (vaddr : UInt64) (idx : UInt16) : List Access :=
  let idxPtr := q.availRing vaddr + 2
  let ringIdx := idx.toUInt64 % q.num.toUInt64
  let ringPtr := vaddr + (16 * q.num.toUInt64 + 4)
  [⟨idxPtr, 2⟩, ⟨ringPtr + 2 * ringIdx, 2⟩, ⟨idxPtr, 2⟩]

/-- What `pop` dereferences: the index, and the element of the ring at `last_used_idx`. -/
def popAccesses (q : VirtQueue) (vaddr : UInt64) : List Access :=
  let idxPtr := q.usedRing vaddr + 2
  let ringIdx := q.lastUsedIdx.toUInt64 % q.num.toUInt64
  let ringPtr := q.usedRing vaddr + sizeOfUsed
  [⟨idxPtr, 2⟩, ⟨ringPtr + 8 * ringIdx, 8⟩]

/-- The descriptor table. -/
def descArea (q : VirtQueue) (vaddr : UInt64) : Set UInt64 :=
  Bytes.span (q.descTable vaddr) (16 * q.num.toNat)

/-- The available ring. -/
def availArea (q : VirtQueue) (vaddr : UInt64) : Set UInt64 :=
  Bytes.span (q.availRing vaddr) (6 + 2 * q.num.toNat)

/-- The used ring. -/
def usedArea (q : VirtQueue) (vaddr : UInt64) : Set UInt64 :=
  Bytes.span (q.usedRing vaddr) (6 + 8 * q.num.toNat)

/-- The areas of the queue at `vaddr` do not overlap, are aligned, and hold whatever the driver
dereferences; and `setup_queue` tells the device where they are, as offsets from `paddr`. -/
structure Placed (q : VirtQueue) (vaddr : UInt64) (m : Mmio) : Prop where
  disjoint : Disjoint (q.descArea vaddr) (q.availArea vaddr) ∧
    Disjoint (q.descArea vaddr) (q.usedArea vaddr) ∧
    Disjoint (q.availArea vaddr) (q.usedArea vaddr)
  aligned : 16 ∣ (q.descTable vaddr).toNat ∧ 2 ∣ (q.availRing vaddr).toNat ∧
    4 ∣ (q.usedRing vaddr).toNat
  desc : ∀ id < q.num, Bytes.span (q.descPtr vaddr id) 16 ⊆ q.descArea vaddr
  submit : ∀ idx, ∀ a ∈ q.submitAccesses vaddr idx, a.span ⊆ q.availArea vaddr
  pop : ∀ a ∈ q.popAccesses vaddr, a.span ⊆ q.usedArea vaddr
  registers : ∃ m', setupQueue q m = (.ret (), m') ∧
    let r := m'.queues q.index
    r.num.toNat = q.num.toNat ∧ r.ready = 1 ∧
    word64 r.descLow r.descHigh = q.paddr + (q.descTable vaddr - vaddr) ∧
    word64 r.driverLow r.driverHigh = q.paddr + (q.availRing vaddr - vaddr) ∧
    word64 r.deviceLow r.deviceHigh = q.paddr + (q.usedRing vaddr - vaddr)

/-- The areas lie in `queue_size_in_bytes` bytes from `vaddr` on. -/
def Sized (q : VirtQueue) (vaddr : UInt64) : Prop :=
  q.descArea vaddr ∪ q.availArea vaddr ∪ q.usedArea vaddr ⊆
    Bytes.span vaddr (queueSizeInBytes q.num).toNat

/-! ### The offsets -/

variable {q : VirtQueue} {vaddr : UInt64}

/-- The offset of the available ring. -/
theorem toNat_availOffset (num : UInt16) : (16 * num.toUInt64).toNat = 16 * num.toNat := by
  have := num.toNat_lt
  simp only [UInt64.toNat_mul, UInt16.toNat_toUInt64]
  show 16 * num.toNat % 2 ^ 64 = _
  omega

/-- The offset of the used ring. -/
theorem toNat_usedOffset (num : UInt16) :
    ((16 * num.toUInt64 + 6 + 2 * num.toUInt64 + 3) &&& ~~~3).toNat =
      (18 * num.toNat + 9) / 4 * 4 := by
  have hlt := num.toNat_lt
  have hdown := Align.toNat_alignDown (m := 4) (k := 2) rfl
    (16 * num.toUInt64 + 6 + 2 * num.toUInt64 + 3)
  have hsum : (16 * num.toUInt64 + 6 + 2 * num.toUInt64 + 3).toNat = 18 * num.toNat + 9 := by
    simp only [UInt64.toNat_add, UInt64.toNat_mul, UInt16.toNat_toUInt64]
    show (((16 * num.toNat % 2 ^ 64 + 6) % 2 ^ 64 + 2 * num.toNat % 2 ^ 64) % 2 ^ 64 + 3) % 2 ^ 64 =
      _
    omega
  rw [hsum] at hdown
  exact hdown

theorem toNat_queueSizeInBytes (num : UInt16) :
    (queueSizeInBytes num).toNat = 26 * num.toNat + 12 := by
  have hlt := num.toNat_lt
  simp only [queueSizeInBytes, UInt64.toNat_add, UInt64.toNat_mul, UInt16.toNat_toUInt64]
  show ((16 * num.toNat % 2 ^ 64 + (6 + 2 * num.toNat % 2 ^ 64) % 2 ^ 64) % 2 ^ 64 +
    (6 + 8 * num.toNat % 2 ^ 64) % 2 ^ 64) % 2 ^ 64 = _
  omega

/-- The slot of the available ring that an index selects. -/
theorem slot_lt (hnum : q.num ≠ 0) (idx : UInt16) :
    (idx.toUInt64 % q.num.toUInt64).toNat < q.num.toNat := by
  rw [UInt64.toNat_mod, UInt16.toNat_toUInt64, UInt16.toNat_toUInt64]
  refine Nat.mod_lt _ (Nat.pos_of_ne_zero fun hz => hnum ?_)
  rw [← UInt16.toNat_inj, hz]
  rfl

/-- A multiple of a page and an offset are as aligned as the offset. -/
theorem dvd_toNat_add {a d : UInt64} {k : ℕ} (ha : 2 ^ k ∣ a.toNat) (hd : 2 ^ k ∣ d.toNat)
    (hk : k ≤ 64) : 2 ^ k ∣ (a + d).toNat := by
  rw [UInt64.toNat_add, Nat.dvd_mod_iff (pow_dvd_pow 2 hk)]
  exact Nat.dvd_add ha hd

/-! ### The layout -/

variable {m : Mmio}

theorem placed_disjoint (q : VirtQueue) (vaddr : UInt64) :
    Disjoint (q.descArea vaddr) (q.availArea vaddr) ∧
      Disjoint (q.descArea vaddr) (q.usedArea vaddr) ∧
      Disjoint (q.availArea vaddr) (q.usedArea vaddr) := by
  have hlt := q.num.toNat_lt
  have havail := toNat_availOffset q.num
  have hused := toNat_usedOffset q.num
  have hdesc : q.descTable vaddr = vaddr + 0 := (UInt64.add_zero vaddr).symm
  refine ⟨?_, ?_, ?_⟩
  · rw [descArea, hdesc]
    apply Bytes.disjoint_span
    · rw [havail, UInt64.toNat_zero]
      omega
    · rw [havail]
      omega
  · rw [descArea, hdesc]
    apply Bytes.disjoint_span
    · rw [hused, UInt64.toNat_zero]
      omega
    · rw [hused]
      omega
  · apply Bytes.disjoint_span
    · rw [havail, hused]
      omega
    · rw [hused]
      omega

theorem placed_submit (hnum : q.num ≠ 0) (idx : UInt16) {a : Access}
    (ha : a ∈ q.submitAccesses vaddr idx) : a.span ⊆ q.availArea vaddr := by
  have hlt := q.num.toNat_lt
  have hslot := slot_lt hnum idx
  have hidx : Bytes.span (q.availRing vaddr + 2) 2 ⊆ q.availArea vaddr := by
    apply Bytes.span_add_subset
    show 2 + 2 ≤ _
    omega
  have hring : Bytes.span (vaddr + (16 * q.num.toUInt64 + 4) +
      2 * (idx.toUInt64 % q.num.toUInt64)) 2 ⊆ q.availArea vaddr := by
    have hoff : (4 + 2 * (idx.toUInt64 % q.num.toUInt64)).toNat =
        4 + 2 * (idx.toUInt64 % q.num.toUInt64).toNat := by
      rw [UInt64.toNat_add, UInt64.toNat_mul]
      show (4 + 2 * (idx.toUInt64 % q.num.toUInt64).toNat % 2 ^ 64) % 2 ^ 64 = _
      omega
    rw [← UInt64.add_assoc vaddr, UInt64.add_assoc _ 4]
    apply Bytes.span_add_subset
    rw [hoff]
    omega
  simp only [submitAccesses, List.mem_cons, List.not_mem_nil, or_false] at ha
  obtain rfl | rfl | rfl := ha
  · exact hidx
  · exact hring
  · exact hidx

theorem placed_pop (hnum : q.num ≠ 0) {a : Access} (ha : a ∈ q.popAccesses vaddr) :
    a.span ⊆ q.usedArea vaddr := by
  have hlt := q.num.toNat_lt
  have hslot := slot_lt hnum q.lastUsedIdx
  simp only [popAccesses, List.mem_cons, List.not_mem_nil, or_false] at ha
  obtain rfl | rfl := ha
  · apply Bytes.span_add_subset
    show 2 + 2 ≤ _
    omega
  · have hoff : (sizeOfUsed + 8 * (q.lastUsedIdx.toUInt64 % q.num.toUInt64)).toNat =
        4 + 8 * (q.lastUsedIdx.toUInt64 % q.num.toUInt64).toNat := by
      rw [UInt64.toNat_add, UInt64.toNat_mul]
      show (4 + 8 * (q.lastUsedIdx.toUInt64 % q.num.toUInt64).toNat % 2 ^ 64) % 2 ^ 64 = _
      omega
    show Bytes.span (_ + _ + _) _ ⊆ _
    rw [UInt64.add_assoc]
    apply Bytes.span_add_subset
    rw [hoff]
    show _ + 8 ≤ _
    omega

theorem placed_desc {id : UInt16} (hid : id < q.num) :
    Bytes.span (q.descPtr vaddr id) 16 ⊆ q.descArea vaddr := by
  have := toNat_availOffset id
  rw [UInt16.lt_iff_toNat_lt] at hid
  apply Bytes.span_add_subset
  omega

/-- `setup_queue` programs the areas' addresses. -/
theorem placed_registers (q : VirtQueue) (vaddr : UInt64) (m : Mmio) :
    ∃ m', setupQueue q m = (.ret (), m') ∧
      let r := m'.queues q.index
      r.num.toNat = q.num.toNat ∧ r.ready = 1 ∧
      word64 r.descLow r.descHigh = q.paddr + (q.descTable vaddr - vaddr) ∧
      word64 r.driverLow r.driverHigh = q.paddr + (q.availRing vaddr - vaddr) ∧
      word64 r.deviceLow r.deviceHigh = q.paddr + (q.usedRing vaddr - vaddr) := by
  refine ⟨_, setupQueue_run q m, ?_⟩
  have hoff : ∀ d : UInt64, vaddr + d - vaddr = d := fun d => by
    rw [UInt64.add_comm, UInt64.add_sub_cancel]
  simp only [Mmio.withQueue, Function.update_self]
  refine ⟨UInt16.toNat_toUInt32 _, rfl, ?_, ?_, ?_⟩
  · rw [descTable, UInt64.sub_self, UInt64.add_zero]
    exact word64_halves _
  · rw [availRing, hoff]
    exact word64_halves _
  · rw [usedRing, hoff]
    exact word64_halves _

/-- The areas end with the used ring. -/
theorem areas_subset (q : VirtQueue) (vaddr : UInt64) {n : ℕ}
    (hn : (18 * q.num.toNat + 9) / 4 * 4 + (6 + 8 * q.num.toNat) ≤ n) :
    q.descArea vaddr ∪ q.availArea vaddr ∪ q.usedArea vaddr ⊆ Bytes.span vaddr n := by
  have havail := toNat_availOffset q.num
  have hused := toNat_usedOffset q.num
  refine Set.union_subset (Set.union_subset ?_ ?_) ?_
  · rw [descArea, show q.descTable vaddr = vaddr + 0 from (UInt64.add_zero vaddr).symm]
    apply Bytes.span_add_subset
    rw [UInt64.toNat_zero]
    omega
  · apply Bytes.span_add_subset
    omega
  · apply Bytes.span_add_subset
    omega

/-- The alignment of the used ring makes a queue of an even number of entries two bytes longer
than `queue_size_in_bytes`. -/
theorem sized_iff (q : VirtQueue) (vaddr : UInt64) :
    q.Sized vaddr ↔ (18 * q.num.toNat + 9) / 4 * 4 + (6 + 8 * q.num.toNat) ≤
      26 * q.num.toNat + 12 := by
  have hlt := q.num.toNat_lt
  have hused := toNat_usedOffset q.num
  rw [← toNat_queueSizeInBytes]
  constructor
  · intro h
    have hsub : q.usedArea vaddr ⊆ Bytes.span vaddr (queueSizeInBytes q.num).toNat :=
      fun x hx => h (Set.mem_union_right _ hx)
    rw [← hused]
    exact (Bytes.span_add_subset_iff (by omega) (by omega)).1 hsub
  · exact areas_subset q vaddr

end VirtQueue

open VirtQueue

/-- **The layout of a virtqueue.**  The areas of a queue of a power of two entries at a
page-aligned address are disjoint and aligned, hold everything that `submit` and `pop`
dereference, and are the ones that `setup_queue` programs.  They lie in `queue_size_in_bytes`
bytes iff the queue has one entry. -/
theorem virtqueue_layout (q : VirtQueue) (vaddr : UInt64) (m : Mmio)
    (hnum : ∃ k, q.num.toNat = 2 ^ k) (hvaddr : 4096 ∣ vaddr.toNat) :
    q.Placed vaddr m ∧ (q.Sized vaddr ↔ q.num = 1) := by
  obtain ⟨k, hk⟩ := hnum
  have hne : q.num ≠ 0 := by
    intro hz
    rw [hz] at hk
    exact absurd hk (Nat.two_pow_pos k).ne
  constructor
  · have h16 : 2 ^ 4 ∣ vaddr.toNat := Nat.dvd_trans (by norm_num) hvaddr
    refine
      { disjoint := placed_disjoint q vaddr
        aligned := ⟨h16, ?_, ?_⟩
        desc := fun id hid => placed_desc hid
        submit := fun idx a ha => placed_submit hne idx ha
        pop := fun a ha => placed_pop hne ha
        registers := placed_registers q vaddr m }
    · refine dvd_toNat_add (k := 1) (Nat.dvd_trans (by norm_num) h16) ?_ (by norm_num)
      rw [toNat_availOffset]
      omega
    · refine dvd_toNat_add (k := 2) (Nat.dvd_trans (by norm_num) h16) ?_ (by norm_num)
      rw [toNat_usedOffset]
      exact Dvd.intro_left _ rfl
  · rw [sized_iff, ← UInt16.toNat_inj]
    show _ ↔ q.num.toNat = 1
    cases k with
    | zero =>
      rw [hk]
      norm_num
    | succ k =>
      -- an even number of entries
      have heven : q.num.toNat = 2 * 2 ^ k := by
        rw [hk, pow_succ, Nat.mul_comm]
      have := Nat.two_pow_pos k
      omega

/-- A queue of 128 entries, as the block and the network driver make them. -/
def queueOf128 : VirtQueue where
  index := 0
  num := 128
  paddr := 0x80001000
  lastUsedIdx := 0
  freeHead := 0
  numFree := 128
  mem := QueueMem.zeroed

theorem virtqueue_layout_of128 :
    queueOf128.Placed 0x40001000 (Mmio.initial default) ∧
      (queueOf128.Sized 0x40001000 ↔ queueOf128.num = 1) :=
  virtqueue_layout queueOf128 0x40001000 (Mmio.initial default) ⟨7, rfl⟩ ⟨0x40001, rfl⟩

/-- The used ring of a queue of 128 entries ends at byte 3342; `queue_size_in_bytes` is 3340. -/
theorem queue_size_too_small : ¬ queueOf128.Sized 0x40001000 := by
  rw [sized_iff]
  show ¬ (18 * 128 + 9) / 4 * 4 + (6 + 8 * 128) ≤ 26 * 128 + 12
  omega

end GlendaDrivers
