import Mathlib.Tactic
import Mathlib.Order.CompletePartialOrder

/-!
# Disks of bytes, accessed in blocks

A disk is the list of its bytes, and a transfer moves bytes between a disk and a buffer.

* `BlockDisk.read`, `BlockDisk.write`: a range of a disk;
* `BlockDisk.Transfer`, `Transfer.serve`: what a transfer does to the disk and to the buffer;
* `Addresses`: a transfer addresses exactly the bytes of some blocks;
* `Addresses.disjoint`, `Addresses.serve_eq`: such transfers do not meet when their blocks are
  different, and do the same when their blocks are the same.
-/

namespace BlockDisk

/-- The `n` bytes from `start` on. -/
def read (d : List UInt8) (start n : ℕ) : List UInt8 := (d.drop start).take n

/-- The bytes `l` replace those from `start` on. -/
def write (d : List UInt8) (start : ℕ) (l : List UInt8) : List UInt8 :=
  d.take start ++ l ++ d.drop (start + l.length)

variable {buf : List UInt8}

@[simp] theorem read_zero (d : List UInt8) (start : ℕ) : read d start 0 = [] := rfl

/-- Writing nothing. -/
@[simp] theorem write_nil (d : List UInt8) (start : ℕ) : write d start [] = d := by
  simp [write]

/-! ### Transfers -/

/-- A transfer of `len` bytes between a buffer and the bytes of a disk from `start` on. -/
structure Transfer where
  start : ℕ
  len : ℕ
  toDisk : Bool
  deriving DecidableEq

namespace Transfer

/-- The bytes of the disk that the transfer addresses. -/
def bytes (t : Transfer) : Set ℕ := Set.Ico t.start (t.start + t.len)

/-- The disk and the buffer after the transfer. -/
def serve (t : Transfer) (d buf : List UInt8) : List UInt8 × List UInt8 :=
  if t.toDisk then (write d t.start buf, buf) else (d, read d t.start t.len)

/-- Two transfers of one length address the same bytes iff they start at the same byte, or are
empty. -/
theorem bytes_eq_iff {t t' : Transfer} (hlen : t.len = t'.len) :
    t.bytes = t'.bytes ↔ t.start = t'.start ∨ t.len = 0 := by
  constructor
  · intro h
    by_cases hz : t.len = 0
    · exact Or.inr hz
    · -- each start is in the other range
      have h₁ : t.start ∈ t'.bytes := by
        rw [← h]
        exact ⟨le_rfl, by omega⟩
      have h₂ : t'.start ∈ t.bytes := by
        rw [h]
        exact ⟨le_rfl, by omega⟩
      exact Or.inl (le_antisymm h₂.1 h₁.1)
  · rintro (h | h)
    · rw [bytes, bytes, h, hlen]
    · rw [bytes, bytes, ← hlen, h, Nat.add_zero, Nat.add_zero, Set.Ico_self, Set.Ico_self]

/-- Transfers that address the same bytes do the same. -/
theorem serve_eq {t t' : Transfer} (hlen : t.len = t'.len) (hdir : t.toDisk = t'.toDisk)
    (hbytes : t.bytes = t'.bytes) (d : List UInt8) (hbuf : buf.length = t.len) :
    t.serve d buf = t'.serve d buf := by
  rw [serve, serve, hdir]
  rcases (bytes_eq_iff hlen).1 hbytes with h | h
  · rw [h, hlen]
  · obtain rfl : buf = [] := List.eq_nil_of_length_eq_zero (hbuf.trans h)
    rw [← hlen, h]
    simp

end Transfer

/-! ### Blocks -/

/-- The bytes of the `k` blocks of `size` bytes from block `off` on. -/
def blocks (size off k : ℕ) : Set ℕ := Set.Ico (off * size) ((off + k) * size)

/-- The transfer of these blocks. -/
def Transfer.ofBlocks (size off k : ℕ) (toDisk : Bool) : Transfer := ⟨off * size, k * size, toDisk⟩

theorem bytes_ofBlocks (size off k : ℕ) (toDisk : Bool) :
    (Transfer.ofBlocks size off k toDisk).bytes = blocks size off k := by
  rw [blocks, Nat.add_mul]
  rfl

/-- Different blocks. -/
theorem disjoint_blocks {size off off' k k' : ℕ} (h : off + k ≤ off' ∨ off' + k' ≤ off) :
    Disjoint (blocks size off k) (blocks size off' k') := by
  rw [Set.disjoint_left]
  rintro x ⟨hlow, hhigh⟩ ⟨hlow', hhigh'⟩
  rcases h with h | h
  · exact absurd (hhigh.trans_le (Nat.mul_le_mul_right size h)) (Nat.not_lt.2 hlow')
  · exact absurd (hhigh'.trans_le (Nat.mul_le_mul_right size h)) (Nat.not_lt.2 hlow)

/-- The transfer is one of `k` blocks of `size` bytes, and addresses exactly the blocks from
block `off` on. -/
structure Addresses (t : Transfer) (size off k : ℕ) : Prop where
  len : t.len = k * size
  bytes : t.bytes = blocks size off k

/-- Blocks can be addressed only by starting where they do. -/
theorem addresses_iff {t : Transfer} {size off k : ℕ} (hlen : t.len = k * size) :
    Addresses t size off k ↔ t.start = off * size ∨ t.len = 0 := by
  have hof : t.len = (Transfer.ofBlocks size off k t.toDisk).len := hlen
  have h := Transfer.bytes_eq_iff hof
  rw [bytes_ofBlocks] at h
  exact ⟨fun ha => h.1 ha.bytes, fun hs => ⟨hlen, h.2 hs⟩⟩

/-- Transfers of different blocks address different bytes. -/
theorem Addresses.disjoint {t t' : Transfer} {size off off' k k' : ℕ}
    (h : Addresses t size off k) (h' : Addresses t' size off' k')
    (hne : off + k ≤ off' ∨ off' + k' ≤ off) : Disjoint t.bytes t'.bytes := by
  rw [h.bytes, h'.bytes]
  exact disjoint_blocks hne

/-- Transfers of the same blocks do the same. -/
theorem Addresses.serve_eq {t t' : Transfer} {size off k : ℕ} (h : Addresses t size off k)
    (h' : Addresses t' size off k) (hdir : t.toDisk = t'.toDisk) (d : List UInt8)
    (hbuf : buf.length = k * size) : t.serve d buf = t'.serve d buf :=
  Transfer.serve_eq (h.len.trans h'.len.symm) hdir (h.bytes.trans h'.bytes.symm) d
    (hbuf.trans h.len.symm)

/-! ### Rounding -/

/-- A quotient times the block size is a size rounded down to whole blocks iff it is the quotient
of that size. -/
theorem capacity_mul_iff {capacity size bytes : ℕ} (hsize : 0 < size) :
    capacity * size = bytes / size * size ↔
      capacity * size ≤ bytes ∧ bytes < (capacity + 1) * size := by
  rw [Nat.mul_left_inj hsize.ne', eq_comm, Nat.div_eq_iff hsize]
  constructor
  · rintro ⟨h₁, h₂⟩
    refine ⟨h₁, ?_⟩
    rw [Nat.add_mul]
    omega
  · rintro ⟨h₁, h₂⟩
    refine ⟨h₁, ?_⟩
    rw [Nat.add_mul] at h₂
    omega

end BlockDisk
