import GlendaDrivers.Sys.Ramdisk

/-!
# The RAM disk as a block store

* `Ramdisk.serve`: a call of `process_sqe` together with its copy;
* `Meets`: the conditions on a request, for a way `w` of computing sums; `Valid` and `Passes` are
  the conditions in integers and modulo 2^64;
* `Stores`: what a request has to do;
* `ramdisk_store`: when it does so on every disk and every memory.
-/

namespace GlendaDrivers

namespace Ramdisk

/-- A call of `process_sqe`: the result, the disk and the memory of the driver; `none` when it
copies outside of the slice `data`.  `code` is the conversion of an error to an `i32`. -/
def serve (code : Error → Int32) (r : Ramdisk) (mem : UInt64 → UInt8) (sqe : Sqe) :
    Outcome (Option (Int32 × Ramdisk × (UInt64 → UInt8))) :=
  r.processSqe sqe >>= fun
    | .error e => .ret (some (-(code e), r, mem))
    | .ok (v, none) => .ret (some (v, r, mem))
    | .ok (v, some c) =>
        .ret ((c.run r.data mem).map fun after => (v, { r with data := after.1 }, after.2))

/-! ### Requests -/

/-- The conditions on a request to a disk of `disk` bytes, when sums are computed with `w`. -/
structure Meets (w : ℕ → ℕ) (disk : ℕ) (blockSize : UInt32) (shm : SharedMemory) (sqe : Sqe) :
    Prop where
  aligned : blockSize.toNat ∣ sqe.len.toNat
  lower : shm.clientVaddr.toNat ≤ sqe.addr.toNat
  upper : w (sqe.addr.toNat + sqe.len.toNat) ≤ w (shm.clientVaddr.toNat + shm.size.toNat)
  sectors : w (sqe.off.toNat * blockSize.toNat + sqe.len.toNat) ≤ disk

/-- The request is for blocks of the disk and for bytes of the client's buffer. -/
abbrev Valid : ℕ → UInt32 → SharedMemory → Sqe → Prop := Meets id

/-- The same in machine words. -/
abbrev Passes : ℕ → UInt32 → SharedMemory → Sqe → Prop := Meets (· % 2 ^ 64)

/-- The place of a request's data in the memory of the driver. -/
def dataVa (shm : SharedMemory) (sqe : Sqe) : UInt64 := bufferVa + (sqe.addr - shm.clientVaddr)

/-- What a request has to do. -/
structure Stores (code : Error → Int32) (r : Ramdisk) (shm : SharedMemory) (mem : UInt64 → UInt8)
    (sqe : Sqe) : Prop where
  read : Valid r.data.length r.blockSize shm sqe → sqe.opcode = .read →
    ∃ v : Int32, v.toInt = sqe.len.toNat ∧ r.serve code mem sqe = .ret (some (v, r,
      Bytes.write mem (dataVa shm sqe)
        (BlockDisk.read r.data (sqe.off.toNat * r.blockSize.toNat) sqe.len.toNat)))
  write : Valid r.data.length r.blockSize shm sqe → sqe.opcode = .write →
    ∃ v : Int32, v.toInt = sqe.len.toNat ∧ r.serve code mem sqe = .ret (some (v, { r with
      data := BlockDisk.write r.data (sqe.off.toNat * r.blockSize.toNat)
        (Bytes.read mem (dataVa shm sqe) sqe.len.toNat) }, mem))
  reject : ¬ Valid r.data.length r.blockSize shm sqe → sqe.opcode = .read ∨ sqe.opcode = .write →
    ∃ v : Int32, v.toInt < 0 ∧ r.serve code mem sqe = .ret (some (v, r, mem))

section Checks

variable {code : Error → Int32} {r : Ramdisk} {shm : SharedMemory} {mem : UInt64 → UInt8}
  {sqe : Sqe}

/-- The check of the length. -/
theorem mod_ne_zero_iff (sqe : Sqe) (blockSize : UInt32) :
    sqe.len % blockSize ≠ 0 ↔ ¬ blockSize.toNat ∣ sqe.len.toNat := by
  rw [ne_eq, ← UInt32.toNat_inj, UInt32.toNat_mod, Nat.dvd_iff_mod_eq_zero]
  rfl

/-- The check of the address. -/
theorem outside_iff (shm : SharedMemory) (sqe : Sqe) :
    (sqe.addr < shm.clientVaddr ∨
      sqe.addr + sqe.len.toUInt64 > shm.clientVaddr + shm.size) ↔
      ¬ (shm.clientVaddr.toNat ≤ sqe.addr.toNat ∧
        (sqe.addr.toNat + sqe.len.toNat) % 2 ^ 64 ≤
          (shm.clientVaddr.toNat + shm.size.toNat) % 2 ^ 64) := by
  rw [not_and_or, Nat.not_le, Nat.not_le, gt_iff_lt, UInt64.lt_iff_toNat_lt,
    UInt64.lt_iff_toNat_lt, UInt64.toNat_add, UInt64.toNat_add, UInt32.toNat_toUInt64]

/-- The check of the sectors. -/
theorem beyond_iff (hdisk : r.data.length < 2 ^ 64) (sqe : Sqe) :
    sqe.off * r.blockSize.toUInt64 + sqe.len.toUInt64 > UInt64.ofNat r.data.length ↔
      ¬ (sqe.off.toNat * r.blockSize.toNat + sqe.len.toNat) % 2 ^ 64 ≤ r.data.length := by
  rw [Nat.not_le, gt_iff_lt, UInt64.lt_iff_toNat_lt, UInt64.toNat_add, UInt64.toNat_mul,
    UInt32.toNat_toUInt64, UInt32.toNat_toUInt64, UInt64.toNat_ofNat', Nat.mod_eq_of_lt hdisk,
    Nat.mod_add_mod]

theorem localAddr_eq (hbuf : r.buffer = some shm) (sqe : Sqe) :
    r.localAddr sqe = if sqe.addr < shm.clientVaddr ∨
        sqe.addr + sqe.len.toUInt64 > shm.clientVaddr + shm.size then none
      else some (dataVa shm sqe) := by
  unfold localAddr
  rw [hbuf]
  rfl

/-- A request that passes the checks is copied. -/
theorem processSqe_of_passes (hdisk : r.data.length < 2 ^ 64) (hbuf : r.buffer = some shm)
    (hz : r.blockSize ≠ 0) (hop : sqe.opcode = .read ∨ sqe.opcode = .write)
    (h : Passes r.data.length r.blockSize shm sqe) :
    r.processSqe sqe = .ret (.ok (sqe.len.toInt32,
      some ⟨sqe.off * r.blockSize.toUInt64, dataVa shm sqe, sqe.len,
        decide (sqe.opcode = .write)⟩)) := by
  have haddr : r.localAddr sqe = some (dataVa shm sqe) := by
    rw [localAddr_eq hbuf, if_neg fun hout => (outside_iff shm sqe).1 hout ⟨h.lower, h.upper⟩]
  have hmod : ¬ sqe.len % r.blockSize ≠ 0 :=
    fun hne => (mod_ne_zero_iff sqe r.blockSize).1 hne h.aligned
  have hsectors : ¬ sqe.off * r.blockSize.toUInt64 + sqe.len.toUInt64 >
      UInt64.ofNat r.data.length := fun hgt => (beyond_iff hdisk sqe).1 hgt h.sectors
  unfold processSqe
  rw [if_neg hz, if_neg hmod, haddr]
  dsimp only
  rw [if_neg hsectors]
  rcases hop with hop | hop
  · rw [hop]
    rfl
  · rw [hop]
    rfl

/-- Any other request is rejected. -/
theorem processSqe_of_not_passes (hdisk : r.data.length < 2 ^ 64) (hbuf : r.buffer = some shm)
    (hz : r.blockSize ≠ 0) (h : ¬ Passes r.data.length r.blockSize shm sqe) :
    r.processSqe sqe = .ret (.error .invalidArgs) := by
  unfold processSqe
  rw [if_neg hz, localAddr_eq hbuf]
  by_cases hmod : sqe.len % r.blockSize ≠ 0
  · rw [if_pos hmod]
    rfl
  have haligned := not_not.1 (mt (mod_ne_zero_iff sqe r.blockSize).2 hmod)
  rw [if_neg hmod]
  by_cases hout : sqe.addr < shm.clientVaddr ∨
      sqe.addr + sqe.len.toUInt64 > shm.clientVaddr + shm.size
  · rw [if_pos hout]
    rfl
  obtain ⟨hlower, hupper⟩ := not_not.1 (mt (outside_iff shm sqe).2 hout)
  rw [if_neg hout]
  -- only the check of the sectors is left
  exact if_pos ((beyond_iff hdisk sqe).2 fun hs => h ⟨haligned, hlower, hupper, hs⟩)

/-! ### Calls -/

theorem serve_of_passes (hdisk : r.data.length < 2 ^ 64) (hbuf : r.buffer = some shm)
    (hz : r.blockSize ≠ 0) (hop : sqe.opcode = .read ∨ sqe.opcode = .write)
    (h : Passes r.data.length r.blockSize shm sqe) :
    r.serve code mem sqe = .ret (((⟨sqe.off * r.blockSize.toUInt64, dataVa shm sqe, sqe.len,
      decide (sqe.opcode = .write)⟩ : Copy).run r.data mem).map
        fun after => (sqe.len.toInt32, { r with data := after.1 }, after.2)) := by
  unfold serve
  rw [processSqe_of_passes hdisk hbuf hz hop h]
  rfl

theorem serve_of_not_passes (hdisk : r.data.length < 2 ^ 64) (hbuf : r.buffer = some shm)
    (hz : r.blockSize ≠ 0) (h : ¬ Passes r.data.length r.blockSize shm sqe) :
    r.serve code mem sqe = .ret (some (-(code .invalidArgs), r, mem)) := by
  unfold serve
  rw [processSqe_of_not_passes hdisk hbuf hz h]
  rfl

theorem serve_of_zero (hz : r.blockSize = 0) : r.serve code mem sqe = .panic := by
  unfold serve processSqe
  rw [if_pos hz]
  rfl

end Checks

/-! ### Results -/

/-- An error is returned as a negative value. -/
theorem toInt_neg_lt {x : Int32} (h : 0 < x) : (-x).toInt < 0 := by
  have hpos : 0 < x.toInt := Int32.lt_iff_toInt_lt.1 h
  have hlt := Int32.toInt_lt x
  rw [Int32.toInt_neg, Int.bmod_eq_of_le (by omega) (by omega)]
  omega

/-- A length is returned as it is below 2^31. -/
theorem toInt_toInt32 (len : UInt32) :
    len.toInt32.toInt = if len.toNat < 2 ^ 31 then (len.toNat : ℤ) else len.toNat - 2 ^ 32 := by
  show len.toBitVec.toInt = _
  rw [BitVec.toInt_eq_toNat_cond]
  show (if 2 * len.toNat < 2 ^ 32 then (len.toNat : ℤ) else len.toNat - (2 ^ 32 : ℕ)) = _
  split_ifs <;> omega

/-! ### Requests that are served -/

section Requests

variable {code : Error → Int32} {r : Ramdisk} {shm : SharedMemory} {mem : UInt64 → UInt8}
  {sqe : Sqe}

/-- The product of a valid request does not wrap. -/
theorem Meets.offset (hdisk : r.data.length < 2 ^ 64)
    (h : Valid r.data.length r.blockSize shm sqe) :
    (sqe.off * r.blockSize.toUInt64).toNat = sqe.off.toNat * r.blockSize.toNat := by
  have hle : sqe.off.toNat * r.blockSize.toNat + sqe.len.toNat ≤ r.data.length := h.sectors
  rw [UInt64.toNat_mul, UInt32.toNat_toUInt64]
  exact Nat.mod_eq_of_lt (by omega)

/-- The copy of a valid request. -/
theorem run_of_valid (hdisk : r.data.length < 2 ^ 64)
    (h : Valid r.data.length r.blockSize shm sqe) (addr : UInt64) (toDisk : Bool) :
    (⟨sqe.off * r.blockSize.toUInt64, addr, sqe.len, toDisk⟩ : Copy).run r.data mem =
      let after := (⟨sqe.off.toNat * r.blockSize.toNat, sqe.len.toNat, toDisk⟩ :
        BlockDisk.Transfer).serve r.data (Bytes.read mem addr sqe.len.toNat)
      some (after.1, if toDisk then mem else Bytes.write mem addr after.2) := by
  have hle : sqe.off.toNat * r.blockSize.toNat + sqe.len.toNat ≤ r.data.length := h.sectors
  have hoff := h.offset hdisk
  unfold Copy.run Copy.transfer
  dsimp only
  rw [hoff, if_pos hle]

theorem stores (hcode : 0 < code .invalidArgs) (hdisk : r.data.length < 2 ^ 64)
    (hbuf : r.buffer = some shm) (hz : r.blockSize ≠ 0)
    (hiff : Valid r.data.length r.blockSize shm sqe ↔ Passes r.data.length r.blockSize shm sqe)
    (hlen : Valid r.data.length r.blockSize shm sqe → sqe.len.toNat < 2 ^ 31) :
    Stores code r shm mem sqe where
  read hv hop := by
    refine ⟨sqe.len.toInt32, by rw [toInt_toInt32, if_pos (hlen hv)], ?_⟩
    rw [serve_of_passes hdisk hbuf hz (.inl hop) (hiff.1 hv), run_of_valid hdisk hv, hop]
    rfl
  write hv hop := by
    refine ⟨sqe.len.toInt32, by rw [toInt_toInt32, if_pos (hlen hv)], ?_⟩
    rw [serve_of_passes hdisk hbuf hz (.inr hop) (hiff.1 hv), run_of_valid hdisk hv, hop]
    rfl
  reject hv _ :=
    ⟨_, toInt_neg_lt hcode, serve_of_not_passes hdisk hbuf hz fun hp => hv (hiff.2 hp)⟩

end Requests

/-! ### Requests that are not -/

section Converse

variable {code : Error → Int32} {disk : ℕ} {blockSize : UInt32} {shm : SharedMemory} {sqe : Sqe}

/-- A disk of zeros. -/
def zeros (disk : ℕ) (blockSize : UInt32) (shm : SharedMemory) : Ramdisk :=
  ⟨List.replicate disk 0, blockSize, none, some shm⟩

/-- A memory of ones. -/
def ones : UInt64 → UInt8 := fun _ => 1

/-- A copy of at least one byte between zeros and ones changes the disk or the memory. -/
theorem Copy.run_changes {c : Copy} {after : List UInt8 × (UInt64 → UInt8)} (hlen : 0 < c.len.toNat)
    (h : c.run (List.replicate disk 0) ones = some after) :
    after.1 ≠ List.replicate disk 0 ∨ after.2 ≠ ones := by
  unfold run transfer at h
  rw [List.length_replicate] at h
  split_ifs at h with hle htoDisk
  · -- the first byte of the disk that is written
    obtain rfl := Option.some.inj h
    refine .inl fun heq => ?_
    have hget := congrArg (·[c.offset.toNat]?) heq
    simp only [BlockDisk.Transfer.serve, htoDisk, if_true, BlockDisk.write] at hget
    rw [List.append_assoc, List.getElem?_append_right (by simp), List.length_take,
      List.length_replicate, min_eq_left (by omega), Nat.sub_self,
      List.getElem?_append_left (by simpa [Bytes.read] using hlen)] at hget
    simp [Bytes.read, ones, hlen, show c.offset.toNat < disk by omega] at hget
  · -- the first byte of the memory that is written
    obtain rfl := Option.some.inj h
    refine .inr fun heq => ?_
    have hget := congrFun heq c.addr
    simp only [BlockDisk.Transfer.serve, htoDisk, BlockDisk.read, Bytes.write] at hget
    simp [ones, hlen, show c.offset.toNat < disk by omega] at hget

/-- A request that passes the checks and is not valid is not rejected, or copies a byte. -/
theorem not_stores_of_passes (hdisk : disk < 2 ^ 64) (hz : blockSize ≠ 0)
    (hop : sqe.opcode = .read ∨ sqe.opcode = .write) (hv : ¬ Valid disk blockSize shm sqe)
    (hp : Passes disk blockSize shm sqe) :
    ¬ Stores code (zeros disk blockSize shm) shm ones sqe := by
  intro hs
  have hlen : (zeros disk blockSize shm).data.length = disk := List.length_replicate
  obtain ⟨v, hneg, hserve⟩ := hs.reject (by rw [hlen]; exact hv) hop
  rw [serve_of_passes (by rw [hlen]; exact hdisk) rfl hz hop (by rw [hlen]; exact hp)] at hserve
  obtain ⟨after, hrun, hafter⟩ := Option.map_eq_some_iff.1 (Outcome.ret.inj hserve)
  obtain ⟨rfl, hrest⟩ := Prod.mk.inj hafter
  obtain ⟨hr, hmem⟩ := Prod.mk.inj hrest
  -- the result is negative, so that the request is long
  have hpos : 0 < sqe.len.toNat := by
    rw [toInt_toInt32] at hneg
    split_ifs at hneg
    · omega
    · omega
  rcases Copy.run_changes hpos hrun with hne | hne
  · exact hne (congrArg Ramdisk.data hr)
  · exact hne hmem

/-- A valid request is copied, and its length is returned. -/
theorem Stores.passes {r : Ramdisk} {mem : UInt64 → UInt8} (hs : Stores code r shm mem sqe)
    (hcode : 0 < code .invalidArgs) (hdisk : r.data.length < 2 ^ 64) (hbuf : r.buffer = some shm)
    (hz : r.blockSize ≠ 0) (hop : sqe.opcode = .read ∨ sqe.opcode = .write)
    (hv : Valid r.data.length r.blockSize shm sqe) :
    Passes r.data.length r.blockSize shm sqe ∧ sqe.len.toNat < 2 ^ 31 := by
  obtain ⟨v, r', mem', hlen, hserve⟩ : ∃ (v : Int32) (r' : Ramdisk) (mem' : UInt64 → UInt8),
      v.toInt = sqe.len.toNat ∧ r.serve code mem sqe = .ret (some (v, r', mem')) := by
    rcases hop with hop | hop
    · obtain ⟨v, hlen, hserve⟩ := hs.read hv hop
      exact ⟨v, _, _, hlen, hserve⟩
    · obtain ⟨v, hlen, hserve⟩ := hs.write hv hop
      exact ⟨v, _, _, hlen, hserve⟩
  have hlt := Int32.toInt_lt v
  refine ⟨by_contra fun hp => ?_, by omega⟩
  rw [serve_of_not_passes hdisk hbuf hz hp] at hserve
  obtain ⟨rfl, -⟩ := Prod.mk.inj (Option.some.inj (Outcome.ret.inj hserve))
  have hneg := toInt_neg_lt hcode
  omega

theorem Stores.blockSize_ne_zero {r : Ramdisk} {mem : UInt64 → UInt8}
    (hs : Stores code r shm mem sqe) (hop : sqe.opcode = .read ∨ sqe.opcode = .write) :
    r.blockSize ≠ 0 := by
  intro hz
  have hserve : r.serve code mem sqe = .panic := serve_of_zero hz
  by_cases hv : Valid r.data.length r.blockSize shm sqe
  · rcases hop with hop | hop
    · obtain ⟨v, -, h⟩ := hs.read hv hop
      rw [hserve] at h
      exact nomatch h
    · obtain ⟨v, -, h⟩ := hs.write hv hop
      rw [hserve] at h
      exact nomatch h
  · obtain ⟨v, -, h⟩ := hs.reject hv hop
    rw [hserve] at h
    exact nomatch h

end Converse

/-- **The RAM disk as a block store.**  A request does what it has to do on every disk of `disk`
bytes and every memory iff the block size is not zero, the conditions on the request hold modulo
2^64 exactly when they hold in integers, and a valid request is shorter than 2^31.  Requests that
are neither reads nor writes have nothing to do. -/
theorem ramdisk_store {code : Error → Int32} (hcode : 0 < code .invalidArgs) {disk : ℕ}
    (hdisk : disk < 2 ^ 64) (blockSize : UInt32) (shm : SharedMemory) (sqe : Sqe) :
    (∀ (r : Ramdisk) (mem : UInt64 → UInt8), r.data.length = disk → r.blockSize = blockSize →
      r.buffer = some shm → Stores code r shm mem sqe) ↔
      (sqe.opcode = .read ∨ sqe.opcode = .write →
        blockSize ≠ 0 ∧ (Valid disk blockSize shm sqe ↔ Passes disk blockSize shm sqe) ∧
          (Valid disk blockSize shm sqe → sqe.len.toNat < 2 ^ 31)) := by
  constructor
  · intro h hop
    have hlen : (zeros disk blockSize shm).data.length = disk := List.length_replicate
    have hs : Stores code (zeros disk blockSize shm) shm ones sqe := h _ _ hlen rfl rfl
    have hz : blockSize ≠ 0 := hs.blockSize_ne_zero hop
    have hpass := hs.passes hcode (by rw [hlen]; exact hdisk) rfl hz hop
    rw [hlen] at hpass
    refine ⟨hz, ⟨fun hv => (hpass hv).1, fun hp => by_contra fun hv => ?_⟩,
      fun hv => (hpass hv).2⟩
    exact not_stores_of_passes hdisk hz hop hv hp hs
  · rintro h r mem rfl rfl hbuf
    by_cases hop : sqe.opcode = .read ∨ sqe.opcode = .write
    · obtain ⟨hz, hiff, hlen⟩ := h hop
      exact stores hcode hdisk hbuf hz hiff hlen
    · exact ⟨fun _ h => absurd (.inl h) hop, fun _ h => absurd (.inr h) hop,
        fun _ h => absurd h hop⟩

/-- Without a wrap the checks are the conditions. -/
theorem valid_iff_passes {disk : ℕ} {blockSize : UInt32} {shm : SharedMemory} {sqe : Sqe}
    (hsectors : sqe.off.toNat * blockSize.toNat + sqe.len.toNat < 2 ^ 64)
    (hrange : sqe.addr.toNat + sqe.len.toNat < 2 ^ 64)
    (hbuf : shm.clientVaddr.toNat + shm.size.toNat < 2 ^ 64) :
    Valid disk blockSize shm sqe ↔ Passes disk blockSize shm sqe := by
  constructor
  · rintro ⟨h₁, h₂, h₃, h₄⟩
    refine ⟨h₁, h₂, ?_, ?_⟩
    · rw [Nat.mod_eq_of_lt hrange, Nat.mod_eq_of_lt hbuf]
      exact h₃
    · rw [Nat.mod_eq_of_lt hsectors]
      exact h₄
  · rintro ⟨h₁, h₂, h₃, h₄⟩
    rw [Nat.mod_eq_of_lt hrange, Nat.mod_eq_of_lt hbuf] at h₃
    rw [Nat.mod_eq_of_lt hsectors] at h₄
    exact ⟨h₁, h₂, h₃, h₄⟩

/-- Sector 1 of a disk of eight sectors. -/
theorem stores_sector :
    Stores (fun _ => 1) (zeros 4096 512 sharedPage) sharedPage ones
      ⟨.read, 1, 0x10000, 512, 0⟩ := by
  refine (ramdisk_store (by decide) (by norm_num) 512 sharedPage _).2 (fun _ => ?_) _ _
    List.length_replicate rfl rfl
  exact ⟨by decide, valid_iff_passes (by decide) (by decide) (by decide), fun _ => by decide⟩

/-- `off * block_size` is 2^64, and block 0 is read. -/
theorem not_stores_wrapped :
    zeros 4096 4096 sharedPage = { Ramdisk.new (List.replicate 4096 0) with
      blockSize := 4096 }.setupBuffer 0x10000 0x1000 0x80000000 ∧
    ¬ Stores (fun _ => 1) (zeros 4096 4096 sharedPage) sharedPage ones
      ⟨.read, 0x10000000000000, 0x10000, 4096, 0⟩ := by
  refine ⟨rfl, not_stores_of_passes (by norm_num) (by decide) (.inl rfl)
    (fun hv => ?_) ⟨by decide, by decide, by decide, by decide⟩⟩
  exact absurd hv.sectors (by decide)

end Ramdisk

end GlendaDrivers
