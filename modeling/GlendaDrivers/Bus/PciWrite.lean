import GlendaDrivers.Bus.PciConfig

/-!
# Writes of the PCI bus driver to the configuration space

A register of 16 bits is written with the other half of its word, as it was read before.  This
clears bits of the other half that are cleared by writing one to them.

* `readU8_run`, `readU16_run`: what the reads return, as bytes of the function;
* `content_writeU16`: the configuration space after a write;
* `WritesU16`, `writesU16_iff`: when a write changes its own register only;
* `StatusKinds`, `changesCommand_iff`: the same for the command register, beside the error bits of
  the status register;
* `write_u16_frame_iff`: both, with the reads.
-/

namespace GlendaDrivers.PciBusDriver

open Prog

/-! ### Reads -/

/-- The register of 16 bits at byte `reg`. -/
def half (d : PciBusDriver) (mem : UInt64 → UInt8) (f : PciFn) (reg : ℕ) : UInt16 :=
  UInt16.ofNat ((content d mem f reg).toNat + 256 * (content d mem f (reg + 1)).toNat)

/-- Bit `i` of byte `reg` of a function. -/
def bitAt (d : PciBusDriver) (mem : UInt64 → UInt8) (f : PciFn) (reg i : ℕ) : Bool :=
  (content d mem f reg).toBitVec.getLsbD i

/-- Byte `k` of a value. -/
def lane (val : UInt16) (k : ℕ) : UInt8 := UInt8.ofNat (val.toNat / 256 ^ k)

variable {d : PciBusDriver} {f g : PciFn} {reg : UInt64}

theorem toNat_half (d : PciBusDriver) (mem : UInt64 → UInt8) (f : PciFn) (reg : ℕ) :
    (d.half mem f reg).toNat =
      (content d mem f reg).toNat + 256 * (content d mem f (reg + 1)).toNat := by
  have hlow := (content d mem f reg).toNat_lt
  have hhigh := (content d mem f (reg + 1)).toNat_lt
  rw [half, UInt16.toNat_ofNat']
  omega

/-- The bits of a register of 16 bits. -/
theorem getLsbD_half (d : PciBusDriver) (mem : UInt64 → UInt8) (f : PciFn) (reg i : ℕ)
    (hi : i < 16) :
    (d.half mem f reg).toBitVec.getLsbD i = d.bitAt mem f (reg + i / 8) (i % 8) := by
  have hlow := (content d mem f reg).toNat_lt
  have htest : (d.half mem f reg).toBitVec.getLsbD i =
      (2 ^ 8 * (content d mem f (reg + 1)).toNat + (content d mem f reg).toNat).testBit i := by
    show (d.half mem f reg).toNat.testBit i = _
    rw [toNat_half, Nat.add_comm]
    rfl
  rw [htest, Nat.testBit_two_pow_mul_add _ hlow]
  split_ifs with h
  · rw [Nat.div_eq_of_lt h, Nat.mod_eq_of_lt h]
    rfl
  · rw [show i / 8 = 1 by omega, show i % 8 = i - 8 by omega]
    rfl

/-- Bytes that differ differ in a bit. -/
theorem exists_bitAt_ne {mem mem' : UInt64 → UInt8} {r : ℕ}
    (h : content d mem' f r ≠ content d mem f r) : ∃ i, d.bitAt mem' f r i ≠ d.bitAt mem f r i := by
  by_contra hsame
  push Not at hsame
  exact h (UInt8.toBitVec_inj.1 (BitVec.eq_of_getLsbD_eq fun i _ => hsame i))

theorem getLsbD_lane (val : UInt16) (k : ℕ) {i : ℕ} (hi : i < 8) :
    (lane val k).toBitVec.getLsbD i = val.toBitVec.getLsbD (8 * k + i) := by
  have hpow : 256 ^ k = 2 ^ (8 * k) := (pow_mul 2 8 k).symm
  show (lane val k).toNat.testBit i = val.toNat.testBit (8 * k + i)
  rw [lane, UInt8.toNat_ofNat', Nat.testBit_mod_two_pow, decide_eq_true hi, Bool.true_and, hpow,
    Nat.testBit_div_two_pow, Nat.add_comm i]

/-- The word with register `reg`, as bytes of the function. -/
theorem toNat_word_aligned (mem : UInt64 → UInt8) (hf : f.Valid) (hreg : reg.toNat < 4096) :
    (word mem (d.cfgAddr f (reg &&& ~~~3))).toNat = Bytes.ofLittle
      ((List.range 4).map fun k => content d mem f (reg.toNat / 4 * 4 + k)) := by
  have halign := toNat_aligned reg
  rw [toNat_word hf (by omega), halign]

/-- `read_u8` returns the byte of its register. -/
theorem readU8_run (hf : f.Valid) (hreg : reg.toNat < 4096) (s : PciState) :
    d.readU8 f reg s = (.ret (content d s.mem f reg.toNat),
      { s with reads := s.reads ++ [⟨f, cfgOff f (reg &&& ~~~3)⟩] }) := by
  rw [← byte_of_word (toNat_word_aligned s.mem hf hreg)]
  rfl

/-- `read_u16` returns the two bytes of the register in which `reg` is. -/
theorem readU16_run (hf : f.Valid) (hreg : reg.toNat < 4096) (s : PciState) :
    d.readU16 f reg s = (.ret (d.half s.mem f (reg.toNat / 2 * 2)),
      { s with reads := s.reads ++ [⟨f, cfgOff f (reg &&& ~~~3)⟩] }) := by
  have hval : d.half s.mem f (reg.toNat / 2 * 2) =
      ((word s.mem (d.cfgAddr f (reg &&& ~~~3)) >>> ((reg &&& 0x2) * 8).toUInt32) &&&
        0xffff).toUInt16 := by
    rw [← UInt16.toNat_inj, toNat_half, half_of_word (toNat_word_aligned s.mem hf hreg)]
  rw [hval]
  rfl

/-! ### The word that is written -/

/-- The word with register `reg`, after `val` was put into it. -/
def merge (reg : UInt64) (w : UInt32) (val : UInt16) : UInt32 :=
  (w &&& ~~~((0xffff : UInt32) <<< ((reg &&& 0x2) * 8).toUInt32)) |||
    (val.toUInt32 <<< ((reg &&& 0x2) * 8).toUInt32)

theorem toNat_merge (reg : UInt64) (w : UInt32) (val : UInt16) : (merge reg w val).toNat =
    if reg.toNat % 4 / 2 = 0 then w.toNat / 65536 * 65536 + val.toNat
    else val.toNat * 65536 + w.toNat % 65536 := by
  have hshift := toNat_shift16 reg
  have hw := w.toNat_lt
  have hval := val.toNat_lt
  unfold merge
  split_ifs with h
  · have hzero : (reg &&& 0x2) * 8 = 0 := by
      rw [← UInt64.toNat_inj, hshift, h]
      rfl
    have hmask : ~~~((0xffff : UInt32) <<< (0 : UInt64).toUInt32) = 0xffff0000 := by decide
    have hand : (w &&& 0xffff0000).toNat = w.toNat / 65536 * 65536 := by
      rw [UInt32.toNat_and]
      exact Align.and_high (k := 16) (w := 32) (by norm_num) hw
    have hval0 : val.toUInt32 <<< (0 : UInt64).toUInt32 = val.toUInt32 := UInt32.shiftLeft_zero
    rw [hzero, hmask, hval0, UInt32.toNat_or, hand, UInt16.toNat_toUInt32, Nat.mul_comm]
    exact (Nat.two_pow_add_eq_or_of_lt hval _).symm
  · have hone : (reg &&& 0x2) * 8 = 16 := by
      rw [← UInt64.toNat_inj, hshift, show reg.toNat % 4 / 2 = 1 by omega]
      rfl
    have hmask : ~~~((0xffff : UInt32) <<< (16 : UInt64).toUInt32) = 0xffff := by decide
    have hand : (w &&& 0xffff).toNat = w.toNat % 65536 := by
      rw [UInt32.toNat_and]
      exact Nat.and_two_pow_sub_one_eq_mod _ 16
    have hhigh : (val.toUInt32 <<< (16 : UInt64).toUInt32).toNat = 2 ^ 16 * val.toNat := by
      rw [UInt32.toNat_shiftLeft, UInt16.toNat_toUInt32]
      show val.toNat <<< 16 % 2 ^ 32 = _
      rw [Nat.shiftLeft_eq]
      omega
    rw [hone, hmask, UInt32.toNat_or, hand, hhigh, Nat.lor_comm, Nat.mul_comm val.toNat]
    exact (Nat.two_pow_add_eq_or_of_lt (Nat.mod_lt _ (by norm_num)) _).symm

/-- The bytes of a number whose low half was replaced. -/
theorem div_mod_low {w v k : ℕ} (hv : v < 65536) (hk : k < 4) :
    (w / 65536 * 65536 + v) / 256 ^ k % 256 =
      if k < 2 then v / 256 ^ k % 256 else w / 256 ^ k % 256 := by
  interval_cases k
  · simp only [pow_zero, Nat.div_one, Nat.zero_lt_two, if_true]
    omega
  · simp only [pow_one, Nat.one_lt_two, if_true]
    omega
  · simp only [Nat.lt_irrefl, if_false]
    omega
  · simp only [show ¬3 < 2 by norm_num, if_false]
    omega

/-- The bytes of a number whose high half was replaced. -/
theorem div_mod_high {w v k : ℕ} (hk : k < 4) :
    (v * 65536 + w % 65536) / 256 ^ k % 256 =
      if k < 2 then w / 256 ^ k % 256 else v / 256 ^ (k - 2) % 256 := by
  interval_cases k
  · simp only [pow_zero, Nat.div_one, Nat.zero_lt_two, if_true]
    omega
  · simp only [pow_one, Nat.one_lt_two, if_true]
    omega
  · simp only [Nat.lt_irrefl, if_false, Nat.sub_self, pow_zero, Nat.div_one]
    omega
  · simp only [show ¬3 < 2 by norm_num, if_false, show 3 - 2 = 1 by norm_num, pow_one]
    omega

/-- The bytes of the word: those of the value, and the others as they were. -/
theorem byte_merge {w : UInt32} {b : ℕ → UInt8} (hw : w.toNat = Bytes.ofLittle
    ((List.range 4).map fun k => b (reg.toNat / 4 * 4 + k))) (val : UInt16) {r : ℕ}
    (hr : r / 4 = reg.toNat / 4) :
    UInt8.ofNat ((merge reg w val).toNat / 256 ^ (r % 4)) =
      if r / 2 = reg.toNat / 2 then lane val (r % 2) else b r := by
  have hlt : r % 4 < 4 := Nat.mod_lt _ (by norm_num)
  have hbyte : w.toNat / 256 ^ (r % 4) % 256 = (b r).toNat := by
    rw [hw, Bytes.ofLittle_div_mod (by simp [hlt])]
    simp [← hr, Nat.div_add_mod']
  have hval := val.toNat_lt
  rw [← UInt8.toNat_inj, UInt8.toNat_ofNat', toNat_merge]
  show _ % 256 = _
  by_cases h : reg.toNat % 4 / 2 = 0
  · rw [if_pos h, div_mod_low hval hlt]
    by_cases hin : r % 4 < 2
    · rw [if_pos hin, if_pos (by omega), lane, UInt8.toNat_ofNat', show r % 2 = r % 4 by omega]
    · rw [if_neg hin, if_neg (by omega), hbyte]
  · rw [if_neg h, div_mod_high hlt]
    by_cases hin : r % 4 < 2
    · rw [if_pos hin, if_neg (by omega), hbyte]
    · rw [if_neg hin, if_pos (by omega), lane, UInt8.toNat_ofNat', show r % 2 = r % 4 - 2 by omega]

/-! ### Writes -/

/-- The kinds of the bits of byte `reg` of a function. -/
def kindAt (d : PciBusDriver) (kinds : UInt64 → BitKinds 8) (f : PciFn) (reg : ℕ) : BitKinds 8 :=
  kinds (d.ecamBase + UInt64.ofNat (f.block * 4096 + reg))

/-- A word is written to its function only. -/
theorem content_write (d : PciBusDriver) (s : PciState) (hf : f.Valid) (hg : g.Valid)
    (hreg : reg.toNat < 4096) (halign : reg.toNat % 4 = 0) (w : UInt32) {r : ℕ} (hr : r < 4096) :
    content d (BitKinds.write s.kinds s.mem (d.cfgAddr f reg) (Bytes.little 4 w.toNat)) g r =
      if g = f ∧ r / 4 = reg.toNat / 4 then
        (d.kindAt s.kinds g r).storeByte (content d s.mem g r)
          (UInt8.ofNat (w.toNat / 256 ^ (r % 4)))
      else content d s.mem g r := by
  have hiff := sub_cfgAddr_lt_iff d hf hg reg hreg halign hr
  unfold content
  split_ifs with h
  · have hlt := hiff.2 h
    have hpos : (d.ecamBase + UInt64.ofNat (g.block * 4096 + r) - d.cfgAddr f reg).toNat =
        r % 4 := by
      have hblock := g.block_lt hg
      rw [toNat_sub_cfgAddr d hf hg hreg hr, h.1] at hlt ⊢
      omega
    rw [BitKinds.write_of_lt (by rw [Bytes.length_little]; exact hlt)]
    simp only [Bytes.little, List.getElem_map, List.getElem_range, hpos]
    rfl
  · refine BitKinds.write_of_le ?_
    rw [Bytes.length_little]
    exact Nat.not_lt.1 fun hlt => h (hiff.1 hlt)

theorem writeU16_returns (d : PciBusDriver) (f : PciFn) (reg : UInt64) (val : UInt16)
    (s : PciState) : ∃ s', d.writeU16 f reg val s = (.ret (), s') := ⟨_, rfl⟩

/-- The configuration space after `write_u16`: the word of the register is written, with the value
in one half and what was read in the other. -/
theorem content_writeU16 {val : UInt16} {s s' : PciState} (hf : f.Valid) (hreg : reg.toNat < 4096)
    (hrun : d.writeU16 f reg val s = (.ret (), s')) (hg : g.Valid) {r : ℕ} (hr : r < 4096) :
    content d s'.mem g r =
      if g = f ∧ r / 4 = reg.toNat / 4 then
        (d.kindAt s.kinds g r).storeByte (content d s.mem g r)
          (if r / 2 = reg.toNat / 2 then lane val (r % 2) else content d s.mem g r)
      else content d s.mem g r := by
  obtain ⟨-, rfl⟩ := Prod.mk.inj hrun
  have halign := toNat_aligned reg
  have hword := toNat_word_aligned s.mem hf hreg (d := d)
  refine (content_write d _ hf hg (by omega) (by omega) (merge reg _ val) hr).trans ?_
  rw [halign, Nat.mul_div_cancel _ (by norm_num : 0 < 4)]
  refine if_ctx_congr Iff.rfl (fun h => ?_) fun _ => rfl
  rw [byte_merge hword val h.2, h.1]

/-! ### What a write changes -/

/-- From `s` to `s'` the register `reg` takes the value `val`, in the bits that can be written, and
nothing else changes but what is cleared by the ones of `val`. -/
structure WritesU16 (d : PciBusDriver) (f : PciFn) (reg : UInt64) (val : UInt16)
    (s s' : PciState) : Prop where
  readback : ∃ v s'', d.readU16 f reg s' = (.ret v, s'') ∧ ∀ i < 16,
    (d.kindAt s.kinds f (reg.toNat + i / 8)).writable.getLsbD (i % 8) = true →
      v.toBitVec.getLsbD i = val.toBitVec.getLsbD i
  frame : ∀ g r i, PciFn.Valid g → r < 4096 → d.bitAt s'.mem g r i ≠ d.bitAt s.mem g r i →
    g = f ∧ ∃ k < 2, r = reg.toNat + k ∧ ((d.kindAt s.kinds f r).writable.getLsbD i = true ∨
      (d.kindAt s.kinds f r).clears.getLsbD i = true ∧
        val.toBitVec.getLsbD (8 * k + i) = true)

/-- No bit is set in the other half of the word of `reg` that is cleared by writing one to it. -/
def OtherHalfClear (d : PciBusDriver) (f : PciFn) (reg : UInt64) (s : PciState) : Prop :=
  ∀ r, r / 4 = reg.toNat / 4 → r / 2 ≠ reg.toNat / 2 →
    (content d s.mem f r).toBitVec &&& (d.kindAt s.kinds f r).clears = 0#8

section Law

variable {val : UInt16} {s s' : PciState}

/-- The other half is written back as it was read. -/
theorem content_other (hf : f.Valid) (hreg : reg.toNat < 4096)
    (hrun : d.writeU16 f reg val s = (.ret (), s')) {r : ℕ} (hword : r / 4 = reg.toNat / 4)
    (hhalf : r / 2 ≠ reg.toNat / 2) : content d s'.mem f r = content d s.mem f r ↔
      (content d s.mem f r).toBitVec &&& (d.kindAt s.kinds f r).clears = 0#8 := by
  rw [content_writeU16 hf hreg hrun hf (by omega), if_pos ⟨rfl, hword⟩, if_neg hhalf]
  exact BitKinds.storeByte_self _ _

/-- A bit of the register after the write. -/
theorem bitAt_written (hf : f.Valid) (hreg : reg.toNat < 4096) (heven : reg.toNat % 2 = 0)
    (hrun : d.writeU16 f reg val s = (.ret (), s')) {k i : ℕ} (hk : k < 2) :
    d.bitAt s'.mem f (reg.toNat + k) i = ((d.kindAt s.kinds f (reg.toNat + k)).store
      (content d s.mem f (reg.toNat + k)).toBitVec (lane val k).toBitVec).getLsbD i := by
  have hlane : (reg.toNat + k) % 2 = k := by omega
  rw [bitAt, content_writeU16 hf hreg hrun hf (by omega), if_pos ⟨rfl, by omega⟩,
    if_pos (by omega), hlane]
  rfl

theorem readback_written (hf : f.Valid) (hreg : reg.toNat < 4096) (heven : reg.toNat % 2 = 0)
    (hrun : d.writeU16 f reg val s = (.ret (), s')) : ∃ v s'', d.readU16 f reg s' = (.ret v, s'') ∧
      ∀ i < 16, (d.kindAt s.kinds f (reg.toNat + i / 8)).writable.getLsbD (i % 8) = true →
        v.toBitVec.getLsbD i = val.toBitVec.getLsbD i := by
  refine ⟨_, _, readU16_run hf hreg s', fun i hi hw => ?_⟩
  have hpos : reg.toNat / 2 * 2 = reg.toNat := by omega
  have hclears : (d.kindAt s.kinds f (reg.toNat + i / 8)).clears.getLsbD (i % 8) ≠ true :=
    fun hc => absurd (BitKinds.not_writable hc) (by rw [hw]; decide)
  rw [getLsbD_half d _ f _ i hi, hpos, bitAt_written hf hreg heven hrun (by omega),
    BitKinds.getLsbD_store, if_neg hclears, if_pos hw, getLsbD_lane val _ (by omega),
    Nat.div_add_mod]

/-- `write_u16` changes its register only iff the other half of the word has no bit that is cleared
by writing it back. -/
theorem writesU16_iff (hf : f.Valid) (hreg : reg.toNat < 4096) (heven : reg.toNat % 2 = 0)
    (hrun : d.writeU16 f reg val s = (.ret (), s')) :
    d.WritesU16 f reg val s s' ↔ d.OtherHalfClear f reg s := by
  constructor
  · intro h r hword hhalf
    rw [← content_other hf hreg hrun hword hhalf]
    by_contra hne
    obtain ⟨i, hi⟩ := exists_bitAt_ne hne
    obtain ⟨-, k, hk, rfl, -⟩ := h.frame f r i hf (by omega) hi
    omega
  · intro hclear
    refine ⟨readback_written hf hreg heven hrun, fun g r i hg hr hne => ?_⟩
    by_cases h : g = f ∧ r / 4 = reg.toNat / 4
    · obtain ⟨rfl, hword⟩ := h
      by_cases hhalf : r / 2 = reg.toNat / 2
      · obtain ⟨k, hk, rfl⟩ : ∃ k < 2, r = reg.toNat + k := ⟨r % 2, by omega, by omega⟩
        refine ⟨rfl, k, hk, rfl, ?_⟩
        rw [bitAt_written hf hreg heven hrun hk] at hne
        rcases BitKinds.of_store_ne hne with ⟨hw, -⟩ | ⟨hc, hone⟩
        · exact .inl hw
        · rw [getLsbD_lane val k (BitVec.lt_of_getLsbD hc)] at hone
          exact .inr ⟨hc, hone⟩
      · refine absurd ?_ hne
        rw [bitAt, (content_other hf hreg hrun hword hhalf).2 (hclear r hword hhalf)]
        rfl
    · refine absurd ?_ hne
      rw [bitAt, content_writeU16 hf hreg hrun hg hr, if_neg h]
      rfl

end Law

/-! ### The status register -/

/-- The bits that are cleared by writing one to them are the error bits of the status registers, in
byte 7 of every function. -/
def StatusKinds (d : PciBusDriver) (kinds : UInt64 → BitKinds 8) : Prop :=
  ∀ f reg, PciFn.Valid f → reg < 4096 →
    (d.kindAt kinds f reg).clears = if reg = 7 then 0xf9#8 else 0#8

/-- No error bit of the status register of a function is set. -/
def NoErrors (d : PciBusDriver) (mem : UInt64 → UInt8) (f : PciFn) : Prop :=
  content d mem f 7 &&& 0xf9 = 0

instance (mem : UInt64 → UInt8) (f : PciFn) : Decidable (NoErrors d mem f) :=
  inferInstanceAs (Decidable (_ = _))

/-- The command register is the one whose other half has error bits. -/
theorem otherHalfClear_iff {s : PciState} (hk : d.StatusKinds s.kinds) (hf : f.Valid)
    (hreg : reg.toNat < 4096) (heven : reg.toNat % 2 = 0) :
    d.OtherHalfClear f reg s ↔ (reg = pciCommandReg → NoErrors d s.mem f) := by
  constructor
  · rintro h rfl
    have hclear := h 7 (by decide) (by decide)
    rw [hk f 7 hf (by norm_num), if_pos rfl] at hclear
    exact UInt8.toBitVec_inj.1 hclear
  · intro h r hword hhalf
    rw [hk f r hf (by omega)]
    split_ifs with hr
    · have hcommand : reg = pciCommandReg := by
        rw [← UInt64.toNat_inj]
        show reg.toNat = 4
        omega
      have herr : content d s.mem f r &&& 0xf9 = 0 := by
        rw [hr]
        exact h hcommand
      exact congrArg UInt8.toBitVec herr
    · exact BitVec.and_zero

/-! ### The command register of a serial device -/

/-- The bits that `ensure_qemu_serial_intx_enabled` is about. -/
def commandMask : UInt16 := pciCommandIoEnable ||| pciCommandIntxDisable

/-- From `s` to `s'` at most these bits of the command register of `f` change. -/
def ChangesCommand (d : PciBusDriver) (f : PciFn) (s s' : PciState) : Prop :=
  ∀ g r i, PciFn.Valid g → r < 4096 → d.bitAt s'.mem g r i ≠ d.bitAt s.mem g r i →
    g = f ∧ ∃ k < 2, r = pciCommandReg.toNat + k ∧ commandMask.toBitVec.getLsbD (8 * k + i) = true

/-- Bits that are set and others that are cleared, when they are so already. -/
theorem or_and_not_eq_self_iff {w : ℕ} {b m n : BitVec w} (h : m &&& n = 0#w) :
    (b ||| m) &&& ~~~n = b ↔ b &&& (m ||| n) = m := by
  rw [BitVec.eq_of_getLsbD_eq_iff, BitVec.eq_of_getLsbD_eq_iff]
  refine forall₂_congr fun i hi => ?_
  have hbit := congrArg (·.getLsbD i) h
  simp only [BitVec.getLsbD_and, BitVec.getLsbD_zero] at hbit
  simp only [BitVec.getLsbD_and, BitVec.getLsbD_or, BitVec.getLsbD_not, hi, decide_true,
    Bool.true_and]
  cases b.getLsbD i <;> cases hm : m.getLsbD i <;> cases hn : n.getLsbD i <;> simp_all

/-- Only these bits differ. -/
theorem of_or_and_not_ne {w : ℕ} {b m n : BitVec w} {i : ℕ}
    (h : ((b ||| m) &&& ~~~n).getLsbD i ≠ b.getLsbD i) : (m ||| n).getLsbD i = true := by
  rw [BitVec.getLsbD_and, BitVec.getLsbD_or, BitVec.getLsbD_not] at h
  rw [BitVec.getLsbD_or]
  by_contra hno
  rw [Bool.not_eq_true, Bool.or_eq_false_iff] at hno
  rw [hno.1, hno.2] at h
  by_cases hi : i < w
  · simp [hi] at h
  · simp [BitVec.getLsbD_of_ge _ _ (Nat.le_of_not_lt hi)] at h

/-- The function is the serial device. -/
def IsQemuSerial (vendor device : UInt16) : Prop :=
  vendor = qemuPciVendorId ∧ device = qemuPciSerialDeviceId

instance (vendor device : UInt16) : Decidable (IsQemuSerial vendor device) :=
  inferInstanceAs (Decidable (_ ∧ _))

/-- The command register is as `ensure_qemu_serial_intx_enabled` wants it. -/
def CommandSet (d : PciBusDriver) (mem : UInt64 → UInt8) (f : PciFn) : Prop :=
  d.half mem f 4 &&& commandMask = pciCommandIoEnable

instance (mem : UInt64 → UInt8) (f : PciFn) : Decidable (CommandSet d mem f) :=
  inferInstanceAs (Decidable (_ = _))

/-- The value that is written to the command register. -/
def commandAfter (before : UInt16) : UInt16 :=
  (before ||| pciCommandIoEnable) &&& ~~~pciCommandIntxDisable

theorem commandAfter_eq_iff (mem : UInt64 → UInt8) (f : PciFn) :
    d.half mem f 4 = commandAfter (d.half mem f 4) ↔ d.CommandSet mem f := by
  rw [eq_comm, ← UInt16.toBitVec_inj, CommandSet, ← UInt16.toBitVec_inj]
  exact or_and_not_eq_self_iff (by decide)

/-- The command register of a serial device is written unless it is as it should be. -/
theorem ensureQemuSerialIntxEnabled_run (hf : f.Valid) (vendor device : UInt16) (s : PciState) :
    ∃ s', d.ensureQemuSerialIntxEnabled f vendor device s = (.ret (), s') ∧
      ((¬IsQemuSerial vendor device ∨ d.CommandSet s.mem f) ∧ s'.mem = s.mem ∨
        IsQemuSerial vendor device ∧ ¬d.CommandSet s.mem f ∧ ∃ s₁ s₂,
          d.writeU16 f pciCommandReg (commandAfter (d.half s.mem f 4)) s₁ = (.ret (), s₂) ∧
          s₁.mem = s.mem ∧ s₁.kinds = s.kinds ∧ s'.mem = s₂.mem) := by
  have hreg : pciCommandReg.toNat < 4096 := by decide
  have hread : d.readU16 f pciCommandReg s = (.ret (d.half s.mem f 4),
      { s with reads := s.reads ++ [⟨f, cfgOff f (pciCommandReg &&& ~~~3)⟩] }) :=
    readU16_run hf hreg s
  have hset := commandAfter_eq_iff (d := d) s.mem f
  unfold commandAfter at hset
  unfold ensureQemuSerialIntxEnabled
  by_cases hser : IsQemuSerial vendor device
  · rw [if_neg (by rw [hser.1, hser.2]; decide), bind_of_ret hread]
    by_cases h : d.CommandSet s.mem f
    · rw [if_neg (not_not.2 (hset.2 h))]
      exact ⟨_, rfl, .inl ⟨.inr h, rfl⟩⟩
    · rw [if_pos fun heq => h (hset.1 heq)]
      obtain ⟨s₂, hrun⟩ := d.writeU16_returns f pciCommandReg
        ((d.half s.mem f 4 ||| pciCommandIoEnable) &&& ~~~pciCommandIntxDisable)
        { s with reads := s.reads ++ [⟨f, cfgOff f (pciCommandReg &&& ~~~3)⟩] }
      rw [bind_of_ret hrun, bind_of_ret (readU16_run hf hreg s₂)]
      exact ⟨_, rfl, .inr ⟨hser, h, _, s₂, hrun, rfl, rfl, rfl⟩⟩
  · rw [if_pos (not_and_or.1 hser)]
    exact ⟨s, rfl, .inl ⟨.inl hser, rfl⟩⟩

/-- A serial device whose command register has to be changed: nothing else changes iff no error bit
of its status register is set. -/
theorem changesCommand_iff {s s' : PciState} (hk : d.StatusKinds s.kinds) (hf : f.Valid)
    (hrun : d.writeU16 f pciCommandReg (commandAfter (d.half s.mem f 4)) s = (.ret (), s')) :
    d.ChangesCommand f s s' ↔ d.NoErrors s.mem f := by
  have hreg : pciCommandReg.toNat < 4096 := by decide
  have heven : pciCommandReg.toNat % 2 = 0 := by decide
  have hclear := otherHalfClear_iff hk hf hreg heven
  rw [forall_prop_of_true rfl] at hclear
  rw [← hclear]
  constructor
  · intro h r hword hhalf
    rw [← content_other hf hreg hrun hword hhalf]
    by_contra hne
    obtain ⟨i, hi⟩ := exists_bitAt_ne hne
    obtain ⟨-, k, hk, rfl, -⟩ := h f r i hf (by omega) hi
    omega
  · intro h g r i hg hr hne
    obtain ⟨rfl, k, hk2, rfl, -⟩ := ((writesU16_iff hf hreg heven hrun).2 h).frame g r i hg hr hne
    refine ⟨rfl, k, hk2, rfl, ?_⟩
    have hi : i < 8 := by
      by_contra hge
      exact hne ((BitVec.getLsbD_of_ge _ _ (Nat.not_lt.1 hge)).trans
        (BitVec.getLsbD_of_ge _ _ (Nat.not_lt.1 hge)).symm)
    have hbefore : (d.half s.mem g 4).toBitVec.getLsbD (8 * k + i) =
        d.bitAt s.mem g (pciCommandReg.toNat + k) i := by
      rw [getLsbD_half d _ g 4 _ (by omega), show (8 * k + i) / 8 = k by omega,
        show (8 * k + i) % 8 = i by omega]
      rfl
    rw [bitAt_written hf hreg heven hrun hk2] at hne
    rcases BitKinds.of_store_ne hne with ⟨-, hstore⟩ | ⟨hc, -⟩
    · rw [hstore, getLsbD_lane _ k hi, ← hbefore] at hne
      exact of_or_and_not_ne hne
    · -- no bit of the command register is cleared by writing one to it
      rw [hk g _ hg hr, if_neg (by show 4 + k ≠ 7; omega)] at hc
      simp at hc

/-- **Writes of 16 bits.**  The reads return the bytes of the configuration space.  A write changes
its own register only, unless it is to the command register of a function with an error bit in its
status register.  The command register of a serial device is changed without touching anything else,
unless there is something to change and such an error bit. -/
theorem write_u16_frame_iff (d : PciBusDriver) (s : PciState) (hk : d.StatusKinds s.kinds)
    (f : PciFn) (hf : f.Valid) :
    (∀ reg : UInt64, reg.toNat < 4096 →
      (∃ s', d.readU8 f reg s = (.ret (content d s.mem f reg.toNat), s') ∧ s'.mem = s.mem) ∧
      ∃ s', d.readU16 f reg s = (.ret (d.half s.mem f (reg.toNat / 2 * 2)), s') ∧
        s'.mem = s.mem) ∧
    (∀ (reg : UInt64) (val : UInt16), reg.toNat < 4096 → reg.toNat % 2 = 0 →
      ∃ s', d.writeU16 f reg val s = (.ret (), s') ∧
        (d.WritesU16 f reg val s s' ↔ (reg = pciCommandReg → NoErrors d s.mem f))) ∧
    ∀ vendor device : UInt16, ∃ s',
      d.ensureQemuSerialIntxEnabled f vendor device s = (.ret (), s') ∧
        (d.ChangesCommand f s s' ↔
          (IsQemuSerial vendor device ∧ ¬d.CommandSet s.mem f → NoErrors d s.mem f)) := by
  refine ⟨fun reg hreg => ⟨⟨_, readU8_run hf hreg s, rfl⟩, ⟨_, readU16_run hf hreg s, rfl⟩⟩,
    fun reg val hreg heven => ?_, fun vendor device => ?_⟩
  · obtain ⟨s', hrun⟩ := d.writeU16_returns f reg val s
    exact ⟨s', hrun, (writesU16_iff hf hreg heven hrun).trans (otherHalfClear_iff hk hf hreg heven)⟩
  · obtain ⟨s', hrun, ⟨hno, hmem⟩ | ⟨hser, hset, s₁, s₂, hwrite, hmem₁, hkinds₁, hmem₂⟩⟩ :=
      ensureQemuSerialIntxEnabled_run hf vendor device s
    · refine ⟨s', hrun, iff_of_true (fun g r i hg hr hne => ?_) fun h => ?_⟩
      · rw [hmem] at hne
        exact absurd rfl hne
      · exact absurd h.2 (not_not.2 (hno.resolve_left (not_not.2 h.1)))
    · rw [← hmem₁] at hwrite
      have hiff := changesCommand_iff (by rw [hkinds₁]; exact hk) hf hwrite
      rw [hmem₁] at hiff
      have hdue : IsQemuSerial vendor device ∧ ¬d.CommandSet s.mem f := ⟨hser, hset⟩
      refine ⟨s', hrun, ?_⟩
      rw [forall_prop_of_true hdue, ← hiff, ChangesCommand, ChangesCommand, hmem₁, hmem₂]

/-- The kinds of the bits of the first registers of a device. -/
def headerKinds (d : PciBusDriver) : UInt64 → BitKinds 8 := fun x =>
  match (x - d.ecamBase).toNat % 4096 with
  | 4 => ⟨0x47#8, 0#8, by decide⟩
  | 5 => ⟨0x05#8, 0#8, by decide⟩
  | 6 => ⟨0#8, 0#8, by decide⟩
  | 7 => ⟨0#8, 0xf9#8, by decide⟩
  | _ => .plain

theorem statusKinds_headerKinds (d : PciBusDriver) : d.StatusKinds d.headerKinds := by
  intro f reg hf hreg
  have hlt := f.block_lt hf
  have hpos : (d.ecamBase + UInt64.ofNat (f.block * 4096 + reg) - d.ecamBase).toNat % 4096 =
      reg := by
    rw [UInt64.add_comm, UInt64.add_sub_cancel, UInt64.toNat_ofNat']
    omega
  unfold kindAt headerKinds
  rw [hpos]
  split
  · rfl
  · rfl
  · rfl
  · rfl
  · rename_i h
    rw [if_neg h]
    rfl

/-- The driver of one bus. -/
def serialBus : PciBusDriver :=
  ⟨0x40000000, 0x100000, 0x30000000, 0x100000, 1, .detect 0x30000000⟩

/-- Device 1 of the bus, whose status register has the high byte `status`; all other registers are
zero. -/
def serialState (status : UInt8) : PciState where
  mem := fun x => if x = 0x40008007 then status else 0
  kinds := serialBus.headerKinds

/-- Without errors only the command register is changed. -/
theorem ensure_serial_changes :
    ∃ s', serialBus.ensureQemuSerialIntxEnabled ⟨0, 1, 0⟩ 0x1b36 0x0002 (serialState 0) =
      (.ret (), s') ∧ serialBus.ChangesCommand ⟨0, 1, 0⟩ (serialState 0) s' := by
  obtain ⟨s', hrun, hiff⟩ := (write_u16_frame_iff serialBus (serialState 0)
    (statusKinds_headerKinds serialBus) ⟨0, 1, 0⟩ ⟨by decide, by decide⟩).2.2 0x1b36 0x0002
  exact ⟨s', hrun, hiff.2 fun _ => by decide⟩

/-- A write to the command register clears the error bit 13 of the status register, and so does
`ensure_qemu_serial_intx_enabled`. -/
theorem write_u16_clears_error :
    ¬serialBus.WritesU16 ⟨0, 1, 0⟩ pciCommandReg 1 (serialState 0x20)
      (serialBus.writeU16 ⟨0, 1, 0⟩ pciCommandReg 1 (serialState 0x20)).2 ∧
    ¬serialBus.ChangesCommand ⟨0, 1, 0⟩ (serialState 0x20)
      (serialBus.ensureQemuSerialIntxEnabled ⟨0, 1, 0⟩ 0x1b36 0x0002 (serialState 0x20)).2 := by
  constructor
  · intro h
    obtain ⟨-, k, hk, heq, -⟩ := h.frame ⟨0, 1, 0⟩ 7 5 ⟨by decide, by decide⟩ (by norm_num)
      (by decide +kernel)
    have hreg : pciCommandReg.toNat = 4 := rfl
    omega
  · intro h
    obtain ⟨-, k, hk, heq, -⟩ := h ⟨0, 1, 0⟩ 7 5 ⟨by decide, by decide⟩ (by norm_num)
      (by decide +kernel)
    have hreg : pciCommandReg.toNat = 4 := rfl
    omega

end GlendaDrivers.PciBusDriver
