import GlendaDrivers.Bus.Pci
import GlendaDrivers.Lib.Align
import GlendaDrivers.Lib.Words
import Mathlib.Data.Nat.Bitwise

/-!
# The configuration space of the PCI bus driver

The configuration space as bytes, one block of 4096 for each function, and what the accesses of
the driver read of it.

* `PciFn.block`, `toNat_cfgOff`: the block of a function, and the offset of its registers;
* `content`: the bytes of a function;
* `readU16_yields`, `readU8_yields`: the byte lanes;
* `PciInv`: what a scan keeps of the configuration space.
-/

namespace GlendaDrivers

open Prog

/-! ### Blocks -/

/-- A function that a bus can have. -/
structure PciFn.Valid (f : PciFn) : Prop where
  dev : f.dev < 32
  func : f.func < 8

/-- The number of a function. -/
def PciFn.block (f : PciFn) : ℕ := f.bus.toNat * 256 + f.dev.toNat * 8 + f.func.toNat

theorem PciFn.block_lt (f : PciFn) (hf : f.Valid) : f.block < 65536 := by
  have hb := f.bus.toNat_lt
  have hd : f.dev.toNat < 32 := hf.dev
  have hfunc : f.func.toNat < 8 := hf.func
  unfold block
  omega

/-- A function is determined by its number. -/
theorem PciFn.block_inj {f g : PciFn} (hf : f.Valid) (hg : g.Valid) (h : f.block = g.block) :
    f = g := by
  have hd : f.dev.toNat < 32 := hf.dev
  have hd' : g.dev.toNat < 32 := hg.dev
  have hfunc : f.func.toNat < 8 := hf.func
  have hfunc' : g.func.toNat < 8 := hg.func
  unfold block at h
  have hbus : f.bus = g.bus := UInt8.toNat_inj.1 (by omega)
  have hdev : f.dev = g.dev := UInt8.toNat_inj.1 (by omega)
  have hfn : f.func = g.func := UInt8.toNat_inj.1 (by omega)
  obtain ⟨b, d, fn⟩ := f
  obtain ⟨b', d', fn'⟩ := g
  rw [show b = b' from hbus, show d = d' from hdev, show fn = fn' from hfn]

namespace PciBusDriver

variable {d : PciBusDriver} {f g : PciFn} {reg : UInt64}

theorem toNat_min (a b : UInt64) : (min a b).toNat = min a.toNat b.toNat := by
  show (if a ≤ b then a else b).toNat = min a.toNat b.toNat
  by_cases h : a ≤ b
  · rw [if_pos h]
    exact (min_eq_left h).symm
  · rw [if_neg h]
    exact (min_eq_right (Nat.le_of_not_le h)).symm

/-- The parts of an offset do not overlap. -/
theorem toNat_cfgOff (hf : f.Valid) (hreg : reg.toNat < 4096) :
    (cfgOff f reg).toNat = f.block * 4096 + reg.toNat := by
  have hb := f.bus.toNat_lt
  have hd : f.dev.toNat < 32 := hf.dev
  have hfunc : f.func.toNat < 8 := hf.func
  have h1 : ((f.func.toUInt64 <<< 12) ||| reg).toNat = f.func.toNat * 2 ^ 12 + reg.toNat :=
    Words.toNat_shift_or (a := f.func.toUInt64) (n := 12) (by norm_num) hreg (by
      rw [UInt8.toNat_toUInt64]
      omega)
  have h2 : ((f.dev.toUInt64 <<< 15) ||| ((f.func.toUInt64 <<< 12) ||| reg)).toNat =
      f.dev.toNat * 2 ^ 15 + ((f.func.toUInt64 <<< 12) ||| reg).toNat :=
    Words.toNat_shift_or (a := f.dev.toUInt64) (n := 15) (by norm_num) (by omega) (by
      rw [UInt8.toNat_toUInt64]
      omega)
  have h3 : ((f.bus.toUInt64 <<< 20) ||| ((f.dev.toUInt64 <<< 15) |||
      ((f.func.toUInt64 <<< 12) ||| reg))).toNat = f.bus.toNat * 2 ^ 20 +
        ((f.dev.toUInt64 <<< 15) ||| ((f.func.toUInt64 <<< 12) ||| reg)).toNat :=
    Words.toNat_shift_or (a := f.bus.toUInt64) (n := 20) (by norm_num) (by omega) (by
      rw [UInt8.toNat_toUInt64]
      omega)
  rw [cfgOff, UInt64.or_assoc, UInt64.or_assoc, h3, h2, h1, PciFn.block]
  omega

/-! ### Contents -/

/-- Byte `reg` of the block of a function. -/
def content (d : PciBusDriver) (mem : UInt64 → UInt8) (f : PciFn) (reg : ℕ) : UInt8 :=
  mem (d.ecamBase + UInt64.ofNat (f.block * 4096 + reg))

variable {mem : UInt64 → UInt8}

theorem cfgAddr_eq (hf : f.Valid) (hreg : reg.toNat < 4096) (k : ℕ) :
    d.cfgAddr f reg + UInt64.ofNat k =
      d.ecamBase + UInt64.ofNat (f.block * 4096 + (reg.toNat + k)) := by
  have hoff : cfgOff f reg = UInt64.ofNat (f.block * 4096 + reg.toNat) := by
    have hlt := f.block_lt hf
    rw [← UInt64.toNat_inj, toNat_cfgOff hf hreg, UInt64.toNat_ofNat', Nat.mod_eq_of_lt (by omega)]
  rw [cfgAddr, hoff, UInt64.add_assoc, ← UInt64.ofNat_add, Nat.add_assoc]

/-- The bytes of a word. -/
theorem toNat_word (hf : f.Valid) (hreg : reg.toNat < 4096) :
    (word mem (d.cfgAddr f reg)).toNat = Bytes.ofLittle
      ((List.range 4).map fun k => content d mem f (reg.toNat + k)) := by
  have hread : Bytes.read mem (d.cfgAddr f reg) 4 =
      (List.range 4).map fun k => content d mem f (reg.toNat + k) := by
    refine List.map_congr_left fun k _ => ?_
    rw [cfgAddr_eq hf hreg]
    rfl
  have hlt : Bytes.ofLittle ((List.range 4).map fun k => content d mem f (reg.toNat + k)) <
      2 ^ 32 := (Bytes.ofLittle_lt _).trans_eq (by simp)
  rw [word, hread, UInt32.toNat_ofNat', Nat.mod_eq_of_lt hlt]

/-- Field `k` of a word, of `b` bits. -/
theorem toNat_shift_and (w : UInt32) {k b : ℕ} (hk : k * b < 32) {mask : UInt32}
    (hmask : mask.toNat = 2 ^ b - 1) {sh : UInt64} (hsh : sh.toNat = k * b) :
    ((w >>> sh.toUInt32) &&& mask).toNat = w.toNat / (2 ^ b) ^ k % 2 ^ b := by
  have hshift : sh.toUInt32.toNat % 32 = k * b := by
    rw [UInt64.toNat_toUInt32, hsh]
    omega
  rw [UInt32.toNat_and, UInt32.toNat_shiftRight, hshift, hmask, Nat.and_two_pow_sub_one_eq_mod,
    Nat.shiftRight_eq_div_pow, Nat.mul_comm, Nat.pow_mul]

/-- Byte `k` of a word. -/
theorem lane8 (w : UInt32) {k : ℕ} (hk : k < 4) (sh : UInt64) (hsh : sh.toNat = k * 8) :
    ((w >>> sh.toUInt32) &&& 0xff).toUInt8.toNat = w.toNat / 256 ^ k % 256 := by
  rw [UInt32.toNat_toUInt8, toNat_shift_and w (by omega) rfl hsh]
  exact Nat.mod_mod _ _

/-- Half `k` of a word. -/
theorem lane16 (w : UInt32) {k : ℕ} (hk : k < 2) (sh : UInt64) (hsh : sh.toNat = k * 16) :
    ((w >>> sh.toUInt32) &&& 0xffff).toUInt16.toNat = w.toNat / 65536 ^ k % 65536 := by
  rw [UInt32.toNat_toUInt16, toNat_shift_and w (by omega) rfl hsh]
  exact Nat.mod_mod _ _

theorem toNat_aligned (reg : UInt64) : (reg &&& ~~~3).toNat = reg.toNat / 4 * 4 :=
  Align.toNat_alignDown (m := 4) (k := 2) rfl reg

/-- The byte of register `reg` in its word. -/
theorem byte_of_word {w : UInt32} {b : ℕ → UInt8} (hw : w.toNat = Bytes.ofLittle
    ((List.range 4).map fun k => b (reg.toNat / 4 * 4 + k))) :
    ((w >>> ((reg &&& 0x3) * 8).toUInt32) &&& 0xff).toUInt8 = b reg.toNat := by
  have hand : (reg &&& 3).toNat = reg.toNat % 4 := by
    rw [UInt64.toNat_and]
    exact Nat.and_two_pow_sub_one_eq_mod _ 2
  have hsh : ((reg &&& 3) * 8).toNat = reg.toNat % 4 * 8 := by
    rw [UInt64.toNat_mul, hand]
    show _ * 8 % 2 ^ 64 = _
    omega
  rw [← UInt8.toNat_inj, lane8 w (Nat.mod_lt _ (by norm_num)) _ hsh, hw,
    Bytes.ofLittle_div_mod (by simp [Nat.mod_lt])]
  simp [Nat.div_add_mod']

/-- The shift of a 16-bit register in its word. -/
theorem toNat_shift16 (reg : UInt64) : ((reg &&& 0x2) * 8).toNat = reg.toNat % 4 / 2 * 16 := by
  have hand : (reg &&& 2).toNat = reg.toNat % 4 / 2 * 2 := by
    rw [UInt64.toNat_and, show (2 : UInt64).toNat = 2 ^ 1 from rfl, Nat.and_two_pow,
      Nat.testBit_succ, Nat.testBit_zero]
    by_cases h : reg.toNat / 2 % 2 = 1
    · simp [h]
      omega
    · simp [h]
      omega
  rw [UInt64.toNat_mul, hand]
  show _ * 8 % 2 ^ 64 = _
  omega

/-- The 16-bit register in which byte `reg` is. -/
theorem half_of_word {w : UInt32} {b : ℕ → UInt8} (hw : w.toNat = Bytes.ofLittle
    ((List.range 4).map fun k => b (reg.toNat / 4 * 4 + k))) :
    ((w >>> ((reg &&& 0x2) * 8).toUInt32) &&& 0xffff).toUInt16.toNat =
      (b (reg.toNat / 2 * 2)).toNat + 256 * (b (reg.toNat / 2 * 2 + 1)).toNat := by
  rw [lane16 w (by omega) _ (toNat_shift16 reg)]
  generalize w.toNat = n at hw ⊢
  have h0 := (b (reg.toNat / 4 * 4)).toNat_lt
  have h1 := (b (reg.toNat / 4 * 4 + 1)).toNat_lt
  have h2 := (b (reg.toNat / 4 * 4 + 2)).toNat_lt
  have h3 := (b (reg.toNat / 4 * 4 + 3)).toNat_lt
  simp only [List.range_succ, List.range_zero, List.nil_append, List.cons_append, List.map_cons,
    List.map_nil, Bytes.ofLittle, Nat.add_zero] at hw
  by_cases h : reg.toNat % 4 / 2 = 0
  · have hpos : reg.toNat / 2 * 2 = reg.toNat / 4 * 4 := by omega
    rw [h, hpos]
    omega
  · have hpos : reg.toNat / 2 * 2 = reg.toNat / 4 * 4 + 2 := by omega
    have hnext : reg.toNat / 2 * 2 + 1 = reg.toNat / 4 * 4 + 3 := by omega
    have hone : reg.toNat % 4 / 2 = 1 := by omega
    rw [hone, hnext, hpos, pow_one]
    omega

/-! ### Reads -/

/-- A function on a bus that a scan goes over. -/
structure Scans (d : PciBusDriver) (f : PciFn) : Prop extends f.Valid where
  bus : f.bus.toNat < d.busCount.toNat

/-- An access, at offset `off`, to the header of the function that it is made for. -/
structure Own (d : PciBusDriver) (f : PciFn) (off : UInt64) : Prop where
  scans : d.Scans f
  block : off.toNat / 4096 = f.block
  header : off.toNat % 4096 + 4 ≤ 0x40

end PciBusDriver

/-- The configuration space is `mem₀`, except for the command registers; every access was to the
header of its function. -/
structure PciInv (d : PciBusDriver) (mem₀ : UInt64 → UInt8) (s : PciState) : Prop where
  static : ∀ f reg, PciFn.Valid f → reg < 4096 → reg / 4 ≠ 1 →
    d.content s.mem f reg = d.content mem₀ f reg
  reads : ∀ r ∈ s.reads, d.Own r.fn r.off
  writes : ∀ w ∈ s.writes, d.Own w.fn w.off

namespace PciBusDriver

variable {d : PciBusDriver} {f g : PciFn} {reg : UInt64} {mem₀ : UInt64 → UInt8}

theorem own_cfgOff (hf : d.Scans f) (hreg : reg.toNat + 4 ≤ 0x40) : d.Own f (cfgOff f reg) := by
  have hoff : (cfgOff f reg).toNat = f.block * 4096 + reg.toNat :=
    toNat_cfgOff hf.toValid (by omega)
  exact ⟨hf, by omega, by omega⟩

/-- A word that is not the command register. -/
theorem readU32_yields (hf : d.Scans f) (hreg : reg.toNat < 0x40) (halign : reg.toNat % 4 = 0) :
    Yields (PciInv d mem₀) (d.readU32 f reg) fun w => reg.toNat / 4 ≠ 1 → w.toNat =
      Bytes.ofLittle ((List.range 4).map fun k => content d mem₀ f (reg.toNat + k)) := by
  refine Yields.ofFn fun s hs => ⟨fun hne => ?_, hs.static, fun r hr => ?_, hs.writes⟩
  · show (word s.mem (d.cfgAddr f reg)).toNat = _
    rw [toNat_word hf.toValid (by omega)]
    congr 1
    refine List.map_congr_left fun k hk => ?_
    have hk := List.mem_range.1 hk
    exact hs.static f _ hf.toValid (by omega) (by omega)
  · rcases List.mem_append.1 hr with hr | hr
    · exact hs.reads r hr
    · obtain rfl := List.mem_singleton.1 hr
      exact own_cfgOff hf (by omega)

/-- The word with register `reg`. -/
theorem readAligned_yields (hf : d.Scans f) (hreg : reg.toNat < 0x40) :
    Yields (PciInv d mem₀) (d.readU32 f (reg &&& ~~~3)) fun w => reg.toNat / 4 ≠ 1 → w.toNat =
      Bytes.ofLittle
        ((List.range 4).map fun k => content d mem₀ f (reg.toNat / 4 * 4 + k)) := by
  have halign := toNat_aligned reg
  have h : Yields (PciInv d mem₀) (d.readU32 f (reg &&& ~~~3)) _ :=
    readU32_yields hf (by omega) (by omega)
  rw [halign] at h
  refine h.mono fun w hw hne => hw (by omega)

theorem readU8_yields (hf : d.Scans f) (hreg : reg.toNat < 0x40) :
    Yields (PciInv d mem₀) (d.readU8 f reg) fun v =>
      reg.toNat / 4 ≠ 1 → v = content d mem₀ f reg.toNat := by
  unfold readU8
  exact Yields.bind (readAligned_yields hf hreg) fun w hw =>
    Yields.pure fun hne => byte_of_word (hw hne)

/-- Half a word, at an even register. -/
theorem readU16_yields (hf : d.Scans f) (hreg : reg.toNat < 0x40) (heven : reg.toNat % 2 = 0) :
    Yields (PciInv d mem₀) (d.readU16 f reg) fun v => reg.toNat / 4 ≠ 1 → v.toNat =
      (content d mem₀ f reg.toNat).toNat + 256 * (content d mem₀ f (reg.toNat + 1)).toNat := by
  have hpos : reg.toNat / 2 * 2 = reg.toNat := by omega
  unfold readU16
  refine Yields.bind (readAligned_yields hf hreg) fun w hw => Yields.pure fun hne => ?_
  rw [half_of_word (hw hne), hpos]

/-- The distance of a byte from a register. -/
theorem toNat_sub_cfgAddr (d : PciBusDriver) (hf : f.Valid) (hg : g.Valid)
    (hreg : reg.toNat < 4096) {r : ℕ} (hr : r < 4096) :
    (d.ecamBase + UInt64.ofNat (g.block * 4096 + r) - d.cfgAddr f reg).toNat =
      (2 ^ 64 - (f.block * 4096 + reg.toNat) + (g.block * 4096 + r)) % 2 ^ 64 := by
  have hlt := g.block_lt hg
  have hsub : ∀ a x y : UInt64, a + x - (a + y) = x - y := fun a x y => by
    rw [UInt64.sub_eq_iff_eq_add, UInt64.add_comm a y, ← UInt64.add_assoc,
      UInt64.sub_add_cancel, UInt64.add_comm]
  rw [cfgAddr, hsub, UInt64.toNat_sub, toNat_cfgOff hf hreg, UInt64.toNat_ofNat',
    Nat.mod_eq_of_lt (show g.block * 4096 + r < 2 ^ 64 by omega)]

/-- The bytes of a word. -/
theorem sub_cfgAddr_lt_iff (d : PciBusDriver) (hf : f.Valid) (hg : g.Valid) (reg : UInt64)
    (hreg : reg.toNat < 4096) (halign : reg.toNat % 4 = 0) {r : ℕ} (hr : r < 4096) :
    (d.ecamBase + UInt64.ofNat (g.block * 4096 + r) - d.cfgAddr f reg).toNat < 4 ↔
      g = f ∧ r / 4 = reg.toNat / 4 := by
  have hlt := f.block_lt hf
  have hlt' := g.block_lt hg
  rw [toNat_sub_cfgAddr d hf hg hreg hr]
  constructor
  · intro h
    exact ⟨PciFn.block_inj hg hf (by omega), by omega⟩
  · rintro ⟨rfl, h⟩
    omega

/-- A register of a function is not in the command register of another. -/
theorem le_sub_command (d : PciBusDriver) (hf : f.Valid) (hg : g.Valid) {r : ℕ} (hr : r < 4096)
    (hne : r / 4 ≠ 1) :
    4 ≤ (d.ecamBase + UInt64.ofNat (g.block * 4096 + r) - d.cfgAddr f 4).toNat := by
  have hiff := sub_cfgAddr_lt_iff d hf hg 4 (by decide) (by decide) hr
  exact Nat.not_lt.1 fun h => hne (hiff.1 h).2

/-- The command register is written. -/
theorem writeU32_yields (hf : d.Scans f) (w : UInt32) :
    Yields (PciInv d mem₀) (d.writeU32 f 4 w) fun _ => True := by
  refine Yields.modify fun s hs => ⟨fun g r hg hr hne => ?_, hs.reads, fun w' hw => ?_⟩
  · refine (BitKinds.write_of_le ?_).trans (hs.static g r hg hr hne)
    rw [Bytes.length_little]
    exact le_sub_command d hf.toValid hg hr hne
  · rcases List.mem_append.1 hw with hw | hw
    · exact hs.writes w' hw
    · obtain rfl := List.mem_singleton.1 hw
      exact own_cfgOff hf (by decide)

theorem writeU16_yields (hf : d.Scans f) (v : UInt16) :
    Yields (PciInv d mem₀) (d.writeU16 f pciCommandReg v) fun _ => True := by
  have hreg : pciCommandReg.toNat < 0x40 := by decide
  have haligned : pciCommandReg &&& ~~~3 = 4 := by decide
  unfold writeU16
  refine Yields.bind (readAligned_yields hf hreg) fun w _ => ?_
  rw [haligned]
  exact writeU32_yields hf _

/-- The command register of a serial device may be written. -/
theorem ensureQemuSerialIntxEnabled_yields (hf : d.Scans f) (vendor device : UInt16) :
    Yields (PciInv d mem₀) (d.ensureQemuSerialIntxEnabled f vendor device) fun _ => True := by
  have hreg : pciCommandReg.toNat < 0x40 := by decide
  have heven : pciCommandReg.toNat % 2 = 0 := by decide
  unfold ensureQemuSerialIntxEnabled
  refine Yields.ite (fun _ => Yields.pure trivial) fun _ => ?_
  refine Yields.bind (readU16_yields hf hreg heven) fun before _ => ?_
  refine Yields.ite (fun _ => ?_) fun _ => Yields.pure trivial
  refine Yields.bind (writeU16_yields hf _) fun _ _ => ?_
  exact Yields.bind (readU16_yields hf hreg heven) fun _ _ => Yields.pure trivial

end PciBusDriver

end GlendaDrivers
