import GlendaDrivers.Bus.PciBars
import GlendaDrivers.Bus.PciWrite

/-!
# What the PCI bus driver makes of a configuration space

An enumeration reads the configuration space and changes the command registers of serial devices
on the way.  What it reports is decoded from the configuration space as it was before.

* `cutBars`, `PciFn.regions`, `PciFn.irqs`, `nodeIn`: the decoder;
* `buildDescNode_triple`: one function;
* `SerialKinds`: what is assumed of the registers;
* `Scanned`, `Scanned.visit`: what the functions that were visited have become;
* `scanBuses_triple`: the loops;
* `pci_inventory`: what is reported, what is changed, and that a second enumeration reports the same
  and changes nothing.
-/

namespace GlendaDrivers

open Prog PciBusDriver

/-! ### The decoder -/

/-- The base addresses in the dwords of the registers, cut from the left. -/
def cutBars : List UInt32 → List Bar
  | [] => []
  | [v] => if v = 0 then [.empty] else if v.toNat % 2 = 1 then [.io v] else [.mem32 v]
  | v :: hi :: ws =>
      if v = 0 then .empty :: cutBars (hi :: ws)
      else if v.toNat % 2 = 1 then .io v :: cutBars (hi :: ws)
      else if v.toNat % 8 = 4 then .mem64 v hi :: cutBars ws
      else .mem32 v :: cutBars (hi :: ws)

theorem barPartition_cutBars (ws : List UInt32) : BarPartition ws (cutBars ws) := by
  fun_induction cutBars ws with
  | case1 => exact .nil
  | case2 => exact .empty .nil
  | case3 v _ hodd => exact .io hodd .nil
  | case4 v hz hodd => exact .mem32 hz (by omega) (fun _ => rfl) .nil
  | case5 hi ws ih => exact .empty ih
  | case6 v hi ws _ hodd ih => exact .io hodd ih
  | case7 v hi ws _ _ htype ih => exact .mem64 htype ih
  | case8 v hi ws hz hodd htype ih =>
    exact .mem32 hz (by omega) (fun h => absurd h htype) ih

namespace PciFn

variable (c : PciFn → ℕ → UInt8)

/-- The register of 16 bits at byte `reg`. -/
def word16 (f : PciFn) (reg : ℕ) : UInt16 :=
  UInt16.ofNat ((c f reg).toNat + 256 * (c f (reg + 1)).toNat)

/-- The register of 32 bits at byte `reg`. -/
def word32 (f : PciFn) (reg : ℕ) : UInt32 :=
  UInt32.ofNat (Bytes.ofLittle ((List.range 4).map fun k => c f (reg + k)))

/-- The function is the serial device. -/
def Serial (f : PciFn) : Prop := IsQemuSerial (f.word16 c 0) (f.word16 c 2)

instance (f : PciFn) : Decidable (f.Serial c) := inferInstanceAs (Decidable (IsQemuSerial _ _))

/-- The number of base address registers; a bridge has two. -/
def barCount (f : PciFn) : ℕ := if c f 0x0e &&& 0x7f = 0x01 then 2 else 6

/-- The regions of a function; a serial device without any has the start of the I/O window. -/
def regions (ioCpuBase : Option UInt64) (f : PciFn) : List MMIORegion :=
  let dwords := (List.range (f.barCount c)).map fun i => f.word32 c (0x10 + 4 * i)
  let found := (cutBars dwords).flatMap (Bar.regions ioCpuBase)
  if found = [] ∧ f.Serial c then ioCpuBase.toList.map (⟨·, 0x100⟩) else found

/-- The interrupts of a function: the interrupt line, or the route of the platform. -/
def irqs (p : PciPlatformOps) (f : PciFn) : List UInt64 :=
  let line := c f 0x3c
  let pin := c f 0x3d
  if pin ≠ 0 ∧ line ≠ 0 ∧ line ≠ 0xff then [line.toUInt64]
  else (p.mapIntxIrq f.bus f.dev pin).toList

end PciFn

/-- The node of a function in the configuration space `c`. -/
def PciBusDriver.nodeIn (d : PciBusDriver) (c : PciFn → ℕ → UInt8) (f : PciFn) :
    DeviceDescNode where
  parent := usizeMax
  desc := {
    name := nameOf f
    compatible := compatibleOf (f.word16 c 0) (f.word16 c 2)
    mmio := f.regions c d.platform.ioBarCpuBase
    irq := f.irqs c d.platform }
  nodeMeta := {
    bus := some "pci"
    unitAddr := some (unitAddrOf f)
    tags := ["src:runtime", "bus:pci"]
    properties := [
      ("pci.bus", Nat.repr f.bus.toNat),
      ("pci.device", Nat.repr f.dev.toNat),
      ("pci.function", Nat.repr f.func.toNat),
      ("pci.vendor", "0x" ++ Hex.padded 4 (f.word16 c 0).toNat),
      ("pci.device_id", "0x" ++ Hex.padded 4 (f.word16 c 2).toNat),
      ("pci.class", "0x" ++ Hex.padded 2 (c f 0x0b).toNat),
      ("pci.subclass", "0x" ++ Hex.padded 2 (c f 0x0a).toNat),
      ("pci.prog_if", "0x" ++ Hex.padded 2 (c f 0x09).toNat),
      ("pci.revision", "0x" ++ Hex.padded 2 (c f 0x08).toNat),
      ("pci.header_type", "0x" ++ Hex.padded 2 (c f 0x0e &&& 0x7f).toNat),
      ("pci.ecam_base", "0x" ++ String.ofList (Nat.toDigits 16 d.ecamPhys.toNat)),
      ("pci.platform", d.platform.name)] }

/-! ### The command register does not matter -/

/-- Two configuration spaces have the same headers, except for the command and the status
register. -/
def SameHeaders (c c' : PciFn → ℕ → UInt8) (f : PciFn) : Prop :=
  ∀ r < 0x40, r / 4 ≠ 1 → c f r = c' f r

namespace SameHeaders

variable {c c' : PciFn → ℕ → UInt8} {f : PciFn}

theorem word16 (h : SameHeaders c c' f) {r : ℕ} (hr : r + 1 < 0x40) (h0 : r / 4 ≠ 1)
    (h1 : (r + 1) / 4 ≠ 1) : f.word16 c r = f.word16 c' r := by
  unfold PciFn.word16
  rw [h r (by omega) h0, h (r + 1) hr h1]

theorem word32 (h : SameHeaders c c' f) {r : ℕ} (hr : r + 3 < 0x40) (h8 : 8 ≤ r) :
    f.word32 c r = f.word32 c' r := by
  unfold PciFn.word32
  congr 2
  refine List.map_congr_left fun k hk => h _ ?_ ?_
  · have hk := List.mem_range.1 hk
    omega
  · omega

theorem serial (h : SameHeaders c c' f) : f.Serial c ↔ f.Serial c' := by
  unfold PciFn.Serial
  rw [h.word16 (r := 0) (by norm_num) (by norm_num) (by norm_num),
    h.word16 (r := 2) (by norm_num) (by norm_num) (by norm_num)]

theorem vendorId (h : SameHeaders c c' f) : f.vendorId c = f.vendorId c' := by
  unfold PciFn.vendorId
  rw [h 0 (by norm_num) (by norm_num), h 1 (by norm_num) (by norm_num)]

theorem present (h : SameHeaders c c' f) : f.Present c ↔ f.Present c' := by
  unfold PciFn.Present
  rw [h.vendorId]

theorem multifunction (h : SameHeaders c c' f) : f.Multifunction c ↔ f.Multifunction c' := by
  unfold PciFn.Multifunction
  rw [h 0x0e (by norm_num) (by norm_num)]

theorem barCount_le (c : PciFn → ℕ → UInt8) (f : PciFn) : f.barCount c ≤ 6 := by
  unfold PciFn.barCount
  split_ifs <;> norm_num

theorem regions (h : SameHeaders c c' f) (io : Option UInt64) :
    f.regions c io = f.regions c' io := by
  have hcount : f.barCount c = f.barCount c' := by
    unfold PciFn.barCount
    rw [h 0x0e (by norm_num) (by norm_num)]
  have hwords : ((List.range (f.barCount c)).map fun i => f.word32 c (0x10 + 4 * i)) =
      (List.range (f.barCount c')).map fun i => f.word32 c' (0x10 + 4 * i) := by
    rw [← hcount]
    refine List.map_congr_left fun i hi => h.word32 ?_ (by omega)
    have hi := (List.mem_range.1 hi).trans_le (barCount_le c f)
    omega
  unfold PciFn.regions
  rw [hwords]
  simp only [h.serial]

theorem irqs (h : SameHeaders c c' f) (p : PciPlatformOps) : f.irqs c p = f.irqs c' p := by
  unfold PciFn.irqs
  rw [h 0x3c (by norm_num) (by norm_num), h 0x3d (by norm_num) (by norm_num)]

/-- The nodes are the same. -/
theorem nodeIn (h : SameHeaders c c' f) (d : PciBusDriver) : d.nodeIn c f = d.nodeIn c' f := by
  unfold PciBusDriver.nodeIn
  rw [h.regions, h.irqs, h.word16 (r := 0) (by norm_num) (by norm_num) (by norm_num),
    h.word16 (r := 2) (by norm_num) (by norm_num) (by norm_num), h 0x08 (by norm_num) (by norm_num),
    h 0x09 (by norm_num) (by norm_num), h 0x0a (by norm_num) (by norm_num),
    h 0x0b (by norm_num) (by norm_num), h 0x0e (by norm_num) (by norm_num)]

end SameHeaders

/-! ### One function -/

/-- Nothing is changed from `s` to `s'`. -/
structure SameSpace (s s' : PciState) : Prop where
  mem : s'.mem = s.mem
  kinds : s'.kinds = s.kinds
  writes : s'.writes = s.writes

theorem SameSpace.refl (s : PciState) : SameSpace s s := ⟨rfl, rfl, rfl⟩

theorem SameSpace.reads {s s' : PciState} (h : SameSpace s s') (rs : List PciRead) :
    SameSpace s { s' with reads := rs } := ⟨h.mem, h.kinds, h.writes⟩

namespace PciBusDriver

/-- From `s` to `s'` the command register of `f` was written, if `f` is a serial device that needs
it. -/
inductive Ensured (d : PciBusDriver) (f : PciFn) (s s' : PciState) : Prop
  | quiet (hno : ¬f.Serial (d.content s.mem) ∨ d.CommandSet s.mem f) (h : SameSpace s s')
  | written {s₁ s₂ : PciState} (hser : f.Serial (d.content s.mem)) (hset : ¬d.CommandSet s.mem f)
      (hmem : s₁.mem = s.mem) (hkinds : s₁.kinds = s.kinds)
      (hrun : d.writeU16 f pciCommandReg (commandAfter (d.half s.mem f 4)) s₁ = (.ret (), s₂))
      (hmem' : s'.mem = s₂.mem) (hkinds' : s'.kinds = s.kinds)

variable {d : PciBusDriver} {f g : PciFn} {s s' : PciState} {reg : UInt64}

theorem Ensured.reads (h : d.Ensured f s s') (rs : List PciRead) :
    d.Ensured f s { s' with reads := rs } := by
  cases h with
  | quiet hno h => exact .quiet hno (h.reads rs)
  | written hser hset hmem hkinds hrun hmem' hkinds' =>
    exact .written hser hset hmem hkinds hrun hmem' hkinds'

/-- Other registers than the command and the status register of `f` are as they were. -/
theorem Ensured.content_eq (h : d.Ensured f s s') (hf : f.Valid) (hg : g.Valid) {r : ℕ}
    (hr : r < 4096) (hne : ¬(g = f ∧ r / 4 = 1)) :
    d.content s'.mem g r = d.content s.mem g r := by
  cases h with
  | quiet _ h => rw [h.mem]
  | written _ _ hmem _ hrun hmem' =>
    rw [hmem', content_writeU16 hf (by decide) hrun hg hr, ← hmem]
    exact if_neg hne

theorem Ensured.sameHeaders (h : d.Ensured f s s') (hf : f.Valid) (hg : g.Valid) :
    SameHeaders (d.content s'.mem) (d.content s.mem) g :=
  fun r hr hne => h.content_eq hf hg (by omega) fun hboth => hne hboth.2

theorem readU16_same (hf : f.Valid) (hreg : reg.toNat < 4096) (heven : reg.toNat % 2 = 0) :
    Yields (SameSpace s) (d.readU16 f reg) (· = f.word16 (d.content s.mem) reg.toNat) := by
  intro s' hs'
  rw [readU16_run hf hreg, show reg.toNat / 2 * 2 = reg.toNat by omega]
  refine ⟨?_, hs'.reads _⟩
  rw [hs'.mem]
  rfl

theorem readU8_same (hf : f.Valid) (hreg : reg.toNat < 4096) :
    Yields (SameSpace s) (d.readU8 f reg) (· = d.content s.mem f reg.toNat) := by
  intro s' hs'
  rw [readU8_run hf hreg]
  refine ⟨?_, hs'.reads _⟩
  rw [hs'.mem]

theorem word16_zero_eq_iff (c : PciFn → ℕ → UInt8) (f : PciFn) :
    f.word16 c 0 ≠ 0xffff ↔ f.Present c := by
  have hlow := (c f 0).toNat_lt
  have hhigh := (c f 1).toNat_lt
  have hval : (f.word16 c 0).toNat = f.vendorId c := by
    rw [PciFn.word16, UInt16.toNat_ofNat', PciFn.vendorId, Nat.zero_add]
    omega
  rw [PciFn.Present, ← hval, ne_eq, ← UInt16.toNat_inj]
  rfl

theorem devicePresent_same (hf : f.Valid) :
    Yields (SameSpace s) (d.devicePresent f) fun present =>
      (present = true ↔ f.Present (d.content s.mem)) := by
  unfold devicePresent
  refine Yields.bind (readU16_same hf (by decide) (by decide)) fun v hv => Yields.pure ?_
  rw [bne_iff_ne, hv, ← word16_zero_eq_iff]
  rfl

theorem isMultifunction_same {bus dev : UInt8} (hf : PciFn.Valid ⟨bus, dev, 0⟩) :
    Yields (SameSpace s) (d.isMultifunction bus dev) fun multi =>
      (multi = true ↔ PciFn.Multifunction (d.content s.mem) ⟨bus, dev, 0⟩) := by
  unfold isMultifunction
  refine Yields.bind (readU8_same hf (by decide)) fun v hv => Yields.pure ?_
  rw [bne_iff_ne, hv]
  rfl

/-- The command register of a serial device is written if it has to be. -/
theorem ensureQemuSerialIntxEnabled_triple (hf : f.Valid) :
    Triple (SameSpace s) (d.ensureQemuSerialIntxEnabled f (f.word16 (d.content s.mem) 0)
      (f.word16 (d.content s.mem) 2)) (fun _ => d.Ensured f s) fun _ => False := by
  have hreg : pciCommandReg.toNat < 4096 := by decide
  have hread : ∀ s₁ : PciState, d.readU16 f pciCommandReg s₁ = (.ret (d.half s₁.mem f 4),
      { s₁ with reads := s₁.reads ++ [⟨f, cfgOff f (pciCommandReg &&& ~~~3)⟩] }) :=
    readU16_run hf hreg
  intro s₁ hs₁
  have hmem := hs₁.mem
  have hset := commandAfter_eq_iff (d := d) s₁.mem f
  unfold commandAfter at hset
  unfold ensureQemuSerialIntxEnabled
  by_cases hser : f.Serial (d.content s.mem)
  · rw [if_neg (by rw [hser.1, hser.2]; decide), bind_of_ret (hread s₁)]
    by_cases h : d.CommandSet s₁.mem f
    · rw [if_neg (not_not.2 (hset.2 h))]
      exact .quiet (.inr (hmem ▸ h)) (hs₁.reads _)
    · rw [if_pos fun heq => h (hset.1 heq)]
      obtain ⟨s₂, hrun⟩ := d.writeU16_returns f pciCommandReg
        ((d.half s₁.mem f 4 ||| pciCommandIoEnable) &&& ~~~pciCommandIntxDisable)
        { s₁ with reads := s₁.reads ++ [⟨f, cfgOff f (pciCommandReg &&& ~~~3)⟩] }
      have hkinds : s₂.kinds = s.kinds := by
        rw [← (Prod.mk.inj hrun).2]
        exact hs₁.kinds
      rw [bind_of_ret hrun, bind_of_ret (hread s₂)]
      rw [hmem] at h hrun
      refine .written hser h ?_ ?_ hrun rfl hkinds
      · rfl
      · exact hs₁.kinds
  · rw [if_pos (not_and_or.1 hser)]
    exact .quiet (.inl hser) hs₁

/-- The base address registers, as bytes of the function. -/
theorem barDwords_eq (hf : f.Valid) (mem : UInt64 → UInt8) {n : ℕ} (hn : n ≤ 6) :
    d.barDwords f mem 0 n =
      (List.range n).map fun i => f.word32 (d.content mem) (0x10 + 4 * i) := by
  unfold barDwords
  rw [← List.range_eq_range']
  refine List.map_congr_left fun i hi => ?_
  have hreg : (barReg i).toNat = 0x10 + 4 * i :=
    toNat_barReg i ((List.mem_range.1 hi).trans_le hn)
  have hi := List.mem_range.1 hi
  rw [← UInt32.toNat_inj, toNat_word hf (by omega), hreg, PciFn.word32, UInt32.toNat_ofNat',
    Nat.mod_eq_of_lt]
  refine (Bytes.ofLittle_lt _).trans_eq ?_
  simp

/-- `parse_bars` decodes the base address registers. -/
theorem parseBars_triple (hf : f.Valid) :
    Triple (d.Ensured f s) (d.parseBars f (d.content s.mem f 0x0e))
      (fun mmio s' => mmio = (cutBars ((List.range (f.barCount (d.content s.mem))).map fun i =>
        f.word32 (d.content s.mem) (0x10 + 4 * i))).flatMap (Bar.regions d.platform.ioBarCpuBase) ∧
        d.Ensured f s s') fun _ => False := by
  intro s₁ hs₁
  have hle := SameHeaders.barCount_le (d.content s.mem) f
  have hwords : d.barDwords f s₁.mem 0 (f.barCount (d.content s.mem)) =
      (List.range (f.barCount (d.content s.mem))).map fun i =>
        f.word32 (d.content s.mem) (0x10 + 4 * i) := by
    rw [barDwords_eq hf _ hle]
    refine List.map_congr_left fun i hi => (hs₁.sameHeaders hf hf).word32 ?_ (by omega)
    have hi := (List.mem_range.1 hi).trans_le hle
    omega
  have hloop := barLoop_eq (d := d) (barPartition_cutBars _) hwords
    (6 - f.barCount (d.content s.mem)) []
  rw [show 6 - f.barCount (d.content s.mem) + f.barCount (d.content s.mem) + 1 = 7 by omega,
    Nat.zero_add, List.nil_append] at hloop
  have hparse : d.parseBars f (d.content s.mem f 0x0e) s₁ = _ := hloop
  rw [hparse]
  exact ⟨rfl, hs₁.reads _⟩

/-- Without an I/O window there is nothing to fall back on. -/
theorem ite_nil_eq_self (l : List MMIORegion) (p : Prop) [Decidable p] :
    (if l = [] ∧ p then [] else l) = l := by
  split_ifs with h
  · exact h.1.symm
  · rfl

/-- The node of a function that is there is decoded from its header. -/
theorem buildDescNode_triple (hf : f.Valid) :
    Triple (SameSpace s) (d.buildDescNode f)
      (fun r s' => if f.Present (d.content s.mem) then
          r = some (d.nodeIn (d.content s.mem) f) ∧ d.Ensured f s s'
        else r = none ∧ SameSpace s s') fun _ => False := by
  unfold buildDescNode
  refine Yields.bind_triple (devicePresent_same hf) fun present hpresent => ?_
  refine Triple.ite (fun h => Triple.pure none fun s' hs' => ?_) fun h => ?_
  · rw [if_neg fun hp => h (hpresent.2 hp)]
    exact ⟨rfl, hs'⟩
  have hp := hpresent.1 (not_not.1 h)
  simp only [if_pos hp]
  refine Yields.bind_triple (readU16_same hf (by decide) (by decide)) fun vendorId hv => ?_
  refine Yields.bind_triple (readU16_same hf (by decide) (by decide)) fun deviceId hdev => ?_
  refine Yields.bind_triple (readU8_same hf (by decide)) fun revision hrev => ?_
  refine Yields.bind_triple (readU8_same hf (by decide)) fun progIf hprog => ?_
  refine Yields.bind_triple (readU8_same hf (by decide)) fun subclass hsub => ?_
  refine Yields.bind_triple (readU8_same hf (by decide)) fun classCode hclass => ?_
  refine Yields.bind_triple (readU8_same hf (by decide)) fun headerType hheader => ?_
  refine Yields.bind_triple (readU16_same hf (by decide) (by decide)) fun _ _ => ?_
  refine Yields.bind_triple (readU8_same hf (by decide)) fun irqLine hline => ?_
  refine Yields.bind_triple (readU8_same hf (by decide)) fun irqPin hpin => ?_
  subst hv hdev hrev hprog hsub hclass hheader hline hpin
  refine Triple.bind (ensureQemuSerialIntxEnabled_triple hf) fun _ => ?_
  refine Triple.bind (parseBars_triple hf) fun mmio => Triple.pure _ fun s' hs' => ?_
  obtain ⟨rfl, hs'⟩ := hs'
  refine ⟨congrArg some ?_, hs'⟩
  unfold nodeIn PciFn.regions
  cases hio : d.platform.ioBarCpuBase with
  | none =>
    dsimp only
    rw [ite_self, Option.toList_none, List.map_nil, ite_nil_eq_self]
    rfl
  | some io => rfl

/-! ### What is changed -/

/-- In the command and the status register of `f`, the bits that are cleared by writing one to them
are the error bits in byte 7. -/
def ErrorsCleared (d : PciBusDriver) (kinds : UInt64 → BitKinds 8) (f : PciFn) : Prop :=
  ∀ r, r / 4 = 1 → (d.kindAt kinds f r).clears = if r = 7 then 0xf9#8 else 0#8

/-- The bits of the command register of `f` that are set and cleared can be written. -/
def CommandWritable (d : PciBusDriver) (kinds : UInt64 → BitKinds 8) (f : PciFn) : Prop :=
  ∀ i < 16, commandMask.toBitVec.getLsbD i = true →
    (d.kindAt kinds f (pciCommandReg.toNat + i / 8)).writable.getLsbD (i % 8) = true

/-- What is assumed of the serial devices; the other functions may have registers of any kind. -/
def SerialKinds (d : PciBusDriver) (s : PciState) : Prop :=
  ∀ f, PciFn.Valid f → f.Serial (d.content s.mem) →
    d.ErrorsCleared s.kinds f ∧ d.CommandWritable s.kinds f

/-- The bits of a serial device that may change: those of the command register, and the errors that
its status register reports. -/
def MayChange (d : PciBusDriver) (s : PciState) (f : PciFn) (r i : ℕ) : Prop :=
  (∃ k < 2, r = pciCommandReg.toNat + k ∧ commandMask.toBitVec.getLsbD (8 * k + i) = true) ∨
    r = 7 ∧ (0xf9#8).getLsbD i = true ∧ d.bitAt s.mem f 7 i = true

theorem MayChange.word {r i : ℕ} (h : d.MayChange s f r i) : r / 4 = 1 := by
  rcases h with ⟨k, hk, rfl, -⟩ | ⟨rfl, -⟩
  · show (4 + k) / 4 = 1
    omega
  · rfl

/-- A bit that the command register's new value changes. -/
theorem commandMask_of_ne {k i : ℕ} (hk : k < 2) (hi : i < 8) (mem : UInt64 → UInt8)
    (h : (lane (commandAfter (d.half mem f 4)) k).toBitVec.getLsbD i ≠
      d.bitAt mem f (pciCommandReg.toNat + k) i) :
    commandMask.toBitVec.getLsbD (8 * k + i) = true := by
  have hbefore : (d.half mem f 4).toBitVec.getLsbD (8 * k + i) =
      d.bitAt mem f (pciCommandReg.toNat + k) i := by
    rw [getLsbD_half d _ f 4 _ (by omega), show (8 * k + i) / 8 = k by omega,
      show (8 * k + i) % 8 = i by omega]
    rfl
  rw [getLsbD_lane _ k hi, ← hbefore] at h
  exact of_or_and_not_ne h

/-- What one function changes. -/
theorem Ensured.of_bitAt_ne (h : d.Ensured f s s') (hk : d.SerialKinds s) (hf : f.Valid)
    (hg : g.Valid) {r i : ℕ} (hr : r < 4096) (hne : d.bitAt s'.mem g r i ≠ d.bitAt s.mem g r i) :
    g = f ∧ f.Serial (d.content s.mem) ∧ ¬d.CommandSet s.mem f ∧ d.MayChange s f r i := by
  cases h with
  | quiet _ h => exact absurd (by rw [h.mem]) hne
  | @written s₁ s₂ hser hset hmem hkinds hrun hmem' =>
    have hreg : pciCommandReg.toNat < 4096 := by decide
    have heven : pciCommandReg.toNat % 2 = 0 := by decide
    have hi : i < 8 := by
      by_contra hge
      exact hne ((BitVec.getLsbD_of_ge _ _ (Nat.not_lt.1 hge)).trans
        (BitVec.getLsbD_of_ge _ _ (Nat.not_lt.1 hge)).symm)
    have hclears := (hk f hf hser).1 r
    rw [hmem', ← hmem] at hne
    rw [← hkinds] at hclears
    by_cases hword : g = f ∧ r / 4 = 1
    · obtain ⟨rfl, hword⟩ := hword
      refine ⟨rfl, hser, hset, ?_⟩
      by_cases hhalf : r / 2 = 2
      · -- the command register
        obtain ⟨k, hk2, rfl⟩ : ∃ k < 2, r = pciCommandReg.toNat + k :=
          ⟨r % 2, by omega, show r = 4 + r % 2 by omega⟩
        rw [bitAt_written hf hreg heven hrun hk2] at hne
        rcases BitKinds.of_store_ne hne with ⟨-, hstore⟩ | ⟨hc, -⟩
        · rw [hstore, ← hmem] at hne
          exact .inl ⟨k, hk2, rfl, commandMask_of_ne hk2 hi _ hne⟩
        · rw [hclears hword, if_neg (by show 4 + k ≠ 7; omega)] at hc
          simp at hc
      · -- the status register is written back
        have hback : d.bitAt s₂.mem g r i = ((d.kindAt s₁.kinds g r).store
            (d.content s₁.mem g r).toBitVec (d.content s₁.mem g r).toBitVec).getLsbD i := by
          rw [bitAt, content_writeU16 hf hreg hrun hf hr, if_pos ⟨rfl, hword⟩,
            show pciCommandReg.toNat / 2 = 2 from rfl, if_neg hhalf]
          rfl
        rw [hback] at hne
        rcases BitKinds.of_store_ne hne with ⟨-, hstore⟩ | ⟨hc, hold⟩
        · exact absurd hstore hne
        · rw [hclears hword] at hc
          split_ifs at hc with hseven
          · rw [hseven, hmem] at hold
            exact .inr ⟨hseven, hc, hold⟩
          · simp at hc
    · refine absurd ?_ hne
      rw [bitAt, content_writeU16 hf hreg hrun hg hr]
      exact congrArg (fun b : UInt8 => b.toBitVec.getLsbD i) (if_neg hword)

/-- Bits that are set and others that are cleared. -/
theorem or_and_not_and_or {w : ℕ} {b m n : BitVec w} (h : m &&& n = 0#w) :
    ((b ||| m) &&& ~~~n) &&& (m ||| n) = m := by
  refine BitVec.eq_of_getLsbD_eq fun i hi => ?_
  have hbit := congrArg (·.getLsbD i) h
  simp only [BitVec.getLsbD_and, BitVec.getLsbD_zero] at hbit
  simp only [BitVec.getLsbD_and, BitVec.getLsbD_or, BitVec.getLsbD_not, hi, decide_true,
    Bool.true_and]
  cases b.getLsbD i <;> cases hm : m.getLsbD i <;> cases hn : n.getLsbD i <;> simp_all

/-- Two memories with the same command register. -/
theorem commandSet_congr {mem mem' : UInt64 → UInt8} (h4 : d.content mem' f 4 = d.content mem f 4)
    (h5 : d.content mem' f 5 = d.content mem f 5) : d.CommandSet mem' f ↔ d.CommandSet mem f := by
  unfold CommandSet half
  rw [h4, h5]

/-- Afterwards the command register is as it should be. -/
theorem Ensured.commandSet (h : d.Ensured f s s') (hk : d.SerialKinds s) (hf : f.Valid)
    (hser : f.Serial (d.content s.mem)) : d.CommandSet s'.mem f := by
  cases h with
  | quiet hno h =>
    rw [h.mem]
    exact hno.resolve_left (not_not_intro hser)
  | @written s₁ s₂ _ _ hmem hkinds hrun hmem' =>
    have hreg : pciCommandReg.toNat < 4096 := by decide
    obtain ⟨v, s'', hread, hbits⟩ := readback_written hf hreg (by decide) hrun
    rw [readU16_run hf hreg] at hread
    obtain rfl := Outcome.ret.inj (Prod.mk.inj hread).1
    have hval : (commandAfter (d.half s.mem f 4)).toBitVec &&& commandMask.toBitVec =
        pciCommandIoEnable.toBitVec := or_and_not_and_or (by decide)
    rw [hmem', CommandSet, ← UInt16.toBitVec_inj]
    refine BitVec.eq_of_getLsbD_eq fun i hi => ?_
    show ((d.half s₂.mem f 4).toBitVec &&& commandMask.toBitVec).getLsbD i = _
    rw [← hval, BitVec.getLsbD_and, BitVec.getLsbD_and]
    by_cases hm : commandMask.toBitVec.getLsbD i = true
    · exact congrArg (· && commandMask.toBitVec.getLsbD i)
        (hbits i hi (hkinds ▸ (hk f hf hser).2 i hi hm))
    · rw [Bool.eq_false_of_not_eq_true hm, Bool.and_false, Bool.and_false]

theorem Ensured.kinds (h : d.Ensured f s s') : s'.kinds = s.kinds := by
  cases h with
  | quiet _ h => exact h.kinds
  | written _ _ _ _ _ _ hkinds' => exact hkinds'

/-! ### All functions -/

/-- From `s₀` to `s` the functions `fs` were visited. -/
structure Scanned (d : PciBusDriver) (s₀ : PciState) (fs : List PciFn) (s : PciState) : Prop where
  valid : ∀ g ∈ fs, g.Valid
  kinds : s.kinds = s₀.kinds
  frame : ∀ g r i, PciFn.Valid g → r < 4096 → d.bitAt s.mem g r i ≠ d.bitAt s₀.mem g r i →
    g ∈ fs ∧ g.Serial (d.content s₀.mem) ∧ ¬d.CommandSet s₀.mem g ∧ d.MayChange s₀ g r i
  commands : ∀ g ∈ fs, g.Serial (d.content s₀.mem) → d.CommandSet s.mem g
  quiet : (∀ g ∈ fs, g.Serial (d.content s₀.mem) → d.CommandSet s₀.mem g) →
    s.mem = s₀.mem ∧ s.writes = s₀.writes

variable {s₀ : PciState} {fs : List PciFn}

theorem Scanned.refl (s : PciState) : d.Scanned s [] s :=
  ⟨by simp, rfl, fun _ _ _ _ _ hne => absurd rfl hne, by simp, fun _ => ⟨rfl, rfl⟩⟩

theorem Scanned.same (h : d.Scanned s₀ fs s) (hs : SameSpace s s') : d.Scanned s₀ fs s' where
  valid := h.valid
  kinds := hs.kinds.trans h.kinds
  frame := by
    rw [hs.mem]
    exact h.frame
  commands := by
    rw [hs.mem]
    exact h.commands
  quiet hset := ⟨hs.mem.trans (h.quiet hset).1, hs.writes.trans (h.quiet hset).2⟩

/-- Bytes that have no bit that may change. -/
theorem Scanned.content_eq (h : d.Scanned s₀ fs s) (hg : g.Valid) {r : ℕ} (hr : r < 4096)
    (hno : ∀ i, ¬(g ∈ fs ∧ g.Serial (d.content s₀.mem) ∧ ¬d.CommandSet s₀.mem g ∧
      d.MayChange s₀ g r i)) : d.content s.mem g r = d.content s₀.mem g r := by
  by_contra hne
  obtain ⟨i, hi⟩ := exists_bitAt_ne hne
  exact hno i (h.frame g r i hg hr hi)

theorem Scanned.sameHeaders (h : d.Scanned s₀ fs s) (hg : g.Valid) :
    SameHeaders (d.content s.mem) (d.content s₀.mem) g :=
  fun r hr hne => h.content_eq hg (by omega) fun _ hall => hne hall.2.2.2.word

/-- A function whose command register has to be changed is as it was. -/
theorem Scanned.untouched (h : d.Scanned s₀ fs s) (hg : g.Valid) (hset : ¬d.CommandSet s.mem g)
    {r : ℕ} (hr : r < 4096) : d.content s.mem g r = d.content s₀.mem g r :=
  h.content_eq hg hr fun _ hall => hset (h.commands g hall.1 hall.2.1)

/-- The same functions are serial devices, and their registers are of the same kinds. -/
theorem Scanned.serialKinds (h : d.Scanned s₀ fs s) (hk : d.SerialKinds s₀) : d.SerialKinds s := by
  intro g hg hser
  rw [h.kinds]
  exact hk g hg ((h.sameHeaders hg).serial.1 hser)

/-- Another function is visited. -/
theorem Scanned.visit (h : d.Scanned s₀ fs s) (hk : d.SerialKinds s₀) (hf : f.Valid)
    (he : d.Ensured f s s') : d.Scanned s₀ (fs ++ [f]) s' where
  valid := List.forall_mem_append.2 ⟨h.valid, by simpa using hf⟩
  kinds := he.kinds.trans h.kinds
  frame g r i hg hr hne := by
    by_cases hsame : d.bitAt s'.mem g r i = d.bitAt s.mem g r i
    · rw [hsame] at hne
      obtain ⟨hmem, hrest⟩ := h.frame g r i hg hr hne
      exact ⟨List.mem_append_left _ hmem, hrest⟩
    · obtain ⟨rfl, hser, hset, hmay⟩ := he.of_bitAt_ne (h.serialKinds hk) hf hg hr hsame
      have hsame : ∀ r < 4096, d.content s.mem g r = d.content s₀.mem g r :=
        fun r hr => h.untouched hf hset hr
      refine ⟨by simp, (h.sameHeaders hf).serial.1 hser, ?_, ?_⟩
      · rwa [← commandSet_congr (hsame 4 (by norm_num)) (hsame 5 (by norm_num))]
      · unfold MayChange bitAt at hmay ⊢
        rwa [hsame 7 (by norm_num)] at hmay
  commands g hg hser := by
    by_cases hgf : g = f
    · subst hgf
      exact he.commandSet (h.serialKinds hk) hf ((h.sameHeaders hf).serial.2 hser)
    · have hg : g ∈ fs := (List.mem_append.1 hg).resolve_right (by simpa using hgf)
      have hcontent : ∀ r < 4096, d.content s'.mem g r = d.content s.mem g r :=
        fun r hr => he.content_eq hf (h.valid g hg) hr fun hboth => hgf hboth.1
      rw [commandSet_congr (hcontent 4 (by norm_num)) (hcontent 5 (by norm_num))]
      exact h.commands g hg hser
  quiet hset := by
    obtain ⟨hmem, hwrites⟩ := h.quiet fun g hg => hset g (List.mem_append_left _ hg)
    cases he with
    | quiet _ hs => exact ⟨hs.mem.trans hmem, hs.writes.trans hwrites⟩
    | written hser hno =>
      rw [hmem] at hser hno
      exact absurd (hset f (by simp) hser) hno

/-- The nodes of the functions `fs`, which were visited. -/
structure Inventory (d : PciBusDriver) (s₀ : PciState) (fs : List PciFn)
    (devices : List DeviceDescNode) (s : PciState) : Prop where
  devices_eq : devices = fs.map (d.nodeIn (d.content s₀.mem))
  scanned : d.Scanned s₀ fs s

variable {devices : List DeviceDescNode} {bus dev : UInt8}

theorem devicePresent_inventory (hf : f.Valid) :
    Yields (d.Inventory s₀ fs devices) (d.devicePresent f) fun present =>
      (present = true ↔ f.Present (d.content s₀.mem)) := by
  intro s hs
  obtain ⟨a, s', hrun, ha, hs'⟩ := (devicePresent_same hf).run (SameSpace.refl s)
  rw [hrun]
  exact ⟨ha.trans (hs.scanned.sameHeaders hf).present, hs.devices_eq, hs.scanned.same hs'⟩

theorem isMultifunction_inventory (hf : PciFn.Valid ⟨bus, dev, 0⟩) :
    Yields (d.Inventory s₀ fs devices) (d.isMultifunction bus dev) fun multi =>
      (multi = true ↔ PciFn.Multifunction (d.content s₀.mem) ⟨bus, dev, 0⟩) := by
  intro s hs
  obtain ⟨a, s', hrun, ha, hs'⟩ := (isMultifunction_same hf).run (SameSpace.refl s)
  rw [hrun]
  exact ⟨ha.trans (hs.scanned.sameHeaders hf).multifunction, hs.devices_eq, hs.scanned.same hs'⟩

section Loops

variable (hk : d.SerialKinds s₀)
include hk

/-- A function is reported if it is there. -/
theorem addFn_triple (hf : f.Valid) : Triple (d.Inventory s₀ fs devices) (d.addFn devices f)
    (d.Inventory s₀ (fs ++ [f].filter (PciFn.Present (d.content s₀.mem) ·))) fun _ => False := by
  intro s hs
  have hheaders := hs.scanned.sameHeaders hf
  refine Triple.bind (buildDescNode_triple hf) (fun r => Triple.pure _ fun s' hr => ?_) s
    (SameSpace.refl s)
  by_cases hp : f.Present (d.content s₀.mem)
  · rw [if_pos (hheaders.present.2 hp), hheaders.nodeIn] at hr
    obtain ⟨rfl, he⟩ := hr
    rw [List.filter_cons_of_pos (by simpa using hp), List.filter_nil]
    refine ⟨?_, hs.scanned.visit hk hf he⟩
    rw [hs.devices_eq, List.map_append]
    rfl
  · rw [if_neg (mt hheaders.present.1 hp)] at hr
    obtain ⟨rfl, hsame⟩ := hr
    rw [List.filter_cons_of_neg (by simpa using hp), List.filter_nil, List.append_nil]
    refine ⟨?_, hs.scanned.same hsame⟩
    rw [hs.devices_eq]
    exact List.append_nil _

/-- The body of the loop over the devices of a bus. -/
theorem scanDev_triple (hdev : dev < 32) :
    Triple (d.Inventory s₀ fs devices) (d.scanDev bus devices dev)
      (d.Inventory s₀ (fs ++ PciFn.ofDev (d.content s₀.mem) bus dev)) fun _ => False := by
  have hf : PciFn.Valid ⟨bus, dev, 0⟩ := ⟨hdev, show (0 : UInt8) < 8 by decide⟩
  unfold scanDev PciFn.ofDev
  refine Yields.bind_triple (devicePresent_inventory hf) fun present hpresent => ?_
  refine Triple.ite (fun hnp => Triple.pure _ fun s hs => ?_) fun hp => ?_
  · rw [if_neg fun hp => hnp (hpresent.2 hp), List.append_nil]
    exact hs
  have hp := hpresent.1 (not_not.1 hp)
  simp only [if_pos hp]
  refine Triple.bind (addFn_triple hk hf) fun devices' => ?_
  rw [List.filter_cons_of_pos (by simpa using hp), List.filter_nil]
  refine Yields.bind_triple (isMultifunction_inventory hf) fun multi hmulti => ?_
  by_cases hm : multi = true
  · have hm' : PciFn.Multifunction (d.content s₀.mem) ⟨bus, dev, 0⟩ := hmulti.1 hm
    rw [if_pos hm]
    simp only [if_pos hm']
    have hloop := Triple.foldlM (F := fun _ => False) (l := PciFn.others bus dev) (f := d.addFn)
      (fun done => d.Inventory s₀ (fs ++ [⟨bus, dev, 0⟩] ++
        done.filter (PciFn.Present (d.content s₀.mem) ·)))
      (fun done f devices hmem => by
        obtain ⟨rfl, rfl, -, hfunc⟩ := PciFn.mem_others.1 hmem
        rw [List.filter_append, ← List.append_assoc]
        exact addFn_triple hk ⟨hdev, hfunc⟩) devices'
    rwa [List.filter_nil, List.append_nil, List.append_assoc, List.singleton_append] at hloop
  · have hm' : ¬PciFn.Multifunction (d.content s₀.mem) ⟨bus, dev, 0⟩ := fun h => hm (hmulti.2 h)
    rw [if_neg hm]
    simp only [if_neg hm']
    exact Triple.pure _ fun _ hs => hs

theorem scanBus_triple : Triple (d.Inventory s₀ fs devices) (d.scanBus devices bus)
    (d.Inventory s₀ (fs ++ PciFn.ofBus (d.content s₀.mem) bus)) fun _ => False := by
  have hloop := Triple.foldlM (F := fun _ => False) (l := (List.range 32).map UInt8.ofNat)
    (f := d.scanDev bus)
    (fun done => d.Inventory s₀ (fs ++ done.flatMap (PciFn.ofDev (d.content s₀.mem) bus)))
    (fun done dev devices hmem => by
      obtain ⟨i, hi, rfl⟩ := List.mem_map.1 hmem
      have hdev : UInt8.ofNat i < 32 := by
        have hi := List.mem_range.1 hi
        show (UInt8.ofNat i).toNat < 32
        rw [UInt8.toNat_ofNat']
        omega
      rw [List.flatMap_append, List.flatMap_singleton, ← List.append_assoc]
      exact scanDev_triple hk hdev) devices
  rw [List.flatMap_nil, List.append_nil] at hloop
  exact hloop

/-- The loops visit the functions that have to be reported. -/
theorem scanBuses_triple : Triple (d.Inventory s₀ [] []) d.scanBuses
    (d.Inventory s₀ (PciFn.ofBuses (d.content s₀.mem) (min d.busCount 256).toNat))
      fun _ => False := by
  refine Triple.foldlM (fun done => d.Inventory s₀ (done.flatMap
    (PciFn.ofBus (d.content s₀.mem)))) (fun done bus devices _ => ?_) []
  rw [List.flatMap_append, List.flatMap_singleton]
  exact scanBus_triple hk

end Loops

/-- The nodes of all functions that have to be reported, in the configuration space of `mem`. -/
def inventoryOf (d : PciBusDriver) (mem : UInt64 → UInt8) : List DeviceDescNode :=
  (PciFn.ofBuses (d.content mem) (min d.busCount 256).toNat).map (d.nodeIn (d.content mem))

/-- The run of the loops. -/
theorem scanBuses_run (hk : d.SerialKinds s) :
    ∃ s', d.scanBuses s = (.ret (d.inventoryOf s.mem), s') ∧
      d.Scanned s (PciFn.ofBuses (d.content s.mem) (min d.busCount 256).toNat) s' := by
  obtain ⟨devices, s', hrun, rfl, hs'⟩ := (scanBuses_triple hk).run ⟨rfl, Scanned.refl s⟩
  exact ⟨s', hrun, hs'⟩

end PciBusDriver

/-! ### A second enumeration -/

namespace PciFn

variable {c c' : PciFn → ℕ → UInt8}

theorem ofDev_congr (h : ∀ f, f.Valid → SameHeaders c c' f) {bus dev : UInt8} (hdev : dev < 32) :
    ofDev c bus dev = ofDev c' bus dev := by
  have h₀ := h ⟨bus, dev, 0⟩ ⟨hdev, show (0 : UInt8) < 8 by decide⟩
  have hothers :
      (others bus dev).filter (Present c ·) = (others bus dev).filter (Present c' ·) := by
    refine List.filter_congr fun f hf => decide_eq_decide.2 (h f ?_).present
    obtain ⟨rfl, rfl, -, hfunc⟩ := mem_others.1 hf
    exact ⟨hdev, hfunc⟩
  unfold ofDev
  simp only [h₀.present, h₀.multifunction, hothers]

theorem ofBuses_congr (h : ∀ f, f.Valid → SameHeaders c c' f) (limit : ℕ) :
    ofBuses c limit = ofBuses c' limit := by
  have hbus : ofBus c = ofBus c' := by
    funext bus
    refine List.flatMap_congr fun dev hdev => ofDev_congr h ?_
    obtain ⟨i, hi, rfl⟩ := List.mem_map.1 hdev
    have hi := List.mem_range.1 hi
    show (UInt8.ofNat i).toNat < 32
    rw [UInt8.toNat_ofNat']
    omega
  unfold ofBuses
  rw [hbus]

end PciFn

namespace PciBusDriver

variable {d : PciBusDriver} {s s' : PciState} {fs : List PciFn}

/-- After an enumeration the nodes are the same. -/
theorem Scanned.inventoryOf_eq (h : d.Scanned s fs s') :
    d.inventoryOf s'.mem = d.inventoryOf s.mem := by
  have hfs := PciFn.ofBuses_congr (fun f hf => h.sameHeaders hf) (min d.busCount 256).toNat
  unfold inventoryOf
  rw [hfs]
  refine List.map_congr_left fun f hf => (h.sameHeaders ?_).nodeIn d
  have hlimit : (min d.busCount 256).toNat ≤ 256 := by
    rw [toNat_busLimit]
    exact min_le_right _ _
  exact ((PciFn.mem_ofBuses hlimit).1 hf).valid

/-- After an enumeration no command register has to be changed. -/
theorem Scanned.again (h : d.Scanned s fs s') (hk : d.SerialKinds s)
    (hfs : fs = PciFn.ofBuses (d.content s.mem) (min d.busCount 256).toNat) :
    ∃ s'', d.scanBuses s' = (.ret (d.inventoryOf s.mem), s'') ∧ s''.mem = s'.mem ∧
      s''.writes = s'.writes := by
  obtain ⟨s'', hrun, hs''⟩ := scanBuses_run (h.serialKinds hk)
  rw [h.inventoryOf_eq] at hrun
  refine ⟨s'', hrun, hs''.quiet fun g hg hser => h.commands g ?_ ?_⟩
  · rw [hfs]
    rwa [PciFn.ofBuses_congr fun f hf => h.sameHeaders hf] at hg
  · exact (h.sameHeaders (hs''.valid g hg)).serial.1 hser

end PciBusDriver

/-- **The inventory.**  If the command and status registers of the serial devices are of the kinds
that the standard gives them, an enumeration reports the nodes that are decoded from the
configuration space as it was before.  It changes the command registers of the serial devices that
it reports, as far as they need it, with the errors in their status registers, and no other bit;
afterwards these command registers are as they have to be; and a second enumeration reports the same
and writes nothing. -/
theorem pci_inventory (d : PciBusDriver) (s : PciState) (hk : d.SerialKinds s) :
    let reported := PciFn.ofBuses (d.content s.mem) (min d.busCount 256).toNat
    let nodes := reported.map (d.nodeIn (d.content s.mem))
    ∃ s', d.scanBuses s = (.ret nodes, s') ∧
      (∀ (d₀ : PciBusDriver) (paddr size pages : UInt64),
        d₀.setupEcamMapping paddr size = .ok (pages, d) →
          d₀.scan paddr size s = (.ret (.ok nodes), s')) ∧
      (∀ g r i, g.Valid → r < 4096 → d.bitAt s'.mem g r i ≠ d.bitAt s.mem g r i →
        g ∈ reported ∧ g.Serial (d.content s.mem) ∧ ¬d.CommandSet s.mem g ∧ d.MayChange s g r i) ∧
      (∀ g ∈ reported, g.Serial (d.content s.mem) → d.CommandSet s'.mem g) ∧
      ∃ s'', d.scanBuses s' = (.ret nodes, s'') ∧ s''.mem = s'.mem ∧ s''.writes = s'.writes := by
  obtain ⟨s', hrun, hs'⟩ := scanBuses_run hk
  exact ⟨s', hrun, fun d₀ paddr size pages hset => scan_eq hset hrun, hs'.frame, hs'.commands,
    hs'.again hk rfl⟩

theorem commandWritable_headerKinds (d : PciBusDriver) {f : PciFn} (hf : f.Valid) :
    d.CommandWritable d.headerKinds f := by
  intro i hi hmask
  have hlt := f.block_lt hf
  have hpos : (d.ecamBase + UInt64.ofNat (f.block * 4096 + (pciCommandReg.toNat + i / 8)) -
      d.ecamBase).toNat % 4096 = 4 + i / 8 := by
    rw [UInt64.add_comm, UInt64.add_sub_cancel, UInt64.toNat_ofNat',
      show pciCommandReg.toNat = 4 from rfl]
    omega
  unfold kindAt headerKinds
  rw [hpos]
  clear hpos
  -- bit 0 and bit 10
  interval_cases i <;> revert hmask <;> decide

/-- A serial device is enumerated. -/
theorem pci_inventory_serial :
    let s : PciState := {
      mem := fun x => if x = 0x40008000 then 0x36 else if x = 0x40008001 then 0x1b
        else if x = 0x40008002 then 0x02 else 0
      kinds := serialBus.headerKinds }
    let reported := PciFn.ofBuses (serialBus.content s.mem) 1
    let nodes := reported.map (serialBus.nodeIn (serialBus.content s.mem))
    ∃ s', serialBus.scanBuses s = (.ret nodes, s') ∧
      ∀ g ∈ reported, g.Serial (serialBus.content s.mem) → serialBus.CommandSet s'.mem g := by
  intro s reported nodes
  obtain ⟨s', hrun, -, -, hset, -⟩ := pci_inventory serialBus s fun f hf _ =>
    ⟨fun r hr => statusKinds_headerKinds serialBus f r hf (by omega),
      commandWritable_headerKinds serialBus hf⟩
  exact ⟨s', hrun, hset⟩

end GlendaDrivers
