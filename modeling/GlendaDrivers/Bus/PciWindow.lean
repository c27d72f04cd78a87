import GlendaDrivers.Bus.PciScan

/-!
# The window that a scan is mapped through

`setup_ecam_mapping` maps at most 1 MiB of the ECAM region, and the scan goes over all the devices
of the buses that begin in it.

* `Inside`: an access is in the mapped pages and in the ECAM region;
* `Mapped`: what `setup_ecam_mapping` leaves behind;
* `scan_inside`: a region that reaches to the last header of bus 0 is enough;
* `scanBuses_logs`: on some configuration spaces the last header is read;
* `pci_window`: when every access of every scan is inside.
-/

namespace GlendaDrivers

open Prog PciBusDriver

/-! ### The mapping -/

/-- The physical address behind `va`: the pages are mapped from the page of `paddr` on. -/
def physOf (paddr va : UInt64) : ℕ :=
  paddr.toNat - paddr.toNat % pciPgSize.toNat + (va.toNat - ecamMapVa.toNat)

/-- An access of four bytes at `va` is in the pages that are mapped, and in the ECAM region of
`size` bytes at `paddr`. -/
structure Inside (paddr size pages va : UInt64) : Prop where
  lower : ecamMapVa.toNat ≤ va.toNat
  mapped : va.toNat + 4 ≤ ecamMapVa.toNat + pages.toNat * pciPgSize.toNat
  above : paddr.toNat ≤ physOf paddr va
  region : physOf paddr va + 4 ≤ paddr.toNat + size.toNat

/-- A driver that `setup_ecam_mapping` has set up. -/
structure Mapped (paddr size pages : UInt64) (d : PciBusDriver) : Prop where
  le : 4096 ≤ size.toNat
  base : d.ecamBase.toNat = ecamMapVa.toNat + paddr.toNat % 4096
  pages : pages.toNat * 4096 =
    (min size.toNat 0x100000 + paddr.toNat % 4096 + 4095) / 4096 * 4096
  buses : d.busCount = 1

theorem detect_maxScanWindowBytes (ecamPhys : UInt64) :
    (PciPlatformOps.detect ecamPhys).maxScanWindowBytes = 0x100000 := by
  unfold PciPlatformOps.detect
  split_ifs <;> rfl

theorem toNat_mappedWindowBytes (ecamPhys size : UInt64) :
    ((PciPlatformOps.detect ecamPhys).mappedWindowBytes size).toNat = min size.toNat 0x100000 := by
  unfold PciPlatformOps.mappedWindowBytes
  rw [detect_maxScanWindowBytes]
  exact toNat_min size 0x100000

/-- The window is too small for a second bus. -/
theorem busCount_eq {window : UInt64} (h : window.toNat ≤ 0x100000) :
    (max 1 (window >>> 20) : UInt64) = 1 := by
  have hshift : (window >>> 20).toNat = window.toNat / 2 ^ 20 := by
    rw [UInt64.toNat_shiftRight]
    exact Nat.shiftRight_eq_div_pow _ _
  show (if (1 : UInt64) ≤ window >>> 20 then window >>> 20 else 1) = 1
  by_cases hle : (1 : UInt64) ≤ window >>> 20
  · rw [if_pos hle, ← UInt64.toNat_inj]
    have hle : 1 ≤ (window >>> 20).toNat := hle
    show (window >>> 20).toNat = 1
    omega
  · rw [if_neg hle]

theorem setupEcamMapping_mapped {d₀ d : PciBusDriver} {paddr size pages : UInt64}
    (h : d₀.setupEcamMapping paddr size = .ok (pages, d)) : Mapped paddr size pages d := by
  have hsize : ¬ size < pciPgSize := by
    intro hlt
    unfold setupEcamMapping at h
    rw [if_pos hlt] at h
    exact nomatch h
  unfold setupEcamMapping at h
  rw [if_neg hsize] at h
  obtain ⟨rfl, rfl⟩ := Prod.mk.inj (Except.ok.inj h)
  have hoff : (paddr % pciPgSize).toNat = paddr.toNat % 4096 := rfl
  have hlt := Nat.mod_lt paddr.toNat (show 0 < 4096 by norm_num)
  have hwin := toNat_mappedWindowBytes paddr size
  have hle := min_le_right size.toNat 0x100000
  have hsum : ((PciPlatformOps.detect paddr).mappedWindowBytes size + paddr % pciPgSize).toNat =
      min size.toNat 0x100000 + paddr.toNat % 4096 := by
    rw [UInt64.toNat_add, hwin, hoff]
    omega
  refine ⟨Nat.le_of_not_lt hsize, ?_, ?_, busCount_eq (by rw [hwin]; exact hle)⟩
  · show (ecamMapVa + paddr % pciPgSize).toNat = _
    rw [UInt64.toNat_add, hoff]
    show (0x40000000 + _) % 2 ^ 64 = 0x40000000 + _
    omega
  · show (Align.alignUp pciPgSize _ / pciPgSize).toNat * 4096 = _
    rw [UInt64.toNat_div, Align.toNat_alignUp (k := 12) rfl (by rw [hsum]; omega), hsum]
    show _ / 4096 * 4096 / 4096 * 4096 = _
    omega

/-! ### Accesses -/

section Accesses

variable {d d₀ : PciBusDriver} {f : PciFn} {paddr size pages off : UInt64} {mem : UInt64 → UInt8}

/-- The pages reach as far as the region does, up to 1 MiB. -/
theorem Mapped.inside_iff (hm : Mapped paddr size pages d) (hoff : off.toNat + 4 ≤ 0x100000) :
    Inside paddr size pages (d.ecamBase + off) ↔ off.toNat + 4 ≤ size.toNat := by
  have hbase := hm.base
  have hpages := hm.pages
  have hlt := Nat.mod_lt paddr.toNat (show 0 < 4096 by norm_num)
  have hle := Nat.mod_le paddr.toNat 4096
  have hva : (d.ecamBase + off).toNat = 0x40000000 + paddr.toNat % 4096 + off.toNat := by
    rw [UInt64.toNat_add, hbase]
    show (0x40000000 + _ + _) % 2 ^ 64 = _
    omega
  have hphys : physOf paddr (d.ecamBase + off) = paddr.toNat + off.toNat := by
    unfold physOf
    rw [hva]
    show paddr.toNat - paddr.toNat % 4096 + (_ - 0x40000000) = _
    omega
  constructor
  · intro h
    have hregion := h.region
    rw [hphys] at hregion
    omega
  · intro h
    refine ⟨?_, ?_, ?_, ?_⟩
    · rw [hva]
      show 0x40000000 ≤ _
      omega
    · rw [hva]
      show _ ≤ 0x40000000 + pages.toNat * 4096
      omega
    · rw [hphys]
      omega
    · rw [hphys]
      omega

/-- An access to a header of bus 0. -/
theorem PciBusDriver.Own.off_le (ho : d.Own f off) (hbuses : d.busCount = 1) :
    off.toNat + 4 ≤ 0xff040 := by
  have hbus := ho.scans.bus
  rw [hbuses] at hbus
  have hbus : f.bus.toNat < 1 := hbus
  have hdev : f.dev.toNat < 32 := ho.scans.dev
  have hfunc : f.func.toNat < 8 := ho.scans.func
  have hblock := ho.block
  have hheader := ho.header
  unfold PciFn.block at hblock
  omega

/-- What a scan leaves behind. -/
theorem scan_run (h : d₀.setupEcamMapping paddr size = .ok (pages, d)) (mem : UInt64 → UInt8) :
    ∃ devices s', d.scanBuses { mem } = (.ret devices, s') ∧
      d₀.scan paddr size { mem } = (.ret (.ok devices), s') ∧ PciInv d mem s' := by
  obtain ⟨devices, s', hrun, -, hinv⟩ := scanBuses_yields.run (PciInv.init d mem)
  exact ⟨devices, s', hrun, scan_eq h hrun, hinv⟩

/-- A region that reaches to the end of the last header of bus 0 is enough. -/
theorem scan_inside (h : d₀.setupEcamMapping paddr size = .ok (pages, d))
    (hsize : 0xff040 ≤ size.toNat) (mem : UInt64 → UInt8) :
    (∀ r ∈ (d₀.scan paddr size { mem }).2.reads, Inside paddr size pages (d.ecamBase + r.off)) ∧
      ∀ w ∈ (d₀.scan paddr size { mem }).2.writes,
        Inside paddr size pages (d.ecamBase + w.off) := by
  have hm := setupEcamMapping_mapped h
  obtain ⟨devices, s', -, hrun, hinv⟩ := scan_run h mem
  have hinside : ∀ f off, d.Own f off → Inside paddr size pages (d.ecamBase + off) := by
    intro f off ho
    have hle := ho.off_le hm.buses
    exact (hm.inside_iff (by omega)).2 (by omega)
  rw [hrun]
  exact ⟨fun r hr => hinside _ _ (hinv.reads r hr), fun w hw => hinside _ _ (hinv.writes w hw)⟩

end Accesses

/-! ### The last header -/

namespace PciBusDriver

variable {d : PciBusDriver} {f : PciFn} {mem : UInt64 → UInt8} {reg : UInt64} {r : PciRead}

/-- A read that is in the log. -/
def Logged (r : PciRead) (s : PciState) : Prop := r ∈ s.reads

section Keeps

theorem readU32_keeps : Keeps (Logged r) (d.readU32 f reg) :=
  Keeps.ofFn fun _ hs => List.mem_append_left _ hs

theorem readU16_keeps : Keeps (Logged r) (d.readU16 f reg) :=
  Keeps.bind readU32_keeps fun _ => Keeps.pure _

theorem writeU16_keeps (v : UInt16) : Keeps (Logged r) (d.writeU16 f reg v) :=
  Keeps.bind readU32_keeps fun _ => Keeps.modify fun _ hs => hs

theorem ensureQemuSerialIntxEnabled_keeps (vendor device : UInt16) :
    Keeps (Logged r) (d.ensureQemuSerialIntxEnabled f vendor device) := by
  unfold ensureQemuSerialIntxEnabled
  refine Keeps.ite (Keeps.pure _) (Keeps.bind readU16_keeps fun before => ?_)
  refine Keeps.ite (Keeps.bind (writeU16_keeps _) fun _ => ?_) (Keeps.pure _)
  exact Keeps.bind readU16_keeps fun _ => Keeps.pure _

theorem barStep_keeps (max : ℕ) (st : ℕ × List MMIORegion) :
    Keeps (Logged r) (d.barStep f max st) := by
  unfold barStep
  refine Keeps.ite (Keeps.bind readU32_keeps fun v => ?_) (Keeps.pure _)
  refine Keeps.ite (Keeps.pure _) (Keeps.ite ?_ ?_)
  · cases d.platform.ioBarCpuBase <;> exact Keeps.pure _
  · exact Keeps.ite (Keeps.bind readU32_keeps fun _ => Keeps.pure _) (Keeps.pure _)

theorem parseBars_keeps (headerType : UInt8) : Keeps (Logged r) (d.parseBars f headerType) :=
  Keeps.loop (barStep_keeps _) _ _

end Keeps

/-- The program leaves the read `r` in the log. -/
abbrev Logs (d : PciBusDriver) (mem : UInt64 → UInt8) {α : Type} (m : Prog PciState α)
    (r : PciRead) : Prop :=
  Triple (PciInv d mem) m (fun _ => Logged r) (Logged r)

theorem readU8_logs (f : PciFn) (reg : UInt64) :
    d.Logs mem (d.readU8 f reg) ⟨f, cfgOff f (reg &&& ~~~3)⟩ :=
  Triple.bind (Triple.ofFn fun s _ => List.mem_append_right s.reads (List.mem_singleton_self _))
    fun _ => Triple.pure _ fun _ hs => hs

/-- Register `0x3c` of a function that is there is read. -/
theorem buildDescNode_logs (hf : d.Scans f) (hp : f.Present (d.content mem)) :
    d.Logs mem (d.buildDescNode f) ⟨f, cfgOff f 0x3c⟩ := by
  unfold buildDescNode
  refine Yields.bind_triple (devicePresent_yields hf) fun present hpresent => ?_
  rw [if_neg (not_not.2 (hpresent.2 hp))]
  iterate 2 refine Yields.bind_triple (readU16_yields hf (by decide) (by decide)) fun _ _ => ?_
  iterate 5 refine Yields.bind_triple (readU8_yields hf (by decide)) fun _ _ => ?_
  refine Yields.bind_triple (readU16_yields hf (by decide) (by decide)) fun _ _ => ?_
  refine Yields.bind_triple (readU8_yields hf (by decide)) fun _ _ => ?_
  refine Triple.bind (readU8_logs f 0x3d) fun irqPin => ?_
  refine Keeps.bind (ensureQemuSerialIntxEnabled_keeps _ _) fun _ => ?_
  exact Keeps.bind (parseBars_keeps _) fun _ => Keeps.pure _

section Loops

variable {fs : List PciFn} {devices : List DeviceDescNode} {dev bus : UInt8}

theorem addFn_logs (hf : d.Scans f) (hp : f.Present (d.content mem)) :
    d.Logs mem (d.addFn devices f) ⟨f, cfgOff f 0x3c⟩ :=
  Triple.bind (buildDescNode_logs hf hp) fun _ => Keeps.pure _

/-- A loop over a list ends with its last element. -/
theorem foldlM_logs {α : Type}
    {step : List DeviceDescNode → α → Prog PciState (List DeviceDescNode)}
    {l : List α} {a : α} (hl : ∀ b ∈ l, ∀ fs devices, Describes (d.content mem) fs devices →
      Yields (PciInv d mem) (step devices b) fun devices' =>
        ∃ fs', Describes (d.content mem) fs' devices')
    (ha : ∀ fs devices, Describes (d.content mem) fs devices → d.Logs mem (step devices a) r)
    (h : Describes (d.content mem) fs devices) :
    d.Logs mem ((l ++ [a]).foldlM step devices) r := by
  rw [List.foldlM_append]
  have hfold : Yields (PciInv d mem) (l.foldlM step devices) fun devices' =>
      ∃ fs', Describes (d.content mem) fs' devices' :=
    Yields.foldlM (fun _ devices => ∃ fs, Describes (d.content mem) fs devices)
      (fun _ b devices hb ⟨fs, h⟩ => hl b hb fs devices h) ⟨fs, h⟩
  refine Yields.bind_triple hfold fun devices' ⟨fs', h'⟩ => ?_
  exact Triple.bind (ha fs' devices' h') fun _ => Keeps.pure _

/-- The last function of a device with several functions. -/
theorem scanDev_logs (hbus : bus.toNat < d.busCount.toNat) (hdev : dev < 32)
    (hall : ∀ f, PciFn.Present (d.content mem) f)
    (hmulti : PciFn.Multifunction (d.content mem) ⟨bus, dev, 0⟩)
    (h : Describes (d.content mem) fs devices) :
    d.Logs mem (d.scanDev bus devices dev) ⟨⟨bus, dev, 7⟩, cfgOff ⟨bus, dev, 7⟩ 0x3c⟩ := by
  have hf : d.Scans ⟨bus, dev, 0⟩ := ⟨⟨hdev, show (0 : UInt8) < 8 by decide⟩, hbus⟩
  unfold scanDev
  refine Yields.bind_triple (devicePresent_yields hf) fun present hpresent => ?_
  rw [if_neg (not_not.2 (hpresent.2 (hall _)))]
  refine Yields.bind_triple (addFn_yields hf h) fun devices' h' => ?_
  refine Yields.bind_triple (isMultifunction_yields hf) fun multi hm => ?_
  rw [if_pos (hm.2 hmulti)]
  refine foldlM_logs (α := PciFn) (a := ⟨bus, dev, 7⟩)
    (l := (List.range' 1 6).map fun i => ⟨bus, dev, UInt8.ofNat i⟩) (fun g hg fs devices h => ?_)
    (fun fs devices h => ?_) h'
  · obtain ⟨i, hi, rfl⟩ := List.mem_map.1 hg
    have hi := List.mem_range'_1.1 hi
    have hfunc : UInt8.ofNat i < 8 := by
      show (UInt8.ofNat i).toNat < 8
      rw [UInt8.toNat_ofNat']
      omega
    exact (addFn_yields ⟨⟨hdev, hfunc⟩, hbus⟩ h).mono fun _ h => ⟨_, h⟩
  · exact addFn_logs ⟨⟨hdev, show (7 : UInt8) < 8 by decide⟩, hbus⟩ (hall _)

/-- The last device of a bus. -/
theorem scanBus_logs (hbus : bus.toNat < d.busCount.toNat)
    (hall : ∀ f, PciFn.Present (d.content mem) f)
    (hmulti : PciFn.Multifunction (d.content mem) ⟨bus, 31, 0⟩)
    (h : Describes (d.content mem) fs devices) :
    d.Logs mem (d.scanBus devices bus) ⟨⟨bus, 31, 7⟩, cfgOff ⟨bus, 31, 7⟩ 0x3c⟩ := by
  unfold scanBus
  refine foldlM_logs (l := (List.range 31).map UInt8.ofNat) (a := 31)
    (fun dev hdev fs devices h => ?_) (fun fs devices h => ?_) h
  · obtain ⟨i, hi, rfl⟩ := List.mem_map.1 hdev
    have hi := List.mem_range.1 hi
    have hdev : UInt8.ofNat i < 32 := by
      show (UInt8.ofNat i).toNat < 32
      rw [UInt8.toNat_ofNat']
      omega
    exact (scanDev_yields hbus hdev h).mono fun _ h => ⟨_, h⟩
  · exact scanDev_logs hbus (by decide) hall hmulti h

/-- When every function is there, the last header of bus 0 is read. -/
theorem scanBuses_logs (hbuses : d.busCount = 1) (hall : ∀ f, PciFn.Present (d.content mem) f)
    (hmulti : PciFn.Multifunction (d.content mem) ⟨0, 31, 0⟩) :
    d.Logs mem d.scanBuses ⟨⟨0, 31, 7⟩, cfgOff ⟨0, 31, 7⟩ 0x3c⟩ := by
  have hbus : (0 : UInt8).toNat < d.busCount.toNat := by
    rw [hbuses]
    decide
  unfold scanBuses
  rw [hbuses]
  have hnil : Describes (d.content mem) [] [] := .nil
  exact foldlM_logs (l := []) (a := 0) (fun _ hb => absurd hb List.not_mem_nil)
    (fun fs devices h => scanBus_logs hbus hall hmulti h) hnil

end Loops

end PciBusDriver

/-! ### The scan -/

/-- Every access of a scan of the ECAM region of `size` bytes at `paddr` is in the mapped pages
and in the region, whatever the region holds. -/
def ScansInside (paddr size : UInt64) : Prop :=
  ∀ (d₀ d : PciBusDriver) (pages : UInt64) (mem : UInt64 → UInt8),
    d₀.setupEcamMapping paddr size = .ok (pages, d) →
      (∀ r ∈ (d₀.scan paddr size { mem }).2.reads,
        Inside paddr size pages (d.ecamBase + r.off)) ∧
      ∀ w ∈ (d₀.scan paddr size { mem }).2.writes,
        Inside paddr size pages (d.ecamBase + w.off)

/-- A region that ends before the last header of bus 0 is left: the functions may all be there. -/
theorem le_of_scansInside {paddr size : UInt64} (hsize : pciPgSize ≤ size)
    (h : ScansInside paddr size) : 0xff040 ≤ size.toNat := by
  let d₀ : PciBusDriver := ⟨0, 0, 0, 0, 0, .generic⟩
  obtain ⟨pages, d, hset⟩ : ∃ pages d, d₀.setupEcamMapping paddr size = .ok (pages, d) := by
    have hnlt : ¬ size < pciPgSize := Nat.not_lt.2 hsize
    unfold setupEcamMapping
    rw [if_neg hnlt]
    exact ⟨_, _, rfl⟩
  have hm := setupEcamMapping_mapped hset
  -- every function is there, and has several functions
  let mem : UInt64 → UInt8 := fun _ => 0x80
  obtain ⟨devices, s', hrun, hscan, -⟩ := scan_run hset mem
  have hall : ∀ f, PciFn.Present (d.content mem) f := by
    intro f
    show (0x80 + 256 * 0x80 : ℕ) ≠ 0xffff
    norm_num
  have hmulti : PciFn.Multifunction (d.content mem) ⟨0, 31, 0⟩ := by
    show (0x80 : UInt8) &&& 0x80 ≠ 0
    decide
  have hread : (⟨⟨0, 31, 7⟩, cfgOff ⟨0, 31, 7⟩ 0x3c⟩ : PciRead) ∈ s'.reads := by
    have hlogs := (scanBuses_logs hm.buses hall hmulti).snd (PciInv.init d mem)
    rw [hrun] at hlogs
    exact hlogs
  have hinside := (h d₀ d pages mem hset).1
  rw [hscan] at hinside
  have hoff : (cfgOff ⟨0, 31, 7⟩ 0x3c).toNat = 0xff03c := by decide
  have hle := (hm.inside_iff (by rw [hoff]; norm_num)).1 (hinside _ hread)
  rw [hoff] at hle
  exact hle

/-- **The ECAM window.**  When the mapping succeeds, the accesses of a scan are inside of it and of
the region iff the region reaches to the end of the header of function 7 of device 31 on bus 0. -/
theorem pci_window (paddr size : UInt64) (hsize : pciPgSize ≤ size) :
    ScansInside paddr size ↔ 0xff040 ≤ size.toNat :=
  ⟨le_of_scansInside hsize, fun h _ _ _ mem hset => scan_inside hset h mem⟩

/-- The ECAM region of one bus. -/
theorem scansInside_bus : ScansInside 0x30000000 0x100000 :=
  (pci_window 0x30000000 0x100000 (by decide)).2 (by decide)

/-- A region of one page: the devices behind the first are looked for outside of it. -/
theorem not_scansInside_page : ¬ ScansInside 0x30000000 pciPgSize := by
  intro h
  exact absurd (le_of_scansInside (by decide) h) (by decide)

end GlendaDrivers
