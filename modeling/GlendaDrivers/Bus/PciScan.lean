import GlendaDrivers.Bus.PciConfig

/-!
# The enumeration of the PCI bus driver

* `Required`: the functions that an enumeration has to report, from the configuration space;
* `fnsOf`: the same as a list in the order of their numbers;
* `buildDescNode_yields`, `scanBuses_yields`: one function, and the loops;
* `pci_scan`: the nodes that `scan` reports.
-/

namespace GlendaDrivers

open Prog PciBusDriver

/-! ### What has to be reported -/

namespace PciFn

variable (c : PciFn → ℕ → UInt8)

/-- The vendor id of a function. -/
def vendorId (f : PciFn) : ℕ := (c f 0).toNat + 256 * (c f 1).toNat

/-- The device id of a function. -/
def deviceId (f : PciFn) : ℕ := (c f 2).toNat + 256 * (c f 3).toNat

/-- There is a function. -/
def Present (f : PciFn) : Prop := f.vendorId c ≠ 0xffff

instance (f : PciFn) : Decidable (f.Present c) := inferInstanceAs (Decidable (_ ≠ _))

/-- Function 0 of the same device. -/
def first (f : PciFn) : PciFn := { f with func := 0 }

/-- The multifunction bit of a header. -/
def Multifunction (f : PciFn) : Prop := c f 0x0e &&& 0x80 ≠ 0

instance (f : PciFn) : Decidable (f.Multifunction c) := inferInstanceAs (Decidable (_ ≠ _))

/-- A function that an enumeration of the buses below `limit` has to report. -/
structure Required (limit : ℕ) (f : PciFn) : Prop where
  bus : f.bus.toNat < limit
  valid : f.Valid
  present : f.Present c
  reached : f.func = 0 ∨ f.first.Present c ∧ f.first.Multifunction c

/-- The functions of a device behind its function 0. -/
def others (bus dev : UInt8) : List PciFn :=
  (List.range' 1 7).map fun i => ⟨bus, dev, UInt8.ofNat i⟩

/-- The functions of a device that are reported. -/
def ofDev (bus dev : UInt8) : List PciFn :=
  let f : PciFn := ⟨bus, dev, 0⟩
  if f.Present c then
    f :: if f.Multifunction c then (others bus dev).filter (Present c ·) else []
  else []

/-- The functions of a bus that are reported. -/
def ofBus (bus : UInt8) : List PciFn := ((List.range 32).map UInt8.ofNat).flatMap (ofDev c bus)

/-- The functions on the first buses that are reported. -/
def ofBuses (limit : ℕ) : List PciFn := ((List.range limit).map UInt8.ofNat).flatMap (ofBus c)

section Lists

variable {c} {f : PciFn} {bus dev : UInt8} {limit : ℕ}

theorem mem_others : f ∈ others bus dev ↔ f.bus = bus ∧ f.dev = dev ∧ 1 ≤ f.func ∧ f.func < 8 := by
  unfold others
  constructor
  · intro h
    obtain ⟨i, hi, rfl⟩ := List.mem_map.1 h
    obtain ⟨hle, hlt⟩ := List.mem_range'_1.1 hi
    have hi : (UInt8.ofNat i).toNat = i := by
      rw [UInt8.toNat_ofNat']
      omega
    refine ⟨rfl, rfl, ?_, ?_⟩
    · show 1 ≤ (UInt8.ofNat i).toNat
      omega
    · show (UInt8.ofNat i).toNat < 8
      omega
  · rintro ⟨rfl, rfl, hle, hlt⟩
    have hle : 1 ≤ f.func.toNat := hle
    have hlt : f.func.toNat < 8 := hlt
    refine List.mem_map.2 ⟨f.func.toNat, List.mem_range'_1.2 ⟨hle, by omega⟩, ?_⟩
    rw [UInt8.ofNat_toNat]

/-- The functions of a device. -/
theorem mem_ofDev : f ∈ ofDev c bus dev ↔ f.bus = bus ∧ f.dev = dev ∧ f.func < 8 ∧
    f.Present c ∧ (f.func = 0 ∨ f.first.Present c ∧ f.first.Multifunction c) := by
  unfold ofDev
  constructor
  · intro h
    by_cases hp : Present c ⟨bus, dev, 0⟩
    · rw [if_pos hp] at h
      rcases List.mem_cons.1 h with rfl | h
      · exact ⟨rfl, rfl, show (0 : UInt8) < 8 by decide, hp, .inl rfl⟩
      · by_cases hm : Multifunction c ⟨bus, dev, 0⟩
        · rw [if_pos hm] at h
          obtain ⟨hmem, hpf⟩ := List.mem_filter.1 h
          obtain ⟨rfl, rfl, -, hlt⟩ := mem_others.1 hmem
          exact ⟨rfl, rfl, hlt, of_decide_eq_true hpf, .inr ⟨hp, hm⟩⟩
        · rw [if_neg hm] at h
          exact absurd h List.not_mem_nil
    · rw [if_neg hp] at h
      exact absurd h List.not_mem_nil
  · rintro ⟨rfl, rfl, hlt, hp, h⟩
    by_cases hz : f.func = 0
    · have hf : f = ⟨f.bus, f.dev, 0⟩ := by rw [← hz]
      rw [← hf, if_pos hp]
      exact List.mem_cons_self
    · obtain ⟨hfirst, hm⟩ := h.resolve_left hz
      have hfirst : Present c ⟨f.bus, f.dev, 0⟩ := hfirst
      have hm : Multifunction c ⟨f.bus, f.dev, 0⟩ := hm
      have hle : 1 ≤ f.func := by
        have hne : f.func.toNat ≠ 0 := fun h0 => hz (UInt8.toNat_inj.1 h0)
        show 1 ≤ f.func.toNat
        omega
      rw [if_pos hfirst, if_pos hm]
      refine List.mem_cons_of_mem _ (List.mem_filter.2 ⟨?_, decide_eq_true hp⟩)
      exact mem_others.2 ⟨rfl, rfl, hle, hlt⟩

/-- The list of the functions that have to be reported. -/
theorem mem_ofBuses (hlimit : limit ≤ 256) : f ∈ ofBuses c limit ↔ f.Required c limit := by
  unfold ofBuses ofBus
  constructor
  · intro h
    obtain ⟨bus, hbus, h⟩ := List.mem_flatMap.1 h
    obtain ⟨dev, hdev, h⟩ := List.mem_flatMap.1 h
    obtain ⟨i, hi, rfl⟩ := List.mem_map.1 hbus
    obtain ⟨j, hj, rfl⟩ := List.mem_map.1 hdev
    have hi := List.mem_range.1 hi
    have hj := List.mem_range.1 hj
    obtain ⟨hb, hd, hlt, hp, hr⟩ := mem_ofDev.1 h
    refine ⟨?_, ⟨?_, hlt⟩, hp, hr⟩
    · rw [hb, UInt8.toNat_ofNat']
      omega
    · rw [hd]
      show (UInt8.ofNat j).toNat < 32
      rw [UInt8.toNat_ofNat']
      omega
  · rintro ⟨hbus, ⟨hdev, hlt⟩, hp, hr⟩
    have hdev : f.dev.toNat < 32 := hdev
    refine List.mem_flatMap.2 ⟨f.bus, List.mem_map.2 ⟨_, List.mem_range.2 hbus, ?_⟩, ?_⟩
    · exact UInt8.ofNat_toNat
    refine List.mem_flatMap.2 ⟨f.dev, List.mem_map.2 ⟨_, List.mem_range.2 hdev, ?_⟩, ?_⟩
    · exact UInt8.ofNat_toNat
    exact mem_ofDev.2 ⟨rfl, rfl, hlt, hp, hr⟩

/-! ### Their order -/

theorem pairwise_others : (others bus dev).Pairwise fun f g => f.block < g.block := by
  unfold others
  rw [List.pairwise_map]
  have hpair : (List.range' 1 7).Pairwise (· < ·) := by decide
  refine hpair.imp_of_mem fun {i j} hi hj hij => ?_
  have hi := List.mem_range'_1.1 hi
  have hj := List.mem_range'_1.1 hj
  unfold block
  dsimp only
  rw [UInt8.toNat_ofNat', UInt8.toNat_ofNat']
  omega

/-- Function 0 is the first one of a device. -/
theorem pairwise_ofDev : (ofDev c bus dev).Pairwise fun f g => f.block < g.block := by
  unfold ofDev
  dsimp only
  split_ifs
  · refine List.pairwise_cons.2 ⟨fun g hg => ?_, pairwise_others.filter _⟩
    obtain ⟨rfl, rfl, hle, -⟩ := mem_others.1 (List.mem_filter.1 hg).1
    have hle : 1 ≤ g.func.toNat := hle
    show g.bus.toNat * 256 + g.dev.toNat * 8 + 0 < g.bus.toNat * 256 + g.dev.toNat * 8 + _
    omega
  · exact List.pairwise_singleton _ _
  · exact List.Pairwise.nil

theorem pairwise_ofBus : (ofBus c bus).Pairwise fun f g => f.block < g.block := by
  unfold ofBus
  refine List.pairwise_flatMap.2 ⟨fun _ _ => pairwise_ofDev, ?_⟩
  rw [List.pairwise_map]
  refine List.pairwise_lt_range.imp_of_mem fun {i j} hi hj hij f hf g hg => ?_
  have hi := List.mem_range.1 hi
  have hj := List.mem_range.1 hj
  obtain ⟨hfb, hfd, hflt, -⟩ := mem_ofDev.1 hf
  obtain ⟨hgb, hgd, -⟩ := mem_ofDev.1 hg
  have hflt : f.func.toNat < 8 := hflt
  unfold block
  rw [hfb, hfd, hgb, hgd, UInt8.toNat_ofNat', UInt8.toNat_ofNat']
  omega

/-- The functions are visited in the order of their numbers. -/
theorem pairwise_ofBuses (hlimit : limit ≤ 256) :
    (ofBuses c limit).Pairwise fun f g => f.block < g.block := by
  unfold ofBuses
  refine List.pairwise_flatMap.2 ⟨fun _ _ => pairwise_ofBus, ?_⟩
  rw [List.pairwise_map]
  refine List.pairwise_lt_range.imp_of_mem fun {i j} hi hj hij f hf g hg => ?_
  have hi := List.mem_range.1 hi
  have hj := List.mem_range.1 hj
  obtain ⟨dev, hdev, hf⟩ := List.mem_flatMap.1 hf
  obtain ⟨dev', -, hg⟩ := List.mem_flatMap.1 hg
  obtain ⟨k, hk, rfl⟩ := List.mem_map.1 hdev
  have hk := List.mem_range.1 hk
  obtain ⟨hfb, hfd, hflt, -⟩ := mem_ofDev.1 hf
  obtain ⟨hgb, -⟩ := mem_ofDev.1 hg
  have hflt : f.func.toNat < 8 := hflt
  unfold block
  rw [hfb, hfd, hgb, UInt8.toNat_ofNat', UInt8.toNat_ofNat', UInt8.toNat_ofNat']
  omega

end Lists

end PciFn

/-- A node that describes a function. -/
structure IsNode (c : PciFn → ℕ → UInt8) (f : PciFn) (node : DeviceDescNode) : Prop where
  name : node.desc.name = nameOf f
  unitAddr : node.nodeMeta.unitAddr = some (unitAddrOf f)
  compatible : ∃ vendorId deviceId : UInt16, vendorId.toNat = f.vendorId c ∧
    deviceId.toNat = f.deviceId c ∧ node.desc.compatible = compatibleOf vendorId deviceId

/-! ### One function -/

namespace PciBusDriver

variable {d : PciBusDriver} {f : PciFn} {mem₀ : UInt64 → UInt8}

theorem devicePresent_yields (hf : d.Scans f) :
    Yields (PciInv d mem₀) (d.devicePresent f) fun present =>
      (present = true ↔ f.Present (d.content mem₀)) := by
  unfold devicePresent
  refine Yields.bind (readU16_yields hf (by decide) (by decide)) fun v hv => Yields.pure ?_
  have hv : v.toNat = f.vendorId (d.content mem₀) := hv (by decide)
  rw [bne_iff_ne, PciFn.Present, ← hv, ne_eq, ne_eq, ← UInt16.toNat_inj]
  rfl

theorem isMultifunction_yields {bus dev : UInt8} (hf : d.Scans ⟨bus, dev, 0⟩) :
    Yields (PciInv d mem₀) (d.isMultifunction bus dev) fun multi =>
      (multi = true ↔ PciFn.Multifunction (d.content mem₀) ⟨bus, dev, 0⟩) := by
  unfold isMultifunction
  refine Yields.bind (readU8_yields hf (by decide)) fun v hv => Yields.pure ?_
  have hv : v = d.content mem₀ ⟨bus, dev, 0⟩ 0x0e := hv (by decide)
  rw [bne_iff_ne, hv]
  rfl

theorem toNat_barReg (bar : ℕ) (h : bar < 6) :
    (0x10 + UInt64.ofNat bar * 4 : UInt64).toNat = 16 + 4 * bar := by
  rw [UInt64.toNat_add, UInt64.toNat_mul, UInt64.toNat_ofNat']
  show (16 + bar % 2 ^ 64 * 4 % 2 ^ 64) % 2 ^ 64 = _
  omega

/-- One iteration of the loop over the base address registers. -/
theorem barStep_yields (hf : d.Scans f) {maxBars bar : ℕ} (hmax : maxBars ≤ 6)
    (out : List MMIORegion) :
    Yields (PciInv d mem₀) (d.barStep f maxBars (bar, out)) fun r =>
      ∀ st, r = .inl st → bar < st.1 ∧ st.1 ≤ maxBars := by
  -- the next register
  have hone : bar < maxBars → ∀ out' : List MMIORegion, ∀ st,
      (.inl (bar + 1, out') : (ℕ × List MMIORegion) ⊕ List MMIORegion) = .inl st →
        bar < st.1 ∧ st.1 ≤ maxBars := by
    rintro hlt out' st h
    obtain rfl := Sum.inl.inj h
    exact ⟨Nat.lt_succ_self bar, hlt⟩
  unfold barStep
  dsimp only
  refine Yields.ite (fun hlt => ?_) fun _ => Yields.pure fun st h => nomatch h
  have hreg := toNat_barReg bar (by omega)
  refine Yields.bind (readU32_yields hf (by omega) (by omega)) fun v _ => ?_
  refine Yields.ite (fun _ => Yields.pure (hone hlt _)) fun _ => ?_
  refine Yields.ite (fun _ => ?_) fun _ => ?_
  · cases d.platform.ioBarCpuBase with
    | none => exact Yields.pure (hone hlt _)
    | some base => exact Yields.pure (hone hlt _)
  · refine Yields.ite (fun htwo => ?_) fun _ => Yields.pure (hone hlt _)
    have hlt' : bar + 1 < maxBars := htwo.2
    have hreg' : (0x10 + UInt64.ofNat bar * 4 + 4 : UInt64).toNat = 20 + 4 * bar := by
      rw [UInt64.toNat_add, hreg]
      show (16 + 4 * bar + 4) % 2 ^ 64 = _
      omega
    refine Yields.bind (readU32_yields hf (by omega) (by omega)) fun hi _ => Yields.pure ?_
    rintro st h
    obtain rfl := Sum.inl.inj h
    exact ⟨by omega, hlt'⟩

/-- The loop over the base address registers ends. -/
theorem barLoop_yields (hf : d.Scans f) {maxBars : ℕ} (hmax : maxBars ≤ 6) (n bar : ℕ)
    (out : List MMIORegion) (hbar : bar ≤ maxBars) (hn : maxBars < n + bar) :
    Yields (PciInv d mem₀) (loop (d.barStep f maxBars) n (bar, out)) fun _ => True := by
  induction n generalizing bar out with
  | zero => omega
  | succ n ih =>
    refine Yields.bind (barStep_yields hf hmax out) fun r hr => ?_
    cases r with
    | inr out => exact Yields.pure trivial
    | inl st =>
      obtain ⟨hlt, hle⟩ := hr st rfl
      exact ih st.1 st.2 hle (by omega)

theorem parseBars_yields (hf : d.Scans f) (headerType : UInt8) :
    Yields (PciInv d mem₀) (d.parseBars f headerType) fun _ => True := by
  unfold parseBars
  split_ifs
  · exact barLoop_yields hf (by norm_num) 7 0 [] (by norm_num) (by norm_num)
  · exact barLoop_yields hf (by norm_num) 7 0 [] (by norm_num) (by norm_num)

/-- The node of a function that is there. -/
theorem buildDescNode_yields (hf : d.Scans f) :
    Yields (PciInv d mem₀) (d.buildDescNode f) fun r =>
      if f.Present (d.content mem₀) then ∃ node, r = some node ∧ IsNode (d.content mem₀) f node
      else r = none := by
  unfold buildDescNode
  refine Yields.bind (devicePresent_yields hf) fun present hpresent => ?_
  refine Yields.ite (fun h => Yields.pure ?_) fun h => ?_
  · rw [if_neg fun hp => h (hpresent.2 hp)]
  · have hp := hpresent.1 (not_not.1 h)
    simp only [if_pos hp]
    refine Yields.bind (readU16_yields hf (by decide) (by decide)) fun vendorId hvendor => ?_
    refine Yields.bind (readU16_yields hf (by decide) (by decide)) fun deviceId hdevice => ?_
    iterate 5 refine Yields.bind (readU8_yields hf (by decide)) fun _ _ => ?_
    refine Yields.bind (readU16_yields hf (by decide) (by decide)) fun _ _ => ?_
    iterate 2 refine Yields.bind (readU8_yields hf (by decide)) fun _ _ => ?_
    refine Yields.bind (ensureQemuSerialIntxEnabled_yields hf _ _) fun _ _ => ?_
    refine Yields.bind (parseBars_yields hf _) fun _ _ => Yields.pure ?_
    exact ⟨_, rfl, rfl, rfl, vendorId, deviceId, hvendor (by decide), hdevice (by decide), rfl⟩

/-! ### The loops -/

/-- The nodes describe the functions, in this order. -/
abbrev Describes (c : PciFn → ℕ → UInt8) (fs : List PciFn) (nodes : List DeviceDescNode) : Prop :=
  List.Forall₂ (IsNode c) fs nodes

variable {fs : List PciFn} {devices : List DeviceDescNode} {bus dev : UInt8}

theorem addFn_yields (hf : d.Scans f) (h : Describes (d.content mem₀) fs devices) :
    Yields (PciInv d mem₀) (d.addFn devices f) fun devices' =>
      Describes (d.content mem₀) (fs ++ [f].filter (PciFn.Present (d.content mem₀) ·))
        devices' := by
  unfold addFn
  refine Yields.bind (buildDescNode_yields hf) fun r hr => Yields.pure ?_
  by_cases hp : f.Present (d.content mem₀)
  · rw [if_pos hp] at hr
    obtain ⟨node, rfl, hnode⟩ := hr
    rw [List.filter_cons_of_pos (by simpa using hp)]
    exact List.rel_append h (.cons hnode .nil)
  · rw [if_neg hp] at hr
    rw [hr, List.filter_cons_of_neg (by simpa using hp)]
    exact List.rel_append h .nil

/-- The body of the loop over the devices of a bus. -/
theorem scanDev_yields (hbus : bus.toNat < d.busCount.toNat) (hdev : dev < 32)
    (h : Describes (d.content mem₀) fs devices) :
    Yields (PciInv d mem₀) (d.scanDev bus devices dev) fun devices' =>
      Describes (d.content mem₀) (fs ++ PciFn.ofDev (d.content mem₀) bus dev) devices' := by
  have hf : d.Scans ⟨bus, dev, 0⟩ := ⟨⟨hdev, show (0 : UInt8) < 8 by decide⟩, hbus⟩
  unfold scanDev
  refine Yields.bind (devicePresent_yields hf) fun present hpresent => ?_
  unfold PciFn.ofDev
  refine Yields.ite (fun hnp => Yields.pure ?_) fun hp => ?_
  · rw [if_neg fun hp => hnp (hpresent.2 hp), List.append_nil]
    exact h
  · have hp := hpresent.1 (not_not.1 hp)
    simp only [if_pos hp]
    refine Yields.bind (addFn_yields hf h) fun devices' h' => ?_
    rw [List.filter_cons_of_pos (by simpa using hp), List.filter_nil] at h'
    refine Yields.bind (isMultifunction_yields hf) fun multi hmulti => ?_
    by_cases hm : multi = true
    · have hm' : PciFn.Multifunction (d.content mem₀) ⟨bus, dev, 0⟩ := hmulti.1 hm
      rw [if_pos hm]
      simp only [if_pos hm']
      refine (Yields.foldlM (fun done devices => Describes (d.content mem₀)
        (fs ++ [⟨bus, dev, 0⟩] ++ done.filter (PciFn.Present (d.content mem₀) ·)) devices)
        (fun done f devices hmem h => ?_) ?_).mono fun devices h => ?_
      · obtain ⟨rfl, rfl, -, hfunc⟩ := PciFn.mem_others.1 hmem
        rw [List.filter_append, ← List.append_assoc]
        exact addFn_yields ⟨⟨hdev, hfunc⟩, hbus⟩ h
      · rw [List.filter_nil, List.append_nil]
        exact h'
      · rw [List.append_cons]
        exact h
    · have hm' : ¬ PciFn.Multifunction (d.content mem₀) ⟨bus, dev, 0⟩ :=
        fun h => hm (hmulti.2 h)
      rw [if_neg hm]
      simp only [if_neg hm']
      exact Yields.pure h'

theorem scanBus_yields (hbus : bus.toNat < d.busCount.toNat)
    (h : Describes (d.content mem₀) fs devices) :
    Yields (PciInv d mem₀) (d.scanBus devices bus) fun devices' =>
      Describes (d.content mem₀) (fs ++ PciFn.ofBus (d.content mem₀) bus) devices' := by
  unfold scanBus PciFn.ofBus
  refine Yields.foldlM (fun done devices => Describes (d.content mem₀)
    (fs ++ done.flatMap (PciFn.ofDev (d.content mem₀) bus)) devices)
    (fun done dev devices hmem h => ?_) ?_
  · obtain ⟨i, hi, rfl⟩ := List.mem_map.1 hmem
    have hdev : UInt8.ofNat i < 32 := by
      have hi := List.mem_range.1 hi
      show (UInt8.ofNat i).toNat < 32
      rw [UInt8.toNat_ofNat']
      omega
    rw [List.flatMap_append, List.flatMap_singleton, ← List.append_assoc]
    exact scanDev_yields hbus hdev h
  · rw [List.flatMap_nil, List.append_nil]
    exact h

/-- The number of buses that a scan goes over. -/
theorem toNat_busLimit (d : PciBusDriver) :
    (min d.busCount 256).toNat = min d.busCount.toNat 256 := toNat_min d.busCount 256

/-- The loops visit the functions that have to be reported, in order. -/
theorem scanBuses_yields : Yields (PciInv d mem₀) d.scanBuses fun devices =>
    Describes (d.content mem₀) (PciFn.ofBuses (d.content mem₀) (min d.busCount 256).toNat)
      devices := by
  unfold scanBuses PciFn.ofBuses
  refine Yields.foldlM (fun done devices => Describes (d.content mem₀)
    (done.flatMap (PciFn.ofBus (d.content mem₀))) devices) (fun done bus devices hmem h => ?_) .nil
  obtain ⟨i, hi, rfl⟩ := List.mem_map.1 hmem
  have hi := List.mem_range.1 hi
  have hbus : (UInt8.ofNat i).toNat < d.busCount.toNat := by
    rw [toNat_busLimit] at hi
    rw [UInt8.toNat_ofNat']
    omega
  rw [List.flatMap_append, List.flatMap_singleton]
  exact scanBus_yields hbus h

end PciBusDriver

/-! ### Names and addresses -/

section Names

variable {f g : PciFn}

/-- The unit address is the number of the function. -/
theorem toNat_unitAddrOf (hf : f.Valid) : (unitAddrOf f).toNat = f.block := by
  have hb := f.bus.toNat_lt
  have hd : f.dev.toNat < 32 := hf.dev
  have hfunc : f.func.toNat < 8 := hf.func
  have h1 : ((f.dev.toUInt64 <<< 3) ||| f.func.toUInt64).toNat =
      f.dev.toUInt64.toNat * 2 ^ 3 + f.func.toUInt64.toNat := by
    refine Words.toNat_shift_or (n := 3) (by norm_num) ?_ ?_
    · rw [UInt8.toNat_toUInt64]
      omega
    · rw [UInt8.toNat_toUInt64]
      omega
  have h2 : ((f.bus.toUInt64 <<< 8) ||| ((f.dev.toUInt64 <<< 3) ||| f.func.toUInt64)).toNat =
      f.bus.toUInt64.toNat * 2 ^ 8 + ((f.dev.toUInt64 <<< 3) ||| f.func.toUInt64).toNat := by
    refine Words.toNat_shift_or (n := 8) (by norm_num) ?_ ?_
    · rw [h1, UInt8.toNat_toUInt64, UInt8.toNat_toUInt64]
      omega
    · rw [UInt8.toNat_toUInt64]
      omega
  rw [unitAddrOf, UInt64.or_assoc, h2, h1, UInt8.toNat_toUInt64, UInt8.toNat_toUInt64,
    UInt8.toNat_toUInt64, PciFn.block]
  omega

theorem unitAddrOf_inj (hf : f.Valid) (hg : g.Valid) (h : unitAddrOf f = unitAddrOf g) : f = g := by
  refine PciFn.block_inj hf hg ?_
  rw [← toNat_unitAddrOf hf, ← toNat_unitAddrOf hg, h]

/-- The characters of a name. -/
theorem toList_nameOf (f : PciFn) : (nameOf f).toList =
    ['p', 'c', 'i', '-'] ++ (Hex.digits 2 f.bus.toNat ++ (':' :: (Hex.digits 2 f.dev.toNat ++
      ('.' :: (Nat.repr f.func.toNat).toList)))) := by
  simp [nameOf, String.toList_append]

theorem nameOf_inj (h : nameOf f = nameOf g) : f = g := by
  have hl := congrArg String.toList h
  rw [toList_nameOf, toList_nameOf] at hl
  have hl := List.append_cancel_left hl
  obtain ⟨hbus, hl⟩ := List.append_inj hl (by rw [Hex.length_digits, Hex.length_digits])
  obtain ⟨hdev, hl⟩ := List.append_inj (List.cons.inj hl).2
    (by rw [Hex.length_digits, Hex.length_digits])
  have hfunc := Hex.repr_inj (String.toList_inj.1 (List.cons.inj hl).2)
  have hbus := UInt8.toNat_inj.1 (Hex.digits_inj f.bus.toNat_lt g.bus.toNat_lt hbus)
  have hdev := UInt8.toNat_inj.1 (Hex.digits_inj f.dev.toNat_lt g.dev.toNat_lt hdev)
  have hfunc := UInt8.toNat_inj.1 hfunc
  obtain ⟨b, dv, fn⟩ := f
  obtain ⟨b', dv', fn'⟩ := g
  rw [show b = b' from hbus, show dv = dv' from hdev, show fn = fn' from hfunc]

end Names

/-! ### The scan -/

theorem PciInv.init (d : PciBusDriver) (mem : UInt64 → UInt8) : PciInv d mem { mem } :=
  ⟨fun _ _ _ _ _ => rfl, by simp, by simp⟩

/-- The run of the loops, after the mapping. -/
theorem scan_eq {d d₀ : PciBusDriver} {paddr size pages : UInt64} {s s' : PciState}
    {devices : List DeviceDescNode} (h : d₀.setupEcamMapping paddr size = .ok (pages, d))
    (hrun : d.scanBuses s = (.ret devices, s')) :
    d₀.scan paddr size s = (.ret (.ok devices), s') := by
  unfold scan
  rw [h]
  exact bind_of_ret hrun

/-- The unit addresses are in strictly increasing order. -/
def IncreasingUnitAddr (nodes : List DeviceDescNode) : Prop :=
  nodes.Pairwise fun n n' => ∃ a a', n.nodeMeta.unitAddr = some a ∧
    n'.nodeMeta.unitAddr = some a' ∧ a < a'

theorem increasing_of_describes {c : PciFn → ℕ → UInt8} {fs : List PciFn}
    {nodes : List DeviceDescNode} (h : List.Forall₂ (IsNode c) fs nodes)
    (hvalid : ∀ f ∈ fs, f.Valid) (hfs : fs.Pairwise fun f g => f.block < g.block) :
    IncreasingUnitAddr nodes := by
  induction h with
  | nil => exact List.Pairwise.nil
  | @cons f n fs nodes hn h ih =>
    obtain ⟨hlt, hfs⟩ := List.pairwise_cons.1 hfs
    refine List.pairwise_cons.2 ⟨fun n' hn' => ?_,
      ih (fun g hg => hvalid g (List.mem_cons_of_mem _ hg)) hfs⟩
    -- the function of the other node
    obtain ⟨i, hi, rfl⟩ := List.mem_iff_getElem.1 hn'
    have hi' : i < fs.length := h.length_eq.symm ▸ hi
    have hnode := h.get hi' hi
    have hmem : fs[i] ∈ fs := List.getElem_mem hi'
    refine ⟨_, _, hn.unitAddr, hnode.unitAddr, ?_⟩
    show (unitAddrOf f).toNat < (unitAddrOf fs[i]).toNat
    rw [toNat_unitAddrOf (hvalid f List.mem_cons_self),
      toNat_unitAddrOf (hvalid _ (List.mem_cons_of_mem _ hmem))]
    exact hlt _ hmem

/-- **The enumeration.**  The nodes describe the functions that have to be reported, each once, in
the order of their unit addresses; addresses and names tell the functions apart; and every read is
from the block of its own function. -/
theorem pci_scan (d : PciBusDriver) (mem : UInt64 → UInt8) :
    ∃ devices s', d.scanBuses { mem } = (.ret devices, s') ∧
      (∀ (d₀ : PciBusDriver) (paddr size pages : UInt64),
        d₀.setupEcamMapping paddr size = .ok (pages, d) →
          d₀.scan paddr size { mem } = (.ret (.ok devices), s')) ∧
      (∃ fs : List PciFn, fs.Nodup ∧
        (∀ f, f ∈ fs ↔ f.Required (d.content mem) (min d.busCount 256).toNat) ∧
        List.Forall₂ (IsNode (d.content mem)) fs devices) ∧
      IncreasingUnitAddr devices ∧
      (∀ f g : PciFn, f.Valid → g.Valid →
        unitAddrOf f = unitAddrOf g ∨ nameOf f = nameOf g ∨ f.block = g.block → f = g) ∧
      ∀ r ∈ s'.reads, r.fn.Valid ∧ r.off.toNat / 4096 = r.fn.block := by
  obtain ⟨devices, s', hrun, hdesc, hinv'⟩ := scanBuses_yields.run (PciInv.init d mem)
  have hlimit : (min d.busCount 256).toNat ≤ 256 := by
    rw [toNat_busLimit]
    exact min_le_right _ _
  have hpair := PciFn.pairwise_ofBuses (c := d.content mem) hlimit
  refine ⟨devices, s', hrun, fun d₀ paddr size pages hset => ?_,
    ⟨_, hpair.imp fun h => ?_, fun f => PciFn.mem_ofBuses hlimit, hdesc⟩,
    increasing_of_describes hdesc (fun f hf => ((PciFn.mem_ofBuses hlimit).1 hf).valid) hpair,
    fun f g hf hg h => ?_, fun r hr => ⟨(hinv'.reads r hr).scans.toValid, (hinv'.reads r hr).block⟩⟩
  · exact scan_eq hset hrun
  · rintro rfl
    exact lt_irrefl _ h
  · rcases h with h | h | h
    · exact unitAddrOf_inj hf hg h
    · exact nameOf_inj h
    · exact PciFn.block_inj hf hg h

end GlendaDrivers
