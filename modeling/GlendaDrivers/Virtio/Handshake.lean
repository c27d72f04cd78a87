import GlendaDrivers.Virtio.Bringup

/-!
# What the initialisations check

* `Mmio.Sound`: a device that was set up as the shared queue implementation needs it;
* `FeaturesOkFirst`: FEATURES_OK was read back before a queue was enabled, from the accesses;
* `handshake`: for each driver, the devices on which every successful initialisation is sound.

The block driver does not read FEATURES_OK back; the network driver leaves RING_PACKED and
EVENT_IDX on; no driver looks at the version or at QueueNumMax.
-/

namespace GlendaDrivers

open Prog

/-! ### Accesses -/

/-- A write that programs a queue. -/
def RegEvent.IsQueueWrite : RegEvent → Prop
  | .write _ .queueNum _ => True
  | .write _ .queueReady _ => True
  | _ => False

/-- No access programs a queue. -/
def Quiet (l : List RegEvent) : Prop := ∀ e ∈ l, ¬ e.IsQueueWrite

/-- FEATURES_OK was read back as set. -/
def Checked (l : List RegEvent) : Prop := ∃ w, .read .status w ∈ l ∧ w &&& statusFeaturesOk ≠ 0

/-- FEATURES_OK was read back as set before any queue was enabled. -/
def FeaturesOkFirst (l : List RegEvent) : Prop :=
  ∀ pre sel v post, l = pre ++ .write sel .queueReady v :: post → v ≠ 0 → Checked pre

section Accesses

variable {a b : List RegEvent}

theorem quiet_append {a b : List RegEvent} (ha : Quiet a) (hb : Quiet b) : Quiet (a ++ b) := by
  intro e he
  rcases List.mem_append.1 he with he | he
  · exact ha e he
  · exact hb e he

theorem checked_append {a b : List RegEvent} : Checked (a ++ b) ↔ Checked a ∨ Checked b := by
  constructor
  · rintro ⟨w, hw, hne⟩
    rcases List.mem_append.1 hw with hw | hw
    · exact .inl ⟨w, hw, hne⟩
    · exact .inr ⟨w, hw, hne⟩
  · rintro (⟨w, hw, hne⟩ | ⟨w, hw, hne⟩)
    · exact ⟨w, List.mem_append_left _ hw, hne⟩
    · exact ⟨w, List.mem_append_right _ hw, hne⟩

theorem FeaturesOkFirst.of_checked (hq : Quiet a) (hc : Checked a) : FeaturesOkFirst (a ++ b) := by
  intro pre sel v post he hv
  rcases List.append_eq_append_iff.1 he with ⟨c, rfl, -⟩ | ⟨c, rfl, hc'⟩
  · exact checked_append.2 (.inl hc)
  · cases c with
    | nil =>
      rw [List.append_nil] at hc
      exact hc
    | cons e c =>
      obtain ⟨rfl, -⟩ := List.cons.inj hc'
      exact absurd trivial (hq _ (List.mem_append_right _ List.mem_cons_self))

theorem quiet_selectLog (dev : VirtIODevice) (f : UInt64) : Quiet (selectLog dev f) := by
  simp [Quiet, selectLog, RegEvent.IsQueueWrite]

/-- A log that ends with the read of FEATURES_OK. -/
theorem checked_readBack (log : List RegEvent) {dev : VirtIODevice} {f : UInt64}
    (ha : dev.accepts f = true) : Checked (log ++ [.read .status (dev.statusAfter f)]) := by
  refine ⟨_, List.mem_append_right _ (List.mem_singleton_self _), ?_⟩
  rw [VirtIODevice.statusAfter, if_pos ha]
  decide

end Accesses

/-! ### Soundness -/

/-- Every size that was programmed is at most QueueNumMax of the queue. -/
def Mmio.Fits (m : Mmio) : Prop :=
  ∀ sel v, .write sel .queueNum v ∈ m.log → v ≤ m.dev.queueNumMax sel

/-- The device has version 2 and was set up with offered features that the split queue implements,
after the driver checked that it accepts them, with queues that are not too large. -/
structure Mmio.Sound (m : Mmio) : Prop where
  version : m.dev.version = version2
  offered : m.driverFeatures &&& ~~~m.dev.features = 0
  packed : m.driverFeatures &&& virtioFRingPacked = 0
  eventIdx : m.driverFeatures &&& virtioFEventIdx = 0
  featuresOk : FeaturesOkFirst m.log
  fits : m.Fits

section Sound

variable {dev : VirtIODevice} {f : UInt64} {log : List RegEvent} {q q' : VirtQueue}

theorem mem_setupLog {sel s v : UInt32} :
    .write sel .queueNum v ∈ q.setupLog s ↔ sel = q.index ∧ v = q.num.toUInt32 := by
  simp [VirtQueue.setupLog, VirtQueue.regs]

/-- The sizes of the two queues. -/
theorem fits_twoQueues (hq : Quiet log) : (Mmio.twoQueues dev f log q q').Fits ↔
    q.num.toUInt32 ≤ dev.queueNumMax q.index ∧ q'.num.toUInt32 ≤ dev.queueNumMax q'.index := by
  have hlog : (Mmio.twoQueues dev f log q q').log =
      log ++ q.setupLog 0 ++ q'.setupLog q.index ++ _ := rfl
  unfold Mmio.Fits
  rw [hlog]
  constructor
  · intro h
    constructor
    · refine h _ _ (List.mem_append_left _ (List.mem_append_left _ (List.mem_append_right _ ?_)))
      exact mem_setupLog.2 ⟨rfl, rfl⟩
    · refine h _ _ (List.mem_append_left _ (List.mem_append_right _ ?_))
      exact mem_setupLog.2 ⟨rfl, rfl⟩
  · rintro ⟨h, h'⟩ sel v hmem
    rcases List.mem_append.1 hmem with hmem | hmem
    · rcases List.mem_append.1 hmem with hmem | hmem
      · rcases List.mem_append.1 hmem with hmem | hmem
        · exact absurd trivial (hq _ hmem)
        · obtain ⟨rfl, rfl⟩ := mem_setupLog.1 hmem
          exact h
      · obtain ⟨rfl, rfl⟩ := mem_setupLog.1 hmem
        exact h'
    · simp at hmem

/-- When two queues are set up after a negotiation that reads FEATURES_OK back. -/
theorem sound_twoQueues (hq : Quiet log) (hc : Checked log) :
    (Mmio.twoQueues dev f log q q').Sound ↔ dev.version = version2 ∧ f &&& ~~~dev.features = 0 ∧
      f &&& virtioFRingPacked = 0 ∧ f &&& virtioFEventIdx = 0 ∧
      q.num.toUInt32 ≤ dev.queueNumMax q.index ∧ q'.num.toUInt32 ≤ dev.queueNumMax q'.index := by
  have hf : (Mmio.twoQueues dev f log q q').driverFeatures = f := word64_halves f
  constructor
  · rintro ⟨hv, ho, hp, he, -, hfits⟩
    rw [hf] at ho hp he
    exact ⟨hv, ho, hp, he, (fits_twoQueues hq).1 hfits⟩
  · rintro ⟨hv, ho, hp, he, hfits⟩
    have hfirst : FeaturesOkFirst (Mmio.twoQueues dev f log q q').log := by
      have hlog : (Mmio.twoQueues dev f log q q').log =
          log ++ q.setupLog 0 ++ q'.setupLog q.index ++ _ := rfl
      rw [hlog, List.append_assoc, List.append_assoc]
      exact .of_checked hq hc
    exact ⟨hv, by rwa [hf], by rwa [hf], by rwa [hf], hfirst, (fits_twoQueues hq).2 hfits⟩

/-- When two queues are set up after a negotiation with offered features that the device
accepts. -/
theorem sound_negotiated {acks : List RegEvent} (hlog : Quiet log) (hacks : Quiet acks)
    (ha : dev.accepts f = true) (ho : f &&& ~~~dev.features = 0) :
    (Mmio.twoQueues dev f (log ++ (acks ++ selectLog dev f ++
      [.read .status (dev.statusAfter f)])) q q').Sound ↔
    dev.version = version2 ∧ f &&& virtioFRingPacked = 0 ∧ f &&& virtioFEventIdx = 0 ∧
      q.num.toUInt32 ≤ dev.queueNumMax q.index ∧ q'.num.toUInt32 ≤ dev.queueNumMax q'.index := by
  have hread : Quiet [.read .status (dev.statusAfter f)] := by simp [Quiet, RegEvent.IsQueueWrite]
  have hquiet := quiet_append hlog
    (quiet_append (quiet_append hacks (quiet_selectLog dev f)) hread)
  have hchecked : Checked (log ++ _) :=
    checked_append.2 (.inr (checked_readBack (acks ++ selectLog dev f) ha))
  rw [sound_twoQueues hquiet hchecked]
  exact and_congr_right fun _ => and_iff_right ho

end Sound

/-! ### The drivers -/

section Drivers

variable {m : Mmio}

theorem not_checked_selectLog (dev : VirtIODevice) (f : UInt64) : ¬ Checked (selectLog dev f) := by
  rintro ⟨w, hw, hne⟩
  obtain rfl : w = 3 := by simpa [selectLog] using hw
  exact hne (by decide)

/-- The log of a device whose transport was found. -/
theorem probed_log (hlog : m.log = []) :
    m.probed.log = [.read .magic m.dev.magic, .read .version m.dev.version] := by
  show m.log ++ [_] ++ [_] = _
  rw [hlog]
  rfl

/-- Before the block driver enables its queue, it has not seen FEATURES_OK. -/
theorem VirtIOBlk.not_sound (hlog : m.log = []) (q : VirtQueue) :
    ¬ (VirtIOBlk.ready m.probed q).Sound := by
  intro h
  have hready : q.setupLog 0 = (q.setupLog 0).dropLast ++ [.write q.index .queueReady 1] := rfl
  have hall : (VirtIOBlk.ready m.probed q).log =
      m.probed.log ++ negotiateLog m.probed ++ q.setupLog 0 ++ _ := rfl
  rw [hready, ← List.append_assoc, List.append_assoc _ [_]] at hall
  have hc := h.featuresOk _ _ _ _ hall (by decide)
  rw [probed_log hlog, negotiateLog, checked_append, checked_append, checked_append] at hc
  rcases hc with (hc | hc | hc) | hc
  · simp [Checked] at hc
  · simp [Checked] at hc
  · exact not_checked_selectLog _ _ hc
  · simp [Checked, VirtQueue.setupLog] at hc

/-- The block driver is sound on no device. -/
theorem VirtIOBlk.sound_iff (hlog : m.log = []) (dma : UInt64 → UInt8)
    (dmaVaddr dmaPaddr : UInt64) (mem : QueueMem) :
    (∀ b m', VirtIOBlk.bringUp dma dmaVaddr dmaPaddr mem m = (.ret (.ok b), m') → m'.Sound) ↔
      m.dev.magic ≠ magicValue := by
  have hrun := VirtIOBlk.bringUp_run dma dmaVaddr dmaPaddr mem m
  constructor
  · intro h hm
    rw [if_pos hm] at hrun
    exact VirtIOBlk.not_sound hlog _ (h _ _ hrun)
  · intro hm b m' h
    rw [if_neg hm] at hrun
    rw [hrun] at h
    exact nomatch (Prod.mk.inj h).1

/-- The features of the network driver. -/
theorem VirtIONet.chosen_and (dev : VirtIODevice) {x : UInt64}
    (hx : ~~~virtioNetFMrgRxbuf &&& x = x) : VirtIONet.chosen dev &&& x = dev.features &&& x := by
  rw [VirtIONet.chosen, UInt64.and_assoc, hx]

/-- What is chosen by a mask was offered. -/
theorem masked_offered (features mask : UInt64) : features &&& mask &&& ~~~features = 0 := by
  rw [UInt64.and_comm features mask, UInt64.and_assoc, UInt64.and_not_self, UInt64.and_zero]

/-- The network driver is sound on a device of version 2 with large queues that offers neither
RING_PACKED nor EVENT_IDX. -/
theorem VirtIONet.sound_iff (hlog : m.log = []) (dma : UInt64 → UInt8) (dmaPaddr : UInt64)
    (mem : NetDir → QueueMem) :
    (∀ n m', VirtIONet.bringUp dma dmaPaddr mem m = (.ret (.ok n), m') → m'.Sound) ↔
      m.dev.magic ≠ magicValue ∨ m.dev.deviceId ≠ devIdNet ∨
      ¬ m.dev.accepts (VirtIONet.chosen m.dev) = true ∨
      (m.dev.version = version2 ∧ m.dev.features &&& virtioFRingPacked = 0 ∧
        m.dev.features &&& virtioFEventIdx = 0 ∧ 128 ≤ m.dev.queueNumMax 0 ∧
        128 ≤ m.dev.queueNumMax 1) := by
  by_cases hup : m.dev.magic = magicValue ∧ m.dev.deviceId = devIdNet ∧
      m.dev.accepts (VirtIONet.chosen m.dev) = true
  · obtain ⟨hm, hid, ha⟩ := hup
    have hquiet : Quiet (identified m).log := by
      show Quiet (m.probed.log ++ [_])
      rw [probed_log hlog]
      simp [Quiet, RegEvent.IsQueueWrite]
    have hp := chosen_and m.dev (x := virtioFRingPacked) (by decide)
    have he := chosen_and m.dev (x := virtioFEventIdx) (by decide)
    set m₁ := ready (identified m) (.fresh 0 128 (dmaPaddr + 8192) (mem .rx))
      (.fresh 1 128 (dmaPaddr + 8192 + 4096) (mem .tx)) with hm₁
    have hsound : m₁.Sound ↔ m.dev.version = version2 ∧
        chosen m.dev &&& virtioFRingPacked = 0 ∧ chosen m.dev &&& virtioFEventIdx = 0 ∧
        128 ≤ m.dev.queueNumMax 0 ∧ 128 ≤ m.dev.queueNumMax 1 :=
      sound_negotiated hquiet (by simp [Quiet, RegEvent.IsQueueWrite]) ha (masked_offered _ _)
    have hiff : (∀ n m', bringUp dma dmaPaddr mem m = (.ret (.ok n), m') → m'.Sound) ↔
        m₁.Sound := by
      constructor
      · exact fun h => h _ _ ((bringUp_run dma dmaPaddr mem m _ _).2 ⟨⟨hm, hid, ha⟩, rfl, rfl⟩)
      · intro h n m' hrun
        obtain ⟨-, -, rfl⟩ := (bringUp_run dma dmaPaddr mem m n m').1 hrun
        exact h
    rw [hiff, hsound, hp, he]
    constructor
    · exact fun h => .inr (.inr (.inr h))
    · rintro (h | h | h | h)
      · exact absurd hm h
      · exact absurd hid h
      · exact absurd ha h
      · exact h
  · constructor
    · intro _
      rw [not_and_or, not_and_or] at hup
      rcases hup with h | h | h
      · exact .inl h
      · exact .inr (.inl h)
      · exact .inr (.inr (.inl h))
    · intro _ n m' hrun
      exact absurd ((bringUp_run dma dmaPaddr mem m n m').1 hrun).1 hup

/-- The GPU driver comes up when the transport is found and the device accepts the features. -/
theorem VirtIOGpu.bringUp_eq (fuel : ℕ) (mem₀ mem₁ : QueueMem) (s : GpuState) :
    VirtIOGpu.bringUp fuel mem₀ mem₁ s = if s.mmio.dev.magic = magicValue then
      VirtIOGpu.init fuel mem₀ mem₁ { s with mmio := s.mmio.probed }
    else (.panic, { s with mmio := s.mmio.record (.read .magic s.mmio.dev.magic) }) := by
  unfold bringUp
  by_cases hm : s.mmio.dev.magic = magicValue
  · rw [if_pos hm, bind_onMmio (newTransport_ok hm)]
  · rw [if_neg hm, bind_onMmio (newTransport_error hm)]
    rfl

/-- The GPU driver is sound on a device of version 2 with large queues. -/
theorem VirtIOGpu.sound_iff {s : GpuState} (hs : s.Unused) (hlog : s.mmio.log = [])
    (mem₁ : QueueMem) :
    (∀ fuel s', VirtIOGpu.bringUp fuel .zeroed mem₁ s = (.ret (.ok ()), s') → s'.mmio.Sound) ↔
      s.mmio.dev.magic ≠ magicValue ∨
      ¬ s.mmio.dev.accepts (VirtIOGpu.chosen s.mmio.dev) = true ∨
      (s.mmio.dev.version = version2 ∧ 16 ≤ s.mmio.dev.queueNumMax 0 ∧
        16 ≤ s.mmio.dev.queueNumMax 1) := by
  have heq := fun fuel => bringUp_eq fuel .zeroed mem₁ s
  by_cases hm : s.mmio.dev.magic = magicValue
  · simp only [if_pos hm] at heq
    set s₁ : GpuState := { s with mmio := s.mmio.probed } with hs₁
    have hs₁' : s₁.Unused := { hs with }
    by_cases ha : s.mmio.dev.accepts (VirtIOGpu.chosen s.mmio.dev) = true
    · have hquiet : Quiet s₁.mmio.log := by
        show Quiet s.mmio.probed.log
        rw [probed_log hlog]
        simp [Quiet, RegEvent.IsQueueWrite]
      have hp : chosen s.mmio.dev &&& virtioFRingPacked = 0 := by
        rw [chosen, UInt64.and_assoc]
        exact UInt64.and_zero
      have he : chosen s.mmio.dev &&& virtioFEventIdx = 0 := by
        rw [chosen, UInt64.and_assoc]
        exact UInt64.and_zero
      have hsound : (configured s₁ .zeroed mem₁).mmio.Sound ↔ s.mmio.dev.version = version2 ∧
          chosen s.mmio.dev &&& virtioFRingPacked = 0 ∧
          chosen s.mmio.dev &&& virtioFEventIdx = 0 ∧ 16 ≤ s.mmio.dev.queueNumMax 0 ∧
          16 ≤ s.mmio.dev.queueNumMax 1 :=
        sound_negotiated hquiet (by simp [Quiet, RegEvent.IsQueueWrite]) ha (masked_offered _ _)
      have hiff : (∀ fuel s', VirtIOGpu.bringUp fuel .zeroed mem₁ s = (.ret (.ok ()), s') →
          s'.mmio.Sound) ↔ (configured s₁ .zeroed mem₁).mmio.Sound := by
        constructor
        · intro h
          obtain ⟨s', hrun⟩ := init_returns mem₁ hs₁' ha (Nat.lt_succ_self _)
          have hmmio := (init_mmio hrun).2
          rw [← hmmio]
          exact h _ _ ((heq _).trans hrun)
        · intro h fuel s' hrun
          rw [(init_mmio ((heq fuel).symm.trans hrun)).2]
          exact h
      rw [hiff, hsound]
      constructor
      · rintro ⟨hv, -, -, h0, h1⟩
        exact .inr (.inr ⟨hv, h0, h1⟩)
      · rintro (h | h | ⟨hv, h0, h1⟩)
        · exact absurd hm h
        · exact absurd ha h
        · exact ⟨hv, hp, he, h0, h1⟩
    · constructor
      · exact fun _ => .inr (.inl ha)
      · intro _ fuel s' hrun
        exact absurd (init_mmio ((heq fuel).symm.trans hrun)).1 ha
  · simp only [if_neg hm] at heq
    constructor
    · exact fun _ => .inl hm
    · intro _ fuel s' hrun
      rw [heq] at hrun
      exact nomatch (Prod.mk.inj hrun).1

end Drivers

/-- **The handshakes.**  For each driver, every successful initialisation of a device is sound iff
the device is one of these. -/
theorem handshake {m : Mmio} (hlog : m.log = []) :
    (∀ dma dmaVaddr dmaPaddr mem,
      (∀ b m', VirtIOBlk.bringUp dma dmaVaddr dmaPaddr mem m = (.ret (.ok b), m') → m'.Sound) ↔
        m.dev.magic ≠ magicValue) ∧
    (∀ dma dmaPaddr mem,
      (∀ n m', VirtIONet.bringUp dma dmaPaddr mem m = (.ret (.ok n), m') → m'.Sound) ↔
        m.dev.magic ≠ magicValue ∨ m.dev.deviceId ≠ devIdNet ∨
        ¬ m.dev.accepts (VirtIONet.chosen m.dev) = true ∨
        (m.dev.version = version2 ∧ m.dev.features &&& virtioFRingPacked = 0 ∧
          m.dev.features &&& virtioFEventIdx = 0 ∧ 128 ≤ m.dev.queueNumMax 0 ∧
          128 ≤ m.dev.queueNumMax 1)) ∧
    ∀ (s : GpuState) (mem₁ : QueueMem), s.mmio = m → s.Unused →
      ((∀ fuel s', VirtIOGpu.bringUp fuel .zeroed mem₁ s = (.ret (.ok ()), s') →
          s'.mmio.Sound) ↔
        m.dev.magic ≠ magicValue ∨ ¬ m.dev.accepts (VirtIOGpu.chosen m.dev) = true ∨
        (m.dev.version = version2 ∧ 16 ≤ m.dev.queueNumMax 0 ∧ 16 ≤ m.dev.queueNumMax 1)) := by
  refine ⟨VirtIOBlk.sound_iff hlog, VirtIONet.sound_iff hlog, ?_⟩
  rintro s mem₁ rfl hs
  exact VirtIOGpu.sound_iff hs hlog mem₁

/-- A network device of version 2 with queues of 256 that offers VERSION_1 only. -/
def plainNet : VirtIODevice where
  magic := magicValue
  version := version2
  deviceId := devIdNet
  features := 0x100000000
  accepts _ := true
  queueNumMax _ := 256
  config _ := 0

theorem handshake_plainNet :
    ∃ n m', VirtIONet.bringUp (fun _ => 0) 0 (fun _ => .zeroed) (.initial plainNet) =
      (.ret (.ok n), m') ∧ m'.Sound := by
  have hup := (VirtIONet.bringUp_run (fun _ => 0) 0 (fun _ => .zeroed) (.initial plainNet) _ _).2
    ⟨⟨rfl, rfl, rfl⟩, rfl, rfl⟩
  have hsound := ((handshake (m := .initial plainNet) rfl).2.1 (fun _ => 0) 0
    (fun _ => .zeroed)).2 (.inr (.inr (.inr ⟨rfl, by decide, by decide, by decide, by decide⟩)))
  exact ⟨_, _, hup, hsound _ _ hup⟩

/-- A network device of version 1 with queues of 64 that offers RING_PACKED and EVENT_IDX. -/
def packedNet : VirtIODevice :=
  { plainNet with version := 1, features := 0x520000000, queueNumMax := fun _ => 64 }

/-- A block device that accepts no features. -/
def refusing : VirtIODevice := { plainNet with deviceId := 2, accepts := fun _ => false }

/-- The network driver takes a device of version 1, with features that the queue does not
implement and queues that are too large; the block driver takes a device that refuses. -/
theorem unsound_bringUp :
    (∃ n m', VirtIONet.bringUp (fun _ => 0) 0 (fun _ => .zeroed) (.initial packedNet) =
        (.ret (.ok n), m') ∧ m'.dev.version ≠ version2 ∧
      m'.driverFeatures &&& virtioFRingPacked ≠ 0 ∧ m'.driverFeatures &&& virtioFEventIdx ≠ 0 ∧
      ¬ m'.Fits ∧ ¬ m'.Sound) ∧
    ∃ b m', VirtIOBlk.bringUp (fun _ => 0) 4096 0 .zeroed (.initial refusing) =
        (.ret (.ok b), m') ∧ m'.dev.accepts m'.driverFeatures = false ∧ ¬ m'.Sound := by
  constructor
  · have hup := (VirtIONet.bringUp_run (fun _ => 0) 0 (fun _ => .zeroed) (.initial packedNet) _
      _).2 ⟨⟨rfl, rfl, rfl⟩, rfl, rfl⟩
    have hversion : packedNet.version ≠ version2 := by decide
    have hf : ∀ rx tx, (VirtIONet.ready (VirtIONet.identified (.initial packedNet)) rx
        tx).driverFeatures = VirtIONet.chosen packedNet := fun _ _ => word64_halves _
    refine ⟨_, _, hup, hversion, ?_, ?_, ?_, fun h => hversion h.version⟩
    · rw [hf]
      decide
    · rw [hf]
      decide
    · intro h
      have hle : (128 : UInt32) ≤ packedNet.queueNumMax 0 := h 0 128 (List.mem_append_left _
        (List.mem_append_left _ (List.mem_append_right _ (mem_setupLog.2 ⟨rfl, rfl⟩))))
      exact absurd hle (by decide)
  · have hup := VirtIOBlk.bringUp_run (fun _ => 0) 4096 0 .zeroed (.initial refusing)
    have hm : (Mmio.initial refusing).dev.magic = magicValue := rfl
    rw [if_pos hm] at hup
    exact ⟨_, _, hup, rfl, VirtIOBlk.not_sound rfl _⟩

end GlendaDrivers
