import GlendaDrivers.Virtio.Block
import GlendaDrivers.Virtio.GpuChannel
import GlendaDrivers.Virtio.Net
import GlendaDrivers.Virtio.Registers

/-!
# The initialisation of the VirtIO drivers

`VirtIOTransport::new`, and `new` and `init` of the block and the network driver, as programs over
the registers of a device; `init` of the GPU driver is in `Gpu`.  The memory of a queue is given.

* `newTransport`: the checks of the transport;
* `VirtIOBlk.negotiate`, `VirtIOBlk.init`, `VirtIONet.negotiate`, `VirtIONet.init`;
* `VirtIOBlk.bringUp`, `VirtIONet.bringUp`, `VirtIOGpu.bringUp`: transport and driver together, as
  the services call them;
* `Quiet`: accesses that program no queue; `negotiate_run` of each driver.
-/

namespace GlendaDrivers

open Prog

def magicValue : UInt32 := 0x74726976
def version2 : UInt32 := 2
def devIdNet : UInt32 := 1

def virtioFRingPacked : UInt64 := 0x400000000
def virtioFEventIdx : UInt64 := 0x20000000
def virtioBlkFBlkSize : UInt64 := 0x40

/-- `1 << VIRTIO_NET_F_MRG_RXBUF`. -/
def virtioNetFMrgRxbuf : UInt64 := 0x8000

/-- `VirtIOTransport::new`.  Nothing follows from the test of the version. -/
def newTransport : Prog Mmio (Except VirtIOError Unit) := do
  let magic ← readReg .magic
  if magic ≠ magicValue then return .error .invalidHeader
  else
    let version ← readReg .version
    when (version ≠ version2) (pure ())
    return .ok ()

/-- The bytes of the configuration space from offset `o` on. -/
def readConfig (o n : ℕ) : Prog Mmio (List UInt8) :=
  ofFn fun m => ((List.range n).map fun i => m.dev.config (o + i), m)

namespace VirtIOBlk

/-- `new`, with the DMA memory. -/
def new (dma : UInt64 → UInt8) : VirtIOBlk where
  transport := ⟨0, []⟩
  queue := none
  dmaVaddr := 0
  dmaPaddr := 0
  dma := dma
  pendingInfo _ := none
  ringServer := none
  buffer := none
  blkSize := 512

/-- The first part of `init`: reset and feature negotiation. -/
def negotiate : Prog Mmio UInt64 := do
  setStatus 0
  setStatus (statusAcknowledge ||| statusDriver)
  let features ← getDeviceFeatures
  let features := features &&& ~~~(virtioFEventIdx ||| virtioFRingPacked)
  setDriverFeatures features
  addStatus statusFeaturesOk
  return features

/-- `blk_size`, at offset 20 in the configuration space. -/
def readBlkSize : Prog Mmio UInt32 := do
  let bytes ← readConfig 20 4
  return UInt32.ofNat (Bytes.ofLittle bytes)

/-- `init`. -/
def init (b : VirtIOBlk) (dmaVaddr dmaPaddr : UInt64) (mem : QueueMem) :
    Prog Mmio (Except Error VirtIOBlk) := do
  let features ← negotiate
  let blkSize ← (if features &&& virtioBlkFBlkSize ≠ 0 then readBlkSize else pure b.blkSize)
  let queue ← ofOutcome (VirtQueue.new 0 128 (dmaPaddr + 8192) mem)
  setupQueue queue
  addStatus statusDriverOk
  return .ok { b with
    dmaVaddr := dmaVaddr
    dmaPaddr := dmaPaddr
    blkSize := blkSize
    queue := some queue }

/-- Transport and driver; the service does not go on without a transport. -/
def bringUp (dma : UInt64 → UInt8) (dmaVaddr dmaPaddr : UInt64) (mem : QueueMem) :
    Prog Mmio (Except Error VirtIOBlk) := do
  let r ← newTransport
  match r with
  | .error _ => panic
  | .ok () => (new dma).init dmaVaddr dmaPaddr mem

end VirtIOBlk

namespace VirtIONet

/-- `new`, with the DMA memory.  The base address is not null. -/
def new (dma : UInt64 → UInt8) : Prog Mmio (Except VirtIOError VirtIONet) := do
  let r ← newTransport
  attempt r fun _ => do
    let id ← readReg .deviceId
    if id ≠ devIdNet then
      -- for the message
      let _ ← readReg .deviceId
      return .error .deviceNotFound
    else
      return .ok {
        transport := ⟨0, []⟩
        mac := List.replicate 6 0
        queue := fun _ => none
        dmaPaddr := 0
        dma := dma
        pending := fun _ _ => none
        ringServer := none
        buffer := none }

/-- The first part of `init`: reset, feature negotiation, and whether FEATURES_OK is kept. -/
def negotiate : Prog Mmio Bool := do
  setStatus 0
  addStatus (statusAcknowledge ||| statusDriver)
  let deviceFeatures ← getDeviceFeatures
  setDriverFeatures (deviceFeatures &&& ~~~virtioNetFMrgRxbuf)
  addStatus statusFeaturesOk
  let status ← getStatus
  return status &&& statusFeaturesOk ≠ 0

/-- `init`; `mem i` is the memory of queue `i`. -/
def init (n : VirtIONet) (dmaPaddr : UInt64) (mem : NetDir → QueueMem) :
    Prog Mmio (Except VirtIOError VirtIONet) := do
  let ok ← negotiate
  if ¬ ok then return .error .invalidHeader
  else
    let rxPaddr := dmaPaddr + 8192
    let rxQueue ← ofOutcome (VirtQueue.new 0 128 rxPaddr (mem .rx))
    setupQueue rxQueue
    let txPaddr := rxPaddr + 4096
    let txQueue ← ofOutcome (VirtQueue.new 1 128 txPaddr (mem .tx))
    setupQueue txQueue
    let mac ← readConfig 0 6
    addStatus statusDriverOk
    return .ok (({ n with dmaPaddr := dmaPaddr, mac := mac }.setQueue .rx rxQueue).setQueue .tx
      txQueue)

/-- Transport and driver. -/
def bringUp (dma : UInt64 → UInt8) (dmaPaddr : UInt64) (mem : NetDir → QueueMem) :
    Prog Mmio (Except VirtIOError VirtIONet) := do
  let r ← new dma
  attempt r fun n => n.init dmaPaddr mem

end VirtIONet

namespace VirtIOGpu

/-- Transport and driver; the service does not go on without a transport. -/
def bringUp (fuel : ℕ) (mem₀ mem₁ : QueueMem) : Prog GpuState (Except Error Unit) := do
  let r ← onMmio newTransport
  match r with
  | .error _ => panic
  | .ok () => init fuel mem₀ mem₁

end VirtIOGpu

/-! ### Accesses during the negotiation -/

/-- The registers after reset, ACKNOWLEDGE and DRIVER. -/
def Mmio.acked (dev : VirtIODevice) (log : List RegEvent) : Mmio :=
  { initial dev with status := 3, log := log }

/-- The status after a choice of features. -/
def VirtIODevice.statusAfter (dev : VirtIODevice) (f : UInt64) : UInt32 :=
  if dev.accepts f then 11 else 3

/-- The registers after the driver chose the features `f`, before a queue is set up. -/
def Mmio.negotiated (dev : VirtIODevice) (f : UInt64) (log : List RegEvent) : Mmio :=
  { initial dev with
    status := dev.statusAfter f
    deviceFeaturesSel := 1
    driverFeaturesSel := 1
    driverFeaturesLow := f.toUInt32
    driverFeaturesHigh := (f >>> 32).toUInt32
    log := log }

/-- The accesses with which a driver reads the offered features and chooses `f`. -/
def selectLog (dev : VirtIODevice) (f : UInt64) : List RegEvent :=
  [.write 0 .deviceFeaturesSel 0, .read .deviceFeatures dev.features.toUInt32,
    .write 0 .deviceFeaturesSel 1, .read .deviceFeatures (dev.features >>> 32).toUInt32,
    .write 0 .driverFeaturesSel 0, .write 0 .driverFeatures f.toUInt32,
    .write 0 .driverFeaturesSel 1, .write 0 .driverFeatures (f >>> 32).toUInt32,
    .read .status 3, .write 0 .status 11]

section Negotiation

variable {m : Mmio} {v w : UInt32}

theorem setStatus_run (hv : v ≠ 0) : setStatus v m = (.ret (), { m with
    status := if m.dev.accepts m.driverFeatures then v else v &&& ~~~statusFeaturesOk
    log := m.log ++ [.write m.queueSel .status v] }) := by
  have h : setStatus v m = (.ret (), (m.storeStatus v).record (.write m.queueSel .status v)) := rfl
  rw [h, Mmio.storeStatus, if_neg hv]
  by_cases ha : m.dev.accepts m.driverFeatures = true
  · rw [if_pos ha, if_pos ha]
    rfl
  · rw [if_neg ha, if_neg ha]
    rfl

/-- A status without FEATURES_OK is stored as it is. -/
theorem setStatus_keep (hv : v ≠ 0) (hw : v &&& ~~~statusFeaturesOk = v) :
    setStatus v m = (.ret (), { m with
      status := v
      log := m.log ++ [.write m.queueSel .status v] }) := by
  rw [setStatus_run hv, hw, ite_self]

theorem setStatus_zero (m : Mmio) : setStatus 0 m =
    (.ret (), { Mmio.initial m.dev with log := m.log ++ [.write m.queueSel .status 0] }) := rfl

theorem addStatus_eq (v : UInt32) (m : Mmio) : addStatus v m =
    setStatus (m.status ||| v) { m with log := m.log ++ [.read .status m.status] } := rfl

theorem addStatus_keep (hw : m.status ||| v = w) (hne : w ≠ 0)
    (hkeep : w &&& ~~~statusFeaturesOk = w) : addStatus v m = (.ret (), { m with
      status := w
      log := m.log ++ [.read .status m.status, .write m.queueSel .status w] }) := by
  rw [addStatus_eq, hw, setStatus_keep hne hkeep]
  simp only [List.append_assoc]
  rfl

theorem getDeviceFeatures_run (m : Mmio) : getDeviceFeatures m = (.ret m.dev.features, { m with
    deviceFeaturesSel := 1
    log := m.log ++ [.write m.queueSel .deviceFeaturesSel 0,
      .read .deviceFeatures m.dev.features.toUInt32, .write m.queueSel .deviceFeaturesSel 1,
      .read .deviceFeatures (m.dev.features >>> 32).toUInt32] }) := by
  have h : getDeviceFeatures m =
      (.ret (word64 m.dev.features.toUInt32 (m.dev.features >>> 32).toUInt32), _) := rfl
  rw [h, word64_halves]
  simp [Mmio.record, Mmio.store, Mmio.value]

theorem setDriverFeatures_run (f : UInt64) (m : Mmio) : setDriverFeatures f m = (.ret (), { m with
    driverFeaturesSel := 1
    driverFeaturesLow := f.toUInt32
    driverFeaturesHigh := (f >>> 32).toUInt32
    log := m.log ++ [.write m.queueSel .driverFeaturesSel 0,
      .write m.queueSel .driverFeatures f.toUInt32, .write m.queueSel .driverFeaturesSel 1,
      .write m.queueSel .driverFeatures (f >>> 32).toUInt32] }) := by
  have h : setDriverFeatures f m = (.ret (), _) := rfl
  rw [h]
  simp [Mmio.record, Mmio.store]

/-- The part of the negotiation that the drivers share: the features `g` of what is offered. -/
theorem select_run {α : Type} (g : UInt64 → UInt64) (k : UInt64 → Prog Mmio α)
    (dev : VirtIODevice) (log : List RegEvent) :
    (do
      let features ← getDeviceFeatures
      setDriverFeatures (g features)
      addStatus statusFeaturesOk
      k features : Prog Mmio α) (.acked dev log) =
    k dev.features (.negotiated dev (g dev.features) (log ++ selectLog dev (g dev.features))) := by
  have hne : (3 : UInt32) ||| statusFeaturesOk ≠ 0 := by decide
  rw [bind_of_ret (getDeviceFeatures_run _), bind_of_ret (setDriverFeatures_run _ _),
    bind_of_ret ((addStatus_eq _ _).trans (setStatus_run hne))]
  simp only [Mmio.negotiated, Mmio.driverFeatures, word64_halves, Mmio.acked, selectLog,
    VirtIODevice.statusAfter, List.append_assoc]
  rfl

end Negotiation

/-- The features that the block driver chooses. -/
def VirtIOBlk.chosen (dev : VirtIODevice) : UInt64 :=
  dev.features &&& ~~~(virtioFEventIdx ||| virtioFRingPacked)

/-- The features that the network driver chooses. -/
def VirtIONet.chosen (dev : VirtIODevice) : UInt64 := dev.features &&& ~~~virtioNetFMrgRxbuf

/-- The features that the GPU driver chooses. -/
def VirtIOGpu.chosen (dev : VirtIODevice) : UInt64 := dev.features &&& VirtIOGpu.virtioFVersion1

/-- The accesses of the negotiation of the block driver. -/
def VirtIOBlk.negotiateLog (m : Mmio) : List RegEvent :=
  [.write m.queueSel .status 0, .write 0 .status 3] ++ selectLog m.dev (chosen m.dev)

/-- The accesses of the negotiation of the network driver. -/
def VirtIONet.negotiateLog (m : Mmio) : List RegEvent :=
  [.write m.queueSel .status 0, .read .status 0, .write 0 .status 3] ++
    selectLog m.dev (chosen m.dev) ++ [.read .status (m.dev.statusAfter (chosen m.dev))]

/-- The accesses of the negotiation of the GPU driver. -/
def VirtIOGpu.negotiateLog (m : Mmio) : List RegEvent :=
  [.write m.queueSel .status 0, .read .status 0, .write 0 .status 1, .read .status 1,
      .write 0 .status 3] ++
    selectLog m.dev (chosen m.dev) ++ [.read .status (m.dev.statusAfter (chosen m.dev))]

section Drivers

variable (m : Mmio)

/-- The test whether FEATURES_OK was kept. -/
theorem featuresOk_statusAfter (dev : VirtIODevice) (f : UInt64) :
    decide (dev.statusAfter f &&& statusFeaturesOk ≠ 0) = dev.accepts f := by
  unfold VirtIODevice.statusAfter
  cases dev.accepts f <;> decide

/-- The end of a negotiation that reads FEATURES_OK back. -/
theorem readBack_run (f : UInt64) (log : List RegEvent) :
    (do
      let status ← getStatus
      return status &&& statusFeaturesOk ≠ 0 : Prog Mmio Bool) (.negotiated m.dev f log) =
    (.ret (m.dev.accepts f),
      .negotiated m.dev f (log ++ [.read .status (m.dev.statusAfter f)])) := by
  rw [← featuresOk_statusAfter]
  rfl

theorem VirtIOBlk.negotiate_run : VirtIOBlk.negotiate m =
    (.ret (chosen m.dev), .negotiated m.dev (chosen m.dev) (m.log ++ negotiateLog m)) := by
  have hack : statusAcknowledge ||| statusDriver ≠ 0 := by decide
  have hkeep : (statusAcknowledge ||| statusDriver) &&& ~~~statusFeaturesOk =
      statusAcknowledge ||| statusDriver := by decide
  unfold VirtIOBlk.negotiate
  rw [bind_of_ret (setStatus_zero m), bind_of_ret (setStatus_keep hack hkeep)]
  refine (select_run _ _ m.dev _).trans ?_
  simp only [negotiateLog, List.append_assoc]
  rfl

theorem VirtIONet.negotiate_run : VirtIONet.negotiate m =
    (.ret (m.dev.accepts (chosen m.dev)),
      .negotiated m.dev (chosen m.dev) (m.log ++ negotiateLog m)) := by
  have hack : (0 : UInt32) ||| (statusAcknowledge ||| statusDriver) = 3 := by decide
  unfold VirtIONet.negotiate
  rw [bind_of_ret (setStatus_zero m), bind_of_ret (addStatus_keep hack (by decide) (by decide))]
  refine (select_run _ _ m.dev _).trans ((readBack_run m _ _).trans ?_)
  simp only [negotiateLog, List.append_assoc]
  rfl

theorem VirtIOGpu.negotiate_run : VirtIOGpu.negotiate m =
    (.ret (m.dev.accepts (chosen m.dev)),
      .negotiated m.dev (chosen m.dev) (m.log ++ negotiateLog m)) := by
  have hack : (0 : UInt32) ||| statusAcknowledge = 1 := by decide
  have hdriver : (1 : UInt32) ||| statusDriver = 3 := by decide
  unfold VirtIOGpu.negotiate
  rw [bind_of_ret (setStatus_zero m), bind_of_ret (addStatus_keep hack (by decide) (by decide)),
    bind_of_ret (addStatus_keep hdriver (by decide) (by decide))]
  refine (select_run _ _ m.dev _).trans ((readBack_run m _ _).trans ?_)
  simp only [negotiateLog, List.append_assoc]
  rfl

end Drivers

/-! ### Successful initialisations -/

/-- The registers when DRIVER_OK was added. -/
def Mmio.driverOk (m : Mmio) : Mmio :=
  let status := m.status ||| statusDriverOk
  { m with
    status := if m.dev.accepts m.driverFeatures then status else status &&& ~~~statusFeaturesOk
    log := m.log ++ [.read .status m.status, .write m.queueSel .status status] }

theorem driverOk_run {m : Mmio} {dev : VirtIODevice} {f : UInt64}
    (hm : m.status = dev.statusAfter f) : addStatus statusDriverOk m = (.ret (), m.driverOk) := by
  have hne : m.status ||| statusDriverOk ≠ 0 := by
    rw [hm, VirtIODevice.statusAfter]
    cases dev.accepts f <;> decide
  rw [addStatus_eq, setStatus_run hne, Mmio.driverOk]
  simp only [List.append_assoc]
  rfl

/-- The registers when two queues were set up after a negotiation. -/
def Mmio.twoQueues (dev : VirtIODevice) (f : UInt64) (log : List RegEvent) (q q' : VirtQueue) :
    Mmio :=
  (((negotiated dev f log).withQueue q).withQueue q').driverOk

/-- The registers when the transport was found. -/
def Mmio.probed (m : Mmio) : Mmio :=
  (m.record (.read .magic m.dev.magic)).record (.read .version m.dev.version)

theorem newTransport_ok {m : Mmio} (hm : m.dev.magic = magicValue) :
    newTransport m = (.ret (.ok ()), m.probed) := by
  have hread : readReg .magic m =
      (.ret m.dev.magic, m.record (.read .magic m.dev.magic)) := rfl
  have hversion : readReg .version (m.record (.read .magic m.dev.magic)) =
      (.ret m.dev.version, m.probed) := rfl
  have hwhen : when (m.dev.version ≠ version2) (pure () : Prog Mmio Unit) = pure () := ite_self _
  unfold newTransport
  rw [bind_of_ret hread, if_neg (not_not.2 hm), bind_of_ret hversion, hwhen]
  rfl

theorem newTransport_error {m : Mmio} (hm : m.dev.magic ≠ magicValue) :
    newTransport m = (.ret (.error .invalidHeader), m.record (.read .magic m.dev.magic)) := by
  have hread : readReg .magic m =
      (.ret m.dev.magic, m.record (.read .magic m.dev.magic)) := rfl
  unfold newTransport
  rw [bind_of_ret hread, if_pos hm]
  rfl

/-- What a program does after the transport was tried. -/
theorem newTransport_bind {α : Type} {m : Mmio} (k : Except VirtIOError Unit → Prog Mmio α) :
    (newTransport >>= k) m = if m.dev.magic = magicValue then k (.ok ()) m.probed
      else k (.error .invalidHeader) (m.record (.read .magic m.dev.magic)) := by
  by_cases hm : m.dev.magic = magicValue
  · rw [if_pos hm, bind_of_ret (newTransport_ok hm)]
  · rw [if_neg hm, bind_of_ret (newTransport_error hm)]

theorem new_eq (index : UInt32) (pa : UInt64) (mem : QueueMem) :
    VirtQueue.new index 128 pa mem = .ret (.fresh index 128 pa mem) := if_neg (by decide)

namespace VirtIOBlk

/-- The block size that `init` finds. -/
def blkSizeOf (dev : VirtIODevice) : UInt32 :=
  if chosen dev &&& virtioBlkFBlkSize ≠ 0 then
    UInt32.ofNat (Bytes.ofLittle ((List.range 4).map fun i => dev.config (20 + i)))
  else 512

/-- The registers after `init`. -/
def ready (m : Mmio) (q : VirtQueue) : Mmio :=
  ((Mmio.negotiated m.dev (chosen m.dev) (m.log ++ negotiateLog m)).withQueue q).driverOk

/-- The driver after `init`. -/
def started (dev : VirtIODevice) (dma : UInt64 → UInt8) (dmaVaddr dmaPaddr : UInt64)
    (mem : QueueMem) : VirtIOBlk :=
  { new dma with
    dmaVaddr := dmaVaddr
    dmaPaddr := dmaPaddr
    blkSize := blkSizeOf dev
    queue := some (.fresh 0 128 (dmaPaddr + 8192) mem) }

variable (dma : UInt64 → UInt8) (dmaVaddr dmaPaddr : UInt64) (mem : QueueMem) (m : Mmio)

theorem init_run : (new dma).init dmaVaddr dmaPaddr mem m =
    (.ret (.ok (started m.dev dma dmaVaddr dmaPaddr mem)),
      ready m (.fresh 0 128 (dmaPaddr + 8192) mem)) := by
  set m₁ := Mmio.negotiated m.dev (chosen m.dev) (m.log ++ negotiateLog m) with hm₁
  have hsize : (if chosen m.dev &&& virtioBlkFBlkSize ≠ 0 then readBlkSize
      else pure (new dma).blkSize : Prog Mmio UInt32) m₁ = (.ret (blkSizeOf m.dev), m₁) := by
    unfold blkSizeOf
    by_cases hf : chosen m.dev &&& virtioBlkFBlkSize ≠ 0
    · rw [if_pos hf, if_pos hf]
      rfl
    · rw [if_neg hf, if_neg hf]
      rfl
  have hok : (m₁.withQueue (.fresh 0 128 (dmaPaddr + 8192) mem)).status =
      m.dev.statusAfter (chosen m.dev) := rfl
  unfold init
  rw [bind_of_ret (negotiate_run m), ← hm₁, bind_of_ret hsize, new_eq,
    bind_of_ret (m := ofOutcome (.ret _)) rfl, bind_of_ret (setupQueue_run _ _),
    bind_of_ret (driverOk_run hok)]
  rfl

theorem bringUp_run : bringUp dma dmaVaddr dmaPaddr mem m =
    if m.dev.magic = magicValue then
      (.ret (.ok (started m.dev dma dmaVaddr dmaPaddr mem)),
        ready m.probed (.fresh 0 128 (dmaPaddr + 8192) mem))
    else (.panic, m.record (.read .magic m.dev.magic)) := by
  unfold bringUp
  rw [newTransport_bind]
  dsimp only
  rw [init_run]
  rfl

/-- After `init` on zeroed memory no request was made. -/
theorem started_started (dev : VirtIODevice) (h : dmaVaddr ≠ 0) :
    (started dev dma dmaVaddr dmaPaddr .zeroed).Started := ⟨rfl, h, rfl⟩

end VirtIOBlk

namespace VirtIONet

/-- The registers after `new`. -/
def identified (m : Mmio) : Mmio := m.probed.record (.read .deviceId m.dev.deviceId)

/-- The registers after `init`. -/
def ready (m : Mmio) (rx tx : VirtQueue) : Mmio :=
  .twoQueues m.dev (chosen m.dev) (m.log ++ negotiateLog m) rx tx

/-- The driver after `new`. -/
def created (dma : UInt64 → UInt8) : VirtIONet where
  transport := ⟨0, []⟩
  mac := List.replicate 6 0
  queue _ := none
  dmaPaddr := 0
  dma := dma
  pending _ _ := none
  ringServer := none
  buffer := none

/-- The driver after `init`. -/
def started (dev : VirtIODevice) (dma : UInt64 → UInt8) (dmaPaddr : UInt64)
    (mem : NetDir → QueueMem) : VirtIONet :=
  ({ created dma with
      dmaPaddr := dmaPaddr
      mac := (List.range 6).map fun i => dev.config (0 + i) }.setQueue .rx
    (.fresh 0 128 (dmaPaddr + 8192) (mem .rx))).setQueue .tx
    (.fresh 1 128 (dmaPaddr + 8192 + 4096) (mem .tx))

variable (dma : UInt64 → UInt8) (dmaPaddr : UInt64) (mem : NetDir → QueueMem) (m : Mmio)

theorem init_ok (h : m.dev.accepts (chosen m.dev) = true) :
    (created dma).init dmaPaddr mem m = (.ret (.ok (started m.dev dma dmaPaddr mem)),
      ready m (.fresh 0 128 (dmaPaddr + 8192) (mem .rx))
        (.fresh 1 128 (dmaPaddr + 8192 + 4096) (mem .tx))) := by
  set rx : VirtQueue := .fresh 0 128 (dmaPaddr + 8192) (mem .rx) with hrx
  set tx : VirtQueue := .fresh 1 128 (dmaPaddr + 8192 + 4096) (mem .tx) with htx
  set m₁ := Mmio.negotiated m.dev (chosen m.dev) (m.log ++ negotiateLog m) with hm₁
  have hok : ((m₁.withQueue rx).withQueue tx).status = m.dev.statusAfter (chosen m.dev) := rfl
  have hmac : readConfig 0 6 ((m₁.withQueue rx).withQueue tx) =
      (.ret ((List.range 6).map fun i => m.dev.config (0 + i)),
        (m₁.withQueue rx).withQueue tx) := rfl
  unfold init
  rw [bind_of_ret (negotiate_run m), ← hm₁, h, if_neg (by decide)]
  dsimp only
  rw [new_eq, new_eq, ← hrx, ← htx, bind_of_ret (m := ofOutcome (.ret _)) rfl,
    bind_of_ret (setupQueue_run _ _), bind_of_ret (m := ofOutcome (.ret _)) rfl,
    bind_of_ret (setupQueue_run _ _), bind_of_ret hmac, bind_of_ret (driverOk_run hok)]
  rfl

theorem init_error (n : VirtIONet) (h : ¬ m.dev.accepts (chosen m.dev) = true) :
    n.init dmaPaddr mem m = (.ret (.error .invalidHeader),
      .negotiated m.dev (chosen m.dev) (m.log ++ negotiateLog m)) := by
  unfold init
  rw [bind_of_ret (negotiate_run m), if_pos h]
  rfl

theorem new_run : new dma m =
    if m.dev.magic = magicValue then
      if m.dev.deviceId = devIdNet then (.ret (.ok (created dma)), identified m)
      else (.ret (.error .deviceNotFound), (identified m).record (.read .deviceId m.dev.deviceId))
    else (.ret (.error .invalidHeader), m.record (.read .magic m.dev.magic)) := by
  have hread : readReg .deviceId m.probed = (.ret m.dev.deviceId, identified m) := rfl
  unfold new
  rw [newTransport_bind, attempt_ok, attempt_error, bind_of_ret hread]
  by_cases hid : m.dev.deviceId = devIdNet
  · rw [if_neg (not_not.2 hid), if_pos hid]
    rfl
  · rw [if_pos hid, if_neg hid]
    rfl

/-- The network driver and a device that passes all checks. -/
theorem bringUp_ok (hm : m.dev.magic = magicValue) (hid : m.dev.deviceId = devIdNet)
    (ha : m.dev.accepts (chosen m.dev) = true) :
    bringUp dma dmaPaddr mem m = (.ret (.ok (started m.dev dma dmaPaddr mem)),
      ready (identified m) (.fresh 0 128 (dmaPaddr + 8192) (mem .rx))
        (.fresh 1 128 (dmaPaddr + 8192 + 4096) (mem .tx))) := by
  have hnew : new dma m = (.ret (.ok (created dma)), identified m) := by
    rw [new_run, if_pos hm, if_pos hid]
  unfold bringUp
  rw [bind_of_ret hnew, attempt_ok, init_ok dma dmaPaddr mem (identified m) ha]
  rfl

/-- The network driver and any other device. -/
theorem bringUp_error (h : ¬ (m.dev.magic = magicValue ∧ m.dev.deviceId = devIdNet ∧
    m.dev.accepts (chosen m.dev) = true)) :
    ∃ e m', bringUp dma dmaPaddr mem m = (.ret (.error e), m') := by
  unfold bringUp
  by_cases hm : m.dev.magic = magicValue
  · by_cases hid : m.dev.deviceId = devIdNet
    · have hnew : new dma m = (.ret (.ok (created dma)), identified m) := by
        rw [new_run, if_pos hm, if_pos hid]
      have ha : ¬ m.dev.accepts (chosen m.dev) = true := fun ha => h ⟨hm, hid, ha⟩
      rw [bind_of_ret hnew, attempt_ok, init_error dmaPaddr mem (identified m) (created dma) ha]
      exact ⟨_, _, rfl⟩
    · have hnew : ∃ m', new dma m = (.ret (.error .deviceNotFound), m') := by
        rw [new_run, if_pos hm, if_neg hid]
        exact ⟨_, rfl⟩
      obtain ⟨m', hnew⟩ := hnew
      rw [bind_of_ret hnew]
      exact ⟨_, _, rfl⟩
  · have hnew : ∃ m', new dma m = (.ret (.error .invalidHeader), m') := by
      rw [new_run, if_neg hm]
      exact ⟨_, rfl⟩
    obtain ⟨m', hnew⟩ := hnew
    rw [bind_of_ret hnew]
    exact ⟨_, _, rfl⟩

/-- The network driver comes up iff the device is a network device that accepts the features. -/
theorem bringUp_run (n : VirtIONet) (m' : Mmio) :
    bringUp dma dmaPaddr mem m = (.ret (.ok n), m') ↔
      (m.dev.magic = magicValue ∧ m.dev.deviceId = devIdNet ∧
        m.dev.accepts (chosen m.dev) = true) ∧
      n = started m.dev dma dmaPaddr mem ∧
      m' = ready (identified m) (.fresh 0 128 (dmaPaddr + 8192) (mem .rx))
        (.fresh 1 128 (dmaPaddr + 8192 + 4096) (mem .tx)) := by
  by_cases h : m.dev.magic = magicValue ∧ m.dev.deviceId = devIdNet ∧
      m.dev.accepts (chosen m.dev) = true
  · rw [bringUp_ok dma dmaPaddr mem m h.1 h.2.1 h.2.2]
    constructor
    · intro hrun
      obtain ⟨h1, h2⟩ := Prod.mk.inj hrun
      exact ⟨h, (Except.ok.inj (Outcome.ret.inj h1)).symm, h2.symm⟩
    · rintro ⟨-, rfl, rfl⟩
      rfl
  · obtain ⟨e, m'', herr⟩ := bringUp_error dma dmaPaddr mem m h
    rw [herr]
    constructor
    · intro hrun
      exact nomatch (Prod.mk.inj hrun).1
    · intro hok
      exact absurd hok.1 h

end VirtIONet

namespace VirtIOGpu

/-- The registers after `init`. -/
def ready (m : Mmio) (control cursor : VirtQueue) : Mmio :=
  .twoQueues m.dev (chosen m.dev) (m.log ++ negotiateLog m) control cursor

/-- The last part of `init`: the command for the display size. -/
def readSize (fuel : ℕ) : Prog GpuState (Except Error Unit) := do
  let r ← sendCmd fuel (gpuHeader .getDisplayInfo) sizeOfGpuDisplayInfo
  attempt r fun info => do
    if field32 info 0 = GpuCmdType.respOkDisplayInfo.code then
      setSize (field32 info 32).toUInt64 (field32 info 36).toUInt64
    else
      setSize 1280 720
    return .ok ()

/-- The state before the first command. -/
def configured (s : GpuState) (mem₀ mem₁ : QueueMem) : GpuState :=
  let control : VirtQueue := .fresh 0 16 s.gpu.cmdBufPa mem₀
  let cursor : VirtQueue := .fresh 1 16 (s.gpu.cmdBufPa + 4096) mem₁
  { s with
    mmio := ready s.mmio control cursor
    gpu := { s.gpu with controlVq := some control, cursorVq := some cursor } }

variable {fuel : ℕ} {mem₀ mem₁ : QueueMem} {s s' : GpuState}

theorem init_ok (h : s.mmio.dev.accepts (chosen s.mmio.dev) = true) :
    init fuel mem₀ mem₁ s = readSize fuel (configured s mem₀ mem₁) := by
  set m₁ := Mmio.negotiated s.mmio.dev (chosen s.mmio.dev) (s.mmio.log ++ negotiateLog s.mmio)
    with hm₁
  have hok : ((m₁.withQueue (.fresh 0 16 s.gpu.cmdBufPa mem₀)).withQueue
      (.fresh 1 16 (s.gpu.cmdBufPa + 4096) mem₁)).status =
        s.mmio.dev.statusAfter (chosen s.mmio.dev) := rfl
  unfold init
  rw [bind_onMmio (negotiate_run s.mmio), ← hm₁, h, if_neg (by decide),
    bind_of_ret (setupQueues_run mem₀ mem₁ _), bind_onMmio (driverOk_run hok)]
  rfl

theorem init_error (fuel : ℕ) (mem₀ mem₁ : QueueMem)
    (h : ¬ s.mmio.dev.accepts (chosen s.mmio.dev) = true) :
    ∃ s', init fuel mem₀ mem₁ s = (.ret (.error .notSupported), s') := by
  unfold init
  rw [bind_onMmio (negotiate_run s.mmio), if_pos h]
  exact ⟨_, rfl⟩

theorem readSize_keeps (mmio : Mmio) (server : Option IoUringServer) (fuel : ℕ) :
    Keeps (Untouched mmio server) (readSize fuel) := by
  refine Keeps.bind (sendCmd_keeps fuel _ _) fun r => ?_
  cases r with
  | error e => exact Keeps.pure _
  | ok info =>
    refine Keeps.ite ?_ ?_
    · exact Keeps.bind (Keeps.modify fun _ h => h) fun _ => Keeps.pure _
    · exact Keeps.bind (Keeps.modify fun _ h => h) fun _ => Keeps.pure _

/-- When the display size is read, the registers are as `init` has left them. -/
theorem init_mmio (h : init fuel mem₀ mem₁ s = (.ret (.ok ()), s')) :
    s.mmio.dev.accepts (chosen s.mmio.dev) = true ∧
      s'.mmio = (configured s mem₀ mem₁).mmio := by
  by_cases ha : s.mmio.dev.accepts (chosen s.mmio.dev) = true
  · rw [init_ok ha] at h
    have hk := (readSize_keeps (configured s mem₀ mem₁).mmio _ fuel).snd ⟨rfl, rfl⟩
    rw [h] at hk
    exact ⟨ha, hk.1⟩
  · obtain ⟨s'', herr⟩ := init_error fuel mem₀ mem₁ ha
    rw [herr] at h
    exact nomatch (Prod.mk.inj h).1

/-- `init` succeeds on an unused device that answers within the bound of the loop. -/
theorem init_returns (mem₁ : QueueMem) (hs : s.Unused)
    (ha : s.mmio.dev.accepts (chosen s.mmio.dev) = true) (hf : s.device.delay 0 < fuel) :
    ∃ s', init fuel .zeroed mem₁ s = (.ret (.ok ()), s') := by
  have hidle := hs.setupQueues (setupQueues_run .zeroed mem₁ s)
  have hidle : (configured s .zeroed mem₁).Idle (.fresh 0 16 s.gpu.cmdBufPa .zeroed) .init :=
    { hidle with }
  have hdelay : (configured s .zeroed mem₁).device.delay (configured s .zeroed mem₁).notified <
      fuel := by
    show s.device.delay s.notified < fuel
    rwa [hs.notified]
  have hlen : (gpuHeader .getDisplayInfo).length ≤ 4096 := by simp [gpuHeader, u32Bytes]
  obtain ⟨s₁, q₁, t₁, hrun, -⟩ :=
    hidle.sendCmd_ret hlen (show sizeOfGpuDisplayInfo ≤ 4096 by decide) hdelay
  rw [init_ok ha, readSize, bind_of_ret hrun, attempt_ok]
  split_ifs
  · exact ⟨_, rfl⟩
  · exact ⟨_, rfl⟩

end VirtIOGpu

end GlendaDrivers
