import GlendaDrivers.Lib.Words
import GlendaDrivers.Virtio.Queue

/-!
# The registers of a VirtIO device (`virtio/common/src/transport.rs`, `consts.rs`)

The register window of a device during its initialisation.  What a device offers is fixed
(`VirtIODevice`); the registers that the driver programs are kept, with a log of all accesses.

* `readReg`, `writeReg`: one access;
* `getDeviceFeatures`, `setDriverFeatures`, `getStatus`, `setStatus`, `addStatus`, `setupQueue`:
  the functions of the source;
* `setupQueue_run`: the registers of a queue that was set up.
-/

namespace GlendaDrivers

def statusAcknowledge : UInt32 := 1
def statusDriver : UInt32 := 2
def statusDriverOk : UInt32 := 4
def statusFeaturesOk : UInt32 := 8

/-- The registers that the drivers access when they initialise a device. -/
inductive Reg
  | magic
  | version
  | deviceId
  | deviceFeatures
  | deviceFeaturesSel
  | driverFeatures
  | driverFeaturesSel
  | queueSel
  | queueNumMax
  | queueNum
  | queueReady
  | status
  | queueDescLow
  | queueDescHigh
  | queueDriverLow
  | queueDriverHigh
  | queueDeviceLow
  | queueDeviceHigh
  deriving DecidableEq

/-- What a device is: its identity, what it offers, and its configuration space. -/
structure VirtIODevice where
  magic : UInt32
  version : UInt32
  deviceId : UInt32
  /-- The offered features. -/
  features : UInt64
  /-- Whether FEATURES_OK reads back as set after the driver chose these features. -/
  accepts : UInt64 → Bool
  /-- QueueNumMax of each queue. -/
  queueNumMax : UInt32 → UInt32
  config : ℕ → UInt8
  deriving Inhabited

/-- The registers of one queue. -/
structure QueueRegs where
  num : UInt32
  ready : UInt32
  descLow : UInt32
  descHigh : UInt32
  driverLow : UInt32
  driverHigh : UInt32
  deviceLow : UInt32
  deviceHigh : UInt32
  deriving DecidableEq

/-- Nothing is programmed. -/
def QueueRegs.zero : QueueRegs := ⟨0, 0, 0, 0, 0, 0, 0, 0⟩

/-- An access; a write with the queue that was selected. -/
inductive RegEvent
  | read (r : Reg) (v : UInt32)
  | write (sel : UInt32) (r : Reg) (v : UInt32)
  deriving DecidableEq

/-- A device and its registers. -/
structure Mmio where
  dev : VirtIODevice
  status : UInt32
  deviceFeaturesSel : UInt32
  driverFeaturesSel : UInt32
  driverFeaturesLow : UInt32
  driverFeaturesHigh : UInt32
  queueSel : UInt32
  queues : UInt32 → QueueRegs
  log : List RegEvent

namespace Mmio

/-- A device before its initialisation. -/
def initial (dev : VirtIODevice) : Mmio where
  dev := dev
  status := 0
  deviceFeaturesSel := 0
  driverFeaturesSel := 0
  driverFeaturesLow := 0
  driverFeaturesHigh := 0
  queueSel := 0
  queues _ := .zero
  log := []

/-- The features the driver chose. -/
def driverFeatures (m : Mmio) : UInt64 := word64 m.driverFeaturesLow m.driverFeaturesHigh

/-- What a register reads. -/
def value (m : Mmio) : Reg → UInt32
  | .magic => m.dev.magic
  | .version => m.dev.version
  | .deviceId => m.dev.deviceId
  | .deviceFeatures =>
      if m.deviceFeaturesSel = 0 then m.dev.features.toUInt32
      else if m.deviceFeaturesSel = 1 then (m.dev.features >>> 32).toUInt32
      else 0
  | .queueNumMax => m.dev.queueNumMax m.queueSel
  | .status => m.status
  | _ => 0

/-- Change the registers of the selected queue. -/
def setQueueRegs (m : Mmio) (f : QueueRegs → QueueRegs) : Mmio :=
  { m with queues := Function.update m.queues m.queueSel (f (m.queues m.queueSel)) }

/-- A write to the status register: 0 resets the device, and FEATURES_OK is only kept by a
device that accepts the features. -/
def storeStatus (m : Mmio) (v : UInt32) : Mmio :=
  if v = 0 then { initial m.dev with log := m.log }
  else if m.dev.accepts m.driverFeatures then { m with status := v }
  else { m with status := v &&& ~~~statusFeaturesOk }

/-- A write to a register. -/
def store (m : Mmio) : Reg → UInt32 → Mmio
  | .deviceFeaturesSel, v => { m with deviceFeaturesSel := v }
  | .driverFeaturesSel, v => { m with driverFeaturesSel := v }
  | .driverFeatures, v =>
      if m.driverFeaturesSel = 0 then { m with driverFeaturesLow := v }
      else if m.driverFeaturesSel = 1 then { m with driverFeaturesHigh := v }
      else m
  | .queueSel, v => { m with queueSel := v }
  | .queueNum, v => m.setQueueRegs ({ · with num := v })
  | .queueReady, v => m.setQueueRegs ({ · with ready := v })
  | .queueDescLow, v => m.setQueueRegs ({ · with descLow := v })
  | .queueDescHigh, v => m.setQueueRegs ({ · with descHigh := v })
  | .queueDriverLow, v => m.setQueueRegs ({ · with driverLow := v })
  | .queueDriverHigh, v => m.setQueueRegs ({ · with driverHigh := v })
  | .queueDeviceLow, v => m.setQueueRegs ({ · with deviceLow := v })
  | .queueDeviceHigh, v => m.setQueueRegs ({ · with deviceHigh := v })
  | .status, v => m.storeStatus v
  | _, _ => m

/-- Record an access. -/
def record (m : Mmio) (e : RegEvent) : Mmio := { m with log := m.log ++ [e] }

end Mmio

open Prog

/-- `read_reg`. -/
def readReg (r : Reg) : Prog Mmio UInt32 :=
  ofFn fun m => (m.value r, m.record (.read r (m.value r)))

/-- `write_reg`. -/
def writeReg (r : Reg) (v : UInt32) : Prog Mmio Unit :=
  modify fun m => (m.store r v).record (.write m.queueSel r v)

/-- `get_device_features` and `get_features`. -/
def getDeviceFeatures : Prog Mmio UInt64 := do
  writeReg .deviceFeaturesSel 0
  let low ← readReg .deviceFeatures
  writeReg .deviceFeaturesSel 1
  let high ← readReg .deviceFeatures
  return (high.toUInt64 <<< 32) ||| low.toUInt64

/-- `set_driver_features` and `set_features`. -/
def setDriverFeatures (features : UInt64) : Prog Mmio Unit := do
  writeReg .driverFeaturesSel 0
  writeReg .driverFeatures features.toUInt32
  writeReg .driverFeaturesSel 1
  writeReg .driverFeatures (features >>> 32).toUInt32

/-- `get_status`. -/
def getStatus : Prog Mmio UInt32 := readReg .status

/-- `set_status`. -/
def setStatus (status : UInt32) : Prog Mmio Unit := writeReg .status status

/-- `add_status`. -/
def addStatus (status : UInt32) : Prog Mmio Unit := do
  let old ← getStatus
  setStatus (old ||| status)

/-- `write_queue_desc`. -/
def writeQueueDesc (addr : UInt64) : Prog Mmio Unit := do
  writeReg .queueDescLow addr.toUInt32
  writeReg .queueDescHigh (addr >>> 32).toUInt32

/-- `write_queue_driver`. -/
def writeQueueDriver (addr : UInt64) : Prog Mmio Unit := do
  writeReg .queueDriverLow addr.toUInt32
  writeReg .queueDriverHigh (addr >>> 32).toUInt32

/-- `write_queue_device`. -/
def writeQueueDevice (addr : UInt64) : Prog Mmio Unit := do
  writeReg .queueDeviceLow addr.toUInt32
  writeReg .queueDeviceHigh (addr >>> 32).toUInt32

/-- `setup_queue`. -/
def setupQueue (vq : VirtQueue) : Prog Mmio Unit := do
  writeReg .queueSel vq.index
  writeReg .queueNum vq.num.toUInt32
  writeQueueDesc vq.paddr
  let availOffset := 16 * vq.num.toUInt64
  writeQueueDriver (vq.paddr + availOffset)
  -- the used ring is aligned to 4 bytes
  let usedOffset := (16 * vq.num.toUInt64 + 6 + 2 * vq.num.toUInt64 + 3) &&& ~~~3
  writeQueueDevice (vq.paddr + usedOffset)
  writeReg .queueReady 1

/-! ### What the accesses do -/

/-- The registers of a queue that was set up. -/
def VirtQueue.regs (q : VirtQueue) : QueueRegs :=
  let driver := q.paddr + 16 * q.num.toUInt64
  let device := q.paddr + ((16 * q.num.toUInt64 + 6 + 2 * q.num.toUInt64 + 3) &&& ~~~3)
  { num := q.num.toUInt32
    ready := 1
    descLow := q.paddr.toUInt32
    descHigh := (q.paddr >>> 32).toUInt32
    driverLow := driver.toUInt32
    driverHigh := (driver >>> 32).toUInt32
    deviceLow := device.toUInt32
    deviceHigh := (device >>> 32).toUInt32 }

/-- The accesses of `setup_queue`, when queue `sel` is selected before. -/
def VirtQueue.setupLog (q : VirtQueue) (sel : UInt32) : List RegEvent :=
  let i := q.index
  let r := q.regs
  [.write sel .queueSel i, .write i .queueNum r.num, .write i .queueDescLow r.descLow,
    .write i .queueDescHigh r.descHigh, .write i .queueDriverLow r.driverLow,
    .write i .queueDriverHigh r.driverHigh, .write i .queueDeviceLow r.deviceLow,
    .write i .queueDeviceHigh r.deviceHigh, .write i .queueReady 1]

/-- The registers after the queue `q` was set up. -/
def Mmio.withQueue (m : Mmio) (q : VirtQueue) : Mmio :=
  { m with
    queueSel := q.index
    queues := Function.update m.queues q.index q.regs
    log := m.log ++ q.setupLog m.queueSel }

theorem setupQueue_run (q : VirtQueue) (m : Mmio) :
    setupQueue q m = (.ret (), m.withQueue q) := by
  have h : setupQueue q m = (.ret (), _) := rfl
  rw [h]
  simp [Mmio.withQueue, Mmio.record, Mmio.store, Mmio.setQueueRegs, VirtQueue.regs,
    VirtQueue.setupLog]

end GlendaDrivers
