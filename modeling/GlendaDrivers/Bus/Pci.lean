import GlendaDrivers.DeviceDesc
import GlendaDrivers.Glenda
import GlendaDrivers.Lib.Align
import GlendaDrivers.Lib.BitKinds
import GlendaDrivers.Lib.Bytes
import GlendaDrivers.Lib.Hex
import GlendaDrivers.Lib.Outcome

/-!
# The PCI bus driver (`bus/pci/src/driver.rs`, `platform.rs`)

The configuration space is a byte memory at `ecam_base`, which the driver accesses in words of 32
bits.  What a write does to a bit depends on its kind.  Every access is recorded with the function
it is made for.

* `PciPlatformOps`: what depends on the platform;
* `cfgOff`, `readU32`, `readU16`, `readU8`, `writeU16`: the accesses;
* `devicePresent`, `isMultifunction`, `parseBars`, `buildDescNode`: one function;
* `scan`: the nodes that are reported.
-/

namespace GlendaDrivers

open Prog

/-- `PGSIZE`. -/
def pciPgSize : UInt64 := 4096

def ecamMapVa : UInt64 := 0x40000000

/-! ### The platform -/

inductive IntxRouting
  | none
  | qemuPlicSwizzle (expectedEcamPhys : UInt64) (expectedBus : UInt8) (baseIrq : UInt64)

structure PciPlatformOps where
  name : String
  ioBarCpuBase : Option UInt64
  maxScanWindowBytes : UInt64
  intxRouting : IntxRouting

namespace PciPlatformOps

def generic : PciPlatformOps where
  name := "generic-pci-host"
  ioBarCpuBase := .none
  maxScanWindowBytes := 0x100000
  intxRouting := .none

/-- `detect`. -/
def detect (ecamPhys : UInt64) : PciPlatformOps :=
  if ecamPhys = 0x30000000 then
    { name := "qemu-virt-pcie"
      ioBarCpuBase := some 0x03000000
      maxScanWindowBytes := 0x100000
      intxRouting := .qemuPlicSwizzle 0x30000000 0 32 }
  else if ecamPhys = 0x1a000000 then
    { name := "loongson-ls2k-pcie"
      ioBarCpuBase := some 0x18008000
      maxScanWindowBytes := 0x100000
      intxRouting := .none }
  else generic

/-- `mapped_window_bytes`. -/
def mappedWindowBytes (p : PciPlatformOps) (ecamSize : UInt64) : UInt64 :=
  min ecamSize p.maxScanWindowBytes

/-- `map_intx_irq`. -/
def mapIntxIrq (p : PciPlatformOps) (bus dev irqPin : UInt8) : Option UInt64 :=
  if ¬ (1 ≤ irqPin ∧ irqPin ≤ 4) then none
  else
    match p.intxRouting with
    | .none => none
    | .qemuPlicSwizzle _ expectedBus baseIrq =>
        if bus ≠ expectedBus then none
        else
          let swizzled := (dev.toUInt64 + irqPin.toUInt64 - 1) &&& 0x3
          some (baseIrq + swizzled)

end PciPlatformOps

/-! ### Accesses -/

/-- A function of a device on a bus. -/
structure PciFn where
  bus : UInt8
  dev : UInt8
  func : UInt8
  deriving DecidableEq

/-- A read of a word, at offset `off` of the configuration space, made for `fn`. -/
structure PciRead where
  fn : PciFn
  off : UInt64

/-- A write of the word `val`. -/
structure PciWrite where
  fn : PciFn
  off : UInt64
  val : UInt32

structure PciState where
  mem : UInt64 → UInt8
  reads : List PciRead := []
  writes : List PciWrite := []
  /-- What the functions do with the bits that are written to them. -/
  kinds : UInt64 → BitKinds 8 := fun _ => .plain

/-- `PciBusDriver`. -/
structure PciBusDriver where
  ecamBase : UInt64
  ecamSize : UInt64
  ecamPhys : UInt64
  mappedEcamWindow : UInt64
  busCount : UInt64
  platform : PciPlatformOps

namespace PciBusDriver

def pciCommandReg : UInt64 := 0x04
def pciCommandIoEnable : UInt16 := 1
def pciCommandIntxDisable : UInt16 := 0x400
def qemuPciVendorId : UInt16 := 0x1b36
def qemuPciSerialDeviceId : UInt16 := 0x0002

/-- `cfg_off`. -/
def cfgOff (f : PciFn) (reg : UInt64) : UInt64 :=
  (f.bus.toUInt64 <<< 20) ||| (f.dev.toUInt64 <<< 15) ||| (f.func.toUInt64 <<< 12) ||| reg

variable (d : PciBusDriver)

/-- `cfg_addr`. -/
def cfgAddr (f : PciFn) (reg : UInt64) : UInt64 := d.ecamBase + cfgOff f reg

/-- The word at address `a`. -/
def word (mem : UInt64 → UInt8) (a : UInt64) : UInt32 :=
  UInt32.ofNat (Bytes.ofLittle (Bytes.read mem a 4))

/-- `read_u32`. -/
def readU32 (f : PciFn) (reg : UInt64) : Prog PciState UInt32 :=
  ofFn fun s => (word s.mem (d.cfgAddr f reg), { s with reads := s.reads ++ [⟨f, cfgOff f reg⟩] })

/-- `read_u16`. -/
def readU16 (f : PciFn) (reg : UInt64) : Prog PciState UInt16 := do
  let aligned := reg &&& ~~~3
  let shift := (reg &&& 0x2) * 8
  let w ← d.readU32 f aligned
  return ((w >>> shift.toUInt32) &&& 0xffff).toUInt16

/-- `read_u8`. -/
def readU8 (f : PciFn) (reg : UInt64) : Prog PciState UInt8 := do
  let aligned := reg &&& ~~~3
  let shift := (reg &&& 0x3) * 8
  let w ← d.readU32 f aligned
  return ((w >>> shift.toUInt32) &&& 0xff).toUInt8

/-- A write of a word. -/
def writeU32 (f : PciFn) (reg : UInt64) (w : UInt32) : Prog PciState Unit :=
  modify fun s => { s with
    mem := BitKinds.write s.kinds s.mem (d.cfgAddr f reg) (Bytes.little 4 w.toNat)
    writes := s.writes ++ [⟨f, cfgOff f reg, w⟩] }

/-- `write_u16`. -/
def writeU16 (f : PciFn) (reg : UInt64) (val : UInt16) : Prog PciState Unit := do
  let aligned := reg &&& ~~~3
  let shift := (reg &&& 0x2) * 8
  let w ← d.readU32 f aligned
  let w := w &&& ~~~((0xffff : UInt32) <<< shift.toUInt32)
  let w := w ||| (val.toUInt32 <<< shift.toUInt32)
  d.writeU32 f aligned w

/-- `ensure_qemu_serial_intx_enabled`; the value read back is only printed. -/
def ensureQemuSerialIntxEnabled (f : PciFn) (vendor device : UInt16) : Prog PciState Unit := do
  if vendor ≠ qemuPciVendorId ∨ device ≠ qemuPciSerialDeviceId then return ()
  else
    let before ← d.readU16 f pciCommandReg
    let after := before ||| pciCommandIoEnable
    let after := after &&& ~~~pciCommandIntxDisable
    if before ≠ after then
      d.writeU16 f pciCommandReg after
      let _verify ← d.readU16 f pciCommandReg
      return ()
    else return ()

/-! ### One function -/

/-- `device_present`. -/
def devicePresent (f : PciFn) : Prog PciState Bool := do
  let vendor ← d.readU16 f 0x00
  return vendor != 0xffff

/-- `is_multifunction`. -/
def isMultifunction (bus dev : UInt8) : Prog PciState Bool := do
  let headerType ← d.readU8 ⟨bus, dev, 0⟩ 0x0e
  return headerType &&& 0x80 != 0

/-- One iteration of the loop of `parse_bars`, from the register number and the regions found. -/
def barStep (f : PciFn) (maxBars : ℕ) (st : ℕ × List MMIORegion) :
    Prog PciState ((ℕ × List MMIORegion) ⊕ List MMIORegion) :=
  let bar := st.1
  let out := st.2
  if bar < maxBars then do
    let off : UInt64 := 0x10 + UInt64.ofNat bar * 4
    let v ← d.readU32 f off
    if v = 0 then return .inl (bar + 1, out)
    else if v &&& 0x1 ≠ 0 then
      -- an I/O BAR
      let ioBase := (v &&& 0xfffffffc).toUInt64
      match d.platform.ioBarCpuBase with
      | some ioCpuBase => return .inl (bar + 1, out ++ [⟨ioCpuBase + ioBase, 0x100⟩])
      | none => return .inl (bar + 1, out)
    else
      let barType := (v >>> 1) &&& 0x3
      if barType = 0x2 ∧ bar + 1 < maxBars then
        let hi ← d.readU32 f (off + 4)
        let base := (hi.toUInt64 <<< 32) ||| (v.toUInt64 &&& 0xfffffff0)
        return .inl (bar + 2, if base ≠ 0 then out ++ [⟨base, 0x1000⟩] else out)
      else
        let base := (v &&& 0xfffffff0).toUInt64
        return .inl (bar + 1, if base ≠ 0 then out ++ [⟨base, 0x1000⟩] else out)
  else return .inr out

/-- `parse_bars`.  There are at most six registers. -/
def parseBars (f : PciFn) (headerType : UInt8) : Prog PciState (List MMIORegion) :=
  let maxBars := if headerType &&& 0x7f = 0x01 then 2 else 6
  loop (d.barStep f maxBars) 7 (0, [])

/-- The name of a function. -/
def nameOf (f : PciFn) : String :=
  "pci-" ++ Hex.padded 2 f.bus.toNat ++ ":" ++ Hex.padded 2 f.dev.toNat ++ "." ++
    Nat.repr f.func.toNat

/-- The unit address of a function. -/
def unitAddrOf (f : PciFn) : UInt64 :=
  (f.bus.toUInt64 <<< 8) ||| (f.dev.toUInt64 <<< 3) ||| f.func.toUInt64

/-- The identifiers of a function. -/
def compatibleOf (vendorId deviceId : UInt16) : List String :=
  let vendor := Hex.padded 4 vendorId.toNat
  let device := Hex.padded 4 deviceId.toNat
  ["pciid:" ++ vendor ++ ":" ++ device, "pci-vendor:" ++ vendor, "pci-device:" ++ device,
    "pci-vd:" ++ vendor ++ ":" ++ device, "pci-device"]

/-- `build_desc_node`. -/
def buildDescNode (f : PciFn) : Prog PciState (Option DeviceDescNode) := do
  let present ← d.devicePresent f
  if ¬ present then return none
  else
    let vendorId ← d.readU16 f 0x00
    let deviceId ← d.readU16 f 0x02
    let revision ← d.readU8 f 0x08
    let progIf ← d.readU8 f 0x09
    let subclass ← d.readU8 f 0x0a
    let classCode ← d.readU8 f 0x0b
    let headerType ← d.readU8 f 0x0e
    -- for the message
    let _command ← d.readU16 f pciCommandReg
    let irqLine ← d.readU8 f 0x3c
    let irqPin ← d.readU8 f 0x3d
    d.ensureQemuSerialIntxEnabled f vendorId deviceId
    let mmio ← d.parseBars f headerType
    let mmio :=
      if mmio = [] ∧ vendorId = 0x1b36 ∧ deviceId = 0x0002 then
        match d.platform.ioBarCpuBase with
        | some ioCpuBase => [⟨ioCpuBase, 0x100⟩]
        | none => mmio
      else mmio
    let irq :=
      if irqPin ≠ 0 ∧ irqLine ≠ 0 ∧ irqLine ≠ 0xff then [irqLine.toUInt64]
      else (d.platform.mapIntxIrq f.bus f.dev irqPin).toList
    return some {
      parent := usizeMax
      desc := {
        name := nameOf f
        compatible := compatibleOf vendorId deviceId
        mmio := mmio
        irq := irq }
      nodeMeta := {
        bus := some "pci"
        unitAddr := some (unitAddrOf f)
        tags := ["src:runtime", "bus:pci"]
        properties := [
          ("pci.bus", Nat.repr f.bus.toNat),
          ("pci.device", Nat.repr f.dev.toNat),
          ("pci.function", Nat.repr f.func.toNat),
          ("pci.vendor", "0x" ++ Hex.padded 4 vendorId.toNat),
          ("pci.device_id", "0x" ++ Hex.padded 4 deviceId.toNat),
          ("pci.class", "0x" ++ Hex.padded 2 classCode.toNat),
          ("pci.subclass", "0x" ++ Hex.padded 2 subclass.toNat),
          ("pci.prog_if", "0x" ++ Hex.padded 2 progIf.toNat),
          ("pci.revision", "0x" ++ Hex.padded 2 revision.toNat),
          ("pci.header_type", "0x" ++ Hex.padded 2 (headerType &&& 0x7f).toNat),
          ("pci.ecam_base", "0x" ++ String.ofList (Nat.toDigits 16 d.ecamPhys.toNat)),
          ("pci.platform", d.platform.name)] } }

/-! ### The scan -/

/-- `setup_ecam_mapping`, when the frame of `size` bytes at `paddr` was obtained and can be
mapped: the number of pages mapped at `ECAM_MAP_VA`, and the driver. -/
def setupEcamMapping (d : PciBusDriver) (paddr size : UInt64) :
    Except Error (UInt64 × PciBusDriver) :=
  if size < pciPgSize then .error .invalidArgs
  else
    let platform := PciPlatformOps.detect paddr
    let offset := paddr % pciPgSize
    let ecamWindow := platform.mappedWindowBytes size
    let mapLen := Align.alignUp pciPgSize (ecamWindow + offset)
    let pages := mapLen / pciPgSize
    .ok (pages, { d with
      ecamPhys := paddr
      ecamSize := size
      platform := platform
      ecamBase := ecamMapVa + offset
      mappedEcamWindow := ecamWindow
      busCount := max 1 (ecamWindow >>> 20) })

/-- Report a function if it is there. -/
def addFn (devices : List DeviceDescNode) (f : PciFn) : Prog PciState (List DeviceDescNode) := do
  let node ← d.buildDescNode f
  return devices ++ node.toList

/-- The body of the loop over the devices of a bus. -/
def scanDev (bus : UInt8) (devices : List DeviceDescNode) (dev : UInt8) :
    Prog PciState (List DeviceDescNode) := do
  let present ← d.devicePresent ⟨bus, dev, 0⟩
  if ¬ present then return devices
  else
    let devices ← d.addFn devices ⟨bus, dev, 0⟩
    let multi ← d.isMultifunction bus dev
    if multi then
      ((List.range' 1 7).map fun i => ⟨bus, dev, UInt8.ofNat i⟩).foldlM d.addFn devices
    else return devices

/-- The body of the loop over the buses. -/
def scanBus (devices : List DeviceDescNode) (bus : UInt8) : Prog PciState (List DeviceDescNode) :=
  ((List.range 32).map UInt8.ofNat).foldlM (d.scanDev bus) devices

/-- The loops of `scan`. -/
def scanBuses : Prog PciState (List DeviceDescNode) :=
  ((List.range (min d.busCount 256).toNat).map UInt8.ofNat).foldlM d.scanBus []

/-- `scan`: the nodes handed to `report_via_frame`; an empty list is not reported.  The pages are
unmapped before that. -/
def scan (paddr size : UInt64) : Prog PciState (Except Error (List DeviceDescNode)) :=
  attempt (d.setupEcamMapping paddr size) fun (_pages, d) => do
    let devices ← d.scanBuses
    return .ok devices

end PciBusDriver

end GlendaDrivers
