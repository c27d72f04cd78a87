import GlendaDrivers.Glenda
import GlendaDrivers.Platform.AmlCrs
import GlendaDrivers.Platform.AmlNamespace
import GlendaDrivers.Platform.MadtDecode

/-!
# The enumeration of a platform by ACPI (`platform/acpi/src/driver.rs`, `probe/*.rs`)

The `acpi` crate finds the tables, and the `aml` crate interprets the namespace; both are
parameters.  The bytes of the MADT and of the resource buffers are decoded by the driver.

* `AcpiTables`: the tables, as the crate gives them;
* `madtParse`, `pciParse`, `hpetParse`, `probe`: the nodes that are reported;
* `X86.Entry`, `X86.IsTable`: a MADT with the layout of the ACPI specification;
* `Hardware`, `Describes`: what a node has to say about a piece of hardware;
* `Platform`, `Holds`: tables that describe a platform;
* `acpi_inventory`: what is reported for them.
-/

namespace GlendaDrivers

open Prog

/-! ### The tables -/

/-- `McfgEntry` (`acpi` crate). -/
@[ext] structure McfgEntry where
  baseAddress : UInt64
  pciSegmentGroup : UInt16
  busNumberStart : UInt8
  busNumberEnd : UInt8
  deriving DecidableEq

/-- What the driver takes from `AcpiTables`: the memory of the MADT, the entries of the MCFG, the
base address of the HPET, and where the DSDT and the SSDTs are. -/
structure AcpiTables where
  madt : Option (ℕ → UInt8)
  mcfg : Option (List McfgEntry)
  hpet : Option UInt64
  dsdt : Option AmlTable
  ssdts : List AmlTable

namespace AcpiDriver

/-! ### The enumeration -/

/-- `madt::parse`, with at most `fuel` entries. -/
def madtParse (arch : Madt.Arch) (fuel : ℕ) (tables : AcpiTables)
    (devices : List DeviceDescNode) : Outcome (List DeviceDescNode) :=
  match tables.madt with
  | none => return devices
  | some mem =>
      match arch.parseMadt mem fuel ⟨devices, []⟩ with
      | (.ret _, s) => .ret s.devices
      | (.panic, _) => .panic
      | (.running, _) => .running

/-- The node of an entry of the MCFG. -/
def hostNode (entry : McfgEntry) : DeviceDescNode :=
  let base := entry.baseAddress
  let seg := entry.pciSegmentGroup
  let busStart := entry.busNumberStart
  let busEnd := entry.busNumberEnd
  -- `saturating_sub`
  let busCount := UInt64.ofNat (busEnd.toNat - busStart.toNat) + 1
  let ecamSize := busCount <<< 20
  { parent := usizeMax
    desc := {
      name := "pci-host-ecam@" ++ Madt.hexText base.toNat
      compatible := ["pci-host-ecam", "pci,ecam", "pci-host-ecam-generic"]
      mmio := [⟨base, ecamSize⟩]
      irq := [] }
    nodeMeta := {
      bus := some "pci"
      unitAddr := some base
      tags := ["src:acpi", "acpi:mcfg"]
      properties := [("acpi.mcfg.segment", Nat.repr seg.toNat),
        ("acpi.mcfg.base", Nat.repr base.toNat),
        ("acpi.mcfg.bus-range", Nat.repr busStart.toNat ++ "-" ++ Nat.repr busEnd.toNat),
        ("acpi.mcfg.ecam-size", Nat.repr ecamSize.toNat)] } }

/-- `pci::parse`. -/
def pciParse (tables : AcpiTables) (devices : List DeviceDescNode) : List DeviceDescNode :=
  match tables.mcfg with
  | none => devices
  | some entries => entries.foldl (fun devices entry => devices ++ [hostNode entry]) devices

/-- The node of the HPET. -/
def hpetNode (addr : UInt64) : DeviceDescNode where
  parent := usizeMax
  desc := {
    name := "hpet"
    compatible := ["intel,hpet"]
    mmio := [⟨addr, 0x1000⟩]
    irq := [] }
  nodeMeta := {
    bus := some "platform"
    unitAddr := some addr
    tags := ["src:acpi", "acpi:hpet"]
    properties := [("acpi.hpet.base", Nat.repr addr.toNat)] }

/-- `hpet::parse`. -/
def hpetParse (tables : AcpiTables) (devices : List DeviceDescNode) : List DeviceDescNode :=
  match tables.hpet with
  | none => devices
  | some addr => devices ++ [hpetNode addr]

/-- `probe`, with the answer of `get_mmio` and with `AcpiTables::from_rsdp`, which finds the tables
through the handler. -/
def probe {ε : Type} (arch : Madt.Arch) (fuel : ℕ) (I : AmlInterpreter)
    (kernel : ℕ → AccessAnswers) (getMmio : Except Error UInt64)
    (fromRsdp : UInt64 → Prog DriverContext (Except ε AcpiTables)) :
    Prog DriverContext (Except Error (List DeviceDescNode)) :=
  match getMmio with
  | .error e => return .error e
  | .ok rsdpAddr => do
      match ← fromRsdp rsdpAddr with
      | .error _ => return .error .invalidArgs
      | .ok tables =>
          let devices ← ofOutcome (madtParse arch fuel tables [])
          let devices := pciParse tables devices
          let devices := hpetParse tables devices
          let devices ← Aml.parse I kernel tables.dsdt tables.ssdts devices
          return .ok devices

/-- An enumeration with tables. -/
theorem probe_found {ε : Type} (arch : Madt.Arch) (fuel : ℕ) (I : AmlInterpreter)
    (kernel : ℕ → AccessAnswers) {fromRsdp : UInt64 → Prog DriverContext (Except ε AcpiTables)}
    {rsdpAddr : UInt64} {t : AcpiTables} {c c' : DriverContext}
    (hfound : fromRsdp rsdpAddr c = (.ret (.ok t), c')) :
    probe arch fuel I kernel (.ok rsdpAddr) fromRsdp c = (do
      let devices ← ofOutcome (madtParse arch fuel t [])
      let found ← Aml.namespaceDevices I kernel t.dsdt t.ssdts
      let devices ← ofOutcome (Aml.parseDevices found (hpetParse t (pciParse t devices)))
      return .ok devices : Prog DriverContext (Except Error (List DeviceDescNode))) c' := by
  have hprobe : probe arch fuel I kernel (.ok rsdpAddr) fromRsdp c = _ := bind_of_ret hfound
  rw [hprobe]
  simp only [Aml.parse, bind_assoc]

end AcpiDriver

/-! ### The MADT of an x86 platform -/

namespace Madt.X86

/-- An entry of the table. -/
inductive Entry
  | localApic (processorId apicId : UInt8) (flags : UInt32)
  | ioApic (id reserved : UInt8) (address gsiBase : UInt32)
  | other (type : UInt8) (body : List UInt8) (ht : 1 < type) (h : body.length + 2 < 256)

namespace Entry

/-- Type, length, and the fields of an I/O APIC structure. -/
def ioApicFields (id reserved : UInt8) (address gsiBase : UInt32) : List (ℕ × ℕ) :=
  [(1, 1), (1, 12), (1, id.toNat), (1, reserved.toNat), (4, address.toNat), (4, gsiBase.toNat)]

def encode : Entry → List UInt8
  | localApic processorId apicId flags =>
      Packed.encode [(1, 0), (1, 8), (1, processorId.toNat), (1, apicId.toNat), (4, flags.toNat)]
  | ioApic id reserved address gsiBase => Packed.encode (ioApicFields id reserved address gsiBase)
  | other type body _ _ => type :: UInt8.ofNat (body.length + 2) :: body

/-- The nodes that are pushed for an entry. -/
def nodes : Entry → List DeviceDescNode
  | ioApic id reserved address gsiBase =>
      [ioapicNode (Packed.encode (ioApicFields id reserved address gsiBase))]
  | _ => []

end Entry

/-- The memory holds a table with the given address of the local APIC and the given entries. -/
structure IsTable (mem : ℕ → UInt8) (localApicAddress : UInt32) (es : List Entry) : Prop where
  short : madt.sum + (es.flatMap Entry.encode).length < 2 ^ 32
  length : bytes mem 4 4 = Bytes.little 4 (madt.sum + (es.flatMap Entry.encode).length)
  localApicAddress : bytes mem 36 4 = Bytes.little 4 localApicAddress.toNat
  body : bytes mem madt.sum (es.flatMap Entry.encode).length = es.flatMap Entry.encode

section Run

variable {mem : ℕ → UInt8} {offset n m : ℕ} {address : UInt32} {es : List Entry}

/-- A number in a range of the table. -/
theorem number_bytes (h : offset + n ≤ m) :
    Packed.number (bytes mem 0 m) offset n = Bytes.ofLittle (bytes mem offset n) := by
  have hrange : ((bytes mem 0 m).drop offset).take n = bytes mem offset n := by
    refine List.ext_getElem ?_ fun i hi hi' => ?_
    · simp only [bytes, List.length_take, List.length_drop, List.length_map, List.length_range]
      omega
    · simp [bytes]
  rw [Packed.number, hrange]

/-- Type and length are the first bytes of an entry, and its nodes are those of its bytes. -/
theorem entry_found (e : Entry) (h : bytes mem offset e.encode.length = e.encode) :
    (mem (offset + 1)).toNat = e.encode.length ∧ nodesAt mem .x86 offset = e.nodes := by
  have hnodes : nodesAt mem .x86 offset =
      if mem offset = 1 then [ioapicNode (bytes mem offset 12)] else [] := rfl
  rw [hnodes]
  cases e with
  | localApic processorId apicId flags =>
    have hlen : (Entry.localApic processorId apicId flags).encode.length = 8 := by
      simp [Entry.encode]
    have h0 : mem offset = 0 := bytes_getElem h (k := 0) (by rw [hlen]; norm_num)
    have h1 : mem (offset + 1) = 8 := bytes_getElem h (by rw [hlen]; norm_num)
    rw [h0, h1, hlen]
    exact ⟨rfl, rfl⟩
  | ioApic id reserved address gsiBase =>
    have hlen : (Entry.ioApic id reserved address gsiBase).encode.length = 12 := by
      simp [Entry.encode, Entry.ioApicFields]
    have h0 : mem offset = 1 := bytes_getElem h (k := 0) (by rw [hlen]; norm_num)
    have h1 : mem (offset + 1) = 12 := bytes_getElem h (by rw [hlen]; norm_num)
    rw [hlen] at h
    rw [h0, h1, h, hlen]
    exact ⟨rfl, rfl⟩
  | other type body ht hb =>
    have h0 : mem offset = type := bytes_getElem h (k := 0) (by simp [Entry.encode])
    have h1 : mem (offset + 1) = UInt8.ofNat (body.length + 2) :=
      bytes_getElem h (by simp [Entry.encode])
    have hne : type ≠ 1 := by
      rintro rfl
      exact absurd ht (by decide)
    rw [h0, h1, if_neg hne, UInt8.toNat_ofNat', Nat.mod_eq_of_lt hb]
    exact ⟨rfl, rfl⟩

theorem length_encode_pos (e : Entry) : 0 < e.encode.length := by
  cases e <;> simp [Entry.encode, Entry.ioApicFields]

/-- The nodes that are pushed for a table. -/
theorem parseMadt_run (h : IsTable mem address es) (hn : es.length < n)
    (devices : List DeviceDescNode) :
    ∃ s', X86.parseMadt mem n ⟨devices, []⟩ = (.ret (), s') ∧
      s'.devices = devices ++ lapicNode (bytes mem 0 madt.sum) :: es.flatMap Entry.nodes := by
  have hlen : Madt.length mem = madt.sum + (es.flatMap Entry.encode).length := by
    have hnumber : Madt.length mem = Packed.number (bytes mem 0 madt.sum) 4 4 := rfl
    rw [hnumber, number_bytes (by norm_num [madt, sdtHeader]), h.length]
    exact Bytes.ofLittle_little h.short
  have hparse : Arch.x86.parseMadt mem n ⟨devices, []⟩ = _ := parseMadt_eq n ⟨devices, []⟩
  obtain ⟨s', hrun, hdev⟩ := loop_list (s := ⟨devices ++ Arch.x86.fixed mem, []⟩)
    (fun e _ => entry_found e) length_encode_pos hlen h.body hn
  refine ⟨s', hparse.trans hrun, ?_⟩
  rw [hdev, List.append_assoc]
  rfl

end Run

end Madt.X86

/-! ### The hardware -/

/-- A piece of hardware that the tables describe. -/
inductive Hardware
  | localApic (address : UInt32)
  | ioApic (id : UInt8) (address gsiBase : UInt32)
  | pciHost (entry : McfgEntry)
  | hpet (address : UInt64)
  | device (path hid : String) (regions : List MMIORegion) (interrupts : List UInt64)

namespace Hardware

/-- Where it is described. -/
def source : Hardware → String
  | localApic _ => "acpi:madt"
  | ioApic _ _ _ => "acpi:madt"
  | pciHost _ => "acpi:mcfg"
  | hpet _ => "acpi:hpet"
  | device _ _ _ _ => "acpi:aml"

def compatible : Hardware → List String
  | localApic _ => ["intel,lapic"]
  | ioApic _ _ _ => ["intel,ioapic"]
  | pciHost _ => ["pci-host-ecam", "pci,ecam", "pci-host-ecam-generic"]
  | hpet _ => ["intel,hpet"]
  | device _ hid _ _ => [hid]

/-- Its registers; a host bridge has 1 MiB for each of its buses. -/
def mmio : Hardware → List MMIORegion
  | localApic address => [⟨address.toUInt64, 0x1000⟩]
  | ioApic _ address _ => [⟨address.toUInt64, 0x1000⟩]
  | pciHost e => [⟨e.baseAddress,
      UInt64.ofNat ((e.busNumberEnd.toNat - e.busNumberStart.toNat + 1) * 2 ^ 20)⟩]
  | hpet address => [⟨address, 0x1000⟩]
  | device _ _ regions _ => regions

def irq : Hardware → List UInt64
  | device _ _ _ interrupts => interrupts
  | _ => []

/-- The properties that say what else is known about it. -/
def properties : Hardware → List (String × String)
  | localApic _ => []
  | ioApic id _ gsiBase => [("acpi.ioapic.id", Nat.repr id.toNat),
      ("acpi.ioapic.gsi_base", Nat.repr gsiBase.toNat)]
  | pciHost e => [("acpi.mcfg.segment", Nat.repr e.pciSegmentGroup.toNat),
      ("acpi.mcfg.bus-range",
        Nat.repr e.busNumberStart.toNat ++ "-" ++ Nat.repr e.busNumberEnd.toNat)]
  | hpet _ => []
  | device path hid _ _ => [("acpi.path", path), ("acpi.hid", hid)]

end Hardware

/-- A node says what is known about a piece of hardware. -/
structure Describes (node : DeviceDescNode) (h : Hardware) : Prop where
  parent : node.parent = usizeMax
  tags : node.nodeMeta.tags = ["src:acpi", h.source]
  compatible : node.desc.compatible = h.compatible
  mmio : node.desc.mmio = h.mmio
  irq : node.desc.irq = h.irq
  properties : ∀ p ∈ h.properties, node.nodeMeta.properties.lookup p.1 = some p.2

/-- Numbers that are separated by a dash. -/
theorem dashed_inj {a b a' b' : ℕ}
    (h : Nat.repr a ++ "-" ++ Nat.repr b = Nat.repr a' ++ "-" ++ Nat.repr b') :
    a = a' ∧ b = b' := by
  have hdash : ∀ n : ℕ, '-' ∉ (Nat.repr n).toList := by
    intro n hmem
    rw [Nat.toList_repr] at hmem
    exact absurd (Nat.isDigit_of_mem_toDigits (by norm_num) (le_refl 10) hmem) (by decide)
  have hlist := congrArg String.toList h
  simp only [String.toList_append, List.append_assoc] at hlist
  obtain ⟨ha, -, hb⟩ := (List.append_cons_inj_of_notMem (hdash a) (hdash b)).1 hlist
  exact ⟨Hex.repr_inj (String.toList_inj.1 ha), Hex.repr_inj (String.toList_inj.1 hb)⟩

/-- What a node gives for a property of two pieces of hardware. -/
theorem Describes.property {node : DeviceDescNode} {h h' : Hardware} {k v v' : String}
    (hd : Describes node h) (hd' : Describes node h') (hk : (k, v) ∈ h.properties)
    (hk' : (k, v') ∈ h'.properties) : v = v' :=
  Option.some.inj ((hd.properties _ hk).symm.trans (hd'.properties _ hk'))

/-- A node describes one piece of hardware at most. -/
theorem Describes.unique {node : DeviceDescNode} {h h' : Hardware} (hd : Describes node h)
    (hd' : Describes node h') : h = h' := by
  have hsource : h.source = h'.source := by simpa using hd.tags.symm.trans hd'.tags
  have hcompat := hd.compatible.symm.trans hd'.compatible
  have hmmio := hd.mmio.symm.trans hd'.mmio
  have hirq := hd.irq.symm.trans hd'.irq
  -- the source and the compatible strings tell the kinds apart
  cases h with
  | localApic address =>
    cases h' <;> simp [Hardware.source, Hardware.compatible] at hsource hcompat
    have haddress := UInt32.toUInt64_inj.1 (MMIORegion.mk.inj (List.singleton_inj.1 hmmio)).1
    rw [haddress]
  | ioApic id address gsiBase =>
    cases h' <;> simp [Hardware.source, Hardware.compatible] at hsource hcompat
    have haddress := UInt32.toUInt64_inj.1 (MMIORegion.mk.inj (List.singleton_inj.1 hmmio)).1
    have hid := Hex.repr_inj (hd.property hd' (.head _) (.head _))
    have hgsi := Hex.repr_inj (hd.property hd' (.tail _ (.head _)) (.tail _ (.head _)))
    rw [UInt8.toNat_inj.1 hid, haddress, UInt32.toNat_inj.1 hgsi]
  | pciHost entry =>
    cases h' <;> simp [Hardware.source, Hardware.compatible] at hsource hcompat
    have hbase := (MMIORegion.mk.inj (List.singleton_inj.1 hmmio)).1
    have hseg := Hex.repr_inj (hd.property hd' (.head _) (.head _))
    have hbuses := dashed_inj (hd.property hd' (.tail _ (.head _)) (.tail _ (.head _)))
    rw [McfgEntry.ext hbase (UInt16.toNat_inj.1 hseg) (UInt8.toNat_inj.1 hbuses.1)
      (UInt8.toNat_inj.1 hbuses.2)]
  | hpet address =>
    cases h' <;> simp [Hardware.source, Hardware.compatible] at hsource hcompat
    rw [(MMIORegion.mk.inj (List.singleton_inj.1 hmmio)).1]
  | device path hid regions interrupts =>
    cases h' <;> simp [Hardware.source, Hardware.compatible] at hsource hcompat
    have hpath := hd.property hd' (.head _) (.head _)
    rw [hpath, hcompat, show regions = _ from hmmio, show interrupts = _ from hirq]
    rfl

/-! ### Platforms -/

/-- The hardware that an entry is about; the processors are not reported. -/
def Madt.X86.Entry.hardware : Madt.X86.Entry → Option Hardware
  | ioApic id _ address gsiBase => some (.ioApic id address gsiBase)
  | _ => none

/-- A value of `_CRS` lists resources. -/
inductive Aml.Lists : Option AmlValue → List Aml.Descriptor → Prop
  | absent : Lists none []
  | other (v : AmlValue) (h : ∀ bytes, v ≠ .buffer bytes) : Lists (some v) []
  | buffer (ds : List Aml.Descriptor) (k : Fin 8) (rest : List UInt8) :
      Lists (some (.buffer (ds.flatMap Aml.Descriptor.encode ++ Aml.endTag k :: rest))) ds

/-- The hardware that a device of the namespace with the given resources is; without a hardware id
it is not reported. -/
def Aml.Device.hardware (d : Aml.Device × List Aml.Descriptor) : Option Hardware :=
  (d.1.hid.bind Aml.hidOf).map fun hid => .device d.1.path hid
    (d.2.flatMap Aml.Descriptor.regions) (d.2.flatMap Aml.Descriptor.interrupts)

/-- An x86 platform: the address of the local APIC and the entries of the MADT, the PCI host
bridges, the HPET, and the devices of the namespace with their resources. -/
structure Platform where
  madt : Option (UInt32 × List Madt.X86.Entry)
  hosts : List McfgEntry
  hpet : Option UInt64
  devices : List (Aml.Device × List Aml.Descriptor)

namespace Platform

/-- The hardware in the MADT. -/
def madtHardware : Option (UInt32 × List Madt.X86.Entry) → List Hardware
  | none => []
  | some (address, es) => .localApic address :: es.filterMap Madt.X86.Entry.hardware

/-- All hardware. -/
def hardware (p : Platform) : List Hardware :=
  madtHardware p.madt ++ p.hosts.map .pciHost ++ (p.hpet.map .hpet).toList ++
    p.devices.filterMap Aml.Device.hardware

/-- The number of entries of the MADT. -/
def entryCount (p : Platform) : ℕ := (p.madt.map (·.2.length)).getD 0

end Platform

/-- The tables describe a platform, as far as they are not AML. -/
structure AcpiTables.Holds (t : AcpiTables) (p : Platform) : Prop where
  madt : Option.Rel (fun mem m => Madt.X86.IsTable mem m.1 m.2) t.madt p.madt
  mcfg : t.mcfg.getD [] = p.hosts
  hpet : t.hpet = p.hpet

namespace AcpiTables

/-- The tables of the namespace. -/
def amlTables (t : AcpiTables) : List AmlTable := t.dsdt.toList ++ t.ssdts

/-- The devices that the interpreter finds after it was given the tables of the namespace. -/
def namespaceDevices (t : AcpiTables) (I : AmlInterpreter) (kernel : ℕ → AccessAnswers) :
    Prog DriverContext (List Aml.Device) :=
  Aml.namespaceDevices I kernel t.dsdt t.ssdts

end AcpiTables

/-! ### The nodes -/

section Nodes

variable {mem : ℕ → UInt8} {address : UInt32} {es : List Madt.X86.Entry} {fuel : ℕ}

theorem lapicNode_describes (h : Madt.X86.IsTable mem address es) :
    Describes (Madt.X86.lapicNode (Madt.bytes mem 0 Madt.madt.sum)) (.localApic address) := by
  have hfield : Packed.field Madt.madt 1 (Madt.bytes mem 0 Madt.madt.sum) = address.toNat := by
    have hnumber : Packed.field Madt.madt 1 (Madt.bytes mem 0 Madt.madt.sum) =
        Packed.number (Madt.bytes mem 0 Madt.madt.sum) 36 4 := rfl
    rw [hnumber, Madt.X86.number_bytes (by norm_num [Madt.madt, Madt.sdtHeader]),
      h.localApicAddress]
    exact Bytes.ofLittle_little address.toNat_lt
  refine ⟨rfl, rfl, rfl, ?_, rfl, by simp [Hardware.properties]⟩
  show [MMIORegion.mk (UInt64.ofNat (Packed.field Madt.madt 1 _)) 0x1000] = _
  rw [hfield, UInt64.ofNat_uInt32ToNat]
  rfl

theorem ioapicNode_describes (id reserved : UInt8) (address gsiBase : UInt32) :
    Describes (Madt.X86.ioapicNode (Packed.encode
      (Madt.X86.Entry.ioApicFields id reserved address gsiBase))) (.ioApic id address gsiBase) := by
  generalize hfs : Madt.X86.Entry.ioApicFields id reserved address gsiBase = fs
  have h : ∀ {k n v : ℕ}, fs[k]? = some (n, v) → v < 256 ^ n →
      Packed.field (fs.map Prod.fst) k (Packed.encode fs) = v := by
    intro k n v hk hv
    have hf := Packed.field_encode hk hv []
    rwa [List.append_nil] at hf
  subst hfs
  have hid : Packed.field Madt.X86.ioApicEntry 1 _ = _ := h (k := 2) rfl id.toNat_lt
  have haddress : Packed.field Madt.X86.ioApicEntry 3 _ = _ := h (k := 4) rfl address.toNat_lt
  have hgsi : Packed.field Madt.X86.ioApicEntry 4 _ = _ := h (k := 5) rfl gsiBase.toNat_lt
  unfold Madt.X86.ioapicNode
  rw [hid, haddress, hgsi]
  simp only [UInt64.ofNat_uInt32ToNat]
  refine ⟨rfl, rfl, rfl, rfl, rfl, ?_⟩
  simp only [Hardware.properties, List.forall_mem_cons]
  exact ⟨rfl, rfl, List.forall_mem_nil _⟩

theorem hostNode_describes (e : McfgEntry) :
    Describes (AcpiDriver.hostNode e) (.pciHost e) := by
  have hsize : (UInt64.ofNat (e.busNumberEnd.toNat - e.busNumberStart.toNat) + 1) <<< 20 =
      UInt64.ofNat ((e.busNumberEnd.toNat - e.busNumberStart.toNat + 1) * 2 ^ 20) := by
    have hlt := e.busNumberEnd.toNat_lt
    generalize e.busNumberEnd.toNat - e.busNumberStart.toNat = n at *
    rw [← UInt64.toNat_inj, UInt64.toNat_shiftLeft, UInt64.toNat_add, UInt64.toNat_ofNat',
      UInt64.toNat_ofNat', Nat.shiftLeft_eq, show UInt64.toNat 1 = 1 from rfl,
      show UInt64.toNat 20 % 64 = 20 from rfl]
    omega
  refine ⟨rfl, rfl, rfl, ?_, rfl, ?_⟩
  · show [MMIORegion.mk e.baseAddress ((UInt64.ofNat _ + 1) <<< 20)] = _
    rw [hsize]
    rfl
  · simp only [Hardware.properties, List.forall_mem_cons]
    exact ⟨rfl, rfl, List.forall_mem_nil _⟩

theorem hpetNode_describes (address : UInt64) :
    Describes (AcpiDriver.hpetNode address) (.hpet address) :=
  ⟨rfl, rfl, rfl, rfl, rfl, by simp [Hardware.properties]⟩

/-- The resources that are taken from a value of `_CRS`. -/
theorem resources_of_lists {crs : Option AmlValue} {ds : List Aml.Descriptor}
    (h : Aml.Lists crs ds) : Aml.resources crs =
      .ret ⟨ds.flatMap Aml.Descriptor.regions, ds.flatMap Aml.Descriptor.interrupts⟩ := by
  cases h with
  | absent => rfl
  | other v h =>
    cases v with
    | buffer bytes => exact absurd rfl (h bytes)
    | _ => rfl
  | buffer _ k rest =>
    have hlen : ds.length ≤ (ds.flatMap Aml.Descriptor.encode).length := by
      rw [List.length_flatMap]
      have hone := List.length_le_sum_of_one_le (ds.map (·.encode.length)) fun n hn => by
        obtain ⟨d, -, rfl⟩ := List.mem_map.1 hn
        exact Aml.length_encode_pos d
      rwa [List.length_map] at hone
    have hfuel : ds.length <
        (ds.flatMap Aml.Descriptor.encode ++ Aml.endTag k :: rest).length + 1 := by
      rw [List.length_append]
      omega
    have hloop : loop (Aml.crsStep ([] ++ (ds.flatMap Aml.Descriptor.encode ++
        Aml.endTag k :: rest))) _ ([] : List UInt8).length ⟨[], []⟩ = _ :=
      Aml.loop_descriptors ds k hfuel
    have hwalk : Aml.crsWalk (ds.flatMap Aml.Descriptor.encode ++ Aml.endTag k :: rest) ⟨[], []⟩ =
        _ := hloop
    simp only [Aml.resources, hwalk]
    rfl

theorem parseDevice_describes (d : Aml.Device × List Aml.Descriptor) (h : Aml.Lists d.1.crs d.2) :
    ∃ node, Aml.parseDevice d.1 = .ret node ∧
      List.Forall₂ Describes node.toList (Aml.Device.hardware d).toList := by
  unfold Aml.parseDevice Aml.Device.hardware
  cases d.1.hid.bind Aml.hidOf with
  | none => exact ⟨none, rfl, .nil⟩
  | some hid =>
    simp only [resources_of_lists h]
    refine ⟨_, rfl, .cons ⟨rfl, rfl, rfl, rfl, rfl, ?_⟩ .nil⟩
    simp only [Hardware.properties, List.forall_mem_cons]
    exact ⟨rfl, rfl, List.forall_mem_nil _⟩

/-! ### The passes -/

theorem entries_describe (es : List Madt.X86.Entry) :
    List.Forall₂ Describes (es.flatMap Madt.X86.Entry.nodes)
      (es.filterMap Madt.X86.Entry.hardware) := by
  induction es with
  | nil => exact .nil
  | cons e es ih =>
    cases e with
    | ioApic id reserved address gsiBase =>
      exact .cons (ioapicNode_describes id reserved address gsiBase) ih
    | localApic => exact ih
    | other => exact ih

/-- The pass over the MADT. -/
theorem madtParse_describes {t : AcpiTables} {p : Platform} (h : t.Holds p) :
    ∃ nodes, (∀ fuel, p.entryCount < fuel →
        AcpiDriver.madtParse .x86 fuel t [] = .ret nodes) ∧
      List.Forall₂ Describes nodes (Platform.madtHardware p.madt) := by
  have hmadt := h.madt
  unfold Platform.entryCount AcpiDriver.madtParse
  generalize t.madt = table at hmadt ⊢
  generalize p.madt = description at hmadt ⊢
  cases hmadt with
  | none => exact ⟨[], fun _ _ => rfl, .nil⟩
  | @some mem m htable =>
    refine ⟨Madt.X86.lapicNode (Madt.bytes mem 0 Madt.madt.sum) ::
      m.2.flatMap Madt.X86.Entry.nodes, fun fuel hn => ?_,
      .cons (lapicNode_describes htable) (entries_describe m.2)⟩
    obtain ⟨s', hrun, hdev⟩ := Madt.X86.parseMadt_run htable hn []
    simp only [Madt.Arch.parseMadt, hrun, hdev]
    rfl

/-- The pass over the MCFG. -/
theorem pciParse_eq (t : AcpiTables) (devices : List DeviceDescNode) :
    AcpiDriver.pciParse t devices = devices ++ (t.mcfg.getD []).map AcpiDriver.hostNode := by
  unfold AcpiDriver.pciParse
  cases t.mcfg with
  | none => exact (List.append_nil _).symm
  | some entries =>
    rw [Option.getD_some, List.map_eq_flatMap, List.flatMap_def]
    exact List.foldl_append_eq_append

/-- The pass over the HPET. -/
theorem hpetParse_eq (t : AcpiTables) (devices : List DeviceDescNode) :
    AcpiDriver.hpetParse t devices = devices ++ (t.hpet.map AcpiDriver.hpetNode).toList := by
  unfold AcpiDriver.hpetParse
  cases t.hpet with
  | none => exact (List.append_nil _).symm
  | some addr => rfl

/-- The pass over the namespace. -/
theorem parseDevices_describes {ds : List (Aml.Device × List Aml.Descriptor)}
    (h : ∀ d ∈ ds, Aml.Lists d.1.crs d.2) (devices : List DeviceDescNode) :
    ∃ nodes, Aml.parseDevices (ds.map Prod.fst) devices = .ret (devices ++ nodes) ∧
      List.Forall₂ Describes nodes (ds.filterMap Aml.Device.hardware) := by
  induction ds generalizing devices with
  | nil => exact ⟨[], by simp [Aml.parseDevices], .nil⟩
  | cons d ds ih =>
    obtain ⟨hd, hds⟩ := List.forall_mem_cons.1 h
    obtain ⟨node, hnode, hdescribes⟩ := parseDevice_describes d hd
    obtain ⟨nodes, hrun, hall⟩ := ih hds (devices ++ node.toList)
    refine ⟨node.toList ++ nodes, ?_, ?_⟩
    · rw [← List.append_assoc, ← hrun]
      unfold Aml.parseDevices
      rw [List.map_cons, List.foldlM_cons, hnode]
      rfl
    · rw [List.filterMap_cons]
      cases hh : Aml.Device.hardware d with
      | none =>
        rw [hh] at hdescribes
        rw [List.forall₂_nil_right_iff.1 hdescribes]
        exact hall
      | some hw =>
        rw [hh] at hdescribes
        exact List.rel_append hdescribes hall

end Nodes

/-- What is reported for the devices that the interpreter finds. -/
theorem probe_describes {t : AcpiTables} {p : Platform} (h : t.Holds p) (I : AmlInterpreter)
    (kernel : ℕ → AccessAnswers) {ε : Type}
    {fromRsdp : UInt64 → Prog DriverContext (Except ε AcpiTables)} {rsdpAddr : UInt64}
    {c c' c'' : DriverContext} (hfound : fromRsdp rsdpAddr c = (.ret (.ok t), c'))
    (hdevices : t.namespaceDevices I kernel c' = (.ret (p.devices.map Prod.fst), c''))
    (hresources : ∀ d ∈ p.devices, Aml.Lists d.1.crs d.2) :
    ∃ nodes : List DeviceDescNode,
      (∀ fuel, p.entryCount < fuel →
        AcpiDriver.probe .x86 fuel I kernel (.ok rsdpAddr) fromRsdp c = (.ret (.ok nodes), c'')) ∧
      List.Forall₂ Describes nodes p.hardware ∧
      ∀ hardware, List.Forall₂ Describes nodes hardware → hardware = p.hardware := by
  obtain ⟨nodes₁, hrun₁, hmadt⟩ := madtParse_describes h
  have hmcfg : List.Forall₂ Describes (p.hosts.map AcpiDriver.hostNode)
      (p.hosts.map Hardware.pciHost) :=
    List.forall₂_map_left_iff.2 (List.forall₂_map_right_iff.2
      (List.forall₂_same.2 fun e _ => hostNode_describes e))
  have hhpet : List.Forall₂ Describes (p.hpet.map AcpiDriver.hpetNode).toList
      (p.hpet.map Hardware.hpet).toList := by
    cases p.hpet with
    | none => exact .nil
    | some addr => exact .cons (hpetNode_describes addr) .nil
  obtain ⟨nodes₂, hrun₂, haml⟩ := parseDevices_describes hresources
    (nodes₁ ++ p.hosts.map AcpiDriver.hostNode ++ (p.hpet.map AcpiDriver.hpetNode).toList)
  have hall : List.Forall₂ Describes (_ ++ nodes₂) p.hardware :=
    List.rel_append (List.rel_append (List.rel_append hmadt hmcfg) hhpet) haml
  have hunique : Relator.RightUnique Describes := fun _ _ _ hd hd' => hd.unique hd'
  refine ⟨_, fun fuel hn => ?_, hall, fun hardware hhw =>
    List.right_unique_forall₂' hunique hhw hall⟩
  have hmadt' : ofOutcome (AcpiDriver.madtParse .x86 fuel t []) c' = (.ret nodes₁, c') := by
    rw [hrun₁ fuel hn]
    rfl
  have hdevices' : Aml.namespaceDevices I kernel t.dsdt t.ssdts c' = _ := hdevices
  rw [AcpiDriver.probe_found _ _ _ _ hfound, bind_of_ret hmadt', bind_of_ret hdevices',
    pciParse_eq, hpetParse_eq, h.mcfg, h.hpet, hrun₂]
  rfl

/-- **The inventory.**  For tables that describe an x86 platform, the nodes that are reported
describe its hardware piece by piece, in the order of the tables, and no other hardware.  The
devices of the namespace are those that the interpreter finds after it was given the tables with
their headers: an interpreter of AML without headers finds none. -/
theorem acpi_inventory {t : AcpiTables} {p : Platform} (h : t.Holds p) (I : AmlInterpreter)
    (kernel : ℕ → AccessAnswers) {ε : Type}
    (fromRsdp : UInt64 → Prog DriverContext (Except ε AcpiTables)) (rsdpAddr : UInt64)
    (c c' : DriverContext) (hfound : fromRsdp rsdpAddr c = (.ret (.ok t), c')) :
    (∀ c'', t.namespaceDevices I kernel c' = (.ret (p.devices.map Prod.fst), c'') →
      (∀ d ∈ p.devices, Aml.Lists d.1.crs d.2) →
        ∃ nodes : List DeviceDescNode,
          (∀ fuel, p.entryCount < fuel → AcpiDriver.probe .x86 fuel I kernel (.ok rsdpAddr)
            fromRsdp c = (.ret (.ok nodes), c'')) ∧
          List.Forall₂ Describes nodes p.hardware ∧
          ∀ hardware, List.Forall₂ Describes nodes hardware → hardware = p.hardware) ∧
    ∀ (barren : I.Context → Prop) (table : PageTable) (mem : ℕ → UInt8)
      (served : List AcpiServed) (u : AcpiUse), Aml.Refuses I barren →
      AcpiUses table mem served u → u.ctx = c' →
      Affordable (requests served ++ t.amlTables.map Aml.tableRequest) →
      (∀ k, (kernel k).Granted) →
      (∀ tbl ∈ t.amlTables, Aml.IsSdt (MemoryTrace.fetch c'.mem tbl.physAddress.toNat
        tbl.length.toNat)) →
      ∃ (nodes : List DeviceDescNode) (c'' : DriverContext),
        (∀ fuel, p.entryCount < fuel → AcpiDriver.probe .x86 fuel I kernel (.ok rsdpAddr)
          fromRsdp c = (.ret (.ok nodes), c'')) ∧
        List.Forall₂ Describes nodes { p with devices := [] }.hardware ∧
        ∀ hardware, List.Forall₂ Describes nodes hardware →
          hardware = { p with devices := [] }.hardware := by
  refine ⟨fun c'' hdevices hresources => probe_describes h I kernel hfound hdevices hresources, ?_⟩
  intro barren table mem served u hI run hu ha hgranted hsdt
  obtain ⟨ops, tr, hs⟩ := run.simulated ha.of_append
  rw [← hs.requested] at ha
  have hctx : tr.ctx = c' := hs.follows.ctx.trans hu
  rw [← hctx] at hsdt
  obtain ⟨c'', hdevices⟩ := Aml.namespaceDevices_refused hI kernel hs.run ha hgranted hsdt
  rw [hctx] at hdevices
  have hstatic : t.Holds { p with devices := [] } := ⟨h.madt, h.mcfg, h.hpet⟩
  obtain ⟨nodes, hrun, hall, hunique⟩ := probe_describes hstatic I kernel hfound hdevices
    fun _ hd => absurd hd List.not_mem_nil
  exact ⟨nodes, c'', hrun, hall, hunique⟩

/-- A platform with a processor, an I/O APIC, a PCI host bridge with 16 buses and an HPET. -/
def smallPlatform : Platform where
  madt := some (0xfee00000, [.localApic 0 0 1, .ioApic 2 0 0xfec00000 24])
  hosts := [⟨0xb0000000, 0, 0, 15⟩]
  hpet := some 0xfed00000
  devices := []

/-- The tables of the platform; the DSDT has a header and one byte of AML. -/
def smallTables : AcpiTables where
  madt := some fun i => (List.replicate 4 0 ++ Bytes.little 4 64 ++ List.replicate 28 0 ++
    Bytes.little 4 0xfee00000 ++ List.replicate 4 0 ++ [0, 8, 0, 0, 1, 0, 0, 0] ++
    [1, 12, 2, 0, 0, 0, 0xc0, 0xfe, 24, 0, 0, 0])[i]?.getD 0
  mcfg := some [⟨0xb0000000, 0, 0, 15⟩]
  hpet := some 0xfed00000
  dsdt := some ⟨0x1000, 37⟩
  ssdts := []

/-- The memory of the platform, with the DSDT. -/
def smallMemory : ℕ → UInt8 := MemoryTrace.put (fun _ => 0) 0x1000 [0x44, 0x53, 0x44, 0x54]

theorem smallTables_holds : smallTables.Holds smallPlatform where
  madt := .some ⟨by decide, by decide, by decide, by decide⟩
  mcfg := rfl
  hpet := rfl

/-- An interpreter that refuses every stream. -/
def noStreams : AmlInterpreter where
  Context := List Aml.Device
  AmlError := Unit
  new := []
  parseTable _ context := pure (.error ⟨⟩, context)
  initializeObjects context := pure (.ok ⟨⟩, context)
  devices context := pure context

theorem noStreams_refuses : Aml.Refuses noStreams (· = []) where
  fresh := rfl
  header _ context _ h := ⟨⟨⟩, context, rfl, h⟩
  objects context h := ⟨.ok ⟨⟩, context, rfl, h⟩
  devices context h := by
    subst h
    rfl

/-- Its four pieces of hardware are reported; the processor is not. -/
theorem acpi_inventory_small :
    ∃ (nodes : List DeviceDescNode) (c : DriverContext),
      AcpiDriver.probe .x86 3 noStreams (fun _ => ⟨.ok ⟨⟩, .ok ⟨⟩, .ok ⟨⟩, .ok ⟨⟩⟩) (.ok 0xe0000)
        (fun _ => pure (.ok (ε := Unit) smallTables)) (.initial (fun _ => none) smallMemory) =
        (.ret (.ok nodes), c) ∧
      List.Forall₂ Describes nodes [.localApic 0xfee00000, .ioApic 2 0xfec00000 24,
        .pciHost ⟨0xb0000000, 0, 0, 15⟩, .hpet 0xfed00000] := by
  have ha : Affordable [((0x1000, 37) : UInt64 × UInt64)] := by
    refine ⟨fun r hr => ?_, by decide, by decide⟩
    rw [List.mem_singleton.1 hr]
    show (0 : UInt64) < 37
    decide
  have hsdt : ∀ tbl ∈ smallTables.amlTables, Aml.IsSdt (MemoryTrace.fetch smallMemory
      tbl.physAddress.toNat tbl.length.toNat) := by
    intro tbl htbl
    rw [List.mem_singleton.1 htbl]
    exact ⟨by decide, .inl (by decide)⟩
  obtain ⟨nodes, c, hrun, hall, -⟩ := (acpi_inventory smallTables_holds noStreams
    (fun _ => ⟨.ok ⟨⟩, .ok ⟨⟩, .ok ⟨⟩, .ok ⟨⟩⟩) (fun _ => pure (.ok (ε := Unit) smallTables))
    0xe0000 (.initial (fun _ => none) smallMemory) _ rfl).2 (· = []) (fun _ => none) smallMemory
    [] _ noStreams_refuses .start rfl ha (fun _ => ⟨rfl, rfl⟩) hsdt
  exact ⟨nodes, c, hrun 3 (by decide), hall⟩

end GlendaDrivers
