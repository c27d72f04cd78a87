import GlendaDrivers.DeviceDesc
import GlendaDrivers.Lib.Cursor
import GlendaDrivers.Lib.Packed

/-!
# The MADT (`platform/acpi/src/arch/riscv.rs`, `x86.rs`)

The table is the memory from `madt_ptr` on, and its packed structures are given by the sizes of
their fields.  Every read of an entry is recorded; reads of the 44 bytes before the entries are not.

* `Riscv.entry`, `X86.entry`: what is done with one entry;
* `entryStep`: one iteration of the loop over the entries, the same in both versions;
* `Riscv.parseMadt`, `X86.parseMadt`: the nodes that are pushed;
* `Arch`: the two versions, with what they do for one entry.
-/

namespace GlendaDrivers.Madt

open Prog

/-! ### Reads -/

/-- A range of bytes behind `madt_ptr`. -/
structure Range where
  start : ℕ
  size : ℕ
  deriving DecidableEq

/-- The vector of nodes, and the reads of entries. -/
structure State where
  devices : List DeviceDescNode
  reads : List Range

/-- The fields of `SdtHeader`. -/
def sdtHeader : List ℕ := [4, 4, 1, 1, 6, 8, 4, 4, 4]

/-- The fields of `Madt`: header, local APIC address, flags. -/
def madt : List ℕ := [sdtHeader.sum, 4, 4]

/-- The fields of `EntryHeader`: type, length. -/
def entryHeader : List ℕ := [1, 1]

/-- The `n` bytes at an offset. -/
def bytes (mem : ℕ → UInt8) (offset n : ℕ) : List UInt8 :=
  (List.range n).map fun i => mem (offset + i)

/-- `madt.header.length`. -/
def length (mem : ℕ → UInt8) : ℕ := Packed.field sdtHeader 1 (bytes mem 0 madt.sum)

/-- Read the structure of `n` bytes at an offset. -/
def fetch (mem : ℕ → UInt8) (offset n : ℕ) : Prog State (List UInt8) :=
  ofFn fun s => (bytes mem offset n, { s with reads := s.reads ++ [⟨offset, n⟩] })

/-- `devices.push`. -/
def push (node : DeviceDescNode) : Prog State Unit :=
  modify fun s => { s with devices := s.devices ++ [node] }

/-! ### Nodes -/

/-- The text of `{:#x}`. -/
def hexText (n : ℕ) : String := "0x" ++ String.ofList (Nat.toDigits 16 n)

/-- A node for an interrupt controller of the given type. -/
def controllerNode (type name : String) (compatible : List String) (base size : UInt64)
    (properties : List (String × String)) : DeviceDescNode where
  parent := usizeMax
  desc := {
    name := name
    compatible := compatible
    mmio := [⟨base, size⟩]
    irq := [] }
  nodeMeta := {
    bus := some "platform"
    unitAddr := some base
    tags := ["src:acpi", "acpi:madt"]
    properties := ("acpi.madt.type", type) :: properties }

/-! ### RISC-V -/

namespace Riscv

def madtTypeRintc : UInt8 := 24
def madtTypeAplic : UInt8 := 26
def madtTypePlic : UInt8 := 27

/-- `RintcEntry`: header, version, reserved, flags, hart id, id, external interrupt controller id,
IMSIC base address, IMSIC size. -/
def rintcEntry : List ℕ := [2, 1, 1, 4, 8, 4, 4, 8, 4]

/-- `AplicEntry`: header, version, id, flags, hardware id, IDC count, external vector count, GSI
base, base address, size. -/
def aplicEntry : List ℕ := [2, 1, 1, 4, 8, 2, 2, 4, 8, 4]

/-- `PlicEntry`: header, version, id, hardware id, total IRQs, base address, size, GSI base,
reserved. -/
def plicEntry : List ℕ := [2, 1, 1, 8, 2, 8, 4, 4, 6]

/-- The node of an APLIC. -/
def aplicNode (aplic : List UInt8) : DeviceDescNode :=
  let id := Packed.field aplicEntry 2 aplic
  let baseAddr := Packed.field aplicEntry 8 aplic
  let size := Packed.field aplicEntry 9 aplic
  controllerNode "aplic" ("aplic@" ++ hexText baseAddr) ["riscv,aplic"] (UInt64.ofNat baseAddr)
    (UInt64.ofNat size) [("acpi.aplic.id", Nat.repr id)]

/-- The node of a PLIC. -/
def plicNode (plic : List UInt8) : DeviceDescNode :=
  let id := Packed.field plicEntry 2 plic
  let baseAddr := Packed.field plicEntry 5 plic
  let size := Packed.field plicEntry 6 plic
  let gsiBase := Packed.field plicEntry 7 plic
  controllerNode "plic" ("plic@" ++ hexText baseAddr) ["riscv,plic0", "sifive,plic-1.0.0"]
    (UInt64.ofNat baseAddr) (UInt64.ofNat size)
    [("acpi.plic.id", Nat.repr id), ("acpi.plic.gsi_base", Nat.repr gsiBase)]

/-- The `match` on the type of an entry. -/
def entry (mem : ℕ → UInt8) (type : UInt8) (offset : ℕ) : Prog State Unit :=
  if type = madtTypeRintc then do
    -- for the message
    let _rintc ← fetch mem offset rintcEntry.sum
    return ()
  else if type = madtTypeAplic then do
    let aplic ← fetch mem offset aplicEntry.sum
    push (aplicNode aplic)
  else if type = madtTypePlic then do
    -- the dump
    let _hex ← fetch mem offset 36
    let plic ← fetch mem offset plicEntry.sum
    push (plicNode plic)
  else return ()

end Riscv

/-! ### x86 -/

namespace X86

/-- `LocalApicEntry`: header, processor id, APIC id, flags. -/
def localApicEntry : List ℕ := [2, 1, 1, 4]

/-- `IoApicEntry`: header, id, reserved, address, global system interrupt base. -/
def ioApicEntry : List ℕ := [2, 1, 1, 4, 4]

/-- The node of the local APIC. -/
def lapicNode (table : List UInt8) : DeviceDescNode :=
  controllerNode "lapic" "lapic" ["intel,lapic"] (UInt64.ofNat (Packed.field madt 1 table)) 0x1000
    []

/-- The node of an I/O APIC. -/
def ioapicNode (ioapic : List UInt8) : DeviceDescNode :=
  let id := Packed.field ioApicEntry 1 ioapic
  let addr := Packed.field ioApicEntry 3 ioapic
  let gsi := Packed.field ioApicEntry 4 ioapic
  controllerNode "ioapic" ("ioapic@" ++ hexText addr) ["intel,ioapic"] (UInt64.ofNat addr) 0x1000
    [("acpi.ioapic.id", Nat.repr id), ("acpi.ioapic.gsi_base", Nat.repr gsi)]

/-- The `match` on the type of an entry. -/
def entry (mem : ℕ → UInt8) (type : UInt8) (offset : ℕ) : Prog State Unit :=
  if type = 0 then do
    -- for the message
    let _lapic ← fetch mem offset localApicEntry.sum
    return ()
  else if type = 1 then do
    let ioapic ← fetch mem offset ioApicEntry.sum
    push (ioapicNode ioapic)
  else return ()

end X86

/-! ### The walk -/

/-- One iteration of the loop over the entries. -/
def entryStep (mem : ℕ → UInt8) (entry : UInt8 → ℕ → Prog State Unit) (offset : ℕ) :
    Prog State (ℕ ⊕ Unit) :=
  if offset < length mem then do
    let header ← fetch mem offset entryHeader.sum
    entry (UInt8.ofNat (Packed.field entryHeader 0 header)) offset
    return .inl (offset + Packed.field entryHeader 1 header)
  else return .inr ()

/-- `parse_madt` for RISC-V, with at most `fuel` iterations. -/
def Riscv.parseMadt (mem : ℕ → UInt8) (fuel : ℕ) : Prog State Unit :=
  loop (entryStep mem (Riscv.entry mem)) fuel madt.sum

/-- `parse_madt` for x86, with at most `fuel` iterations.  The address of the local APIC is in bytes
36 to 39, before the entries, and reading it is not recorded. -/
def X86.parseMadt (mem : ℕ → UInt8) (fuel : ℕ) : Prog State Unit := do
  push (X86.lapicNode (bytes mem 0 madt.sum))
  loop (entryStep mem (X86.entry mem)) fuel madt.sum

/-- The versions of `parse_madt`. -/
inductive Arch
  | riscv
  | x86
  deriving DecidableEq

namespace Arch

def parseMadt (mem : ℕ → UInt8) (fuel : ℕ) : Arch → Prog State Unit
  | riscv => Riscv.parseMadt mem fuel
  | x86 => X86.parseMadt mem fuel

def entry (mem : ℕ → UInt8) : Arch → UInt8 → ℕ → Prog State Unit
  | riscv => Riscv.entry mem
  | x86 => X86.entry mem

/-- The node that is pushed before the walk. -/
def fixed (mem : ℕ → UInt8) : Arch → List DeviceDescNode
  | riscv => []
  | x86 => [X86.lapicNode (bytes mem 0 madt.sum)]

/-- The node that is pushed for an entry. -/
def nodes (mem : ℕ → UInt8) (type : UInt8) (offset : ℕ) : Arch → List DeviceDescNode
  | riscv =>
      if type = 26 then [Riscv.aplicNode (bytes mem offset 36)]
      else if type = 27 then [Riscv.plicNode (bytes mem offset 36)]
      else []
  | x86 => if type = 1 then [X86.ioapicNode (bytes mem offset 12)] else []

/-- The sizes that are read of an entry, besides its header. -/
def sizes (type : UInt8) : Arch → List ℕ
  | riscv =>
      if type = 24 ∨ type = 26 then [36]
      else if type = 27 then [36, 36]
      else []
  | x86 => if type = 0 then [8] else if type = 1 then [12] else []

/-- The number of bytes that an entry of a type needs: the structure that it is cast to. -/
def need (type : UInt8) : Arch → ℕ
  | riscv => if type = 24 ∨ type = 26 ∨ type = 27 then 36 else 0
  | x86 => if type = 0 then 8 else if type = 1 then 12 else 0

end Arch

end GlendaDrivers.Madt
