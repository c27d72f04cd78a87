import Mathlib.Tactic

/-!
# Device descriptions (`glenda::protocol::device`)

What the bus and platform drivers report to the device manager.  A list of nodes describes a tree:
`parent` is the index of the parent in the list, or `usize::MAX` for a node without one.  Indices
are lengths of vectors, which do not wrap.
-/

namespace GlendaDrivers

/-- `MMIORegion`. -/
structure MMIORegion where
  baseAddr : UInt64
  size : UInt64
  deriving DecidableEq

/-- `DeviceDesc`. -/
structure DeviceDesc where
  name : String
  compatible : List String
  mmio : List MMIORegion
  irq : List UInt64
  deriving DecidableEq

/-- `DeviceNodeMeta`. -/
structure DeviceNodeMeta where
  bus : Option String
  unitAddr : Option UInt64
  tags : List String
  properties : List (String × String)
  deriving DecidableEq

/-- `DeviceDescNode`. -/
structure DeviceDescNode where
  parent : ℕ
  desc : DeviceDesc
  nodeMeta : DeviceNodeMeta
  deriving DecidableEq

/-- `usize::MAX`. -/
def usizeMax : ℕ := 2 ^ 64 - 1

end GlendaDrivers
