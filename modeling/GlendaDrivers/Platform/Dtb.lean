import GlendaDrivers.DeviceDesc
import GlendaDrivers.Glenda
import GlendaDrivers.Lib.Bytes
import GlendaDrivers.Lib.RoseTree

/-!
# The device tree parser (`platform/dtb/src/parser.rs`)

A node of the `fdt` crate appears as what the accessors of the crate give for it, and a device tree
as the tree of its nodes.

* `parseUnitAddr`, `inferBus`, `collectMeta`, `nodeDesc`: one node;
* `parseNode`: the loop over a tree, which appends to one vector;
* `parseDtbBlob`: the entries of a blob;
* `Flattens`: what the entries of a tree have to be;
* `parse_dtb_blob`: that they are.
-/

namespace GlendaDrivers

open Rose

/-! ### The `fdt` crate -/

/-- `NodeProperty`: its bytes, and the results of `as_str` and `as_usize`. -/
structure NodeProperty where
  value : List UInt8
  asStr : Option String
  asUsize : Option UInt64
  deriving DecidableEq

/-- `MemoryRegion`. -/
structure MemoryRegion where
  startingAddress : UInt64
  size : Option UInt64
  deriving DecidableEq

/-- The accessors of `FdtNode`, without `children`. -/
structure NodeView where
  name : String
  compatible : Option (List String)
  reg : Option (List MemoryRegion)
  interrupts : Option (List UInt64)
  property : String → Option NodeProperty

/-- `FdtNode`. -/
abbrev FdtNode := Rose NodeView

/-- `Fdt`. -/
structure Fdt where
  findNode : String → Option FdtNode

/-! ### One node -/

/-- `str::rsplit_once`. -/
def rsplitOnce (c : Char) (s : List Char) : Option (List Char × List Char) :=
  if c ∈ s then
    some ((s.reverse.dropWhile (· ≠ c)).tail.reverse, (s.reverse.takeWhile (· ≠ c)).reverse)
  else none

/-- `trim_start_matches("0x")`. -/
def trimHexPrefix : List Char → List Char
  | '0' :: 'x' :: s => trimHexPrefix s
  | s => s

/-- `char::to_digit(16)`. -/
def toDigit16 (c : Char) : Option ℕ :=
  if '0' ≤ c ∧ c ≤ '9' then some (c.toNat - '0'.toNat)
  else if 'a' ≤ c ∧ c ≤ 'f' then some (c.toNat - 'a'.toNat + 10)
  else if 'A' ≤ c ∧ c ≤ 'F' then some (c.toNat - 'A'.toNat + 10)
  else none

/-- The loop of `from_str_radix`: multiply and add, unless the result does not fit. -/
def pushDigit16 (n : ℕ) (c : Char) : Option ℕ := do
  let digit ← toDigit16 c
  if n * 16 + digit < 2 ^ 64 then some (n * 16 + digit) else none

/-- `usize::from_str_radix` for base 16: at least one digit, after an optional `+`. -/
def fromStrRadix16 (s : List Char) : Option UInt64 :=
  let digits := match s with
    | '+' :: rest => rest
    | s => s
  if digits = [] then none else (digits.foldlM pushDigit16 0).map UInt64.ofNat

/-- `parse_unit_addr`. -/
def parseUnitAddr (name : String) : Option UInt64 := do
  let (_, suffix) ← rsplitOnce '@' name.toList
  fromStrRadix16 (trimHexPrefix suffix)

/-- `str::contains`. -/
def containsStr (s pattern : String) : Bool := decide (pattern.toList <:+: s.toList)

/-- `infer_bus`. -/
def inferBus (name : String) (compatible : List String) : Option String :=
  if compatible.any fun c => containsStr c "virtio" then some "virtio"
  else if compatible.any fun c => containsStr c "pci" then some "pci"
  else if compatible.any fun c => containsStr c "uart" || containsStr c "serial" then some "serial"
  else if (compatible.any fun c => containsStr c "simple-bus") || name = "soc" then some "platform"
  else none

/-- `u32::from_be_bytes`. -/
def fromBeBytes (bytes : List UInt8) : ℕ := Bytes.ofLittle bytes.reverse

namespace NodeView

/-- `node.property(key).and_then(|p| p.as_str())`. -/
def strProp (node : NodeView) (key : String) : Option String :=
  (node.property key).bind NodeProperty.asStr

/-- The property `key` as a pair, when it is a string. -/
def strPair (node : NodeView) (key : String) : List (String × String) :=
  (node.strProp key).toList.map fun value => (key, value)

/-- The property `key` as a pair, when it is a number. -/
def usizePair (node : NodeView) (key : String) : List (String × String) :=
  ((node.property key).bind NodeProperty.asUsize).toList.map fun value =>
    (key, Nat.repr value.toNat)

/-- The pair for `bus-range`, two words of 32 bits. -/
def busRangePair (node : NodeView) : List (String × String) :=
  match node.property "bus-range" with
  | some prop =>
      if 8 ≤ prop.value.length then
        let start := fromBeBytes (prop.value.take 4)
        let stop := fromBeBytes ((prop.value.drop 4).take 4)
        [("bus-range", Nat.repr start ++ "-" ++ Nat.repr stop)]
      else []
  | none => []

/-- `collect_meta`. -/
def collectMeta (node : NodeView) (name : String) (compatible : List String) : DeviceNodeMeta where
  bus := inferBus name compatible
  unitAddr := parseUnitAddr name
  tags :=
    ["src:dtb"] ++
      (node.strProp "status").toList.map ("status:" ++ ·) ++
      (node.strProp "device_type").toList.map ("type:" ++ ·)
  properties :=
    node.strPair "status" ++ node.strPair "device_type" ++ node.strPair "model" ++
      node.usizePair "clock-frequency" ++ node.usizePair "phandle" ++
      node.usizePair "#address-cells" ++ node.usizePair "#size-cells" ++
      node.usizePair "linux,pci-domain" ++ node.busRangePair

/-- The `compatible` texts, none when there is no such property. -/
def compatibleTexts (node : NodeView) : List String := node.compatible.getD []

/-- The body of the loop over the regions of `reg`. -/
def pushRegion (mmioRegions : List MMIORegion) (r : MemoryRegion) : List MMIORegion :=
  match r.size with
  | some size => mmioRegions ++ [⟨r.startingAddress, size⟩]
  | none => mmioRegions

/-- The vector `mmio_regions`. -/
def mmioRegions (node : NodeView) : List MMIORegion :=
  match node.reg with
  | some reg => reg.foldl pushRegion []
  | none => []

/-- The vector `irqs`. -/
def irqs (node : NodeView) : List UInt64 :=
  match node.interrupts with
  | some interrupts => interrupts.foldl (fun irqs i => irqs ++ [i]) []
  | none => []

/-- The description of a node. -/
def nodeDesc (node : NodeView) : DeviceDesc where
  name := node.name
  compatible := node.compatibleTexts
  mmio := node.mmioRegions
  irq := node.irqs

/-- The entry of a node. -/
def entry (node : NodeView) (parentIdx : ℕ) : DeviceDescNode where
  parent := parentIdx
  desc := node.nodeDesc
  nodeMeta := node.collectMeta node.name node.compatibleTexts

end NodeView

/-! ### The tree -/

mutual
/-- `parse_node`. -/
def parseNode : FdtNode → ℕ → List DeviceDescNode → List DeviceDescNode
  | node view children, parentIdx, devices =>
      let currentIdx := devices.length
      parseChildren children currentIdx (devices ++ [view.entry parentIdx])

/-- The loop over `node.children()`. -/
def parseChildren : List FdtNode → ℕ → List DeviceDescNode → List DeviceDescNode
  | [], _, devices => devices
  | child :: children, currentIdx, devices =>
      parseChildren children currentIdx (parseNode child currentIdx devices)
end

/-- `parse_dtb_blob`, with the crate's parser `fdtNew`. -/
def parseDtbBlob (fdtNew : List UInt8 → Option Fdt) (fdtSlice : List UInt8) :
    Except Error (List DeviceDescNode) :=
  match fdtNew fdtSlice with
  | none => .error .invalidArgs
  | some fdt =>
      match fdt.findNode "/" with
      | some root => .ok (parseNode root usizeMax [])
      | none => .ok []

/-! ### What the list has to be -/

/-- The part of a node that a description has to have. -/
def NodeView.described (node : NodeView) : DeviceDesc where
  name := node.name
  compatible := node.compatible.getD []
  mmio := (node.reg.getD []).filterMap fun r => r.size.map fun size => ⟨r.startingAddress, size⟩
  irq := node.interrupts.getD []

/-- `devices` has one entry for each node of `root`, in preorder: entry `k` belongs to the node at
`addresses[k]`, and preorder is the lexicographic order of the addresses. -/
structure Flattens (root : FdtNode) (addresses : List (List ℕ)) (devices : List DeviceDescNode) :
    Prop where
  sorted : addresses.Pairwise (· < ·)
  all : ∀ ρ, ρ ∈ addresses ↔ (root.sub ρ).isSome
  length : devices.length = addresses.length
  desc : ∀ (k : ℕ) (ρ : List ℕ) (d : DeviceDescNode), addresses[k]? = some ρ →
    devices[k]? = some d → ∃ node, root.sub ρ = some node ∧ d.desc = node.value.described
  first : devices[0]?.map DeviceDescNode.parent = some usizeMax
  parent : ∀ (k : ℕ) (ρ : List ℕ) (c : ℕ) (d : DeviceDescNode),
    addresses[k]? = some (ρ ++ [c]) → devices[k]? = some d →
      d.parent < k ∧ addresses[d.parent]? = some ρ
  rebuilt : rebuild (devices.map fun d => (d.parent, d.desc)) =
    some (root.map NodeView.described)

/-! ### The loop -/

theorem NodeView.mmioRegions_eq (node : NodeView) : node.mmioRegions = node.described.mmio := by
  have hloop : ∀ (reg : List MemoryRegion) (acc : List MMIORegion),
      reg.foldl pushRegion acc = acc ++ reg.filterMap fun r =>
        r.size.map fun size => ⟨r.startingAddress, size⟩ := by
    intro reg
    induction reg with
    | nil => intro acc; rw [List.foldl_nil, List.filterMap_nil, List.append_nil]
    | cons r reg ih =>
      intro acc
      rw [List.foldl_cons, ih, List.filterMap_cons]
      unfold pushRegion
      cases r.size with
      | none => rfl
      | some size => rw [List.append_assoc]; rfl
  unfold mmioRegions described
  cases node.reg with
  | none => rfl
  | some reg => exact hloop reg []

theorem NodeView.irqs_eq (node : NodeView) : node.irqs = node.described.irq := by
  have hloop : ∀ interrupts acc : List UInt64,
      interrupts.foldl (fun irqs i => irqs ++ [i]) acc = acc ++ interrupts := by
    intro interrupts
    induction interrupts with
    | nil => intro acc; rw [List.foldl_nil, List.append_nil]
    | cons i interrupts ih =>
      intro acc
      rw [List.foldl_cons, ih, List.append_assoc, List.singleton_append]
  unfold irqs described
  cases node.interrupts with
  | none => rfl
  | some interrupts => exact hloop interrupts []

/-- The loops of `parse_node` collect what a description has to have. -/
theorem NodeView.nodeDesc_eq (node : NodeView) : node.nodeDesc = node.described := by
  unfold nodeDesc compatibleTexts
  rw [node.mmioRegions_eq, node.irqs_eq]
  rfl

/-- `parse_node` appends the entries of its tree, numbered from the length of the vector on. -/
theorem parseNode_eq :
    (∀ (node : FdtNode) (parentIdx : ℕ) (devices : List DeviceDescNode),
      parseNode node parentIdx devices =
        devices ++ (node.flat parentIdx devices.length).map fun e => e.2.entry e.1) ∧
      ∀ (children : List FdtNode) (currentIdx : ℕ) (devices : List DeviceDescNode),
        parseChildren children currentIdx devices =
          devices ++ (flats children currentIdx devices.length).map fun e => e.2.entry e.1 := by
  apply induction
  case hnode =>
    intro view children ih parentIdx devices
    rw [parseNode, ih, flat_node, List.length_append, List.length_singleton, List.append_assoc]
    rfl
  case hnil =>
    intro currentIdx devices
    rw [parseChildren, flats_nil, List.map_nil, List.append_nil]
  case hcons =>
    intro child children ihc ih currentIdx devices
    rw [parseChildren, ih, ihc, flats_cons, List.map_append, List.append_assoc, List.length_append,
      List.length_map, length_flat.1]

/-- The entries made from a tree are a faithful list for it. -/
theorem flattens_parseNode (root : FdtNode) :
    Flattens root root.paths (parseNode root usizeMax []) := by
  have heq := parseNode_eq.1 root usizeMax []
  rw [List.nil_append, List.length_nil] at heq
  have hentry : ∀ {k : ℕ} {d : DeviceDescNode}, (parseNode root usizeMax [])[k]? = some d →
      ∃ (p : ℕ) (view : NodeView),
        (root.flat usizeMax 0)[k]? = some (p, view) ∧ d = view.entry p := by
    intro k d hd
    rw [heq, List.getElem?_map] at hd
    obtain ⟨⟨p, view⟩, he, rfl⟩ := Option.map_eq_some_iff.1 hd
    exact ⟨p, view, he, rfl⟩
  constructor
  case sorted => exact paths_sorted.1 root
  case all => exact fun ρ => mem_paths
  case length => rw [heq, List.length_map, length_flat.1, length_paths.1]
  case desc =>
    intro k ρ d hρ hd
    obtain ⟨p, view, he, rfl⟩ := hentry hd
    have hk := congrArg (·[k]?) (flat_values.1 root usizeMax 0)
    simp only [List.getElem?_map, he, hρ, Option.map_some, Option.some.injEq] at hk
    obtain ⟨node, hnode, rfl⟩ := Option.map_eq_some_iff.1 hk.symm
    exact ⟨node, hnode, node.value.nodeDesc_eq⟩
  case first =>
    obtain ⟨view, children⟩ := root
    rw [heq, flat_node]
    rfl
  case parent =>
    intro k ρ c d hρ hd
    obtain ⟨p, view, he, rfl⟩ := hentry hd
    obtain ⟨rfl, rfl⟩ | ⟨σ, c', j, hk, hj, hjk, rfl⟩ := flat_parent.1 root usizeMax 0 k p view he
    · obtain ⟨view', children⟩ := root
      rw [paths_node, List.getElem?_cons_zero, Option.some.injEq] at hρ
      exact absurd hρ.symm (by simp)
    · rw [hρ, Option.some.injEq] at hk
      obtain ⟨rfl, -⟩ := List.append_inj' hk rfl
      rw [Nat.zero_add]
      exact ⟨hjk, hj⟩
  case rebuilt =>
    rw [heq, List.map_map, ← rebuild_flat (root.map NodeView.described) usizeMax, (flat_map _).1]
    congr 1
    apply List.map_congr_left
    rintro ⟨p, view⟩ -
    show (p, view.nodeDesc) = (p, view.described)
    rw [view.nodeDesc_eq]

/-- The list of a blob describes the tree that the crate presents for it. -/
theorem parse_dtb_blob (fdtNew : List UInt8 → Option Fdt) (fdtSlice : List UInt8) (fdt : Fdt)
    (root : FdtNode) (hnew : fdtNew fdtSlice = some fdt) (hroot : fdt.findNode "/" = some root) :
    ∃ devices, parseDtbBlob fdtNew fdtSlice = .ok devices ∧
      ∃ addresses, Flattens root addresses devices := by
  refine ⟨parseNode root usizeMax [], ?_, root.paths, flattens_parseNode root⟩
  unfold parseDtbBlob
  rw [hnew]
  dsimp only
  rw [hroot]

/-! ### A blob -/

/-- A number of 32 bits, and a text, as they are in a blob. -/
def bigEndian (v : ℕ) : List UInt8 := (Bytes.little 4 v).reverse

def textBytes (s : String) : List UInt8 := s.toList.map (fun c => UInt8.ofNat c.toNat) ++ [0]

/-- Zeros up to a multiple of four bytes. -/
def padded (l : List UInt8) : List UInt8 := l ++ List.replicate ((4 - l.length % 4) % 4) 0

/-- The tokens that begin a node, give it a property, and end it; a property has the offset of its
name in the block of strings. -/
def beginNode (name : String) : List UInt8 := bigEndian 1 ++ padded (textBytes name)

def propToken (nameOff : ℕ) (value : List UInt8) : List UInt8 :=
  bigEndian 3 ++ bigEndian value.length ++ bigEndian nameOff ++ padded value

def endNode : List UInt8 := bigEndian 2

/-- The node `/soc` below the root, with an interrupt controller and a serial port. -/
def socStructure : List UInt8 :=
  beginNode "" ++
    beginNode "soc" ++ propToken 0 (textBytes "simple-bus") ++ propToken 75 (bigEndian 1) ++
      propToken 90 (bigEndian 1) ++
      beginNode "plic@c000000" ++ propToken 0 (textBytes "riscv,plic0") ++
        propToken 11 (bigEndian 0xc000000 ++ bigEndian 0x400000) ++ propToken 15 (bigEndian 1) ++
        propToken 32 (bigEndian 1) ++ endNode ++
      beginNode "serial@10000000" ++ propToken 0 (textBytes "ns16550a") ++
        propToken 11 (bigEndian 0x10000000 ++ bigEndian 0x100) ++ propToken 40 (bigEndian 10) ++
        propToken 51 (bigEndian 1) ++ propToken 68 (textBytes "okay") ++ endNode ++
    endNode ++ endNode ++ bigEndian 9

def socStrings : List UInt8 :=
  ["compatible", "reg", "#interrupt-cells", "phandle", "interrupts", "interrupt-parent", "status",
    "#address-cells", "#size-cells"].flatMap textBytes

/-- The header, an empty reservation map, the tokens and the strings. -/
def socBlob : List UInt8 :=
  [0xd00dfeed, 462, 56, 360, 40, 17, 16, 0, 102, 304].flatMap bigEndian ++ List.replicate 16 0 ++
    socStructure ++ socStrings

/-- A property whose bytes are ASCII. -/
def asciiProperty (value : List UInt8) : NodeProperty where
  value := value
  asStr := some (String.ofList ((value.reverse.dropWhile (· = 0)).reverse.map fun b =>
    Char.ofNat b.toNat))
  asUsize := if value.length = 4 ∨ value.length = 8 then some (UInt64.ofNat (fromBeBytes value))
    else none

def socView : NodeView where
  name := "soc"
  compatible := some ["simple-bus"]
  reg := none
  interrupts := none
  property key := ([("compatible", asciiProperty (textBytes "simple-bus")),
    ("#address-cells", asciiProperty (bigEndian 1)),
    ("#size-cells", asciiProperty (bigEndian 1))].lookup key)

def plicView : NodeView where
  name := "plic@c000000"
  compatible := some ["riscv,plic0"]
  reg := some [⟨0xc000000, some 0x400000⟩]
  interrupts := none
  property key := ([("compatible", asciiProperty (textBytes "riscv,plic0")),
    ("reg", asciiProperty (bigEndian 0xc000000 ++ bigEndian 0x400000)),
    ("#interrupt-cells", asciiProperty (bigEndian 1)),
    ("phandle", asciiProperty (bigEndian 1))].lookup key)

def serialView : NodeView where
  name := "serial@10000000"
  compatible := some ["ns16550a"]
  reg := some [⟨0x10000000, some 0x100⟩]
  interrupts := some [10]
  property key := ([("compatible", asciiProperty (textBytes "ns16550a")),
    ("reg", asciiProperty (bigEndian 0x10000000 ++ bigEndian 0x100)),
    ("interrupts", asciiProperty (bigEndian 10)),
    ("interrupt-parent", asciiProperty (bigEndian 1)),
    ("status", asciiProperty (textBytes "okay"))].lookup key)

def socTree : FdtNode :=
  node ⟨"/", none, none, none, fun _ => none⟩ [node socView [node plicView [], node serialView []]]

def socFdt : Fdt := ⟨fun path => if path = "/" then some socTree else none⟩

def socNew (blob : List UInt8) : Option Fdt := if blob = socBlob then some socFdt else none

/-- The serial port is the last of four entries, and its parent is the entry of `/soc`. -/
theorem parse_dtb_blob_soc :
    ∃ devices, parseDtbBlob socNew socBlob = .ok devices ∧
      (∃ addresses, Flattens socTree addresses devices) ∧
      devices[3]?.map (fun d => (d.parent, d.desc, d.nodeMeta.unitAddr)) =
        some (1, ⟨"serial@10000000", ["ns16550a"], [⟨0x10000000, 0x100⟩], [10]⟩,
          some 0x10000000) := by
  have hnew : socNew socBlob = some socFdt := if_pos rfl
  have hroot : socFdt.findNode "/" = some socTree := by simp [socFdt]
  obtain ⟨devices, hparse, haddresses⟩ := parse_dtb_blob socNew socBlob socFdt socTree hnew hroot
  have hdevices : parseDtbBlob socNew socBlob = .ok (parseNode socTree usizeMax []) := by
    unfold parseDtbBlob
    rw [hnew]
    dsimp only
    rw [hroot]
  rw [hparse, Except.ok.injEq] at hdevices
  refine ⟨devices, hparse, haddresses, ?_⟩
  rw [hdevices]
  decide

end GlendaDrivers
