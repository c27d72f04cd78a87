import GlendaDrivers.Glenda
import GlendaDrivers.Lib.Align
import GlendaDrivers.Lib.Bytes
import GlendaDrivers.Lib.Outcome
import GlendaDrivers.Lib.PageTable

/-!
# The ACPI mapping handler (`platform/acpi/src/handler.rs`)

Virtual addresses and capability slots are taken from two counters that only grow.

* `DriverContext`: the counters, and what the kernel keeps for the driver;
* `mapPhysicalRegion`, `unmapPhysicalRegion`: the two calls;
* `readSized`, `writeSized`: the accesses that map, dereference and unmap;
* `mapPhysicalRegion_ret`: what a call that returned has done;
* `PhysicalMapping.Sound`: what holds of one mapping on its own.
-/

namespace GlendaDrivers

open Prog Align

/-- `MAP_VA_BASE`. -/
def mapVaBase : UInt64 := 0x40000000

/-- `DYNAMIC_SLOT_BASE`. -/
def dynamicSlotBase : UInt64 := 100

/-- A frame capability: its slot, and the physical pages it stands for. -/
structure FrameCap where
  slot : UInt64
  paddr : UInt64
  pages : UInt64
  deriving DecidableEq

/-- `DriverContext`, together with the frames granted so far, oldest first, the page table of the
driver and the physical memory. -/
structure DriverContext where
  vaAllocator : UInt64
  slotAllocator : UInt64
  frames : List FrameCap
  table : PageTable
  mem : ℕ → UInt8

/-- `PhysicalMapping`, without the handler. -/
structure PhysicalMapping where
  physicalStart : UInt64
  virtualStart : UInt64
  regionLength : UInt64
  mappedLength : UInt64
  deriving DecidableEq

namespace DriverContext

/-- The context that `probe` creates. -/
def initial (table : PageTable) (mem : ℕ → UInt8) : DriverContext where
  vaAllocator := mapVaBase
  slotAllocator := dynamicSlotBase
  frames := []
  table := table
  mem := mem

/-- The frame in a slot. -/
def frameAt (c : DriverContext) (slot : UInt64) : Option FrameCap :=
  c.frames.reverse.find? fun frame => frame.slot = slot

end DriverContext

/-- The number of the page of an address. -/
def pageOf (a : UInt64) : ℕ := a.toNat / pgSize.toNat

/-! ### The kernel -/

/-- `Mmio::get_frame`; the caller panics on an error. -/
def getFrame (answer : Except Error Unit) (paddr pages slot : UInt64) :
    Prog DriverContext PUnit :=
  match answer with
  | .error _ => panic
  | .ok _ => modify fun c => { c with frames := c.frames ++ [⟨slot, paddr, pages⟩] }

/-- `ResourceClient::mmap` of the frame in `slot`; the caller panics on an error. -/
def mmap (answer : Except Error Unit) (slot va len : UInt64) : Prog DriverContext PUnit := do
  let c ← get
  match answer, c.frameAt slot with
  | .ok _, some frame =>
      modify fun c => { c with
        table := c.table.map (pageOf va) (pageOf frame.paddr) (pageOf len) }
  | _, _ => panic

/-- `ResourceClient::munmap`; the caller ignores an error, which leaves the pages as they are. -/
def munmap (answer : Except Error Unit) (va len : UInt64) : Prog DriverContext PUnit :=
  match answer with
  | .error _ => pure ⟨⟩
  | .ok _ => modify fun c => { c with table := c.table.unmap (pageOf va) (pageOf len) }

/-! ### The handler -/

/-- `offset`. -/
def pageOffset (physicalAddress : UInt64) : UInt64 :=
  physicalAddress - alignDown pgSize physicalAddress

/-- `size_aligned`. -/
def sizeAligned (physicalAddress size : UInt64) : UInt64 :=
  alignDown pgSize (size + pageOffset physicalAddress + pgSize - 1)

/-- Take virtual addresses. -/
def allocVa (len : UInt64) : Prog DriverContext UInt64 :=
  ofFn fun c => (c.vaAllocator, { c with vaAllocator := c.vaAllocator + len })

/-- Take a slot. -/
def allocSlot : Prog DriverContext UInt64 :=
  ofFn fun c => (c.slotAllocator, { c with slotAllocator := c.slotAllocator + 1 })

/-- `NonNull::new(p).unwrap()`. -/
def nonNull (p : UInt64) : Prog DriverContext UInt64 := if p = 0 then panic else pure p

/-- `map_physical_region`, with the answers to its two calls. -/
def mapPhysicalRegion (frameAnswer mapAnswer : Except Error Unit)
    (physicalAddress size : UInt64) : Prog DriverContext PhysicalMapping := do
  let paddrAligned := alignDown pgSize physicalAddress
  let offset := pageOffset physicalAddress
  let len := sizeAligned physicalAddress size
  let pages := len / pgSize
  let va ← allocVa len
  let slot ← allocSlot
  getFrame frameAnswer paddrAligned pages slot
  mmap mapAnswer slot va len
  let virtualStart ← nonNull (va + offset)
  return {
    physicalStart := physicalAddress
    virtualStart := virtualStart
    regionLength := size
    mappedLength := len }

/-- `unmap_physical_region`, with the answer to its call. -/
def unmapPhysicalRegion (unmapAnswer : Except Error Unit) (region : PhysicalMapping) :
    Prog DriverContext PUnit :=
  munmap unmapAnswer (alignDown pgSize region.virtualStart) region.mappedLength

/-! ### The accesses -/

/-- The physical addresses of `n` bytes, if all of their pages are mapped. -/
def DriverContext.physical (c : DriverContext) (va : UInt64) (n : ℕ) : Option (List ℕ) :=
  (List.range n).mapM fun i => c.table.translate pgSize.toNat (va.toNat + i)

/-- Load a slice of `n` bytes from a virtual address; a page that is not mapped is a fault. -/
def load (va : UInt64) (n : ℕ) : Prog DriverContext (List UInt8) := do
  let c ← get
  match c.physical va n with
  | some addresses => return addresses.map c.mem
  | none => panic

/-- Store bytes at a virtual address. -/
def store (va : UInt64) (bytes : List UInt8) : Prog DriverContext PUnit := do
  let c ← get
  match c.physical va bytes.length with
  | some addresses =>
      modify fun c => { c with
        mem := (addresses.zip bytes).foldl (fun mem p => Function.update mem p.1 p.2) c.mem }
  | none => panic

/-- A pointer to an integer of `n` bytes has to be aligned.  If it is not, its dereference panics in
a build with debug assertions, and in any other build the language promises nothing. -/
def checkAligned (va : UInt64) (n : ℕ) : Prog DriverContext PUnit :=
  if n ∣ va.toNat then pure ⟨⟩ else panic

/-- `*ptr` of an integer of `n` bytes. -/
def loadValue (va : UInt64) (n : ℕ) : Prog DriverContext (List UInt8) := do
  checkAligned va n
  load va n

/-- `*ptr = value` for an integer with these bytes. -/
def storeValue (va : UInt64) (bytes : List UInt8) : Prog DriverContext PUnit := do
  checkAligned va bytes.length
  store va bytes

/-- The answers of the kernel during an access: to `get_frame`, to `mmap`, to the `munmap` of the
access, and to that of the mapping's drop. -/
structure AccessAnswers where
  frame : Except Error Unit
  map : Except Error Unit
  unmap : Except Error Unit
  drop : Except Error Unit

section Accesses

variable (answers : AccessAnswers)

/-- The `read` functions: map, dereference, unmap; the drop of the mapping unmaps again. -/
def readSized (n : ℕ) (address : UInt64) : Prog DriverContext (List UInt8) := do
  let mapping ← mapPhysicalRegion answers.frame answers.map address (UInt64.ofNat n)
  let val ← loadValue mapping.virtualStart n
  unmapPhysicalRegion answers.unmap mapping
  unmapPhysicalRegion answers.drop mapping
  return val

/-- The `write` functions. -/
def writeSized (address : UInt64) (bytes : List UInt8) : Prog DriverContext PUnit := do
  let mapping ← mapPhysicalRegion answers.frame answers.map address (UInt64.ofNat bytes.length)
  storeValue mapping.virtualStart bytes
  unmapPhysicalRegion answers.unmap mapping
  unmapPhysicalRegion answers.drop mapping

/-- `read_u8`. -/
def readU8 (address : UInt64) : Prog DriverContext UInt8 := do
  let bytes ← readSized answers 1 address
  return UInt8.ofNat (Bytes.ofLittle bytes)

/-- `read_u16`. -/
def readU16 (address : UInt64) : Prog DriverContext UInt16 := do
  let bytes ← readSized answers 2 address
  return UInt16.ofNat (Bytes.ofLittle bytes)

/-- `read_u32`. -/
def readU32 (address : UInt64) : Prog DriverContext UInt32 := do
  let bytes ← readSized answers 4 address
  return UInt32.ofNat (Bytes.ofLittle bytes)

/-- `read_usize`. -/
def readUsize (address : UInt64) : Prog DriverContext UInt64 := do
  let bytes ← readSized answers 8 address
  return UInt64.ofNat (Bytes.ofLittle bytes)

/-- `write_u8`. -/
def writeU8 (address : UInt64) (value : UInt8) : Prog DriverContext PUnit :=
  writeSized answers address (Bytes.little 1 value.toNat)

/-- `write_u16`. -/
def writeU16 (address : UInt64) (value : UInt16) : Prog DriverContext PUnit :=
  writeSized answers address (Bytes.little 2 value.toNat)

/-- `write_u32`. -/
def writeU32 (address : UInt64) (value : UInt32) : Prog DriverContext PUnit :=
  writeSized answers address (Bytes.little 4 value.toNat)

/-- `write_usize`. -/
def writeUsize (address : UInt64) (value : UInt64) : Prog DriverContext PUnit :=
  writeSized answers address (Bytes.little 8 value.toNat)

end Accesses

/-! ### What a call does -/

/-- The mapping that `map_physical_region` returns. -/
def mappingOf (c : DriverContext) (physicalAddress size : UInt64) : PhysicalMapping where
  physicalStart := physicalAddress
  virtualStart := c.vaAllocator + pageOffset physicalAddress
  regionLength := size
  mappedLength := sizeAligned physicalAddress size

namespace DriverContext

/-- The context after `map_physical_region`. -/
def mapped (c : DriverContext) (physicalAddress size : UInt64) : DriverContext where
  vaAllocator := c.vaAllocator + sizeAligned physicalAddress size
  slotAllocator := c.slotAllocator + 1
  frames := c.frames ++ [⟨c.slotAllocator, alignDown pgSize physicalAddress,
    sizeAligned physicalAddress size / pgSize⟩]
  table := c.table.map (pageOf c.vaAllocator) (pageOf (alignDown pgSize physicalAddress))
    (pageOf (sizeAligned physicalAddress size))
  mem := c.mem

/-- The context after a granted `unmap_physical_region`. -/
def unmapped (c : DriverContext) (region : PhysicalMapping) : DriverContext :=
  { c with
    table := c.table.unmap (pageOf (alignDown pgSize region.virtualStart))
      (pageOf region.mappedLength) }

/-- The context after `unmap_physical_region`. -/
def unmappedBy (c : DriverContext) (answer : Except Error Unit) (region : PhysicalMapping) :
    DriverContext :=
  match answer with
  | .error _ => c
  | .ok _ => c.unmapped region

/-- The frame granted last is the one in its slot. -/
theorem frameAt_of_append {c : DriverContext} {frames : List FrameCap} (frame : FrameCap)
    (h : c.frames = frames ++ [frame]) : c.frameAt frame.slot = some frame := by
  unfold frameAt
  rw [h, List.reverse_append, List.reverse_singleton, List.singleton_append,
    List.find?_cons_of_pos (by simp)]

end DriverContext

/-- The context between the two calls to the kernel. -/
def DriverContext.granted (c : DriverContext) (physicalAddress size : UInt64) : DriverContext :=
  { c with
    vaAllocator := c.vaAllocator + sizeAligned physicalAddress size
    slotAllocator := c.slotAllocator + 1
    frames := c.frames ++ [⟨c.slotAllocator, alignDown pgSize physicalAddress,
      sizeAligned physicalAddress size / pgSize⟩] }

/-- The second call finds the frame of the first one. -/
theorem mmap_granted (c : DriverContext) (p size : UInt64) :
    mmap (.ok ⟨⟩) c.slotAllocator c.vaAllocator (sizeAligned p size) (c.granted p size) =
      (.ret ⟨⟩, c.mapped p size) := by
  have hframe : (c.granted p size).frameAt c.slotAllocator =
      some ⟨c.slotAllocator, alignDown pgSize p, sizeAligned p size / pgSize⟩ :=
    DriverContext.frameAt_of_append ⟨c.slotAllocator, _, _⟩ rfl
  unfold mmap
  rw [bind_of_ret (show get (c.granted p size) = (.ret (c.granted p size), c.granted p size)
    from rfl), hframe]
  rfl

/-- A call goes on with the kernel's answers once it has taken addresses and a slot. -/
theorem mapPhysicalRegion_eq (a₁ a₂ : Except Error Unit) (p size : UInt64) (c : DriverContext) :
    mapPhysicalRegion a₁ a₂ p size c =
      (do
        getFrame a₁ (alignDown pgSize p) (sizeAligned p size / pgSize) c.slotAllocator
        mmap a₂ c.slotAllocator c.vaAllocator (sizeAligned p size)
        let virtualStart ← nonNull (c.vaAllocator + pageOffset p)
        return ⟨p, virtualStart, size, sizeAligned p size⟩ : Prog DriverContext PhysicalMapping)
        { c with
          vaAllocator := c.vaAllocator + sizeAligned p size
          slotAllocator := c.slotAllocator + 1 } := rfl

/-- What a call returns, when its requests are granted and the pointer is not null. -/
theorem mapPhysicalRegion_run {c : DriverContext} {p size : UInt64}
    (hnull : c.vaAllocator + pageOffset p ≠ 0) :
    mapPhysicalRegion (.ok ⟨⟩) (.ok ⟨⟩) p size c =
      (.ret (mappingOf c p size), c.mapped p size) := by
  have hptr : nonNull (c.vaAllocator + pageOffset p) (c.mapped p size) =
      (.ret (c.vaAllocator + pageOffset p), c.mapped p size) := by
    unfold nonNull
    rw [if_neg hnull]
    rfl
  have hframe : getFrame (.ok ⟨⟩) (alignDown pgSize p) (sizeAligned p size / pgSize)
      c.slotAllocator { c with
        vaAllocator := c.vaAllocator + sizeAligned p size
        slotAllocator := c.slotAllocator + 1 } = (.ret ⟨⟩, c.granted p size) := rfl
  rw [mapPhysicalRegion_eq, bind_of_ret hframe, bind_of_ret (mmap_granted c p size),
    bind_of_ret hptr]
  rfl

/-- A call that returned had its requests granted. -/
theorem mapPhysicalRegion_ret {a₁ a₂ : Except Error Unit} {p size : UInt64}
    {c c' : DriverContext} {m : PhysicalMapping}
    (h : mapPhysicalRegion a₁ a₂ p size c = (.ret m, c')) :
    m = mappingOf c p size ∧ c' = c.mapped p size := by
  rw [mapPhysicalRegion_eq] at h
  obtain ⟨_, c₁, hframe, h⟩ := bind_eq_ret.1 h
  obtain ⟨_, c₂, hmap, h⟩ := bind_eq_ret.1 h
  obtain ⟨v, c₃, hptr, h⟩ := bind_eq_ret.1 h
  cases a₁ with
  | error e => exact absurd hframe (by rintro ⟨⟩)
  | ok _ =>
    obtain rfl : c.granted p size = c₁ := congrArg Prod.snd hframe
    cases a₂ with
    | error e => exact absurd hmap (by rintro ⟨⟩)
    | ok _ =>
      rw [mmap_granted] at hmap
      cases hmap
      unfold nonNull at hptr
      split at hptr
      · exact absurd hptr (by rintro ⟨⟩)
      · cases hptr
        cases h
        exact ⟨rfl, rfl⟩

theorem unmapPhysicalRegion_run (answer : Except Error Unit) (region : PhysicalMapping)
    (c : DriverContext) :
    unmapPhysicalRegion answer region c = (.ret ⟨⟩, c.unmappedBy answer region) := by
  cases answer <;> rfl

/-- The physical addresses of bytes whose pages are mapped to consecutive ones. -/
theorem physical_eq {va : UInt64} {n p : ℕ} {c : DriverContext}
    (h : ∀ i < n, c.table.translate pgSize.toNat (va.toNat + i) = some (p + i)) :
    c.physical va n = some ((List.range n).map (p + ·)) := by
  have hall : ∀ l : List ℕ, (∀ i ∈ l, i < n) →
      l.mapM (fun i => c.table.translate pgSize.toNat (va.toNat + i)) =
        some (l.map (p + ·)) := by
    intro l
    induction l with
    | nil => intro _; rfl
    | cons i l ih =>
      intro hl
      rw [List.mapM_cons, h i (hl i List.mem_cons_self),
        ih fun j hj => hl j (List.mem_cons_of_mem i hj)]
      rfl
  exact hall _ fun i hi => List.mem_range.1 hi

/-- A load returns the bytes at the physical addresses. -/
theorem load_ret {va : UInt64} {n : ℕ} {c c' : DriverContext} {bytes : List UInt8}
    (h : load va n c = (.ret bytes, c')) :
    c' = c ∧ ∃ addresses, c.physical va n = some addresses ∧ bytes = addresses.map c.mem := by
  obtain ⟨_, _, hget, h⟩ := bind_eq_ret.1 h
  cases hget
  cases hp : c.physical va n with
  | none =>
    rw [hp] at h
    exact absurd h (by rintro ⟨⟩)
  | some addresses =>
    rw [hp] at h
    cases h
    exact ⟨rfl, addresses, rfl, rfl⟩

/-- A pointer that was dereferenced was aligned. -/
theorem checkAligned_ret {va : UInt64} {n : ℕ} {c c' : DriverContext}
    (h : checkAligned va n c = (.ret ⟨⟩, c')) : n ∣ va.toNat ∧ c' = c := by
  unfold checkAligned at h
  split at h
  · cases h
    exact ⟨‹_›, rfl⟩
  · exact absurd h (by rintro ⟨⟩)

theorem checkAligned_run {va : UInt64} {n : ℕ} (h : n ∣ va.toNat) (c : DriverContext) :
    checkAligned va n c = (.ret ⟨⟩, c) := by
  unfold checkAligned
  rw [if_pos h]
  rfl

/-- A store changes the memory at the physical addresses. -/
theorem store_ret {va : UInt64} {bytes : List UInt8} {c c' : DriverContext}
    (h : store va bytes c = (.ret ⟨⟩, c')) :
    ∃ addresses, c.physical va bytes.length = some addresses ∧ c' = { c with
      mem := (addresses.zip bytes).foldl (fun mem p => Function.update mem p.1 p.2) c.mem } := by
  obtain ⟨_, _, hget, h⟩ := bind_eq_ret.1 h
  cases hget
  cases hp : c.physical va bytes.length with
  | none =>
    rw [hp] at h
    exact absurd h (by rintro ⟨⟩)
  | some addresses =>
    rw [hp] at h
    cases h
    exact ⟨addresses, rfl, rfl⟩

/-- A dereference that returned: its pointer was aligned. -/
theorem loadValue_ret {va : UInt64} {n : ℕ} {c c' : DriverContext} {bytes : List UInt8}
    (h : loadValue va n c = (.ret bytes, c')) :
    n ∣ va.toNat ∧ c' = c ∧
      ∃ addresses, c.physical va n = some addresses ∧ bytes = addresses.map c.mem := by
  obtain ⟨_, _, hcheck, hload⟩ := bind_eq_ret.1 h
  obtain ⟨hdvd, rfl⟩ := checkAligned_ret hcheck
  exact ⟨hdvd, load_ret hload⟩

theorem storeValue_ret {va : UInt64} {bytes : List UInt8} {c c' : DriverContext}
    (h : storeValue va bytes c = (.ret ⟨⟩, c')) :
    bytes.length ∣ va.toNat ∧
      ∃ addresses, c.physical va bytes.length = some addresses ∧ c' = { c with
        mem := (addresses.zip bytes).foldl (fun mem p => Function.update mem p.1 p.2) c.mem } := by
  obtain ⟨_, _, hcheck, hstore⟩ := bind_eq_ret.1 h
  obtain ⟨hdvd, rfl⟩ := checkAligned_ret hcheck
  exact ⟨hdvd, store_ret hstore⟩

/-- Bytes stored one after the other. -/
theorem foldl_update_consecutive (bytes : List UInt8) (p : ℕ) (mem : ℕ → UInt8) (a : ℕ) :
    (((List.range bytes.length).map (p + ·)).zip bytes).foldl
        (fun mem q => Function.update mem q.1 q.2) mem a =
      if p ≤ a then (bytes[a - p]?).getD (mem a) else mem a := by
  induction bytes generalizing p mem with
  | nil => simp
  | cons b bytes ih =>
    have hshift : (List.range (bytes.length + 1)).map (p + ·) =
        p :: (List.range bytes.length).map (p + 1 + ·) := by
      rw [List.range_succ_eq_map, List.map_cons, List.map_map, Nat.add_zero]
      congr 1
      apply List.map_congr_left
      intro i _
      rw [Function.comp_apply]
      omega
    rw [List.length_cons, hshift, List.zip_cons_cons, List.foldl_cons, ih]
    rcases Nat.lt_trichotomy a p with hlt | rfl | hgt
    · rw [if_neg (by omega), if_neg (by omega), Function.update_of_ne (by omega)]
    · rw [if_neg (by omega), if_pos (le_refl a), Function.update_self, Nat.sub_self]
      rfl
    · obtain ⟨d, rfl⟩ := Nat.exists_eq_add_of_lt hgt
      rw [if_pos (by omega), if_pos (by omega), Function.update_of_ne (by omega),
        show p + d + 1 - p = d + 1 by omega, show p + d + 1 - (p + 1) = d by omega,
        List.getElem?_cons_succ]

/-! ### Rounding -/

theorem toNat_pgSize : pgSize.toNat = 4096 := rfl

theorem toNat_pgSize_pow : pgSize.toNat = 2 ^ 12 := rfl

theorem pageOf_eq (a : UInt64) : pageOf a = a.toNat / 4096 := rfl

/-- The bytes of address space that a call takes. -/
def spanBytes (physicalAddress size : UInt64) : ℕ :=
  (size.toNat + physicalAddress.toNat % 4096 + 4095) / 4096 * 4096

theorem toNat_alignDown_pgSize (a : UInt64) :
    (alignDown pgSize a).toNat = a.toNat / 4096 * 4096 :=
  toNat_alignDown toNat_pgSize_pow a

@[simp] theorem pageOf_alignDown (a : UInt64) : pageOf (alignDown pgSize a) = pageOf a := by
  rw [pageOf_eq, pageOf_eq, toNat_alignDown_pgSize]
  omega

theorem toNat_pageOffset (p : UInt64) : (pageOffset p).toNat = p.toNat % 4096 := by
  have hle : alignDown pgSize p ≤ p := by
    rw [UInt64.le_iff_toNat_le]
    exact alignDown_le toNat_pgSize_pow p
  rw [pageOffset, UInt64.toNat_sub_of_le _ _ hle, toNat_alignDown_pgSize]
  omega

theorem toNat_sizeAligned {p size : UInt64}
    (h : size.toNat + p.toNat % 4096 + 4095 < 2 ^ 64) :
    (sizeAligned p size).toNat = spanBytes p size := by
  have hsum : (size + pageOffset p).toNat = size.toNat + p.toNat % 4096 := by
    rw [UInt64.toNat_add, toNat_pageOffset, Nat.mod_eq_of_lt (by omega)]
  have hup := toNat_alignUp (x := size + pageOffset p) toNat_pgSize_pow (by rw [hsum]; exact h)
  rw [hsum] at hup
  exact hup

/-! ### One mapping -/

namespace PhysicalMapping

/-- The virtual pages of a mapping. -/
def pages (m : PhysicalMapping) : Set ℕ :=
  Set.Ico (pageOf m.virtualStart) (pageOf m.virtualStart + pageOf m.mappedLength)

/-- What holds of a mapping on its own: its start has the physical address's place in the page,
and its pages are enough for its bytes and end before the address space does. -/
structure Sound (m : PhysicalMapping) : Prop where
  offset : m.virtualStart.toNat % 4096 = m.physicalStart.toNat % 4096
  length : m.virtualStart.toNat % 4096 + m.regionLength.toNat ≤ pageOf m.mappedLength * 4096
  fits : (pageOf m.virtualStart + pageOf m.mappedLength) * 4096 < 2 ^ 64

/-- The pages cover every byte of the region. -/
theorem Sound.mem_pages {m : PhysicalMapping} (h : m.Sound) {i : ℕ}
    (hi : i < m.regionLength.toNat) :
    m.virtualStart.toNat + i < 2 ^ 64 ∧ (m.virtualStart.toNat + i) / 4096 ∈ m.pages := by
  have hlen := h.length
  have hfits := h.fits
  rw [pages, Set.mem_Ico]
  rw [pageOf_eq m.virtualStart] at hfits ⊢
  omega

/-- The frame has every byte of the physical region. -/
def FramedBy (m : PhysicalMapping) (frame : FrameCap) : Prop :=
  frame.paddr.toNat ≤ m.physicalStart.toNat ∧
    m.physicalStart.toNat + m.regionLength.toNat ≤
      frame.paddr.toNat + frame.pages.toNat * pgSize.toNat

/-- A table with a mapping's pages translates every byte of the region. -/
theorem Sound.translate {m : PhysicalMapping} (h : m.Sound) {table : PageTable}
    (htable : ∀ x ∈ m.pages, table x = some (pageOf m.physicalStart + (x - pageOf m.virtualStart)))
    {i : ℕ} (hi : i < m.regionLength.toNat) :
    table.translate 4096 (m.virtualStart.toNat + i) = some (m.physicalStart.toNat + i) := by
  obtain ⟨-, hmem⟩ := h.mem_pages hi
  have hoff := h.offset
  rw [PageTable.translate_of_eq_some (htable _ hmem), pageOf_eq, pageOf_eq, Option.some.injEq]
  omega

end PhysicalMapping

theorem table_unmapped (c : DriverContext) (m : PhysicalMapping) :
    (c.unmapped m).table = c.table.unmap (pageOf m.virtualStart) (pageOf m.mappedLength) := by
  rw [DriverContext.unmapped, pageOf_alignDown]

/-- An unmap releases the pages of its mapping. -/
theorem unmapped_of_mem {c : DriverContext} {m : PhysicalMapping} {x : ℕ} (h : x ∈ m.pages) :
    (c.unmapped m).table x = none := by
  rw [table_unmapped]
  exact PageTable.unmap_of_mem h

/-- An unmap releases no other page. -/
theorem unmapped_of_notMem {c : DriverContext} {m : PhysicalMapping} {x : ℕ} (h : x ∉ m.pages) :
    (c.unmapped m).table x = c.table x := by
  rw [table_unmapped]
  exact PageTable.unmap_of_notMem h

section Mapping

variable {c : DriverContext} {p size : UInt64} (hva : 4096 ∣ c.vaAllocator.toNat)
  (hbase : 4096 ≤ c.vaAllocator.toNat)
  (hfit : c.vaAllocator.toNat + spanBytes p size < 2 ^ 64)

include hbase hfit in
/-- Rounding up does not wrap when the addresses are not used up. -/
theorem toNat_sizeAligned_of_fit : (sizeAligned p size).toNat = spanBytes p size := by
  apply toNat_sizeAligned
  unfold spanBytes at hfit
  omega

include hbase hfit in
theorem toNat_vaAllocator_mapped :
    (c.mapped p size).vaAllocator.toNat = c.vaAllocator.toNat + spanBytes p size := by
  show (c.vaAllocator + sizeAligned p size).toNat = _
  rw [UInt64.toNat_add, toNat_sizeAligned_of_fit hbase hfit, Nat.mod_eq_of_lt hfit]

include hva hfit in
theorem toNat_virtualStart (hpos : 0 < size) :
    (mappingOf c p size).virtualStart.toNat = c.vaAllocator.toNat + p.toNat % 4096 := by
  have hsize : 0 < size.toNat := UInt64.lt_iff_toNat_lt.1 hpos
  show (c.vaAllocator + pageOffset p).toNat = _
  unfold spanBytes at hfit
  rw [UInt64.toNat_add, toNat_pageOffset, Nat.mod_eq_of_lt (by omega)]

include hva hbase hfit in
/-- A new mapping is sound. -/
theorem sound_mappingOf (hpos : 0 < size) : (mappingOf c p size).Sound := by
  have hstart := toNat_virtualStart hva hfit hpos
  have hlen : pageOf (mappingOf c p size).mappedLength * 4096 = spanBytes p size := by
    rw [pageOf_eq]
    show (sizeAligned p size).toNat / 4096 * 4096 = _
    rw [toNat_sizeAligned_of_fit hbase hfit]
    unfold spanBytes
    omega
  constructor
  case offset =>
    rw [hstart]
    show _ = p.toNat % 4096
    omega
  case length =>
    rw [hstart, hlen]
    show _ + size.toNat ≤ _
    unfold spanBytes
    omega
  case fits =>
    rw [Nat.add_mul, hlen, pageOf_eq, hstart]
    omega

include hbase hfit in
/-- The frame that a call asks for has the bytes of the region. -/
theorem framedBy_mappingOf : (mappingOf c p size).FramedBy
    ⟨c.slotAllocator, alignDown pgSize p, sizeAligned p size / pgSize⟩ := by
  have hlen := toNat_sizeAligned_of_fit hbase hfit
  unfold PhysicalMapping.FramedBy
  dsimp only
  rw [toNat_alignDown_pgSize, UInt64.toNat_div, hlen, toNat_pgSize]
  show _ ≤ p.toNat ∧ p.toNat + size.toNat ≤ _
  unfold spanBytes
  omega

include hva hfit in
/-- Rounding the shifted pointer down gives the address that was mapped. -/
theorem alignDown_virtualStart (hpos : 0 < size) :
    alignDown pgSize (mappingOf c p size).virtualStart = c.vaAllocator := by
  have hsize : 0 < size.toNat := UInt64.lt_iff_toNat_lt.1 hpos
  apply alignDown_add toNat_pgSize_pow hva
  · rw [toNat_pageOffset]
    exact Nat.mod_lt _ (by norm_num)
  · rw [toNat_pageOffset]
    unfold spanBytes at hfit
    omega

include hva hfit in
/-- The pages of a new mapping start where the allocator was. -/
theorem pageOf_virtualStart (hpos : 0 < size) :
    pageOf (mappingOf c p size).virtualStart = pageOf c.vaAllocator := by
  rw [← pageOf_alignDown, alignDown_virtualStart hva hfit hpos]

include hva hfit in
/-- The pointer to a new mapping is aligned where its physical address is. -/
theorem dvd_virtualStart (hpos : 0 < size) {n : ℕ} (hn : n ∣ 4096) :
    n ∣ (mappingOf c p size).virtualStart.toNat ↔ n ∣ p.toNat := by
  rw [toNat_virtualStart hva hfit hpos, Nat.dvd_add_right (hn.trans hva),
    Nat.dvd_mod_iff hn]

include hva hfit in
/-- A call maps the pages of its mapping to those of the physical region. -/
theorem mapped_of_mem (hpos : 0 < size) {x : ℕ} (h : x ∈ (mappingOf c p size).pages) :
    (c.mapped p size).table x =
      some (pageOf p + (x - pageOf (mappingOf c p size).virtualStart)) := by
  rw [PhysicalMapping.pages, pageOf_virtualStart hva hfit hpos] at h
  rw [pageOf_virtualStart hva hfit hpos, ← pageOf_alignDown p]
  exact PageTable.map_of_mem h

include hva hfit in
/-- A call maps no other page. -/
theorem mapped_of_notMem (hpos : 0 < size) {x : ℕ} (h : x ∉ (mappingOf c p size).pages) :
    (c.mapped p size).table x = c.table x := by
  rw [PhysicalMapping.pages, pageOf_virtualStart hva hfit hpos] at h
  exact PageTable.map_of_notMem h

include hva hbase hfit in
/-- The pages of a new mapping are those that the allocator has passed. -/
theorem mem_pages_mappingOf (hpos : 0 < size) {x : ℕ} (h : x ∈ (mappingOf c p size).pages) :
    c.vaAllocator.toNat ≤ x * 4096 ∧ x * 4096 < (c.mapped p size).vaAllocator.toNat := by
  rw [PhysicalMapping.pages, pageOf_virtualStart hva hfit hpos, Set.mem_Ico, pageOf_eq,
    pageOf_eq] at h
  have hlen : (mappingOf c p size).mappedLength.toNat = spanBytes p size :=
    toNat_sizeAligned_of_fit hbase hfit
  rw [toNat_vaAllocator_mapped hbase hfit]
  rw [hlen] at h
  unfold spanBytes at h ⊢
  omega

end Mapping

end GlendaDrivers
