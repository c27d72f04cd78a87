import GlendaDrivers.Lib.MemoryTrace
import GlendaDrivers.Platform.AcpiRuns

/-!
# The ACPI handler as a physical memory

The interpreters of tables and of bytecode map regions, look at them, unmap them, and read and write
physical addresses.  For them the handler is the physical memory, where an address is a multiple of
the width of its access.

* `readValue`, `writeValue`: the accesses of all widths;
* `AcpiServed`, `AcpiUses`: the calls that returned, with what they returned;
* `ActsOnMemory`: what a run has done to the memory and to the page table;
* `Follows`: a run is one of the mapping calls, with one region for each access;
* `acpi_memory`, `acpi_last_written`: the results.
-/

namespace GlendaDrivers

open Prog MemoryTrace

/-! ### The accesses -/

/-- The widths of the accesses. -/
inductive AccessWidth
  | u8
  | u16
  | u32
  | usize
  deriving DecidableEq

/-- The number of bytes. -/
def AccessWidth.bytes : AccessWidth → ℕ
  | .u8 => 1
  | .u16 => 2
  | .u32 => 4
  | .usize => 8

theorem AccessWidth.bytes_pos (w : AccessWidth) : 0 < w.bytes := by cases w <;> decide

theorem AccessWidth.bytes_lt (w : AccessWidth) : w.bytes < 2 ^ 64 := by cases w <;> decide

theorem AccessWidth.bytes_dvd (w : AccessWidth) : w.bytes ∣ 4096 := by cases w <;> decide

section Accesses

variable (answers : AccessAnswers)

/-- The `read` functions. -/
def readValue (address : UInt64) : AccessWidth → Prog DriverContext ℕ
  | .u8 => do
      let val ← readU8 answers address
      return val.toNat
  | .u16 => do
      let val ← readU16 answers address
      return val.toNat
  | .u32 => do
      let val ← readU32 answers address
      return val.toNat
  | .usize => do
      let val ← readUsize answers address
      return val.toNat

/-- The `write` functions. -/
def writeValue (address : UInt64) (value : ℕ) : AccessWidth → Prog DriverContext PUnit
  | .u8 => writeU8 answers address (UInt8.ofNat value)
  | .u16 => writeU16 answers address (UInt16.ofNat value)
  | .u32 => writeU32 answers address (UInt32.ofNat value)
  | .usize => writeUsize answers address (UInt64.ofNat value)

theorem readValue_eq (address : UInt64) (w : AccessWidth) :
    readValue answers address w = (do
      let bytes ← readSized answers w.bytes address
      return Bytes.ofLittle bytes % 256 ^ w.bytes) := by
  cases w <;>
    simp only [readValue, readU8, readU16, readU32, readUsize, bind_assoc, pure_bind] <;> rfl

theorem writeValue_eq (address : UInt64) (value : ℕ) (w : AccessWidth) :
    writeValue answers address value w =
      writeSized answers address (Bytes.little w.bytes value) := by
  rw [← Bytes.little_mod]
  cases w <;> rfl

end Accesses

/-! ### Calls that are granted -/

section Calls

variable {a₁ a₂ : Except Error Unit} {a : AccessAnswers} {p size : UInt64} {n : ℕ}
  {c c' : DriverContext} {m : PhysicalMapping} {table : PageTable} {ops : List AcpiOp}
  {t : AcpiTrace}

/-- A call that returned had its requests granted. -/
theorem granted_of_mapPhysicalRegion (h : mapPhysicalRegion a₁ a₂ p size c = (.ret m, c')) :
    a₁ = .ok ⟨⟩ ∧ a₂ = .ok ⟨⟩ := by
  rw [mapPhysicalRegion_eq] at h
  obtain ⟨_, c₁, hframe, h⟩ := bind_eq_ret.1 h
  obtain ⟨_, c₂, hmap, -⟩ := bind_eq_ret.1 h
  cases a₁ with
  | error e => exact absurd hframe (by rintro ⟨⟩)
  | ok _ =>
    refine ⟨rfl, ?_⟩
    cases a₂ with
    | error e =>
      obtain ⟨_, _, hget, hmap⟩ := bind_eq_ret.1 hmap
      cases hget
      exact absurd hmap (by rintro ⟨⟩)
    | ok _ => rfl

/-- A region that there is place for is not mapped at the null pointer. -/
theorem AcpiInv.nonNull (h : AcpiInv table ops t)
    (hfit : t.ctx.vaAllocator.toNat + spanBytes p size < 2 ^ 64) (hpos : 0 < size) :
    t.ctx.vaAllocator + pageOffset p ≠ 0 := by
  have hbase := h.aligned.2
  have hstart := toNat_virtualStart h.aligned.1 hfit hpos
  intro hz
  rw [show (mappingOf t.ctx p size).virtualStart = 0 from hz, UInt64.toNat_zero] at hstart
  omega

/-- A load of bytes whose pages are mapped. -/
theorem load_run {va : UInt64} {q : ℕ} (h : c.physical va n = some ((List.range n).map (q + ·))) :
    load va n c = (.ret (fetch c.mem q n), c) := by
  unfold load
  rw [bind_of_ret (show get c = (.ret c, c) from rfl), h]
  show (Outcome.ret (((List.range n).map (q + ·)).map c.mem), c) = _
  rw [List.map_map]
  rfl

/-- A store to bytes whose pages are mapped. -/
theorem store_run {va : UInt64} {q : ℕ} {bytes : List UInt8}
    (h : c.physical va bytes.length = some ((List.range bytes.length).map (q + ·))) :
    store va bytes c = (.ret ⟨⟩, { c with mem := put c.mem q bytes }) := by
  have hmem : (((List.range bytes.length).map (q + ·)).zip bytes).foldl
      (fun mem p => Function.update mem p.1 p.2) c.mem = put c.mem q bytes := by
    funext a
    exact foldl_update_consecutive bytes q c.mem a
  unfold store
  rw [bind_of_ret (show get c = (.ret c, c) from rfl), h, ← hmem]
  rfl

/-- The kernel grants the frame and the mapping. -/
def AccessAnswers.Granted (a : AccessAnswers) : Prop := a.frame = .ok ⟨⟩ ∧ a.map = .ok ⟨⟩

/-- The context after an access. -/
def DriverContext.accessed (c : DriverContext) (a : AccessAnswers) (p size : UInt64) :
    DriverContext :=
  ((c.mapped p size).unmappedBy a.unmap (mappingOf c p size)).unmappedBy a.drop
    (mappingOf c p size)

/-- The unmaps do not touch the memory. -/
theorem accessed_mem : (c.accessed a p size).mem = c.mem := by
  obtain ⟨frame, map, unmap, drop⟩ := a
  cases unmap <;> cases drop <;> rfl

theorem unmappedBy_of_mem (mem : ℕ → UInt8) :
    (DriverContext.unmappedBy { c.mapped p size with mem := mem } a.unmap
      (mappingOf c p size)).unmappedBy a.drop (mappingOf c p size) =
      { c.accessed a p size with mem := mem } := by
  obtain ⟨frame, map, unmap, drop⟩ := a
  cases unmap <;> cases drop <;> rfl

/-- An access first maps its region, which shows the memory and is aligned like its address. -/
theorem AcpiInv.access_mapped (h : AcpiInv table ops t) (ha : a.Granted) (hn : 0 < n)
    (hn' : n ∣ 4096) (hfit : t.ctx.vaAllocator.toNat + spanBytes p (UInt64.ofNat n) < 2 ^ 64) :
    mapPhysicalRegion a.frame a.map p (UInt64.ofNat n) t.ctx =
        (.ret (mappingOf t.ctx p (UInt64.ofNat n)), t.ctx.mapped p (UInt64.ofNat n)) ∧
      (t.ctx.mapped p (UInt64.ofNat n)).physical
        (mappingOf t.ctx p (UInt64.ofNat n)).virtualStart n =
          some ((List.range n).map (p.toNat + ·)) ∧
      (n ∣ (mappingOf t.ctx p (UInt64.ofNat n)).virtualStart.toNat ↔ n ∣ p.toNat) := by
  have hlt : n < 2 ^ 64 := (Nat.le_of_dvd (by norm_num) hn').trans_lt (by norm_num)
  have hpos := (pos_ofNat hn hlt).1
  refine ⟨?_, h.physical_mapped hn hlt hfit, dvd_virtualStart h.aligned.1 hfit hpos hn'⟩
  rw [ha.1, ha.2]
  exact mapPhysicalRegion_run (h.nonNull hfit hpos)

theorem readSized_run (h : AcpiInv table ops t) (ha : a.Granted) (hn : 0 < n) (hn' : n ∣ 4096)
    (hfit : t.ctx.vaAllocator.toNat + spanBytes p (UInt64.ofNat n) < 2 ^ 64)
    (haligned : n ∣ p.toNat) :
    readSized a n p t.ctx =
      (.ret (fetch t.ctx.mem p.toNat n), t.ctx.accessed a p (UInt64.ofNat n)) := by
  obtain ⟨hmap, hphysical, hptr⟩ := h.access_mapped ha hn hn' hfit
  unfold readSized loadValue
  rw [bind_of_ret hmap, bind_assoc, bind_of_ret (checkAligned_run (hptr.2 haligned) _),
    bind_of_ret (load_run hphysical), bind_of_ret (unmapPhysicalRegion_run _ _ _), bind_of_ret (unmapPhysicalRegion_run _ _ _)]
  rfl

theorem writeSized_run {bytes : List UInt8} (h : AcpiInv table ops t) (ha : a.Granted)
    (hn : 0 < bytes.length) (hn' : bytes.length ∣ 4096)
    (hfit : t.ctx.vaAllocator.toNat + spanBytes p (UInt64.ofNat bytes.length) < 2 ^ 64)
    (haligned : bytes.length ∣ p.toNat) :
    writeSized a p bytes t.ctx =
      (.ret ⟨⟩, { t.ctx.accessed a p (UInt64.ofNat bytes.length) with
        mem := put t.ctx.mem p.toNat bytes }) := by
  obtain ⟨hmap, hphysical, hptr⟩ := h.access_mapped ha hn hn' hfit
  unfold writeSized storeValue
  rw [bind_of_ret hmap, bind_assoc, bind_of_ret (checkAligned_run (hptr.2 haligned) _),
    bind_of_ret (store_run hphysical), bind_of_ret (unmapPhysicalRegion_run _ _ _),
    unmapPhysicalRegion_run, unmappedBy_of_mem]
  rfl

/-- The values that are read. -/
theorem readValue_run {w : AccessWidth} (h : AcpiInv table ops t) (ha : a.Granted)
    (hfit : t.ctx.vaAllocator.toNat + spanBytes p (UInt64.ofNat w.bytes) < 2 ^ 64)
    (haligned : w.bytes ∣ p.toNat) :
    readValue a p w t.ctx =
      (.ret (Bytes.ofLittle (fetch t.ctx.mem p.toNat w.bytes)),
        t.ctx.accessed a p (UInt64.ofNat w.bytes)) := by
  have hlen : (fetch t.ctx.mem p.toNat w.bytes).length = w.bytes := by simp [fetch]
  have hlt := Bytes.ofLittle_lt (fetch t.ctx.mem p.toNat w.bytes)
  rw [hlen] at hlt
  rw [readValue_eq, bind_of_ret (readSized_run h ha w.bytes_pos w.bytes_dvd hfit haligned),
    Nat.mod_eq_of_lt hlt]
  rfl

theorem writeValue_run {w : AccessWidth} {value : ℕ} (h : AcpiInv table ops t) (ha : a.Granted)
    (hfit : t.ctx.vaAllocator.toNat + spanBytes p (UInt64.ofNat w.bytes) < 2 ^ 64)
    (haligned : w.bytes ∣ p.toNat) :
    writeValue a p value w t.ctx =
      (.ret ⟨⟩, { t.ctx.accessed a p (UInt64.ofNat w.bytes) with
        mem := put t.ctx.mem p.toNat (Bytes.little w.bytes value) }) := by
  have hlen := Bytes.length_little w.bytes value
  rw [writeValue_eq, writeSized_run h ha (hlen.symm ▸ w.bytes_pos) (hlen.symm ▸ w.bytes_dvd)
    (hlen.symm ▸ hfit) (hlen.symm ▸ haligned), hlen]

/-- The region of an access that got past the mapping. -/
theorem granted_of_access {w : AccessWidth} (hinv : AcpiInv table ops t)
    (hfit : t.ctx.vaAllocator.toNat + spanBytes p (UInt64.ofNat w.bytes) < 2 ^ 64)
    (h : mapPhysicalRegion a.frame a.map p (UInt64.ofNat w.bytes) t.ctx = (.ret m, c'))
    (hptr : w.bytes ∣ m.virtualStart.toNat) : a.Granted ∧ w.bytes ∣ p.toNat := by
  have hgranted : a.Granted := granted_of_mapPhysicalRegion h
  obtain ⟨rfl, -⟩ := mapPhysicalRegion_ret h
  exact ⟨hgranted, (hinv.access_mapped hgranted w.bytes_pos w.bytes_dvd hfit).2.2.1 hptr⟩

/-- An access that returned had its requests granted, and its address was aligned. -/
theorem readValue_ret {w : AccessWidth} {v : ℕ} (hinv : AcpiInv table ops t)
    (hfit : t.ctx.vaAllocator.toNat + spanBytes p (UInt64.ofNat w.bytes) < 2 ^ 64)
    (h : readValue a p w t.ctx = (.ret v, c')) : a.Granted ∧ w.bytes ∣ p.toNat := by
  rw [readValue_eq] at h
  obtain ⟨_, _, hread, -⟩ := bind_eq_ret.1 h
  obtain ⟨_, _, hmap, hrest⟩ := bind_eq_ret.1 hread
  obtain ⟨_, _, hload, -⟩ := bind_eq_ret.1 hrest
  exact granted_of_access hinv hfit hmap (loadValue_ret hload).1

theorem writeValue_ret {w : AccessWidth} {v : ℕ} (hinv : AcpiInv table ops t)
    (hfit : t.ctx.vaAllocator.toNat + spanBytes p (UInt64.ofNat w.bytes) < 2 ^ 64)
    (h : writeValue a p v w t.ctx = (.ret ⟨⟩, c')) : a.Granted ∧ w.bytes ∣ p.toNat := by
  rw [writeValue_eq] at h
  obtain ⟨_, _, hmap, hrest⟩ := bind_eq_ret.1 h
  obtain ⟨_, _, hstore, -⟩ := bind_eq_ret.1 hrest
  have hptr := (storeValue_ret hstore).1
  rw [Bytes.length_little] at hmap hptr
  exact granted_of_access hinv hfit hmap hptr

end Calls

/-! ### Runs -/

/-- A call that returned, with what it returned; or a change of the memory from outside. -/
inductive AcpiServed
  | map (physicalAddress size : UInt64)
  | unmap (region : PhysicalMapping)
  | view (region : PhysicalMapping) (bytes : List UInt8)
  | read (address : UInt64) (w : AccessWidth) (value : ℕ)
  | write (address : UInt64) (w : AccessWidth) (value : ℕ)
  | outside (p : ℕ) (bytes : List UInt8)
  deriving DecidableEq

namespace AcpiServed

/-- The region that a call has to map. -/
def request : AcpiServed → Option (UInt64 × UInt64)
  | .map p size => some (p, size)
  | .read p w _ => some (p, UInt64.ofNat w.bytes)
  | .write p w _ => some (p, UInt64.ofNat w.bytes)
  | .unmap _ => none
  | .view _ _ => none
  | .outside _ _ => none

/-- The access to the physical memory. -/
def access : AcpiServed → Option (Access UInt8)
  | .view region bytes => some (.read region.physicalStart.toNat bytes)
  | .read p w v => some (.read p.toNat (Bytes.little w.bytes v))
  | .write p w v => some (.write p.toNat (Bytes.little w.bytes v))
  | .outside p bytes => some (.write p bytes)
  | .map _ _ => none
  | .unmap _ => none

/-- The byte that a call wrote at a physical address. -/
def wrote (e : AcpiServed) (x : ℕ) : Option UInt8 := e.access.bind (·.wrote x)

/-- The byte that a call found at a physical address. -/
def found (e : AcpiServed) (x : ℕ) : Option UInt8 := e.access.bind (·.found x)

end AcpiServed

/-- The region of an access that stays mapped: the kernel refused to unmap it, twice. -/
def AccessAnswers.left (a : AccessAnswers) (m : PhysicalMapping) : List PhysicalMapping :=
  match a.unmap, a.drop with
  | .error _, .error _ => [m]
  | _, _ => []

/-- The context, the regions that are in use, those with a granted unmap, and the regions of
accesses that stayed mapped. -/
structure AcpiUse where
  ctx : DriverContext
  live : List PhysicalMapping
  dropped : List PhysicalMapping
  left : List PhysicalMapping

namespace AcpiUse

/-- A region is unmapped, if the kernel grants it. -/
def unmap (u : AcpiUse) (answer : Except Error Unit) (m : PhysicalMapping) (c : DriverContext) :
    AcpiUse :=
  match answer with
  | .error _ => { u with ctx := c }
  | .ok _ => { u with ctx := c, live := u.live.filter (· ≠ m), dropped := m :: u.dropped }

/-- An access has had a region of its own. -/
def access (u : AcpiUse) (a : AccessAnswers) (p size : UInt64) (c : DriverContext) : AcpiUse :=
  { u with ctx := c, left := u.left ++ a.left (mappingOf u.ctx p size) }

end AcpiUse

/-- The runs from the context that `probe` creates. -/
inductive AcpiUses (table : PageTable) (mem : ℕ → UInt8) : List AcpiServed → AcpiUse → Prop
  | start : AcpiUses table mem [] ⟨.initial table mem, [], [], []⟩
  | map {served : List AcpiServed} {u : AcpiUse} {a₁ a₂ : Except Error Unit} {p size : UInt64}
      {m : PhysicalMapping} {c : DriverContext} (run : AcpiUses table mem served u)
      (call : mapPhysicalRegion a₁ a₂ p size u.ctx = (.ret m, c)) :
      AcpiUses table mem (served ++ [.map p size]) { u with ctx := c, live := u.live ++ [m] }
  | unmap {served : List AcpiServed} {u : AcpiUse} {answer : Except Error Unit}
      {m : PhysicalMapping} {c : DriverContext} (run : AcpiUses table mem served u)
      (known : m ∈ u.live ∨ m ∈ u.dropped)
      (call : unmapPhysicalRegion answer m u.ctx = (.ret ⟨⟩, c)) :
      AcpiUses table mem (served ++ [.unmap m]) (u.unmap answer m c)
  | view {served : List AcpiServed} {u : AcpiUse} {m : PhysicalMapping} {bytes : List UInt8}
      {c : DriverContext} (run : AcpiUses table mem served u) (live : m ∈ u.live)
      (call : load m.virtualStart m.regionLength.toNat u.ctx = (.ret bytes, c)) :
      AcpiUses table mem (served ++ [.view m bytes]) { u with ctx := c }
  | read {served : List AcpiServed} {u : AcpiUse} {a : AccessAnswers} {p : UInt64}
      {w : AccessWidth} {v : ℕ} {c : DriverContext} (run : AcpiUses table mem served u)
      (call : readValue a p w u.ctx = (.ret v, c)) :
      AcpiUses table mem (served ++ [.read p w v]) (u.access a p (UInt64.ofNat w.bytes) c)
  | write {served : List AcpiServed} {u : AcpiUse} {a : AccessAnswers} {p : UInt64}
      {w : AccessWidth} {v : ℕ} {c : DriverContext} (run : AcpiUses table mem served u)
      (call : writeValue a p v w u.ctx = (.ret ⟨⟩, c)) :
      AcpiUses table mem (served ++ [.write p w v]) (u.access a p (UInt64.ofNat w.bytes) c)
  | outside {served : List AcpiServed} {u : AcpiUse} (p : ℕ) (bytes : List UInt8)
      (run : AcpiUses table mem served u) :
      AcpiUses table mem (served ++ [.outside p bytes])
        { u with ctx := { u.ctx with mem := put u.ctx.mem p bytes } }

/-- The regions that a run has mapped, for its callers and for the accesses. -/
def requests (served : List AcpiServed) : List (UInt64 × UInt64) :=
  served.filterMap AcpiServed.request

/-- The accesses of a run. -/
def accesses (served : List AcpiServed) : List (Access UInt8) :=
  served.filterMap AcpiServed.access

/-- There are addresses and slots for these regions, none of which is empty. -/
structure Affordable (regions : List (UInt64 × UInt64)) : Prop where
  pos : ∀ r ∈ regions, 0 < r.2
  bytes : mapVaBase.toNat + totalBytes regions < 2 ^ 64
  slots : dynamicSlotBase.toNat + regions.length < 2 ^ 64

/-- What a run has done: its accesses are those of a memory, the regions in use show the memory,
apart from them and from the regions that the kernel refused to unmap no other page is mapped than
before the run, pages that were never used are as they were, and every region has taken its
addresses and one slot for good. -/
structure ActsOnMemory (table : PageTable) (mem : ℕ → UInt8) (served : List AcpiServed)
    (u : AcpiUse) : Prop where
  trace : Trace mem (accesses served) u.ctx.mem
  live : ∀ m ∈ u.live, ∀ i < m.regionLength.toNat,
    u.ctx.table.translate pgSize.toNat (m.virtualStart.toNat + i) = some (m.physicalStart.toNat + i)
  rest : ∀ x, (∀ m ∈ u.live ++ u.left, x ∉ m.pages) →
    u.ctx.table x = none ∨ u.ctx.table x = table x
  unused : ∀ x, x * 4096 < mapVaBase.toNat ∨ u.ctx.vaAllocator.toNat ≤ x * 4096 →
    u.ctx.table x = table x
  va : u.ctx.vaAllocator.toNat = mapVaBase.toNat + totalBytes (requests served)
  slots : u.ctx.slotAllocator.toNat = dynamicSlotBase.toNat + (requests served).length

/-- What can be asked for after a run: a call returns iff the kernel grants the frame and the
mapping, and an access needs an address that is a multiple of its width besides. -/
structure Available (served : List AcpiServed) (u : AcpiUse) : Prop where
  map : ∀ (a₁ a₂ : Except Error Unit) (p size : UInt64),
    Affordable (requests served ++ [(p, size)]) →
      ((∃ m c, mapPhysicalRegion a₁ a₂ p size u.ctx = (.ret m, c)) ↔ a₁ = .ok ⟨⟩ ∧ a₂ = .ok ⟨⟩)
  read : ∀ (a : AccessAnswers) (p : UInt64) (w : AccessWidth),
    Affordable (requests served ++ [(p, UInt64.ofNat w.bytes)]) →
      ((∃ v c, readValue a p w u.ctx = (.ret v, c)) ↔ a.Granted ∧ w.bytes ∣ p.toNat)
  write : ∀ (a : AccessAnswers) (p : UInt64) (w : AccessWidth) (v : ℕ),
    Affordable (requests served ++ [(p, UInt64.ofNat w.bytes)]) →
      ((∃ c, writeValue a p v w u.ctx = (.ret ⟨⟩, c)) ↔ a.Granted ∧ w.bytes ∣ p.toNat)
  view : ∀ m ∈ u.live, ∃ bytes, load m.virtualStart m.regionLength.toNat u.ctx = (.ret bytes, u.ctx)

/-! ### The regions behind a run -/

/-- The mapping calls of a run, where each access has a region of its own. -/
structure Follows (u : AcpiUse) (t : AcpiTrace) : Prop where
  ctx : t.ctx = u.ctx
  live : ∀ m ∈ u.live, ∃ k : ℕ, t.returned[k]? = some m ∧ k ∉ t.unmapped
  dropped : ∀ m ∈ u.dropped, ∃ k : ℕ, t.returned[k]? = some m
  rest : ∀ (k : ℕ) (m : PhysicalMapping), t.returned[k]? = some m → k ∉ t.unmapped →
    m ∈ u.live ++ u.left

section Follows

variable {table : PageTable} {mem : ℕ → UInt8} {ops : List AcpiOp} {t : AcpiTrace} {u : AcpiUse}
  {m : PhysicalMapping} {c : DriverContext} {k k' : ℕ}

/-- An entry of a longer list. -/
theorem getElem?_of_append {α : Type} {l l' : List α} {a : α} (h : l[k]? = some a) :
    (l ++ l')[k]? = some a := by
  rw [List.getElem?_append_left (List.getElem?_eq_some_iff.1 h).1, h]

/-- Regions that are not empty have different pages, and so they are different. -/
theorem AcpiInv.index_inj (h : AcpiInv table ops t) (hpos : ∀ r ∈ requested ops, 0 < r.2)
    (hk : t.returned[k]? = some m) (hk' : t.returned[k']? = some m) : k' = k := by
  by_contra hne
  have hmem := List.mem_of_getElem? hk
  have hregion : (m.physicalStart, m.regionLength) ∈ requested ops := by
    rw [← h.regions]
    exact List.mem_map_of_mem hmem
  have hlen : 0 < m.regionLength.toNat := UInt64.lt_iff_toNat_lt.1 (hpos _ hregion)
  have hpage := ((h.sound m hmem).mem_pages hlen).2
  exact h.notMem_of_ne hk hk' hne hpage hpage

/-- A region for a caller. -/
theorem Follows.map (h : Follows u t) (hnum : ∀ k ∈ t.unmapped, k < t.returned.length) :
    Follows { u with ctx := c, live := u.live ++ [m] } ⟨c, t.returned ++ [m], t.unmapped⟩ where
  ctx := rfl
  live m' hm' := by
    rcases List.mem_append.1 hm' with hm' | hm'
    · obtain ⟨k, hk, hlive⟩ := h.live m' hm'
      exact ⟨k, getElem?_of_append hk, hlive⟩
    · rw [List.mem_singleton.1 hm']
      exact ⟨_, List.getElem?_concat_length, fun hk => lt_irrefl _ (hnum _ hk)⟩
  dropped m' hm' := by
    obtain ⟨k, hk⟩ := h.dropped m' hm'
    exact ⟨k, getElem?_of_append hk⟩
  rest k m' hk hlive := by
    obtain hk | ⟨-, rfl⟩ := getElem?_concat_cases hk
    · rcases List.mem_append.1 (h.rest k m' hk hlive) with hmem | hmem
      · exact List.mem_append_left _ (List.mem_append_left _ hmem)
      · exact List.mem_append_right _ hmem
    · exact List.mem_append_left _ (List.mem_append_right _ (List.mem_singleton_self _))

theorem mem_granted {α : Type} {answer : Except Error Unit} {b b' : α}
    (h : b ∈ granted answer b') : b = b' := by
  cases answer with
  | error e => exact absurd h List.not_mem_nil
  | ok _ => exact List.mem_singleton.1 h

/-- The region of an access stays mapped unless one of its unmaps is granted. -/
theorem left_of_notMem {a : AccessAnswers} (hu : k ∉ granted a.unmap k)
    (hd : k ∉ granted a.drop k) : a.left m = [m] := by
  obtain ⟨frame, map, unmap, drop⟩ := a
  cases unmap with
  | ok _ => exact absurd (List.mem_singleton_self k) hu
  | error _ =>
    cases drop with
    | ok _ => exact absurd (List.mem_singleton_self k) hd
    | error _ => rfl

/-- A region for an access. -/
theorem Follows.access {a : AccessAnswers} {p size : UInt64} (h : Follows u t) :
    Follows (u.access a p size c)
      ⟨c, t.returned ++ [mappingOf t.ctx p size],
        t.unmapped ++ granted a.unmap t.returned.length ++ granted a.drop t.returned.length⟩ where
  ctx := rfl
  live m' hm' := by
    obtain ⟨k, hk, hlive⟩ := h.live m' hm'
    have hlt := (List.getElem?_eq_some_iff.1 hk).1
    refine ⟨k, getElem?_of_append hk, fun hmem => ?_⟩
    rcases List.mem_append.1 hmem with hmem | hmem
    · rcases List.mem_append.1 hmem with hmem | hmem
      · exact hlive hmem
      · exact hlt.ne (mem_granted hmem)
    · exact hlt.ne (mem_granted hmem)
  dropped m' hm' := by
    obtain ⟨k, hk⟩ := h.dropped m' hm'
    exact ⟨k, getElem?_of_append hk⟩
  rest k m' hk hlive := by
    rw [List.mem_append, List.mem_append, not_or, not_or] at hlive
    obtain ⟨⟨hlive, hunmap⟩, hdrop⟩ := hlive
    show m' ∈ u.live ++ (u.left ++ _)
    rw [← List.append_assoc]
    obtain hk | ⟨rfl, rfl⟩ := getElem?_concat_cases hk
    · exact List.mem_append_left _ (h.rest k m' hk hlive)
    · rw [left_of_notMem hunmap hdrop, h.ctx]
      exact List.mem_append_right _ (List.mem_singleton_self _)

/-- A region whose unmap is granted, for the first time or again. -/
theorem Follows.unmap (h : Follows u t) (hinv : AcpiInv table ops t)
    (hpos : ∀ r ∈ requested ops, 0 < r.2) (hk : t.returned[k]? = some m) :
    Follows { u with ctx := c, live := u.live.filter (· ≠ m), dropped := m :: u.dropped }
      ⟨c, t.returned, t.unmapped ++ [k]⟩ where
  ctx := rfl
  live m' hm' := by
    obtain ⟨hm', hne⟩ := List.mem_filter.1 hm'
    obtain ⟨k', hk', hlive⟩ := h.live m' hm'
    have hkk : k' ≠ k := by
      rintro rfl
      exact of_decide_eq_true hne (Option.some.inj (hk'.symm.trans hk))
    exact ⟨k', hk', by simp [hlive, hkk]⟩
  dropped m' hm' := by
    rcases List.mem_cons.1 hm' with rfl | hm'
    · exact ⟨k, hk⟩
    · exact h.dropped m' hm'
  rest k' m' hk' hlive := by
    rw [List.mem_append, not_or] at hlive
    rcases List.mem_append.1 (h.rest k' m' hk' hlive.1) with hmem | hmem
    · refine List.mem_append_left _ (List.mem_filter.2 ⟨hmem, decide_eq_true ?_⟩)
      rintro rfl
      exact hlive.2 (List.mem_singleton.2 (hinv.index_inj hpos hk hk'))
    · exact List.mem_append_right _ hmem

/-- The region of a caller has a number. -/
theorem Follows.known (h : Follows u t) (hm : m ∈ u.live ∨ m ∈ u.dropped) :
    ∃ k : ℕ, t.returned[k]? = some m := by
  rcases hm with hm | hm
  · obtain ⟨k, hk, -⟩ := h.live m hm
    exact ⟨k, hk⟩
  · exact h.dropped m hm

/-- The bytes of a region in use are those of the physical memory. -/
theorem Follows.physical_live (h : Follows u t) (hinv : AcpiInv table ops t) (hm : m ∈ u.live) :
    u.ctx.physical m.virtualStart m.regionLength.toNat =
      some ((List.range m.regionLength.toNat).map (m.physicalStart.toNat + ·)) := by
  obtain ⟨k, hk, hlive⟩ := h.live m hm
  rw [← h.ctx]
  exact physical_eq fun i hi => hinv.wellMapped.mapped k m hk hlive i hi

end Follows

/-! ### The simulation -/

section Requests

variable {served : List AcpiServed} {e : AcpiServed} {regions : List (UInt64 × UInt64)}
  {r : UInt64 × UInt64}

theorem filterMap_of_none {β : Type} {f : AcpiServed → Option β} (h : f e = none) :
    (served ++ [e]).filterMap f = served.filterMap f := by
  rw [List.filterMap_append, List.filterMap_cons_none h, List.filterMap_nil, List.append_nil]

theorem filterMap_of_some {β : Type} {f : AcpiServed → Option β} {b : β} (h : f e = some b) :
    (served ++ [e]).filterMap f = served.filterMap f ++ [b] := by
  rw [List.filterMap_append, List.filterMap_cons_some h, List.filterMap_nil]

theorem requests_of_none (h : e.request = none) : requests (served ++ [e]) = requests served :=
  filterMap_of_none h

theorem requests_of_some (h : e.request = some r) :
    requests (served ++ [e]) = requests served ++ [r] := filterMap_of_some h

theorem accesses_of_none (h : e.access = none) : accesses (served ++ [e]) = accesses served :=
  filterMap_of_none h

theorem accesses_of_some {a : Access UInt8} (h : e.access = some a) :
    accesses (served ++ [e]) = accesses served ++ [a] := filterMap_of_some h

theorem Affordable.of_append {rest : List (UInt64 × UInt64)} (h : Affordable (regions ++ rest)) :
    Affordable regions where
  pos r' hr' := h.pos r' (List.mem_append_left _ hr')
  bytes := by
    have hbytes := h.bytes
    rw [totalBytes, List.map_append, List.sum_append] at hbytes
    unfold totalBytes
    omega
  slots := by
    have hslots := h.slots
    rw [List.length_append] at hslots
    omega

end Requests

variable {table : PageTable} {mem : ℕ → UInt8} {served : List AcpiServed} {u : AcpiUse}

/-- The mapping calls behind a run. -/
structure Simulated (table : PageTable) (mem : ℕ → UInt8) (served : List AcpiServed) (u : AcpiUse)
    (ops : List AcpiOp) (t : AcpiTrace) : Prop where
  run : AcpiRun table mem ops t
  requested : requested ops = requests served
  follows : Follows u t
  trace : Trace mem (accesses served) u.ctx.mem

section Simulated

variable {ops : List AcpiOp} {t : AcpiTrace} {p size : UInt64} {a₁ a₂ answer : Except Error Unit}
  {a : AccessAnswers} {w : AccessWidth} {v : ℕ} {c : DriverContext} {m : PhysicalMapping}

namespace Simulated

theorem inv (h : Simulated table mem served u ops t) (ha : Affordable (requests served)) :
    AcpiInv table ops t :=
  h.run.inv (h.requested ▸ ha.pos) (h.requested ▸ ha.bytes) (h.requested ▸ ha.slots)

/-- There is place for one more region. -/
theorem fits (h : Simulated table mem served u ops t)
    (ha : Affordable (requests served ++ [(p, size)])) :
    t.ctx.vaAllocator.toNat + spanBytes p size < 2 ^ 64 := by
  have hbytes := ha.bytes
  rw [totalBytes_append] at hbytes
  rw [(h.inv ha.of_append).va, h.requested]
  omega

theorem map (h : Simulated table mem served u ops t) (ha : Affordable (requests served))
    (call : mapPhysicalRegion a₁ a₂ p size u.ctx = (.ret m, c)) :
    Simulated table mem (served ++ [.map p size]) { u with ctx := c, live := u.live ++ [m] }
      (ops ++ [.map p size]) ⟨c, t.returned ++ [m], t.unmapped⟩ where
  run := by
    rw [← h.follows.ctx] at call
    exact h.run.map call
  requested := by rw [requested_map, requests_of_some rfl, h.requested]
  follows := h.follows.map (h.inv ha).numbers
  trace := by
    obtain ⟨-, rfl⟩ := mapPhysicalRegion_ret call
    rw [accesses_of_none rfl]
    exact h.trace

theorem unmap (h : Simulated table mem served u ops t) (ha : Affordable (requests served)) {k : ℕ}
    (hk : t.returned[k]? = some m) (call : unmapPhysicalRegion answer m u.ctx = (.ret ⟨⟩, c)) :
    Simulated table mem (served ++ [.unmap m]) (u.unmap answer m c)
      (ops ++ [.unmap k]) ⟨c, t.returned, t.unmapped ++ granted answer k⟩ where
  run := by
    rw [← h.follows.ctx] at call
    exact h.run.unmap answer hk call
  requested := by rw [requested_unmap, requests_of_none rfl, h.requested]
  follows := by
    cases answer with
    | error _ =>
      cases call
      rw [granted_error, List.append_nil, ← h.follows.ctx]
      exact ⟨rfl, h.follows.live, h.follows.dropped, h.follows.rest⟩
    | ok _ => exact h.follows.unmap (h.inv ha) (h.requested ▸ ha.pos) hk
  trace := by
    rw [accesses_of_none rfl]
    cases answer <;> cases call <;> exact h.trace

theorem view (h : Simulated table mem served u ops t) (ha : Affordable (requests served))
    (hm : m ∈ u.live) {bytes : List UInt8}
    (call : load m.virtualStart m.regionLength.toNat u.ctx = (.ret bytes, c)) :
    Simulated table mem (served ++ [.view m bytes]) { u with ctx := c } ops t := by
  rw [load_run (h.follows.physical_live (h.inv ha) hm)] at call
  cases call
  refine ⟨h.run, ?_, h.follows, ?_⟩
  · rw [requests_of_none rfl, h.requested]
  · rw [accesses_of_some rfl]
    exact h.trace.snoc_read _ _

/-- An access leaves the mapping calls of its region behind. -/
theorem read (h : Simulated table mem served u ops t)
    (ha : Affordable (requests (served ++ [.read p w v])))
    (call : readValue a p w u.ctx = (.ret v, c)) :
    ∃ ops' t', Simulated table mem (served ++ [.read p w v])
      (u.access a p (UInt64.ofNat w.bytes) c) ops' t' := by
  rw [requests_of_some rfl] at ha
  have hinv := h.inv ha.of_append
  rw [← h.follows.ctx] at call
  obtain ⟨hgranted, haligned⟩ := readValue_ret hinv (h.fits ha) call
  rw [readValue_run hinv hgranted (h.fits ha) haligned] at call
  have hrun := readSized_acpiRun h.run
    (readSized_run hinv hgranted w.bytes_pos w.bytes_dvd (h.fits ha) haligned)
  cases call
  refine ⟨_, _, hrun, ?_, h.follows.access, ?_⟩
  · rw [requested_unmap, requested_unmap, requested_map, requests_of_some rfl, h.requested]
  · have hread := h.trace.snoc_read p.toNat w.bytes
    have hlen : (fetch u.ctx.mem p.toNat w.bytes).length = w.bytes := by simp [fetch]
    have hbytes := Bytes.little_ofLittle (fetch u.ctx.mem p.toNat w.bytes)
    rw [hlen] at hbytes
    rw [accesses_of_some rfl, h.follows.ctx, hbytes]
    show Trace mem _ (u.ctx.accessed a p (UInt64.ofNat w.bytes)).mem
    rw [accessed_mem]
    exact hread

theorem write (h : Simulated table mem served u ops t)
    (ha : Affordable (requests (served ++ [.write p w v])))
    (call : writeValue a p v w u.ctx = (.ret ⟨⟩, c)) :
    ∃ ops' t', Simulated table mem (served ++ [.write p w v])
      (u.access a p (UInt64.ofNat w.bytes) c) ops' t' := by
  rw [requests_of_some rfl] at ha
  have hinv := h.inv ha.of_append
  rw [← h.follows.ctx] at call
  obtain ⟨hgranted, haligned⟩ := writeValue_ret hinv (h.fits ha) call
  have hcall := call
  rw [writeValue_eq] at hcall
  have hrun := writeSized_acpiRun h.run hcall
  rw [writeValue_run hinv hgranted (h.fits ha) haligned] at call
  cases call
  rw [Bytes.length_little] at hrun
  refine ⟨_, _, hrun, ?_, h.follows.access, ?_⟩
  · rw [requested_unmap, requested_unmap, requested_map, requests_of_some rfl, h.requested]
  · rw [accesses_of_some rfl, h.follows.ctx]
    exact h.trace.snoc_write _ _

theorem outside (h : Simulated table mem served u ops t) (q : ℕ) (bytes : List UInt8) :
    Simulated table mem (served ++ [.outside q bytes])
      { u with ctx := { u.ctx with mem := put u.ctx.mem q bytes } } ops
      ⟨{ t.ctx with mem := put u.ctx.mem q bytes }, t.returned, t.unmapped⟩ where
  run := h.run.touch _
  requested := by rw [requests_of_none rfl, h.requested]
  follows := ⟨by rw [h.follows.ctx], h.follows.live, h.follows.dropped, h.follows.rest⟩
  trace := by
    rw [accesses_of_some rfl]
    exact h.trace.snoc_write _ _

end Simulated

/-- Every run comes down to mapping calls. -/
theorem AcpiUses.simulated (h : AcpiUses table mem served u) (ha : Affordable (requests served)) :
    ∃ ops t, Simulated table mem served u ops t := by
  induction h with
  | start =>
    refine ⟨_, _, .start, rfl, ⟨rfl, ?_, ?_, ?_⟩, .nil _⟩
    · exact fun m hm => absurd hm List.not_mem_nil
    · exact fun m hm => absurd hm List.not_mem_nil
    · exact fun k m hk => absurd hk (by simp)
  | map run call ih =>
    rw [requests_of_some rfl] at ha
    obtain ⟨ops, t, hs⟩ := ih ha.of_append
    exact ⟨_, _, hs.map ha.of_append call⟩
  | unmap run known call ih =>
    rw [requests_of_none rfl] at ha
    obtain ⟨ops, t, hs⟩ := ih ha
    obtain ⟨k, hk⟩ := hs.follows.known known
    exact ⟨_, _, hs.unmap ha hk call⟩
  | view run live call ih =>
    rw [requests_of_none rfl] at ha
    obtain ⟨ops, t, hs⟩ := ih ha
    exact ⟨_, _, hs.view ha live call⟩
  | read run call ih =>
    have ha' := ha
    rw [requests_of_some rfl] at ha'
    obtain ⟨ops, t, hs⟩ := ih ha'.of_append
    exact hs.read ha call
  | write run call ih =>
    have ha' := ha
    rw [requests_of_some rfl] at ha'
    obtain ⟨ops, t, hs⟩ := ih ha'.of_append
    exact hs.write ha call
  | outside q bytes run ih =>
    rw [requests_of_none rfl] at ha
    obtain ⟨ops, t, hs⟩ := ih ha
    exact ⟨_, _, hs.outside q bytes⟩

end Simulated

/-! ### The memory -/

/-- The pages of a region are not below the addresses that the handler gives out. -/
theorem AcpiRun.base_le {ops : List AcpiOp} {t : AcpiTrace} (h : AcpiRun table mem ops t)
    (ha : Affordable (requested ops)) {m : PhysicalMapping} (hm : m ∈ t.returned) {x : ℕ}
    (hx : x ∈ m.pages) : mapVaBase.toNat ≤ x * 4096 := by
  induction h with
  | start => exact absurd hm List.not_mem_nil
  | unmap _ _ _ _ ih =>
    rw [requested_unmap] at ha
    exact ih ha hm
  | touch _ _ ih => exact ih ha hm
  | map run call ih =>
    rw [requested_map] at ha
    have hinv := run.inv ha.of_append.pos ha.of_append.bytes ha.of_append.slots
    have hbytes := ha.bytes
    rw [totalBytes_append, ← Nat.add_assoc, ← hinv.va] at hbytes
    rcases List.mem_append.1 hm with hm | hm
    · exact ih ha.of_append hm
    · obtain ⟨rfl, -⟩ := mapPhysicalRegion_ret call
      rw [List.mem_singleton.1 hm] at hx
      have hpos := ha.pos _ (List.mem_append_right _ (List.mem_singleton_self _))
      have hle := (mem_pages_mappingOf hinv.aligned.1 hinv.aligned.2 hbytes hpos hx).1
      rw [hinv.va] at hle
      omega

namespace Simulated

variable {ops : List AcpiOp} {t : AcpiTrace}

theorem actsOnMemory (h : Simulated table mem served u ops t) (ha : Affordable (requests served)) :
    ActsOnMemory table mem served u := by
  have hinv := h.inv ha
  have hctx := h.follows.ctx
  have hothers : ∀ x, (∀ m ∈ t.returned, x ∉ m.pages) → u.ctx.table x = table x := by
    rw [← hctx]
    exact hinv.others
  constructor
  case trace => exact h.trace
  case live =>
    intro m hm i hi
    obtain ⟨k, hk, hlive⟩ := h.follows.live m hm
    rw [← hctx]
    exact hinv.wellMapped.mapped k m hk hlive i hi
  case rest =>
    intro x hx
    by_cases hused : ∀ m ∈ t.returned, x ∉ m.pages
    · exact .inr (hothers x hused)
    · -- the page of a region that was unmapped
      push Not at hused
      obtain ⟨m, hm, hpage⟩ := hused
      obtain ⟨k, hk⟩ := List.mem_iff_getElem?.1 hm
      have hgone : k ∈ t.unmapped := by
        by_contra hlive
        exact hx m (h.follows.rest k m hk hlive) hpage
      rw [← hctx, hinv.pages k m hk x hpage, if_pos hgone]
      exact .inl rfl
  case unused =>
    intro x hx
    refine hothers x fun m hm hpage => ?_
    have hbase := h.run.base_le (h.requested ▸ ha) hm hpage
    have hbelow := hinv.below m hm x hpage
    rw [hctx] at hbelow
    omega
  case va => rw [← hctx, hinv.va, h.requested]
  case slots => rw [← hctx, hinv.slot, h.requested]

theorem available (h : Simulated table mem served u ops t) (ha : Affordable (requests served)) :
    Available served u := by
  have hinv := h.inv ha
  have hctx := h.follows.ctx
  constructor
  case map =>
    intro a₁ a₂ p size hone
    constructor
    · rintro ⟨m, c, call⟩
      exact granted_of_mapPhysicalRegion call
    · rintro ⟨rfl, rfl⟩
      have hpos := hone.pos _ (List.mem_append_right _ (List.mem_singleton_self _))
      rw [← hctx]
      exact ⟨_, _, mapPhysicalRegion_run (hinv.nonNull (h.fits hone) hpos)⟩
  case read =>
    intro a p w hone
    rw [← hctx]
    constructor
    · rintro ⟨v, c, call⟩
      exact readValue_ret hinv (h.fits hone) call
    · rintro ⟨hgranted, haligned⟩
      exact ⟨_, _, readValue_run hinv hgranted (h.fits hone) haligned⟩
  case write =>
    intro a p w v hone
    rw [← hctx]
    constructor
    · rintro ⟨c, call⟩
      exact writeValue_ret hinv (h.fits hone) call
    · rintro ⟨hgranted, haligned⟩
      exact ⟨_, writeValue_run hinv hgranted (h.fits hone) haligned⟩
  case view => exact fun m hm => ⟨_, load_run (h.follows.physical_live hinv hm)⟩

end Simulated

/-- **The ACPI memory.**  After every run of calls, as long as addresses and slots last: what was
read and written is a trace of the physical memory, the regions in use show that memory, and no
other page was left mapped but those that the kernel refused to unmap.  The next call returns iff
the kernel grants what it asks for and, for an access, its address is aligned. -/
theorem acpi_memory (table : PageTable) (mem : ℕ → UInt8) (served : List AcpiServed) (u : AcpiUse)
    (run : AcpiUses table mem served u) (ha : Affordable (requests served)) :
    ActsOnMemory table mem served u ∧ Available served u := by
  obtain ⟨ops, t, hs⟩ := run.simulated ha
  exact ⟨hs.actsOnMemory ha, hs.available ha⟩

/-- **Reading what was written.**  A byte that is read, by whatever access or in a region that is in
use, is the one that was written last. -/
theorem acpi_last_written (table : PageTable) (mem : ℕ → UInt8) (pre mid post : List AcpiServed)
    (w r : AcpiServed) (u : AcpiUse) (run : AcpiUses table mem (pre ++ w :: mid ++ r :: post) u)
    (ha : Affordable (requests (pre ++ w :: mid ++ r :: post))) (x : ℕ) (b b' : UInt8)
    (hw : w.wrote x = some b) (hr : r.found x = some b') (hmid : ∀ e ∈ mid, e.wrote x = none) :
    b' = b := by
  obtain ⟨a, haw, hw⟩ := Option.bind_eq_some_iff.1 hw
  obtain ⟨a', har, hr⟩ := Option.bind_eq_some_iff.1 hr
  obtain ⟨ops, t, hs⟩ := run.simulated ha
  have htrace := hs.trace
  unfold accesses at htrace
  rw [List.filterMap_append, List.filterMap_append, List.filterMap_cons_some haw,
    List.filterMap_cons_some har] at htrace
  refine htrace.last_written hw hr fun e he => ?_
  obtain ⟨e', he', hacc⟩ := List.mem_filterMap.1 he
  have hnone := hmid e' he'
  rw [AcpiServed.wrote, hacc] at hnone
  exact hnone

/-- Four bytes, and then the upper two of them. -/
def upperHalf (v : ℕ) : List AcpiServed := [.write 0x1ffc .u32 0x12345678, .read 0x1ffe .u16 v]

theorem affordable_upperHalf (v : ℕ) : Affordable (requests (upperHalf v)) where
  pos := by
    intro r hr
    have hr : r ∈ [((0x1ffc, 4) : UInt64 × UInt64), (0x1ffe, 2)] := hr
    rw [List.mem_cons, List.mem_singleton] at hr
    rcases hr with rfl | rfl
    · show (0 : UInt64) < 4
      decide
    · show (0 : UInt64) < 2
      decide
  bytes := by
    show mapVaBase.toNat + totalBytes [(0x1ffc, 4), (0x1ffe, 2)] < 2 ^ 64
    decide
  slots := by
    show dynamicSlotBase.toNat + 2 < 2 ^ 64
    decide

/-- The first unmap of the write is refused. -/
theorem uses_upperHalf :
    ∃ v u, AcpiUses (fun _ => none) (fun _ => 0) (upperHalf v) u := by
  have fresh : AcpiUses (fun _ => none) (fun _ => 0) [] ⟨.initial _ _, [], [], []⟩ := .start
  have ha : Affordable ([(0x1ffc, 4)] ++ [(0x1ffe, 2)]) := affordable_upperHalf 0
  have ha' : Affordable ([] ++ [(0x1ffc, 4)]) := ha.of_append
  obtain ⟨_, _, hs⟩ := fresh.simulated ha'.of_append
  obtain ⟨c, hwrite⟩ := ((hs.available ha'.of_append).write
    ⟨.ok ⟨⟩, .ok ⟨⟩, .error .generic, .ok ⟨⟩⟩ 0x1ffc .u32 0x12345678 ha').2
    ⟨⟨rfl, rfl⟩, by decide⟩
  have written := fresh.write hwrite
  obtain ⟨_, _, hs⟩ := written.simulated ha'
  obtain ⟨v, c, hread⟩ := ((hs.available ha').read ⟨.ok ⟨⟩, .ok ⟨⟩, .ok ⟨⟩, .ok ⟨⟩⟩ 0x1ffe .u16
    ha).2 ⟨⟨rfl, rfl⟩, by decide⟩
  exact ⟨v, _, written.read hread⟩

theorem acpi_memory_upperHalf :
    ∃ v u, AcpiUses (fun _ => none) (fun _ => 0) (upperHalf v) u ∧
      ActsOnMemory (fun _ => none) (fun _ => 0) (upperHalf v) u ∧ Available (upperHalf v) u := by
  obtain ⟨v, u, run⟩ := uses_upperHalf
  exact ⟨v, u, run, acpi_memory _ _ _ u run (affordable_upperHalf v)⟩

/-- The third byte of the four is read. -/
theorem acpi_last_written_upperHalf :
    ∃ v u, AcpiUses (fun _ => none) (fun _ => 0) (upperHalf v) u ∧
      UInt8.ofNat (v / 256 ^ 0) = UInt8.ofNat (0x12345678 / 256 ^ 2) := by
  obtain ⟨v, u, run⟩ := uses_upperHalf
  exact ⟨v, u, run, acpi_last_written _ _ [] [] [] _ _ u run (affordable_upperHalf v) 0x1ffe _ _ rfl
    rfl (by simp)⟩

end GlendaDrivers
