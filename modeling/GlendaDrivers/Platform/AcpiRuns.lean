import GlendaDrivers.Platform.Acpi

/-!
# Runs of the ACPI mapping handler

Regions are mapped and unmapped in any order, and a region may be unmapped more than once.  The
kernel may refuse an unmap, and the driver does not look.

* `AcpiOp`, `AcpiRun`: the calls that returned, and what they leave;
* `AcpiInv`: the invariant, which says what the page table holds;
* `WellMapped`: what is claimed of a run;
* `acpi_mappings`: that it holds;
* `readSized_acpiRun`, `writeSized_acpiRun`: the accesses are runs of three calls.
-/

namespace GlendaDrivers

open Prog

/-- A call: map a physical region, or unmap the region returned by the call number `k` that
mapped one. -/
inductive AcpiOp
  | map (physicalAddress size : UInt64)
  | unmap (k : ℕ)
  deriving DecidableEq

/-- What a request adds to a list: nothing, if it is refused. -/
def granted {α : Type} (answer : Except Error Unit) (a : α) : List α :=
  match answer with
  | .error _ => []
  | .ok _ => [a]

@[simp] theorem granted_ok {α : Type} (u : Unit) (a : α) : granted (.ok u) a = [a] := rfl

@[simp] theorem granted_error {α : Type} (e : Error) (a : α) : granted (.error e) a = [] := rfl

/-- The context, the regions returned so far, and the numbers of those with a granted unmap. -/
structure AcpiTrace where
  ctx : DriverContext
  returned : List PhysicalMapping
  unmapped : List ℕ

/-- The runs from the context that `probe` creates.  The physical memory may change at any time. -/
inductive AcpiRun (table : PageTable) (mem : ℕ → UInt8) : List AcpiOp → AcpiTrace → Prop
  | start : AcpiRun table mem [] ⟨.initial table mem, [], []⟩
  | map {ops : List AcpiOp} {t : AcpiTrace} {a₁ a₂ : Except Error Unit} {p size : UInt64}
      {m : PhysicalMapping} {c : DriverContext} (run : AcpiRun table mem ops t)
      (call : mapPhysicalRegion a₁ a₂ p size t.ctx = (.ret m, c)) :
      AcpiRun table mem (ops ++ [.map p size]) ⟨c, t.returned ++ [m], t.unmapped⟩
  | unmap {ops : List AcpiOp} {t : AcpiTrace} {k : ℕ} {m : PhysicalMapping} {c : DriverContext}
      (answer : Except Error Unit) (run : AcpiRun table mem ops t)
      (region : t.returned[k]? = some m)
      (call : unmapPhysicalRegion answer m t.ctx = (.ret ⟨⟩, c)) :
      AcpiRun table mem (ops ++ [.unmap k]) ⟨c, t.returned, t.unmapped ++ granted answer k⟩
  | touch {ops : List AcpiOp} {t : AcpiTrace} (mem' : ℕ → UInt8) (run : AcpiRun table mem ops t) :
      AcpiRun table mem ops ⟨{ t.ctx with mem := mem' }, t.returned, t.unmapped⟩

/-- The regions that a run asks for. -/
def requested (ops : List AcpiOp) : List (UInt64 × UInt64) :=
  ops.filterMap fun
    | .map p size => some (p, size)
    | .unmap _ => none

@[simp] theorem requested_map (ops : List AcpiOp) (p size : UInt64) :
    requested (ops ++ [.map p size]) = requested ops ++ [(p, size)] := by
  simp [requested]

@[simp] theorem requested_unmap (ops : List AcpiOp) (k : ℕ) :
    requested (ops ++ [.unmap k]) = requested ops := by
  simp [requested]

/-- The bytes of address space that the requests need. -/
def totalBytes (requests : List (UInt64 × UInt64)) : ℕ :=
  (requests.map fun r => spanBytes r.1 r.2).sum

@[simp] theorem totalBytes_append (requests : List (UInt64 × UInt64)) (p size : UInt64) :
    totalBytes (requests ++ [(p, size)]) = totalBytes requests + spanBytes p size := by
  simp [totalBytes]

/-- What is claimed of a run: the regions are those asked for, they have pairwise disjoint pages
and distinct slots, each is backed by a frame with all of its bytes, a byte of a region without a
granted unmap is the byte of the physical region, a region with one has no page left, other pages
are as they were, one more unmap that is granted releases the pages of its region and no other, and
one that is refused changes nothing. -/
structure WellMapped (table : PageTable) (ops : List AcpiOp) (t : AcpiTrace) : Prop where
  regions : t.returned.map (fun m => (m.physicalStart, m.regionLength)) = requested ops
  disjoint : t.returned.Pairwise fun m m' => Disjoint m.pages m'.pages
  slots : (t.ctx.frames.map FrameCap.slot).Nodup
  framed : List.Forall₂ PhysicalMapping.FramedBy t.returned t.ctx.frames
  covered : ∀ m ∈ t.returned, ∀ i < m.regionLength.toNat,
    m.virtualStart.toNat + i < 2 ^ 64 ∧ (m.virtualStart.toNat + i) / pgSize.toNat ∈ m.pages
  mapped : ∀ (k : ℕ) (m : PhysicalMapping), t.returned[k]? = some m → k ∉ t.unmapped →
    ∀ i < m.regionLength.toNat,
      t.ctx.table.translate pgSize.toNat (m.virtualStart.toNat + i) =
        some (m.physicalStart.toNat + i)
  released : ∀ (k : ℕ) (m : PhysicalMapping), t.returned[k]? = some m → k ∈ t.unmapped →
    ∀ x ∈ m.pages, t.ctx.table x = none
  others : ∀ x, (∀ m ∈ t.returned, x ∉ m.pages) → t.ctx.table x = table x
  unmap : ∀ (k : ℕ) (m : PhysicalMapping), t.returned[k]? = some m →
    ∃ c, unmapPhysicalRegion (.ok ⟨⟩) m t.ctx = (.ret ⟨⟩, c) ∧
      (∀ x ∈ m.pages, c.table x = none) ∧ (∀ x ∉ m.pages, c.table x = t.ctx.table x) ∧
      ∀ (k' : ℕ) (m' : PhysicalMapping), t.returned[k']? = some m' → k' ≠ k →
        ∀ x ∈ m'.pages, c.table x = t.ctx.table x
  refused : ∀ (e : Error) (m : PhysicalMapping),
    unmapPhysicalRegion (.error e) m t.ctx = (.ret ⟨⟩, t.ctx)

/-! ### The invariant -/

/-- The counters have passed what was asked for, and a region's pages, which are below the counter,
are mapped until an unmap of it is granted. -/
structure AcpiInv (table : PageTable) (ops : List AcpiOp) (t : AcpiTrace) : Prop where
  regions : t.returned.map (fun m => (m.physicalStart, m.regionLength)) = requested ops
  va : t.ctx.vaAllocator.toNat = mapVaBase.toNat + totalBytes (requested ops)
  slot : t.ctx.slotAllocator.toNat = dynamicSlotBase.toNat + (requested ops).length
  slots : t.ctx.frames.map (fun frame => frame.slot.toNat) =
    List.range' dynamicSlotBase.toNat (requested ops).length
  framed : List.Forall₂ PhysicalMapping.FramedBy t.returned t.ctx.frames
  sound : ∀ m ∈ t.returned, m.Sound
  below : ∀ m ∈ t.returned, ∀ x ∈ m.pages, x * 4096 < t.ctx.vaAllocator.toNat
  disjoint : t.returned.Pairwise fun m m' => Disjoint m.pages m'.pages
  numbers : ∀ k ∈ t.unmapped, k < t.returned.length
  pages : ∀ (k : ℕ) (m : PhysicalMapping), t.returned[k]? = some m → ∀ x ∈ m.pages,
    t.ctx.table x = if k ∈ t.unmapped then none
      else some (pageOf m.physicalStart + (x - pageOf m.virtualStart))
  others : ∀ x, (∀ m ∈ t.returned, x ∉ m.pages) → t.ctx.table x = table x

section Steps

variable {table : PageTable} {mem : ℕ → UInt8} {ops : List AcpiOp} {t : AcpiTrace}

/-- Nothing is mapped at the start. -/
theorem AcpiInv.start : AcpiInv table [] ⟨.initial table mem, [], []⟩ where
  regions := rfl
  va := rfl
  slot := rfl
  slots := rfl
  framed := .nil
  sound := fun _ h => absurd h List.not_mem_nil
  below := fun _ h => absurd h List.not_mem_nil
  disjoint := .nil
  numbers := fun _ h => absurd h List.not_mem_nil
  pages := fun _ _ h => absurd h (by simp)
  others := fun _ _ => rfl

theorem totalBytes_dvd (requests : List (UInt64 × UInt64)) : 4096 ∣ totalBytes requests := by
  apply List.dvd_sum
  intro n hn
  obtain ⟨r, -, rfl⟩ := List.mem_map.1 hn
  exact Dvd.intro_left _ rfl

/-- The counter of virtual addresses is a multiple of the page size, and not below its base. -/
theorem AcpiInv.aligned (h : AcpiInv table ops t) :
    4096 ∣ t.ctx.vaAllocator.toNat ∧ 4096 ≤ t.ctx.vaAllocator.toNat := by
  have hbase : mapVaBase.toNat = 4096 * 262144 := rfl
  obtain ⟨d, hd⟩ := totalBytes_dvd (requested ops)
  rw [h.va, hbase, hd]
  exact ⟨⟨262144 + d, by ring⟩, by omega⟩

/-- The entry of a list with one element more. -/
theorem getElem?_concat_cases {α : Type} {l : List α} {a b : α} {k : ℕ}
    (h : (l ++ [a])[k]? = some b) : l[k]? = some b ∨ k = l.length ∧ b = a := by
  by_cases hk : k < l.length
  · rw [List.getElem?_append_left hk] at h
    exact .inl h
  · rw [List.getElem?_append_right (by omega)] at h
    obtain ⟨hk', rfl⟩ := List.getElem?_eq_some_iff.1 h
    rw [List.length_singleton] at hk'
    exact .inr ⟨by omega, by simp⟩

/-- A call that maps a region. -/
theorem AcpiInv.map {a₁ a₂ : Except Error Unit} {p size : UInt64} {m : PhysicalMapping}
    {c : DriverContext} (h : AcpiInv table ops t)
    (call : mapPhysicalRegion a₁ a₂ p size t.ctx = (.ret m, c)) (hpos : 0 < size)
    (hbytes : mapVaBase.toNat + totalBytes (requested (ops ++ [.map p size])) < 2 ^ 64)
    (hslots : dynamicSlotBase.toNat + (requested (ops ++ [.map p size])).length < 2 ^ 64) :
    AcpiInv table (ops ++ [.map p size]) ⟨c, t.returned ++ [m], t.unmapped⟩ := by
  obtain ⟨rfl, rfl⟩ := mapPhysicalRegion_ret call
  obtain ⟨hva, hbase⟩ := h.aligned
  rw [requested_map, totalBytes_append, ← Nat.add_assoc, ← h.va] at hbytes
  rw [requested_map, List.length_append, List.length_singleton] at hslots
  have hgrow := toNat_vaAllocator_mapped hbase hbytes
  have hnew := fun x => mem_pages_mappingOf (x := x) hva hbase hbytes hpos
  -- the pages of the regions returned before are below the counter
  have hfresh : ∀ m ∈ t.returned, ∀ x ∈ m.pages, x ∉ (mappingOf t.ctx p size).pages := by
    intro m hm x hx hx'
    have := h.below m hm x hx
    have := (hnew x hx').1
    omega
  constructor
  case regions =>
    rw [List.map_append, h.regions, requested_map]
    rfl
  case va => rw [hgrow, requested_map, totalBytes_append, ← Nat.add_assoc, ← h.va]
  case slot =>
    show (t.ctx.slotAllocator + 1).toNat = _
    rw [requested_map, List.length_append, List.length_singleton, UInt64.toNat_add, h.slot]
    exact Nat.mod_eq_of_lt hslots
  case slots =>
    rw [requested_map, List.length_append, List.length_singleton, List.range'_concat, Nat.one_mul,
      ← h.slots, ← h.slot]
    exact List.map_append
  case framed =>
    refine List.rel_append h.framed (.cons ?_ .nil)
    exact framedBy_mappingOf hbase hbytes
  case sound =>
    intro m hm
    rcases List.mem_append.1 hm with hm | hm
    · exact h.sound m hm
    · rw [List.mem_singleton.1 hm]
      exact sound_mappingOf hva hbase hbytes hpos
  case below =>
    intro m hm x hx
    rcases List.mem_append.1 hm with hm | hm
    · have := h.below m hm x hx
      show _ < (t.ctx.mapped p size).vaAllocator.toNat
      omega
    · rw [List.mem_singleton.1 hm] at hx
      exact (hnew x hx).2
  case disjoint =>
    rw [List.pairwise_append]
    refine ⟨h.disjoint, List.pairwise_singleton _ _, fun m hm m' hm' => ?_⟩
    rw [List.mem_singleton.1 hm', Set.disjoint_left]
    exact hfresh m hm
  case numbers =>
    intro k hk
    have := h.numbers k hk
    rw [List.length_append]
    omega
  case pages =>
    intro k m hk x hx
    obtain hk | ⟨rfl, rfl⟩ := getElem?_concat_cases hk
    · have hm := List.mem_of_getElem? hk
      exact (mapped_of_notMem hva hbytes hpos (hfresh m hm x hx)).trans (h.pages k m hk x hx)
    · have hk : t.returned.length ∉ t.unmapped := fun hk => (h.numbers _ hk).false
      rw [if_neg hk]
      exact mapped_of_mem hva hbytes hpos hx
  case others =>
    intro x hx
    have hne := hx _ (List.mem_append_right _ (List.mem_singleton_self _))
    exact (mapped_of_notMem hva hbytes hpos hne).trans
      (h.others x fun m hm => hx m (List.mem_append_left _ hm))

/-- The pages of two regions of a run. -/
theorem AcpiInv.notMem_of_ne (h : AcpiInv table ops t) {k k' : ℕ} {m m' : PhysicalMapping}
    (hk : t.returned[k]? = some m) (hk' : t.returned[k']? = some m') (hne : k' ≠ k) {x : ℕ}
    (hx : x ∈ m'.pages) : x ∉ m.pages := by
  obtain ⟨hlt, rfl⟩ := List.getElem?_eq_some_iff.1 hk
  obtain ⟨hlt', rfl⟩ := List.getElem?_eq_some_iff.1 hk'
  have hdisj := List.pairwise_iff_getElem.1 h.disjoint
  rcases Nat.lt_or_gt_of_ne hne with hlt'' | hgt
  · exact Set.disjoint_left.1 (hdisj k' k hlt' hlt hlt'') hx
  · exact Set.disjoint_right.1 (hdisj k k' hlt hlt' hgt) hx

/-- A refused unmap changes nothing. -/
theorem AcpiInv.refused {k : ℕ} (h : AcpiInv table ops t) :
    AcpiInv table (ops ++ [.unmap k]) t := by
  have hreq := requested_unmap ops k
  exact ⟨hreq ▸ h.regions, hreq ▸ h.va, hreq ▸ h.slot, hreq ▸ h.slots, h.framed, h.sound, h.below,
    h.disjoint, h.numbers, h.pages, h.others⟩

/-- A granted unmap of a region, for the first time or again. -/
theorem AcpiInv.unmap {k : ℕ} {m : PhysicalMapping} (h : AcpiInv table ops t)
    (region : t.returned[k]? = some m) :
    AcpiInv table (ops ++ [.unmap k]) ⟨t.ctx.unmapped m, t.returned, t.unmapped ++ [k]⟩ := by
  constructor
  case regions => rw [requested_unmap, h.regions]
  case va => rw [requested_unmap, ← h.va]; rfl
  case slot => rw [requested_unmap, ← h.slot]; rfl
  case slots => rw [requested_unmap, ← h.slots]; rfl
  case framed => exact h.framed
  case sound => exact h.sound
  case below => exact h.below
  case disjoint => exact h.disjoint
  case numbers =>
    intro i hi
    rcases List.mem_append.1 hi with hi | hi
    · exact h.numbers i hi
    · rw [List.mem_singleton.1 hi]
      exact (List.getElem?_eq_some_iff.1 region).1
  case pages =>
    intro i m' hi x hx
    by_cases hik : i = k
    · subst i
      obtain rfl : m = m' := Option.some.inj (region.symm.trans hi)
      rw [if_pos (List.mem_append_right _ (List.mem_singleton_self k))]
      exact unmapped_of_mem hx
    · have hmem : i ∈ t.unmapped ++ [k] ↔ i ∈ t.unmapped := by simp [hik]
      simp only [hmem]
      exact (unmapped_of_notMem (h.notMem_of_ne region hi hik hx)).trans (h.pages i m' hi x hx)
  case others =>
    intro x hx
    exact (unmapped_of_notMem (hx m (List.mem_of_getElem? region))).trans (h.others x hx)

/-- The invariant holds after every run whose totals do not wrap. -/
theorem AcpiRun.inv (h : AcpiRun table mem ops t) (hpos : ∀ r ∈ requested ops, 0 < r.2)
    (hbytes : mapVaBase.toNat + totalBytes (requested ops) < 2 ^ 64)
    (hslots : dynamicSlotBase.toNat + (requested ops).length < 2 ^ 64) : AcpiInv table ops t := by
  induction h with
  | start => exact AcpiInv.start
  | map run call ih =>
    rename_i ops t a₁ a₂ p size m c
    have hprefix := ih
      (fun r hr => hpos r (by rw [requested_map]; exact List.mem_append_left _ hr))
      (by rw [requested_map, totalBytes_append] at hbytes; omega)
      (by rw [requested_map, List.length_append] at hslots; omega)
    have hsize := hpos (p, size) (by rw [requested_map]; simp)
    exact hprefix.map call hsize hbytes hslots
  | unmap answer run region call ih =>
    rw [requested_unmap] at hpos hbytes hslots
    have hinv := ih hpos hbytes hslots
    cases answer with
    | error e =>
      cases call
      rw [granted_error, List.append_nil]
      exact hinv.refused
    | ok u =>
      cases call
      exact hinv.unmap region
  | touch mem' run ih =>
    have hinv := ih hpos hbytes hslots
    exact ⟨hinv.regions, hinv.va, hinv.slot, hinv.slots, hinv.framed, hinv.sound, hinv.below,
      hinv.disjoint, hinv.numbers, hinv.pages, hinv.others⟩

/-! ### What is claimed -/

/-- The invariant says what is claimed. -/
theorem AcpiInv.wellMapped (h : AcpiInv table ops t) : WellMapped table ops t := by
  constructor
  case regions => exact h.regions
  case disjoint => exact h.disjoint
  case slots =>
    have hnodup : (t.ctx.frames.map fun frame => frame.slot.toNat).Nodup := by
      rw [h.slots]
      exact List.nodup_range'
    rw [← Function.comp_def, ← List.map_map] at hnodup
    exact hnodup.of_map
  case framed => exact h.framed
  case covered => exact fun m hm i hi => (h.sound m hm).mem_pages hi
  case mapped =>
    intro k m hk hlive i hi
    refine (h.sound m (List.mem_of_getElem? hk)).translate (fun x hx => ?_) hi
    rw [h.pages k m hk x hx, if_neg hlive]
  case released =>
    intro k m hk hgone x hx
    rw [h.pages k m hk x hx, if_pos hgone]
  case others => exact h.others
  case unmap =>
    intro k m hk
    refine ⟨t.ctx.unmapped m, rfl, fun x => unmapped_of_mem, fun x => unmapped_of_notMem, ?_⟩
    intro k' m' hk' hne x hx
    exact unmapped_of_notMem (h.notMem_of_ne hk hk' hne hx)
  case refused => exact fun _ _ => rfl

/-- The mappings of every run whose totals do not wrap. -/
theorem acpi_mappings (table : PageTable) (mem : ℕ → UInt8) (ops : List AcpiOp) (t : AcpiTrace)
    (run : AcpiRun table mem ops t) (hpos : ∀ r ∈ requested ops, 0 < r.2)
    (hbytes : mapVaBase.toNat + totalBytes (requested ops) < 2 ^ 64)
    (hslots : dynamicSlotBase.toNat + (requested ops).length < 2 ^ 64) :
    WellMapped table ops t :=
  (run.inv hpos hbytes hslots).wellMapped

/-- Four bytes across the end of a page: the first unmap is refused and the second one is not, and
another region is mapped between. -/
theorem acpi_mappings_crossing :
    ∃ t, AcpiRun (fun _ => none) (fun _ => 0)
        [.map 0x1ffe 4, .unmap 0, .map 0x5000 0x1001, .unmap 0, .unmap 0] t ∧
      t.unmapped = [0, 0] ∧
      WellMapped (fun _ => none) [.map 0x1ffe 4, .unmap 0, .map 0x5000 0x1001, .unmap 0, .unmap 0]
        t := by
  have empty : AcpiRun (fun _ => none) (fun _ => 0) [] ⟨.initial _ _, [], []⟩ := .start
  have first := empty.map (@mapPhysicalRegion_run _ 0x1ffe 4 (by decide))
  have refused := first.unmap (.error .generic) (k := 0) rfl rfl
  have second := refused.map (@mapPhysicalRegion_run _ 0x5000 0x1001 (by decide))
  have third := second.unmap (.ok ⟨⟩) (k := 0) rfl rfl
  have run := third.unmap (.ok ⟨⟩) (k := 0) rfl rfl
  refine ⟨_, run, rfl, acpi_mappings _ _ _ _ run (fun r hr => ?_) (by decide) (by decide)⟩
  have hr : r ∈ [((0x1ffe, 4) : UInt64 × UInt64), (0x5000, 0x1001)] := hr
  rw [List.mem_cons, List.mem_singleton] at hr
  rcases hr with rfl | rfl
  · show (0 : UInt64) < 4
    decide
  · show (0 : UInt64) < 0x1001
    decide

/-! ### The accesses -/

/-- A `read` that returned is a map and two unmaps of the region. -/
theorem readSized_acpiRun {a : AccessAnswers} {n : ℕ} {p : UInt64} {val : List UInt8}
    {c : DriverContext} (run : AcpiRun table mem ops t)
    (call : readSized a n p t.ctx = (.ret val, c)) :
    AcpiRun table mem
      (ops ++ [.map p (UInt64.ofNat n)] ++ [.unmap t.returned.length] ++
        [.unmap t.returned.length])
      ⟨c, t.returned ++ [mappingOf t.ctx p (UInt64.ofNat n)],
        t.unmapped ++ granted a.unmap t.returned.length ++ granted a.drop t.returned.length⟩ := by
  obtain ⟨m, c₁, hmap, hrest⟩ := bind_eq_ret.1 call
  obtain ⟨bytes, c₂, hload, hrest'⟩ := bind_eq_ret.1 hrest
  obtain ⟨_, c₃, hunmap, hrest''⟩ := bind_eq_ret.1 hrest'
  obtain ⟨_, c₄, hdrop, hret⟩ := bind_eq_ret.1 hrest''
  obtain ⟨-, rfl, -⟩ := loadValue_ret hload
  obtain ⟨rfl, -⟩ := mapPhysicalRegion_ret hmap
  cases hret
  have hlast : (t.returned ++ [mappingOf t.ctx p (UInt64.ofNat n)])[t.returned.length]? = some _ :=
    List.getElem?_concat_length
  exact ((run.map hmap).unmap a.unmap hlast hunmap).unmap a.drop hlast hdrop

/-- A `write` that returned is the same three calls; it changes the memory in between. -/
theorem writeSized_acpiRun {a : AccessAnswers} {p : UInt64} {bytes : List UInt8}
    {c : DriverContext} (run : AcpiRun table mem ops t)
    (call : writeSized a p bytes t.ctx = (.ret ⟨⟩, c)) :
    AcpiRun table mem
      (ops ++ [.map p (UInt64.ofNat bytes.length)] ++ [.unmap t.returned.length] ++
        [.unmap t.returned.length])
      ⟨c, t.returned ++ [mappingOf t.ctx p (UInt64.ofNat bytes.length)],
        t.unmapped ++ granted a.unmap t.returned.length ++ granted a.drop t.returned.length⟩ := by
  obtain ⟨m, c₁, hmap, hrest⟩ := bind_eq_ret.1 call
  obtain ⟨_, c₂, hstore, hrest'⟩ := bind_eq_ret.1 hrest
  obtain ⟨_, c₃, hunmap, hdrop⟩ := bind_eq_ret.1 hrest'
  obtain ⟨-, addresses, -, rfl⟩ := storeValue_ret hstore
  obtain ⟨rfl, -⟩ := mapPhysicalRegion_ret hmap
  have hlast : (t.returned ++ [mappingOf t.ctx p (UInt64.ofNat bytes.length)])[t.returned.length]? =
      some _ := List.getElem?_concat_length
  exact (((run.map hmap).touch _).unmap a.unmap hlast hunmap).unmap a.drop hlast hdrop

theorem pos_ofNat {n : ℕ} (hn : 0 < n) (hn' : n < 2 ^ 64) :
    0 < UInt64.ofNat n ∧ (UInt64.ofNat n).toNat = n := by
  have hsize : (UInt64.ofNat n).toNat = n := by rw [UInt64.toNat_ofNat', Nat.mod_eq_of_lt hn']
  refine ⟨?_, hsize⟩
  rw [UInt64.lt_iff_toNat_lt, hsize]
  exact hn

/-- The bytes of a region just mapped are those at its physical address. -/
theorem AcpiInv.physical_mapped {n : ℕ} {p : UInt64} (h : AcpiInv table ops t) (hn : 0 < n)
    (hn' : n < 2 ^ 64)
    (hfit : t.ctx.vaAllocator.toNat + spanBytes p (UInt64.ofNat n) < 2 ^ 64) :
    (t.ctx.mapped p (UInt64.ofNat n)).physical
        (mappingOf t.ctx p (UInt64.ofNat n)).virtualStart n =
      some ((List.range n).map (p.toNat + ·)) := by
  obtain ⟨hva, hbase⟩ := h.aligned
  obtain ⟨hpos, hsize⟩ := pos_ofNat hn hn'
  apply physical_eq
  intro i hi
  exact (sound_mappingOf hva hbase hfit hpos).translate
    (fun x hx => mapped_of_mem hva hfit hpos hx) (hi.trans_eq hsize.symm)

end Steps

end GlendaDrivers
