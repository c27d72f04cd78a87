import GlendaDrivers.Platform.AcpiMemory
import GlendaDrivers.Platform.Aml

/-!
# The tables of the ACPI namespace (`platform/acpi/src/probe/aml.rs`)

The driver maps the DSDT and every SSDT, and gives their bytes to the interpreter.  The `aml` crate,
which is the interpreter, is a parameter; it uses the memory through the handler.

* `AmlInterpreter`: what the driver uses of the crate;
* `loadTable`, `loadNamespace`, `namespaceDevices`: the loading, and the devices that are found;
* `loadTable_run`: the interpreter is given the whole table, from its header on;
* `IsSdt`, `Refuses`: an interpreter of AML without headers;
* `namespaceDevices_refused`: with such an interpreter no device is found.
-/

namespace GlendaDrivers

open Prog MemoryTrace

/-- `AmlTable` (`acpi` crate): where a table is, and the length in its header. -/
structure AmlTable where
  physAddress : UInt64
  length : UInt32
  deriving DecidableEq

/-- What the driver uses of `AmlContext`: `parse_table`, `initialize_objects`, and the devices of
the namespace with the values of their `_HID` and `_CRS`. -/
structure AmlInterpreter where
  Context : Type
  AmlError : Type
  new : Context
  parseTable : List UInt8 → Context → Prog DriverContext (Except AmlError Unit × Context)
  initializeObjects : Context → Prog DriverContext (Except AmlError Unit × Context)
  devices : Context → Prog DriverContext (List Aml.Device)

namespace Aml

section Load

variable (I : AmlInterpreter) (kernel : ℕ → AccessAnswers)

/-- Map a table and parse it.  An error is logged; the drop of the mapping unmaps the table. -/
def loadTable (answers : AccessAnswers) (table : AmlTable) (context : I.Context) :
    Prog DriverContext I.Context := do
  let mapping ← mapPhysicalRegion answers.frame answers.map table.physAddress
    table.length.toUInt64
  let tableBytes ← load mapping.virtualStart mapping.regionLength.toNat
  let (_, context) ← I.parseTable tableBytes context
  unmapPhysicalRegion answers.drop mapping
  return context

/-- The first part of `parse`: the DSDT, the SSDTs, the initialization.  The kernel's answers are
numbered by the tables. -/
def loadNamespace (dsdt : Option AmlTable) (ssdts : List AmlTable) :
    Prog DriverContext I.Context := do
  let context ← match dsdt with
    | some dsdt => loadTable I (kernel 0) dsdt I.new
    | none => pure I.new
  let context ← (ssdts.zipIdx 1).foldlM
    (fun context ssdt => loadTable I (kernel ssdt.2) ssdt.1 context) context
  let (_, context) ← I.initializeObjects context
  return context

/-- The devices of the namespace that was loaded. -/
def namespaceDevices (dsdt : Option AmlTable) (ssdts : List AmlTable) :
    Prog DriverContext (List Device) := do
  let context ← loadNamespace I kernel dsdt ssdts
  I.devices context

/-- `parse`. -/
def parse (dsdt : Option AmlTable) (ssdts : List AmlTable) (devices : List DeviceDescNode) :
    Prog DriverContext (List DeviceDescNode) := do
  let found ← namespaceDevices I kernel dsdt ssdts
  ofOutcome (parseDevices found devices)

/-- The tables, with their numbers. -/
def numbered (dsdt : Option AmlTable) (ssdts : List AmlTable) : List (AmlTable × ℕ) :=
  dsdt.toList.zipIdx ++ ssdts.zipIdx 1

/-- All tables are loaded in the same way. -/
theorem loadNamespace_eq (dsdt : Option AmlTable) (ssdts : List AmlTable) :
    loadNamespace I kernel dsdt ssdts = (do
      let context ← (numbered dsdt ssdts).foldlM
        (fun context t => loadTable I (kernel t.2) t.1 context) I.new
      let r ← I.initializeObjects context
      return r.2) := by
  unfold loadNamespace numbered
  rw [List.foldlM_append]
  cases dsdt with
  | none => rfl
  | some dsdt => simp only [Option.toList_some, List.zipIdx_singleton, List.foldlM_cons,
      List.foldlM_nil, bind_assoc, pure_bind]

end Load

/-! ### The bytes of a table -/

section Bytes

variable {I : AmlInterpreter} {a : AccessAnswers} {tbl : AmlTable} {table : PageTable}
  {ops : List AcpiOp} {t : AcpiTrace}

/-- The interpreter is given all bytes that the table has in the physical memory. -/
theorem loadTable_run (context : I.Context) (h : AcpiInv table ops t) (ha : a.Granted)
    (hpos : 0 < tbl.length.toUInt64)
    (hfit : t.ctx.vaAllocator.toNat + spanBytes tbl.physAddress tbl.length.toUInt64 < 2 ^ 64) :
    loadTable I a tbl context t.ctx = (do
      let r ← I.parseTable (fetch t.ctx.mem tbl.physAddress.toNat tbl.length.toNat) context
      unmapPhysicalRegion a.drop (mappingOf t.ctx tbl.physAddress tbl.length.toUInt64)
      return r.2) (t.ctx.mapped tbl.physAddress tbl.length.toUInt64) := by
  have hpos' : 0 < tbl.length.toNat := by
    rw [UInt64.lt_iff_toNat_lt, UInt32.toNat_toUInt64] at hpos
    exact hpos
  have hlen : tbl.length.toUInt64 = UInt64.ofNat tbl.length.toNat := by simp
  have hlt : tbl.length.toNat < 2 ^ 64 := tbl.length.toNat_lt.trans (by norm_num)
  have hmap := @mapPhysicalRegion_run _ tbl.physAddress tbl.length.toUInt64
    (h.nonNull hfit hpos)
  have hphysical := h.physical_mapped hpos' hlt (hlen ▸ hfit)
  rw [← hlen] at hphysical
  have hload : load (mappingOf t.ctx tbl.physAddress tbl.length.toUInt64).virtualStart
      (mappingOf t.ctx tbl.physAddress tbl.length.toUInt64).regionLength.toNat
      (t.ctx.mapped tbl.physAddress tbl.length.toUInt64) = _ := load_run hphysical
  unfold loadTable
  rw [ha.1, ha.2, bind_of_ret hmap, bind_of_ret hload]
  rfl

end Bytes

/-! ### Headers -/

/-- The bytes of a whole table: the signature of a DSDT or of an SSDT is the start of a header. -/
def IsSdt (bytes : List UInt8) : Prop :=
  36 ≤ bytes.length ∧
    (bytes.take 4 = [0x44, 0x53, 0x44, 0x54] ∨ bytes.take 4 = [0x53, 0x53, 0x44, 0x54])

/-- An interpreter of AML without headers: as long as the namespace has no devices, a stream that
begins with a header is an error and adds none. -/
structure Refuses (I : AmlInterpreter) (barren : I.Context → Prop) : Prop where
  fresh : barren I.new
  header : ∀ (bytes : List UInt8) (context : I.Context), IsSdt bytes → barren context →
    ∃ e context', I.parseTable bytes context = pure (.error e, context') ∧ barren context'
  objects : ∀ context, barren context →
    ∃ r context', I.initializeObjects context = pure (r, context') ∧ barren context'
  devices : ∀ context, barren context → I.devices context = pure []

/-- The region that a table takes. -/
def tableRequest (tbl : AmlTable) : UInt64 × UInt64 := (tbl.physAddress, tbl.length.toUInt64)

section Refused

variable {I : AmlInterpreter} {barren : I.Context → Prop} (hI : Refuses I barren)
  (kernel : ℕ → AccessAnswers) {table : PageTable} {mem : ℕ → UInt8} {ops : List AcpiOp}
  {t : AcpiTrace}

include hI in
/-- A table with its header is not accepted; it is mapped and unmapped. -/
theorem loadTable_refused {a : AccessAnswers} {tbl : AmlTable} {context : I.Context}
    (run : AcpiRun table mem ops t) (hbarren : barren context)
    (ha : Affordable (requested ops ++ [tableRequest tbl])) (hgranted : a.Granted)
    (hsdt : IsSdt (fetch t.ctx.mem tbl.physAddress.toNat tbl.length.toNat)) :
    ∃ context' ops' t', loadTable I a tbl context t.ctx = (.ret context', t'.ctx) ∧
      barren context' ∧ AcpiRun table mem ops' t' ∧
      requested ops' = requested ops ++ [tableRequest tbl] ∧ t'.ctx.mem = t.ctx.mem := by
  have hinv := run.inv ha.of_append.pos ha.of_append.bytes ha.of_append.slots
  have hpos : 0 < tbl.length.toUInt64 :=
    ha.pos (tableRequest tbl) (List.mem_append_right _ (List.mem_singleton_self _))
  have hfit : t.ctx.vaAllocator.toNat + spanBytes tbl.physAddress tbl.length.toUInt64 < 2 ^ 64 := by
    have hbytes := ha.bytes
    rw [tableRequest, totalBytes_append] at hbytes
    rw [hinv.va]
    omega
  obtain ⟨e, context', hparse, hbarren'⟩ := hI.header _ context hsdt hbarren
  have hload := loadTable_run context hinv hgranted hpos hfit
  rw [hparse] at hload
  have hmap := run.map (@mapPhysicalRegion_run _ tbl.physAddress tbl.length.toUInt64
    (hinv.nonNull hfit hpos))
  have hlast : (t.returned ++ [mappingOf t.ctx tbl.physAddress tbl.length.toUInt64])[
      t.returned.length]? = some _ := List.getElem?_concat_length
  have hrun := hmap.unmap a.drop hlast (unmapPhysicalRegion_run _ _ _)
  refine ⟨context', _, _, ?_, hbarren', hrun, ?_, ?_⟩
  · rw [hload, pure_bind, bind_of_ret (unmapPhysicalRegion_run _ _ _)]
    rfl
  · rw [requested_unmap, requested_map]
    rfl
  · cases a.drop <;> rfl

include hI in
/-- No table is accepted. -/
theorem loadTables_refused (tables : List (AmlTable × ℕ)) {context : I.Context}
    (run : AcpiRun table mem ops t) (hbarren : barren context)
    (ha : Affordable (requested ops ++ tables.map fun n => tableRequest n.1))
    (hgranted : ∀ n ∈ tables, (kernel n.2).Granted)
    (hsdt : ∀ n ∈ tables, IsSdt (fetch t.ctx.mem n.1.physAddress.toNat n.1.length.toNat)) :
    ∃ context' c', tables.foldlM (fun context n => loadTable I (kernel n.2) n.1 context) context
      t.ctx = (.ret context', c') ∧ barren context' := by
  induction tables generalizing ops t context with
  | nil => exact ⟨context, t.ctx, rfl, hbarren⟩
  | cons n tables ih =>
    rw [List.map_cons, List.append_cons] at ha
    obtain ⟨hn, hgranted⟩ := List.forall_mem_cons.1 hgranted
    obtain ⟨hsdt', hsdt⟩ := List.forall_mem_cons.1 hsdt
    obtain ⟨context', ops', t', hload, hbarren', hrun, hreq, hmem⟩ :=
      loadTable_refused hI run hbarren ha.of_append hn hsdt'
    rw [← hreq] at ha
    rw [← hmem] at hsdt
    obtain ⟨context'', c', hrest, hbarren''⟩ := ih hrun hbarren' ha hgranted hsdt
    refine ⟨context'', c', ?_, hbarren''⟩
    rw [List.foldlM_cons, bind_of_ret hload, hrest]

include hI in
/-- No device is found. -/
theorem namespaceDevices_refused {dsdt : Option AmlTable} {ssdts : List AmlTable}
    (run : AcpiRun table mem ops t)
    (ha : Affordable (requested ops ++ (dsdt.toList ++ ssdts).map tableRequest))
    (hgranted : ∀ k, (kernel k).Granted)
    (hsdt : ∀ tbl ∈ dsdt.toList ++ ssdts,
      IsSdt (fetch t.ctx.mem tbl.physAddress.toNat tbl.length.toNat)) :
    ∃ c', namespaceDevices I kernel dsdt ssdts t.ctx = (.ret [], c') := by
  have htables : (numbered dsdt ssdts).map Prod.fst = dsdt.toList ++ ssdts := by
    rw [numbered, List.map_append, List.zipIdx_map_fst, List.zipIdx_map_fst]
  rw [← htables, List.map_map] at ha
  rw [← htables] at hsdt
  obtain ⟨context, c', hload, hbarren⟩ := loadTables_refused hI kernel
    (numbered dsdt ssdts) run hI.fresh ha (fun n _ => hgranted n.2)
    fun n hn => hsdt n.1 (List.mem_map_of_mem hn)
  obtain ⟨r, context', hobjects, hbarren'⟩ := hI.objects context hbarren
  refine ⟨c', ?_⟩
  unfold namespaceDevices
  rw [loadNamespace_eq, bind_assoc, bind_of_ret hload, hobjects, pure_bind, pure_bind,
    hI.devices context' hbarren']
  rfl

end Refused

end Aml

end GlendaDrivers
