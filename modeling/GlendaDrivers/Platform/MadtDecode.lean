import GlendaDrivers.Lib.Hex
import GlendaDrivers.Platform.MadtWalk

/-!
# Decoding a RISC-V MADT

* `Entry`: the entries of a table, with the layouts of the ACPI specification;
* `IsTable`: a table with given entries;
* `parseMadt_run`: the nodes that are pushed for it;
* `Describes`: what a node has to say about an interrupt controller;
* `madt_decode`: when the nodes say it.
-/

namespace GlendaDrivers.Madt

open Prog

/-! ### Tables -/

/-- An APLIC structure. -/
structure Aplic where
  version : UInt8
  id : UInt8
  flags : UInt32
  hardwareId : UInt64
  idcCount : UInt16
  sourceCount : UInt16
  gsiBase : UInt32
  baseAddr : UInt64
  size : UInt32

/-- Type, length, and the fields of the structure. -/
def Aplic.fields (a : Aplic) : List (ℕ × ℕ) :=
  [(1, 26), (1, 36), (1, a.version.toNat), (1, a.id.toNat), (4, a.flags.toNat),
    (8, a.hardwareId.toNat), (2, a.idcCount.toNat), (2, a.sourceCount.toNat), (4, a.gsiBase.toNat),
    (8, a.baseAddr.toNat), (4, a.size.toNat)]

/-- A PLIC structure. -/
structure Plic where
  version : UInt8
  id : UInt8
  hardwareId : UInt64
  sourceCount : UInt16
  maxPriority : UInt16
  flags : UInt32
  size : UInt32
  baseAddr : UInt64
  gsiBase : UInt32

/-- Type, length, and the fields of the structure. -/
def Plic.fields (p : Plic) : List (ℕ × ℕ) :=
  [(1, 27), (1, 36), (1, p.version.toNat), (1, p.id.toNat), (8, p.hardwareId.toNat),
    (2, p.sourceCount.toNat), (2, p.maxPriority.toNat), (4, p.flags.toNat), (4, p.size.toNat),
    (8, p.baseAddr.toNat), (4, p.gsiBase.toNat)]

/-- An entry of a table. -/
inductive Entry
  | rintc (body : List UInt8) (h : body.length = 34)
  | imsic (body : List UInt8) (h : body.length = 14)
  | aplic (a : Aplic)
  | plic (p : Plic)
  | unknown (type : UInt8) (body : List UInt8) (ht : type < 24 ∨ 27 < type)
      (h : body.length + 2 < 256)

namespace Entry

def encode : Entry → List UInt8
  | rintc body _ => 24 :: 36 :: body
  | imsic body _ => 25 :: 16 :: body
  | aplic a => Packed.encode a.fields
  | plic p => Packed.encode p.fields
  | unknown type body _ _ => type :: UInt8.ofNat (body.length + 2) :: body

/-- The nodes that are pushed for an entry. -/
def nodes : Entry → List DeviceDescNode
  | aplic a => [Riscv.aplicNode (Packed.encode a.fields)]
  | plic p => [Riscv.plicNode (Packed.encode p.fields)]
  | _ => []

end Entry

/-- The memory holds a table with the given entries. -/
structure IsTable (mem : ℕ → UInt8) (es : List Entry) : Prop where
  length : length mem = madt.sum + (es.flatMap Entry.encode).length
  body : bytes mem madt.sum (es.flatMap Entry.encode).length = es.flatMap Entry.encode

/-! ### The walk -/

section Run

variable {mem : ℕ → UInt8} {offset n : ℕ} {s : State} {es : List Entry}

/-- Type and length are the first bytes of an entry, and its nodes are those of its bytes. -/
theorem entry_found (e : Entry) (h : bytes mem offset e.encode.length = e.encode) :
    (mem (offset + 1)).toNat = e.encode.length ∧ nodesAt mem .riscv offset = e.nodes := by
  have hbytes : ∀ k (hk : k < e.encode.length), mem (offset + k) = e.encode[k] :=
    fun k hk => bytes_getElem h hk
  have hnodes : nodesAt mem .riscv offset =
      if mem offset = 26 then [Riscv.aplicNode (bytes mem offset 36)]
      else if mem offset = 27 then [Riscv.plicNode (bytes mem offset 36)]
      else [] := rfl
  rw [hnodes]
  cases e with
  | rintc body hb =>
    have h0 : mem offset = 24 := hbytes 0 (by simp [Entry.encode])
    have h1 : mem (offset + 1) = 36 := hbytes 1 (by simp [Entry.encode])
    rw [h0, h1]
    refine ⟨?_, rfl⟩
    simp [Entry.encode, hb]
  | imsic body hb =>
    have h0 : mem offset = 25 := hbytes 0 (by simp [Entry.encode])
    have h1 : mem (offset + 1) = 16 := hbytes 1 (by simp [Entry.encode])
    rw [h0, h1]
    refine ⟨?_, rfl⟩
    simp [Entry.encode, hb]
  | aplic a =>
    have hlen : (Entry.aplic a).encode.length = 36 := by simp [Entry.encode, Aplic.fields]
    have h0 : mem offset = 26 := hbytes 0 (by rw [hlen]; norm_num)
    have h1 : mem (offset + 1) = 36 := hbytes 1 (by rw [hlen]; norm_num)
    rw [hlen] at h
    rw [h0, h1, h, hlen]
    exact ⟨rfl, rfl⟩
  | plic p =>
    have hlen : (Entry.plic p).encode.length = 36 := by simp [Entry.encode, Plic.fields]
    have h0 : mem offset = 27 := hbytes 0 (by rw [hlen]; norm_num)
    have h1 : mem (offset + 1) = 36 := hbytes 1 (by rw [hlen]; norm_num)
    rw [hlen] at h
    rw [h0, h1, h, hlen]
    exact ⟨rfl, rfl⟩
  | unknown type body ht hb =>
    have h0 : mem offset = type := hbytes 0 (by simp [Entry.encode])
    have h1 : mem (offset + 1) = UInt8.ofNat (body.length + 2) :=
      hbytes 1 (by simp [Entry.encode])
    have h26 : type ≠ 26 := by
      rintro rfl
      exact absurd ht (by decide)
    have h27 : type ≠ 27 := by
      rintro rfl
      exact absurd ht (by decide)
    rw [h0, h1, if_neg h26, if_neg h27, UInt8.toNat_ofNat', Nat.mod_eq_of_lt hb]
    exact ⟨rfl, rfl⟩

theorem two_le_length_encode (e : Entry) : 2 ≤ e.encode.length := by
  cases e <;> simp [Entry.encode, Aplic.fields, Plic.fields]

/-- The walk from the entries `es` on. -/
theorem loop_entries (hlen : length mem = offset + (es.flatMap Entry.encode).length)
    (h : bytes mem offset (es.flatMap Entry.encode).length = es.flatMap Entry.encode)
    (hn : es.length < n) : ∃ s', loop (entryStep mem (Riscv.entry mem)) n offset s = (.ret (), s') ∧
      s'.devices = s.devices ++ es.flatMap Entry.nodes :=
  loop_list (fun e _ => entry_found e) (fun e => Nat.zero_lt_of_lt (two_le_length_encode e)) hlen h
    hn

/-- The nodes that are pushed for a table. -/
theorem parseMadt_run (h : IsTable mem es) (hn : es.length < n) (devices : List DeviceDescNode) :
    ∃ s', Riscv.parseMadt mem n ⟨devices, []⟩ = (.ret (), s') ∧
      s'.devices = devices ++ es.flatMap Entry.nodes := loop_entries h.length h.body hn

end Run

/-! ### The nodes -/

/-- What a table says about an interrupt controller. -/
structure Controller where
  kind : String
  baseAddr : UInt64
  size : UInt32
  id : UInt8
  gsiBase : UInt32

/-- The interrupt controller of an entry. -/
def Entry.controller : Entry → Option Controller
  | aplic a => some ⟨"aplic", a.baseAddr, a.size, a.id, a.gsiBase⟩
  | plic p => some ⟨"plic", p.baseAddr, p.size, p.id, p.gsiBase⟩
  | _ => none

/-- The GSI base that a node gives. -/
def gsiBaseOf (node : DeviceDescNode) (kind : String) : Option String :=
  node.nodeMeta.properties.lookup ("acpi." ++ kind ++ ".gsi_base")

/-- The node gives the base, the size and the id of a controller, and no other GSI base. -/
structure Agrees (node : DeviceDescNode) (c : Controller) : Prop where
  mmio : node.desc.mmio = [⟨c.baseAddr, c.size.toUInt64⟩]
  id : node.nodeMeta.properties.lookup ("acpi." ++ c.kind ++ ".id") = some (Nat.repr c.id.toNat)
  gsiBase : ∀ v ∈ gsiBaseOf node c.kind, v = Nat.repr c.gsiBase.toNat

/-- The node gives the base, the size, the id and the GSI base of a controller. -/
structure Describes (node : DeviceDescNode) (c : Controller) : Prop where
  mmio : node.desc.mmio = [⟨c.baseAddr, c.size.toUInt64⟩]
  id : node.nodeMeta.properties.lookup ("acpi." ++ c.kind ++ ".id") = some (Nat.repr c.id.toNat)
  gsiBase : gsiBaseOf node c.kind = some (Nat.repr c.gsiBase.toNat)

/-- The fields of a PLIC are those that are read with the base address at offset 14, the size at
22 and the GSI base at 26. -/
structure Plic.Coincides (p : Plic) : Prop where
  baseAddr : p.baseAddr.toNat =
    p.maxPriority.toNat + 2 ^ 16 * p.flags.toNat + 2 ^ 48 * (p.size.toNat % 2 ^ 16)
  size : p.size.toNat = p.size.toNat / 2 ^ 16 + 2 ^ 16 * (p.baseAddr.toNat % 2 ^ 16)
  gsiBase : p.gsiBase.toNat = p.baseAddr.toNat / 2 ^ 16 % 2 ^ 32

section Nodes

variable {a : Aplic} {p : Plic} {e : Entry} {c : Controller} {node : DeviceDescNode}

theorem region_eq_iff {m n : ℕ} (hm : m < 2 ^ 64) (hn : n < 2 ^ 32) {b : UInt64} {z : UInt32} :
    [MMIORegion.mk (UInt64.ofNat m) (UInt64.ofNat n)] = [⟨b, z.toUInt64⟩] ↔
      b.toNat = m ∧ z.toNat = n := by
  rw [List.cons_eq_cons, MMIORegion.mk.injEq, ← UInt64.toNat_inj, ← UInt64.toNat_inj,
    UInt64.toNat_ofNat', UInt64.toNat_ofNat', UInt32.toNat_toUInt64, Nat.mod_eq_of_lt hm,
    Nat.mod_eq_of_lt (by omega)]
  constructor
  · rintro ⟨⟨h1, h2⟩, -⟩
    exact ⟨h1.symm, h2.symm⟩
  · rintro ⟨h1, h2⟩
    exact ⟨⟨h1.symm, h2.symm⟩, rfl⟩

/-- The structure that an APLIC is cast to has the layout of the specification. -/
theorem aplic_fields (a : Aplic) :
    Packed.field Riscv.aplicEntry 2 (Packed.encode a.fields) = a.id.toNat ∧
    Packed.field Riscv.aplicEntry 8 (Packed.encode a.fields) = a.baseAddr.toNat ∧
    Packed.field Riscv.aplicEntry 9 (Packed.encode a.fields) = a.size.toNat := by
  have h : ∀ {k n v : ℕ}, a.fields[k]? = some (n, v) → v < 256 ^ n →
      Packed.field (a.fields.map Prod.fst) k (Packed.encode a.fields) = v := by
    intro k n v hk hv
    have hf := Packed.field_encode hk hv []
    rwa [List.append_nil] at hf
  exact ⟨h (k := 3) rfl a.id.toNat_lt, h (k := 9) rfl a.baseAddr.toNat_lt,
    h (k := 10) rfl a.size.toNat_lt⟩

/-- The structure that a PLIC is cast to has another layout. -/
theorem plic_fields (p : Plic) :
    Packed.field Riscv.plicEntry 2 (Packed.encode p.fields) = p.id.toNat ∧
    Packed.field Riscv.plicEntry 5 (Packed.encode p.fields) =
      p.maxPriority.toNat + 2 ^ 16 * p.flags.toNat + 2 ^ 48 * (p.size.toNat % 2 ^ 16) ∧
    Packed.field Riscv.plicEntry 6 (Packed.encode p.fields) =
      p.size.toNat / 2 ^ 16 + 2 ^ 16 * (p.baseAddr.toNat % 2 ^ 16) ∧
    Packed.field Riscv.plicEntry 7 (Packed.encode p.fields) =
      p.baseAddr.toNat / 2 ^ 16 % 2 ^ 32 := by
  have hid : Packed.field (p.fields.map Prod.fst) 3 (Packed.encode p.fields ++ []) = p.id.toNat :=
    Packed.field_encode rfl p.id.toNat_lt []
  rw [List.append_nil] at hid
  -- the record from its seventh, ninth and tenth fields on
  have hdrop : ∀ k, k ≤ 11 → Bytes.ofLittle ((Packed.encode p.fields).drop
      (Packed.offset (p.fields.map Prod.fst) k)) =
        Bytes.ofLittle (Packed.encode (p.fields.drop k) ++ []) := by
    intro k hk
    have h := Packed.drop_encode p.fields k []
    rw [List.append_nil, if_pos (show k ≤ p.fields.length from hk)] at h
    rw [h]
  have hflags := p.flags.toNat_lt
  have hsize := p.size.toNat_lt
  have hbase := p.baseAddr.toNat_lt
  have hprio := p.maxPriority.toNat_lt
  have h9 : Bytes.ofLittle ((Packed.encode p.fields).drop 24) = _ := hdrop 9 (by norm_num)
  have h8 : Bytes.ofLittle ((Packed.encode p.fields).drop 20) = _ := hdrop 8 (by norm_num)
  have h6 : Bytes.ofLittle ((Packed.encode p.fields).drop 14) = _ := hdrop 6 (by norm_num)
  simp only [Plic.fields, List.drop_succ_cons, List.drop_zero] at h6 h8 h9
  rw [Packed.ofLittle_encode_cons hbase] at h9
  rw [Packed.ofLittle_encode_cons hsize, Packed.ofLittle_encode_cons hbase] at h8
  rw [Packed.ofLittle_encode_cons hprio, Packed.ofLittle_encode_cons hflags,
    Packed.ofLittle_encode_cons hsize] at h6
  refine ⟨hid, ?_, ?_, ?_⟩
  · show Packed.number _ (14 + 0) 8 = _
    rw [Packed.number_add]
    simp only [Plic.fields]
    rw [h6]
    omega
  · show Packed.number _ (20 + 2) 4 = _
    rw [Packed.number_add]
    simp only [Plic.fields]
    rw [h8]
    omega
  · show Packed.number _ (24 + 2) 4 = _
    rw [Packed.number_add]
    simp only [Plic.fields]
    rw [h9]
    omega

/-- What the node of an APLIC gives. -/
theorem aplicNode_lookup (b : List UInt8) :
    (Riscv.aplicNode b).nodeMeta.properties.lookup ("acpi." ++ "aplic" ++ ".id") =
      some (Nat.repr (Packed.field Riscv.aplicEntry 2 b)) ∧
    gsiBaseOf (Riscv.aplicNode b) "aplic" = none := by
  constructor
  · rfl
  · rfl

/-- What the node of a PLIC gives. -/
theorem plicNode_lookup (b : List UInt8) :
    (Riscv.plicNode b).nodeMeta.properties.lookup ("acpi." ++ "plic" ++ ".id") =
      some (Nat.repr (Packed.field Riscv.plicEntry 2 b)) ∧
    gsiBaseOf (Riscv.plicNode b) "plic" =
      some (Nat.repr (Packed.field Riscv.plicEntry 7 b)) := by
  constructor
  · rfl
  · rfl

/-- The node of an APLIC gives base, size and id, but no GSI base. -/
theorem aplic_agrees (a : Aplic) {c : Controller} (hc : (Entry.aplic a).controller = some c) :
    Agrees (Riscv.aplicNode (Packed.encode a.fields)) c ∧
      ¬ Describes (Riscv.aplicNode (Packed.encode a.fields)) c := by
  obtain rfl := Option.some.inj hc
  obtain ⟨hid, hbase, hsize⟩ := aplic_fields a
  obtain ⟨hlookup, hnone⟩ := aplicNode_lookup (Packed.encode a.fields)
  refine ⟨⟨?_, ?_, ?_⟩, fun h => ?_⟩
  · show [MMIORegion.mk (UInt64.ofNat (Packed.field Riscv.aplicEntry 8 _))
      (UInt64.ofNat (Packed.field Riscv.aplicEntry 9 _))] = _
    rw [hbase, hsize]
    exact (region_eq_iff a.baseAddr.toNat_lt a.size.toNat_lt).2 ⟨rfl, rfl⟩
  · rw [hlookup, hid]
  · rw [hnone]
    simp
  · have hgsi := h.gsiBase
    rw [hnone] at hgsi
    exact nomatch hgsi

/-- The node of a PLIC gives what is read at other offsets. -/
theorem plic_agrees_iff (p : Plic) {c : Controller} (hc : (Entry.plic p).controller = some c) :
    (Agrees (Riscv.plicNode (Packed.encode p.fields)) c ↔ p.Coincides) ∧
      (Describes (Riscv.plicNode (Packed.encode p.fields)) c ↔ p.Coincides) := by
  obtain rfl := Option.some.inj hc
  obtain ⟨hid, hbase, hsize, hgsi⟩ := plic_fields p
  obtain ⟨hlookup, hsome⟩ := plicNode_lookup (Packed.encode p.fields)
  rw [hid] at hlookup
  rw [hgsi] at hsome
  have hregion : (Riscv.plicNode (Packed.encode p.fields)).desc.mmio =
      [⟨p.baseAddr, p.size.toUInt64⟩] ↔ p.baseAddr.toNat =
        p.maxPriority.toNat + 2 ^ 16 * p.flags.toNat + 2 ^ 48 * (p.size.toNat % 2 ^ 16) ∧
      p.size.toNat = p.size.toNat / 2 ^ 16 + 2 ^ 16 * (p.baseAddr.toNat % 2 ^ 16) := by
    have hflags := p.flags.toNat_lt
    have hprio := p.maxPriority.toNat_lt
    have hlt := p.size.toNat_lt
    show [MMIORegion.mk (UInt64.ofNat (Packed.field Riscv.plicEntry 5 _))
      (UInt64.ofNat (Packed.field Riscv.plicEntry 6 _))] = _ ↔ _
    rw [hbase, hsize]
    exact region_eq_iff (by omega) (by omega)
  have hrepr : Nat.repr (p.baseAddr.toNat / 2 ^ 16 % 2 ^ 32) = Nat.repr p.gsiBase.toNat ↔
      p.gsiBase.toNat = p.baseAddr.toNat / 2 ^ 16 % 2 ^ 32 :=
    ⟨fun h => (Hex.repr_inj h).symm, fun h => by rw [h]⟩
  constructor
  · constructor
    · rintro ⟨hmmio, -, hv⟩
      obtain ⟨h1, h2⟩ := hregion.1 hmmio
      exact ⟨h1, h2, hrepr.1 (hv _ hsome)⟩
    · rintro ⟨h1, h2, h3⟩
      refine ⟨hregion.2 ⟨h1, h2⟩, hlookup, fun v hv => ?_⟩
      obtain rfl := Option.some.inj (hsome.symm.trans hv)
      exact hrepr.2 h3
  · constructor
    · rintro ⟨hmmio, -, hv⟩
      obtain ⟨h1, h2⟩ := hregion.1 hmmio
      exact ⟨h1, h2, hrepr.1 (Option.some.inj (hsome.symm.trans hv))⟩
    · rintro ⟨h1, h2, h3⟩
      exact ⟨hregion.2 ⟨h1, h2⟩, hlookup, hsome.trans (congrArg some (hrepr.2 h3))⟩

end Nodes

/-! ### The table -/

/-- The nodes of a list of entries, one by one. -/
theorem forall₂_nodes_iff {R : DeviceDescNode → Controller → Prop} {es : List Entry} :
    List.Forall₂ R (es.flatMap Entry.nodes) (es.filterMap Entry.controller) ↔
      ∀ e ∈ es, List.Forall₂ R e.nodes e.controller.toList := by
  induction es with
  | nil => simp
  | cons e es ih =>
    rw [List.forall_mem_cons, ← ih, List.filterMap_cons]
    cases e <;> simp [Entry.nodes, Entry.controller]

/-- **Decoding.**  For a table of any entries one node is pushed for each APLIC and each PLIC.  The
nodes describe the controllers in the order of the table iff there is no APLIC and the fields of
every PLIC coincide with those that are read; what they do say is right iff the latter holds. -/
theorem madt_decode {mem : ℕ → UInt8} {es : List Entry} (h : IsTable mem es)
    (devices : List DeviceDescNode) :
    ∃ nodes : List DeviceDescNode,
      (∀ fuel, es.length < fuel → ∃ s', Riscv.parseMadt mem fuel ⟨devices, []⟩ = (.ret (), s') ∧
        s'.devices = devices ++ nodes) ∧
      nodes.length = (es.filterMap Entry.controller).length ∧
      (List.Forall₂ Describes nodes (es.filterMap Entry.controller) ↔
        (∀ a, Entry.aplic a ∉ es) ∧ ∀ p, Entry.plic p ∈ es → p.Coincides) ∧
      (List.Forall₂ Agrees nodes (es.filterMap Entry.controller) ↔
        ∀ p, Entry.plic p ∈ es → p.Coincides) := by
  refine ⟨es.flatMap Entry.nodes, fun fuel hn => parseMadt_run h hn devices, ?_, ?_, ?_⟩
  · have hall : List.Forall₂ (fun _ _ => True) (es.flatMap Entry.nodes)
        (es.filterMap Entry.controller) := by
      refine forall₂_nodes_iff.2 fun e _ => ?_
      cases e <;> simp [Entry.nodes, Entry.controller]
    exact hall.length_eq
  · rw [forall₂_nodes_iff]
    constructor
    · intro hall
      refine ⟨fun a ha => ?_, fun p hp => ?_⟩
      · obtain ⟨hd, -⟩ := List.forall₂_cons.1 (hall _ ha)
        exact (aplic_agrees a rfl).2 hd
      · obtain ⟨hd, -⟩ := List.forall₂_cons.1 (hall _ hp)
        exact (plic_agrees_iff p rfl).2.1 hd
    · rintro ⟨haplic, hplic⟩ e he
      cases e with
      | aplic a => exact absurd he (haplic a)
      | plic p => exact .cons ((plic_agrees_iff p rfl).2.2 (hplic p he)) .nil
      | rintc => exact .nil
      | imsic => exact .nil
      | unknown => exact .nil
  · rw [forall₂_nodes_iff]
    constructor
    · intro hall p hp
      obtain ⟨hd, -⟩ := List.forall₂_cons.1 (hall _ hp)
      exact (plic_agrees_iff p rfl).1.1 hd
    · intro hplic e he
      cases e with
      | aplic a => exact .cons (aplic_agrees a rfl).1 .nil
      | plic p => exact .cons ((plic_agrees_iff p rfl).1.2 (hplic p he)) .nil
      | rintc => exact .nil
      | imsic => exact .nil
      | unknown => exact .nil

/-- The part of a table before its entries, with nothing but the length `n`. -/
def tableHeader (n : ℕ) : List UInt8 :=
  List.replicate 4 0 ++ (Bytes.little 4 n ++ List.replicate 36 0)

/-- The memory of a table with the given entries. -/
def tableOf (es : List Entry) (i : ℕ) : UInt8 :=
  (tableHeader (madt.sum + (es.flatMap Entry.encode).length) ++
    es.flatMap Entry.encode)[i]?.getD 0

theorem isTable_tableOf {es : List Entry}
    (h : madt.sum + (es.flatMap Entry.encode).length < 2 ^ 32) : IsTable (tableOf es) es := by
  have hheader : ∀ n, (tableHeader n).length = 44 := fun n => by simp [tableHeader]
  constructor
  · have hhead : bytes (tableOf es) 0 madt.sum = _ :=
      bytes_of_list _ (o := 0) (n := 44) (by simp [hheader])
    have hlength : (tableHeader (madt.sum + (es.flatMap Entry.encode).length)).drop 4 =
        Bytes.little 4 (madt.sum + (es.flatMap Entry.encode).length) ++ List.replicate 36 0 :=
      List.drop_left' (by simp)
    rw [length, hhead, List.drop_zero, List.take_left' (hheader _)]
    show Bytes.ofLittle (List.take 4 (List.drop 4 _)) = _
    rw [hlength, List.take_left' (by simp), Bytes.ofLittle_little h]
  · have hbody : bytes (tableOf es) madt.sum (es.flatMap Entry.encode).length = _ :=
      bytes_of_list _ (o := 44) (by simp [hheader])
    rw [hbody, List.drop_left' (hheader _), List.take_length]

/-- A PLIC of 64 MiB at 0x0c000000. -/
def plicEntryOf64M : Plic := ⟨1, 0, 0, 96, 7, 0, 0x4000000, 0x0c000000, 0⟩

/-- Its node is for 1 KiB at address 7. -/
theorem plic_misread :
    IsTable (tableOf [.plic plicEntryOf64M]) [.plic plicEntryOf64M] ∧
    ∃ s', Riscv.parseMadt (tableOf [.plic plicEntryOf64M]) 2 ⟨[], []⟩ = (.ret (), s') ∧
      s'.devices.map (·.desc.mmio) = [[⟨7, 0x400⟩]] ∧
      ¬ List.Forall₂ Describes s'.devices [⟨"plic", 0x0c000000, 0x4000000, 0, 0⟩] := by
  have htable : IsTable (tableOf [.plic plicEntryOf64M]) [.plic plicEntryOf64M] :=
    isTable_tableOf (by decide)
  obtain ⟨s', hrun, hdev⟩ := parseMadt_run htable (n := 2) (by decide) []
  refine ⟨htable, s', hrun, ?_, ?_⟩
  · rw [hdev]
    obtain ⟨-, hbase, hsize, -⟩ := plic_fields plicEntryOf64M
    show [[MMIORegion.mk (UInt64.ofNat (Packed.field Riscv.plicEntry 5 _))
      (UInt64.ofNat (Packed.field Riscv.plicEntry 6 _))]] = _
    rw [hbase, hsize]
    decide
  · rw [hdev]
    intro h
    obtain ⟨hd, -⟩ := List.forall₂_cons.1 h
    exact absurd ((plic_agrees_iff plicEntryOf64M rfl).2.1 hd).baseAddr (by decide)

/-- A table with a PLIC whose fields coincide, behind a hart. -/
theorem madt_decode_plic :
    let p : Plic := ⟨1, 0, 0, 96, 0, 0x1000, 0, 0x10000000, 0x1000⟩
    let es : List Entry := [.rintc (List.replicate 34 0) rfl, .plic p]
    ∃ nodes, List.Forall₂ Describes nodes [⟨"plic", 0x10000000, 0, 0, 0x1000⟩] ∧
      ∃ s', Riscv.parseMadt (tableOf es) 3 ⟨[], []⟩ = (.ret (), s') ∧ s'.devices = nodes := by
  intro p es
  have htable : IsTable (tableOf es) es := isTable_tableOf (by decide)
  obtain ⟨nodes, hrun, -, hdescribes, -⟩ := madt_decode htable []
  refine ⟨nodes, hdescribes.2 ⟨fun a ha => ?_, fun q hq => ?_⟩, hrun 3 (by decide)⟩
  · simp [es] at ha
  · obtain rfl : q = p := by simpa [es] using hq
    exact ⟨by decide, by decide, by decide⟩

end GlendaDrivers.Madt
