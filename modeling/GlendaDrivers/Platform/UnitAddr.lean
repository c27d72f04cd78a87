import GlendaDrivers.Lib.Numeral
import GlendaDrivers.Platform.AcpiProbe
import GlendaDrivers.Platform.Dtb

/-!
# Unit addresses (`platform/dtb/src/parser.rs` and the nodes of `platform/acpi`)

The driver for device trees takes the unit address of a node from its name, and the driver for ACPI
writes the addresses of its nodes into their names.

* `HexDigit`, `NamesUnit`: names with a unit address;
* `parseUnitAddr_eq_some`: what `parse_unit_addr` accepts, and what it makes of it;
* `parseUnitAddr_hexText`: names that are printed;
* `unit_addr`: that both drivers mean the same by the names of their nodes.
-/

namespace GlendaDrivers

/-! ### Names -/

/-- A hexadecimal digit, in either case. -/
def HexDigit (c : Char) (d : ℕ) : Prop :=
  d < 16 ∧ (c = Nat.digitChar d ∨ c = (Nat.digitChar d).toUpper)

/-- The name ends in `@` and the address in hexadecimal digits, with `0x` any number of times and
a `+` or not. -/
def NamesUnit (name : String) (v : UInt64) : Prop :=
  ∃ (stem : List Char) (k : ℕ) (sign digits : List Char) (ds : List ℕ),
    name.toList = stem ++ '@' :: ((List.replicate k ['0', 'x']).flatten ++ (sign ++ digits)) ∧
    (sign = [] ∨ sign = ['+']) ∧ digits ≠ [] ∧
    List.Forall₂ HexDigit digits ds ∧ Numeral.value 16 ds = v.toNat

section Parts

variable {c : Char} {d : ℕ} {s a b digits : List Char} {v : UInt64} {k : ℕ}

theorem toDigit16_eq_some : toDigit16 c = some d ↔ HexDigit c d := by
  constructor
  · intro h
    have hall : ∀ n < 128, ∀ d ∈ toDigit16 (Char.ofNat n), d < 16 ∧
        (Char.ofNat n = Nat.digitChar d ∨ Char.ofNat n = (Nat.digitChar d).toUpper) := by decide
    have hlt : c.toNat < 128 := by
      unfold toDigit16 at h
      split_ifs at h with h1 h2 h3
      · exact (show c.toNat ≤ 57 from h1.2).trans_lt (by norm_num)
      · exact (show c.toNat ≤ 102 from h2.2).trans_lt (by norm_num)
      · exact (show c.toNat ≤ 70 from h3.2).trans_lt (by norm_num)
    have hdigit := hall c.toNat hlt d (by rwa [Char.ofNat_toNat])
    rwa [Char.ofNat_toNat] at hdigit
  · rintro ⟨hd, h⟩
    have hall : ∀ d < 16, toDigit16 (Nat.digitChar d) = some d ∧
        toDigit16 (Nat.digitChar d).toUpper = some d := by decide
    rcases h with rfl | rfl
    · exact (hall d hd).1
    · exact (hall d hd).2

theorem reads_iff {ds : List ℕ} :
    Numeral.Reads toDigit16 digits ds ↔ List.Forall₂ HexDigit digits ds := by
  have hdigit : (fun c d => toDigit16 c = some d) = HexDigit :=
    funext fun _ => funext fun _ => propext toDigit16_eq_some
  unfold Numeral.Reads
  rw [hdigit]

/-- The text after the last `c`. -/
theorem rsplitOnce_append (h : c ∉ b) : rsplitOnce c (a ++ c :: b) = some (a, b) := by
  have hkeep : ∀ x ∈ b.reverse, decide (x ≠ c) = true := by
    intro x hx
    rw [decide_eq_true_iff]
    rintro rfl
    exact h (List.mem_reverse.1 hx)
  have hrev : (a ++ c :: b).reverse = b.reverse ++ c :: a.reverse := by simp
  unfold rsplitOnce
  rw [if_pos (by simp), hrev, List.dropWhile_append_of_pos hkeep,
    List.takeWhile_append_of_pos hkeep, List.dropWhile_cons_of_neg (by simp),
    List.takeWhile_cons_of_neg (by simp)]
  simp

theorem rsplitOnce_eq_some : rsplitOnce c s = some (a, b) ↔ s = a ++ c :: b ∧ c ∉ b := by
  constructor
  · intro h
    by_cases hc : c ∈ s
    · obtain ⟨b', a', hs, hb'⟩ := List.eq_append_cons_of_mem (List.mem_reverse.2 hc)
      have hs : s = a'.reverse ++ c :: b'.reverse := by
        rw [← List.reverse_reverse s, hs]
        simp
      have hb' : c ∉ b'.reverse := fun hmem => hb' (List.mem_reverse.1 hmem)
      rw [hs, rsplitOnce_append hb'] at h
      obtain ⟨rfl, rfl⟩ := Prod.mk.inj (Option.some.inj h)
      exact ⟨hs, hb'⟩
    · unfold rsplitOnce at h
      rw [if_neg hc] at h
      cases h
  · rintro ⟨rfl, h⟩
    exact rsplitOnce_append h

/-- What is trimmed off. -/
theorem trimHexPrefix_spec (s : List Char) :
    ∃ k, s = (List.replicate k ['0', 'x']).flatten ++ trimHexPrefix s := by
  fun_induction trimHexPrefix s with
  | case1 s ih =>
    obtain ⟨k, hk⟩ := ih
    refine ⟨k + 1, ?_⟩
    rw [List.replicate_succ, List.flatten_cons, List.append_assoc, ← hk]
    rfl
  | case2 s => exact ⟨0, rfl⟩

theorem trimHexPrefix_append (k : ℕ) (s : List Char) :
    trimHexPrefix ((List.replicate k ['0', 'x']).flatten ++ s) = trimHexPrefix s := by
  induction k with
  | zero => rfl
  | succ k ih =>
    rw [List.replicate_succ, List.flatten_cons, List.append_assoc, ← ih]
    rfl

/-- The digits that are read. -/
theorem foldlM_pushDigit16 :
    (digits.foldlM pushDigit16 0).map UInt64.ofNat = some v ↔
      ∃ ds, List.Forall₂ HexDigit digits ds ∧ Numeral.value 16 ds = v.toNat := by
  have hpush : pushDigit16 = Numeral.push toDigit16 16 (2 ^ 64) := rfl
  rw [hpush, Option.map_eq_some_iff]
  constructor
  · rintro ⟨n, hn, rfl⟩
    obtain ⟨ds, hds, hv, hlt⟩ := (Numeral.foldlM_push (by norm_num) (by norm_num)).1 hn
    exact ⟨ds, reads_iff.1 hds, hv.trans (by rw [UInt64.toNat_ofNat', Nat.mod_eq_of_lt hlt])⟩
  · rintro ⟨ds, hds, hv⟩
    exact ⟨v.toNat, (Numeral.foldlM_push (by norm_num) (by norm_num)).2
      ⟨ds, reads_iff.2 hds, hv, v.toNat_lt⟩, UInt64.ofNat_toNat⟩

theorem fromStrRadix16_plus (s : List Char) : fromStrRadix16 ('+' :: s) =
    if s = [] then none else (s.foldlM pushDigit16 0).map UInt64.ofNat := rfl

theorem fromStrRadix16_of_ne (h : ∀ rest, s ≠ '+' :: rest) : fromStrRadix16 s =
    if s = [] then none else (s.foldlM pushDigit16 0).map UInt64.ofNat := by
  cases s with
  | nil => rfl
  | cons c rest =>
    simp [fromStrRadix16]

/-- The numbers that `from_str_radix` reads. -/
theorem fromStrRadix16_eq_some : fromStrRadix16 s = some v ↔
    ∃ (sign digits : List Char) (ds : List ℕ), s = sign ++ digits ∧ (sign = [] ∨ sign = ['+']) ∧
      digits ≠ [] ∧ List.Forall₂ HexDigit digits ds ∧ Numeral.value 16 ds = v.toNat := by
  constructor
  · intro h
    by_cases hplus : ∃ rest, s = '+' :: rest
    · obtain ⟨rest, rfl⟩ := hplus
      rw [fromStrRadix16_plus] at h
      split_ifs at h with hne
      obtain ⟨ds, hds, hv⟩ := foldlM_pushDigit16.1 h
      exact ⟨['+'], rest, ds, rfl, .inr rfl, hne, hds, hv⟩
    · rw [fromStrRadix16_of_ne fun rest hs => hplus ⟨rest, hs⟩] at h
      split_ifs at h with hne
      obtain ⟨ds, hds, hv⟩ := foldlM_pushDigit16.1 h
      exact ⟨[], s, ds, rfl, .inl rfl, hne, hds, hv⟩
  · rintro ⟨sign, digits, ds, rfl, hsign, hne, hds, hv⟩
    have hfold := foldlM_pushDigit16.2 ⟨ds, hds, hv⟩
    rcases hsign with rfl | rfl
    · have hplus : ∀ rest, digits ≠ '+' :: rest := by
        rintro rest rfl
        obtain ⟨d, -, hd, -⟩ := List.forall₂_cons_left_iff.1 hds
        exact absurd (toDigit16_eq_some.2 hd) (by simp [toDigit16])
      rw [List.nil_append, fromStrRadix16_of_ne hplus, if_neg hne, hfold]
    · show fromStrRadix16 ('+' :: digits) = some v
      rw [fromStrRadix16_plus, if_neg hne, hfold]

/-- No character of a number is another than a sign or a digit. -/
theorem mem_of_fromStrRadix16 (h : fromStrRadix16 s = some v) {x : Char} (hx : x ∈ s) :
    x = '+' ∨ ∃ d, HexDigit x d := by
  obtain ⟨sign, digits, ds, rfl, hsign, -, hds, -⟩ := fromStrRadix16_eq_some.1 h
  rcases List.mem_append.1 hx with hx | hx
  · rcases hsign with rfl | rfl
    · cases hx
    · exact .inl (List.mem_singleton.1 hx)
  · obtain ⟨i, hi, rfl⟩ := List.getElem_of_mem hx
    exact .inr ⟨_, hds.get hi (hds.length_eq ▸ hi)⟩

/-- A number does not start with `0x`. -/
theorem trimHexPrefix_of_some (h : fromStrRadix16 s = some v) : trimHexPrefix s = s := by
  unfold trimHexPrefix
  split
  · rename_i rest
    rcases mem_of_fromStrRadix16 h (x := 'x') (by simp) with hx | ⟨d, hd⟩
    · exact absurd hx (by decide)
    · exact absurd (toDigit16_eq_some.2 hd) (by simp [toDigit16])
  · rfl

/-- What `parse_unit_addr` accepts, and what it makes of it. -/
theorem parseUnitAddr_eq_some {name : String} : parseUnitAddr name = some v ↔ NamesUnit name v := by
  constructor
  · intro h
    obtain ⟨⟨stem, suffix⟩, hsplit, hnum⟩ := Option.bind_eq_some_iff.1 h
    obtain ⟨hname, -⟩ := rsplitOnce_eq_some.1 hsplit
    obtain ⟨k, hk⟩ := trimHexPrefix_spec suffix
    obtain ⟨sign, digits, ds, hs, hsign, hne, hds, hv⟩ := fromStrRadix16_eq_some.1 hnum
    rw [hs] at hk
    exact ⟨stem, k, sign, digits, ds, hk ▸ hname, hsign, hne, hds, hv⟩
  · rintro ⟨stem, k, sign, digits, ds, hname, hsign, hne, hds, hv⟩
    have hnum : fromStrRadix16 (sign ++ digits) = some v :=
      fromStrRadix16_eq_some.2 ⟨sign, digits, ds, rfl, hsign, hne, hds, hv⟩
    have hat : '@' ∉ (List.replicate k ['0', 'x']).flatten ++ (sign ++ digits) := by
      intro hmem
      rcases List.mem_append.1 hmem with hmem | hmem
      · obtain ⟨l, hl, hmem⟩ := List.mem_flatten.1 hmem
        rw [List.eq_of_mem_replicate hl] at hmem
        exact absurd hmem (by decide)
      · rcases mem_of_fromStrRadix16 hnum hmem with hx | ⟨d, hd⟩
        · exact absurd hx (by decide)
        · exact absurd (toDigit16_eq_some.2 hd) (by simp [toDigit16])
    unfold parseUnitAddr
    rw [hname, rsplitOnce_append hat]
    show fromStrRadix16 (trimHexPrefix _) = some v
    rw [trimHexPrefix_append, trimHexPrefix_of_some hnum, hnum]

/-- The text of a number is read as the number. -/
theorem reads_hex (n : ℕ) : ∃ ds, List.Forall₂ HexDigit (Nat.toDigits 16 n) ds ∧
    Numeral.value 16 ds = n := by
  have hdigit : ∀ d < 16, toDigit16 (Nat.digitChar d) = some d := by decide
  obtain ⟨ds, hds, hv⟩ := Numeral.reads_toDigits (by norm_num) hdigit n
  exact ⟨ds, reads_iff.1 hds, hv⟩

/-- A name that was printed with the address, with `0x` or without. -/
theorem parseUnitAddr_printed {name : String} {n : ℕ} (hn : n < 2 ^ 64)
    (hname : ∃ stem, name.toList = stem ++ '@' :: Nat.toDigits 16 n ∨
      name.toList = stem ++ '@' :: '0' :: 'x' :: Nat.toDigits 16 n) :
    parseUnitAddr name = some (UInt64.ofNat n) := by
  obtain ⟨ds, hds, hv⟩ := reads_hex n
  have hv : Numeral.value 16 ds = (UInt64.ofNat n).toNat := by
    rw [hv, UInt64.toNat_ofNat', Nat.mod_eq_of_lt hn]
  obtain ⟨stem, hname | hname⟩ := hname
  · exact parseUnitAddr_eq_some.2
      ⟨stem, 0, [], _, ds, hname, .inl rfl, Nat.toDigits_ne_nil, hds, hv⟩
  · exact parseUnitAddr_eq_some.2
      ⟨stem, 1, [], _, ds, hname, .inl rfl, Nat.toDigits_ne_nil, hds, hv⟩

end Parts

/-! ### The nodes of ACPI -/

/-- If the name has a unit address, the node has it too. -/
def Addressed (node : DeviceDescNode) : Prop :=
  '@' ∈ node.desc.name.toList → parseUnitAddr node.desc.name = node.nodeMeta.unitAddr

section Nodes

variable {mem : ℕ → UInt8} {arch : Madt.Arch} {fuel : ℕ} {node : DeviceDescNode}
  {devices nodes : List DeviceDescNode}

theorem parseUnitAddr_hexText {stem : String} {n : ℕ} (hn : n < 2 ^ 64)
    (hstem : stem.toList.getLast? = some '@') :
    parseUnitAddr (stem ++ Madt.hexText n) = some (UInt64.ofNat n) := by
  obtain ⟨l, hl⟩ := List.getLast?_eq_some_iff.1 hstem
  refine parseUnitAddr_printed hn ⟨l, .inr ?_⟩
  have htext : (Madt.hexText n).toList = '0' :: 'x' :: Nat.toDigits 16 n := by
    rw [Madt.hexText, String.toList_append, String.toList_ofList (l := Nat.toDigits 16 n)]
    rfl
  rw [String.toList_append, hl, htext, List.append_assoc]
  rfl

theorem field_lt {sizes : List ℕ} {k : ℕ} (h : sizes[k]?.getD 0 ≤ 8) (l : List UInt8) :
    Packed.field sizes k l < 2 ^ 64 :=
  calc Packed.field sizes k l < 256 ^ (sizes[k]?.getD 0) := (Packed.ofLittle_split _ _).2
    _ ≤ 256 ^ 8 := Nat.pow_le_pow_right (by norm_num) h
    _ = 2 ^ 64 := by norm_num

theorem nodesAt_addressed {offset : ℕ} (h : node ∈ Madt.nodesAt mem arch offset) :
    Addressed node := by
  intro _
  cases arch with
  | riscv =>
    simp only [Madt.nodesAt, Madt.Arch.nodes] at h
    split_ifs at h
    · obtain rfl := List.mem_singleton.1 h
      exact parseUnitAddr_hexText (field_lt (by decide) _) (by decide)
    · obtain rfl := List.mem_singleton.1 h
      exact parseUnitAddr_hexText (field_lt (by decide) _) (by decide)
    · cases h
  | x86 =>
    simp only [Madt.nodesAt, Madt.Arch.nodes] at h
    split_ifs at h
    · obtain rfl := List.mem_singleton.1 h
      exact parseUnitAddr_hexText (field_lt (by decide) _) (by decide)
    · cases h

theorem fixed_addressed (h : node ∈ arch.fixed mem) : Addressed node := by
  cases arch with
  | riscv => cases h
  | x86 =>
    obtain rfl := List.mem_singleton.1 h
    intro hat
    have hat : '@' ∈ "lapic".toList := hat
    exact absurd hat (by decide)

theorem hostNode_addressed (e : McfgEntry) : Addressed (AcpiDriver.hostNode e) := by
  intro _
  have hbase : parseUnitAddr ("pci-host-ecam@" ++ Madt.hexText e.baseAddress.toNat) = _ :=
    parseUnitAddr_hexText e.baseAddress.toNat_lt (by decide)
  rw [UInt64.ofNat_toNat] at hbase
  exact hbase

theorem hpetNode_addressed (addr : UInt64) : Addressed (AcpiDriver.hpetNode addr) := by
  intro hat
  exact absurd hat (by simp [AcpiDriver.hpetNode])

/-- The walk over any MADT. -/
theorem madtParse_addressed {t : AcpiTables}
    (h : AcpiDriver.madtParse arch fuel t [] = .ret devices) (hnode : node ∈ devices) :
    Addressed node := by
  unfold AcpiDriver.madtParse at h
  cases ht : t.madt with
  | none =>
    rw [ht] at h
    obtain rfl := Outcome.ret.inj h
    cases hnode
  | some mem =>
    rw [ht] at h
    dsimp only at h
    generalize hrun : arch.parseMadt mem fuel ⟨[], []⟩ = run at h
    obtain ⟨u | _ | _, s'⟩ := run
    · obtain rfl := Outcome.ret.inj h
      rw [Madt.parseMadt_eq] at hrun
      obtain ⟨entries, -, -, rfl⟩ := Madt.loop_run hrun
      rcases List.mem_append.1 hnode with hnode | hnode
      · exact fixed_addressed hnode
      · obtain ⟨e, -, he⟩ := List.mem_flatMap.1 hnode
        exact nodesAt_addressed he
    · cases h
    · cases h

theorem parseDevice_tagged {d : Aml.Device} (h : Aml.parseDevice d = .ret (some node)) :
    "acpi:aml" ∈ node.nodeMeta.tags := by
  unfold Aml.parseDevice at h
  cases hhid : d.hid.bind Aml.hidOf with
  | none =>
    rw [hhid] at h
    cases Outcome.ret.inj h
  | some hid =>
    rw [hhid] at h
    obtain ⟨crs, -, hnode⟩ := Outcome.bind_eq_ret.1 h
    obtain rfl := Option.some.inj (Outcome.ret.inj hnode)
    exact .tail _ (.head _)

/-- The devices of the namespace are tagged. -/
theorem parseDevices_tagged {ds : List Aml.Device}
    (h : Aml.parseDevices ds devices = .ret nodes) (hnode : node ∈ nodes) :
    node ∈ devices ∨ "acpi:aml" ∈ node.nodeMeta.tags := by
  induction ds generalizing devices with
  | nil =>
    obtain rfl := Outcome.ret.inj h
    exact .inl hnode
  | cons d ds ih =>
    unfold Aml.parseDevices at h
    rw [List.foldlM_cons] at h
    obtain ⟨devices', hd, hrest⟩ := Outcome.bind_eq_ret.1 h
    obtain ⟨o, ho, hdevices⟩ := Outcome.bind_eq_ret.1 hd
    obtain rfl := Outcome.ret.inj hdevices
    rcases ih hrest with hnode | hnode
    · rcases List.mem_append.1 hnode with hnode | hnode
      · exact .inl hnode
      · obtain rfl := Option.mem_toList.1 hnode
        exact .inr (parseDevice_tagged ho)
    · exact .inr hnode

/-- The nodes of an enumeration. -/
theorem probe_addressed {ε : Type} {I : AmlInterpreter} {kernel : ℕ → AccessAnswers}
    {getMmio : Except Error UInt64} {fromRsdp : UInt64 → Prog DriverContext (Except ε AcpiTables)}
    {c c' : DriverContext}
    (h : AcpiDriver.probe arch fuel I kernel getMmio fromRsdp c = (.ret (.ok nodes), c'))
    (hnode : node ∈ nodes) : Addressed node ∨ "acpi:aml" ∈ node.nodeMeta.tags := by
  cases getMmio with
  | error e => cases h
  | ok rsdpAddr =>
    obtain ⟨tables, c₁, hfound, hrest⟩ := Prog.bind_eq_ret.1 h
    cases tables with
    | error e => cases hrest
    | ok t =>
      rw [AcpiDriver.probe_found _ _ _ _ hfound] at h
      obtain ⟨devices, c₂, hmadt, hrest⟩ := Prog.bind_eq_ret.1 h
      obtain ⟨found, c₃, -, hrest⟩ := Prog.bind_eq_ret.1 hrest
      obtain ⟨nodes', c₄, haml, hnodes⟩ := Prog.bind_eq_ret.1 hrest
      cases hnodes
      have hmadt := congrArg Prod.fst hmadt
      refine (parseDevices_tagged (congrArg Prod.fst haml) hnode).imp_left fun hmem => ?_
      rw [hpetParse_eq, pciParse_eq] at hmem
      rcases List.mem_append.1 hmem with hmem | hmem
      · rcases List.mem_append.1 hmem with hmem | hmem
        · exact madtParse_addressed hmadt hmem
        · obtain ⟨e, -, rfl⟩ := List.mem_map.1 hmem
          exact hostNode_addressed e
      · obtain ⟨addr, -, rfl⟩ := Option.map_eq_some_iff.1 (Option.mem_toList.1 hmem)
        exact hpetNode_addressed addr

end Nodes

/-- **Unit addresses.**  `parse_unit_addr` accepts the names that end in `@` and a hexadecimal
number below 2^64, which may have leading zeros, a sign in front, and `0x` any number of times
before it, and gives the number; it reads back every address that was printed into a name.  The
nodes that are reported for any ACPI tables, other than the devices of the namespace, have the unit
address that is in their names, if there is one. -/
theorem unit_addr :
    (∀ name v, parseUnitAddr name = some v ↔ NamesUnit name v) ∧
    (∀ (name : String) (v : UInt64),
      (∃ stem, name.toList = stem ++ '@' :: Nat.toDigits 16 v.toNat ∨
        name.toList = stem ++ '@' :: '0' :: 'x' :: Nat.toDigits 16 v.toNat) →
        parseUnitAddr name = some v) ∧
    ∀ {ε : Type} (arch : Madt.Arch) (fuel : ℕ) (I : AmlInterpreter) (kernel : ℕ → AccessAnswers)
      (getMmio : Except Error UInt64)
      (fromRsdp : UInt64 → Prog DriverContext (Except ε AcpiTables)) (nodes : List DeviceDescNode)
      (c c' : DriverContext),
      AcpiDriver.probe arch fuel I kernel getMmio fromRsdp c = (.ret (.ok nodes), c') →
        ∀ node ∈ nodes, "acpi:aml" ∉ node.nodeMeta.tags → '@' ∈ node.desc.name.toList →
          parseUnitAddr node.desc.name = node.nodeMeta.unitAddr := by
  refine ⟨fun _ _ => parseUnitAddr_eq_some, fun name v hname => ?_, ?_⟩
  · rw [parseUnitAddr_printed v.toNat_lt hname, UInt64.ofNat_toNat]
  · intro ε arch fuel I kernel getMmio fromRsdp nodes c c' h node hnode htag
    exact (probe_addressed h hnode).resolve_right htag

example : parseUnitAddr "uart@0x0x+0c" = some 12 := by decide

end GlendaDrivers
