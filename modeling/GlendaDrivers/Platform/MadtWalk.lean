import GlendaDrivers.Platform.Madt

/-!
# The walk over the MADT

* `next`, `Fits`: where the walk goes, and the entries that it can take;
* `entryStep_eq`, `loop_run`: one iteration, and what a walk that returned has done;
* `loop_list`: the walk over entries of known bytes;
* `madt_total`: when the table is walked to its end and nothing outside it is read.
-/

namespace GlendaDrivers.Madt

open Prog

/-! ### Entries -/

section Entries

variable (mem : ℕ → UInt8) (arch : Arch) (offset : ℕ)

/-- Where the walk goes on behind the entry at an offset. -/
def next : Option ℕ :=
  if offset < length mem then some (offset + (mem (offset + 1)).toNat) else none

/-- The walk gets past the entry at an offset, and what it reads of it is in the table. -/
structure Fits : Prop where
  length_ne_zero : mem (offset + 1) ≠ 0
  header : offset + 2 ≤ length mem
  body : offset + arch.need (mem offset) ≤ length mem

/-- The nodes that are pushed for the entry at an offset. -/
def nodesAt : List DeviceDescNode := arch.nodes mem (mem offset) offset

/-- The ranges that are read of the entry at an offset. -/
def readsAt : List Range := ⟨offset, 2⟩ :: (arch.sizes (mem offset)).map (⟨offset, ·⟩)

end Entries

variable {mem : ℕ → UInt8} {arch : Arch} {offset n : ℕ} {s s' : State}

theorem length_nodesAt : (nodesAt mem arch offset).length ≤ 1 := by
  cases arch <;> simp only [nodesAt, Arch.nodes] <;> split_ifs <;> simp

/-- What is read of an entry is its header and as much as its structure needs. -/
theorem readsAt_inside_iff : (∀ r ∈ readsAt mem arch offset, r.start + r.size ≤ length mem) ↔
    offset + 2 ≤ length mem ∧ offset + arch.need (mem offset) ≤ length mem := by
  have hsizes : offset + 2 ≤ length mem → ((∀ k ∈ arch.sizes (mem offset),
      offset + k ≤ length mem) ↔ offset + arch.need (mem offset) ≤ length mem) := by
    intro h
    cases arch with
    | riscv =>
      simp only [Arch.sizes, Arch.need]
      split_ifs <;> simp_all
      omega
    | x86 =>
      simp only [Arch.sizes, Arch.need]
      split_ifs <;> simp
      omega
  rw [readsAt, List.forall_mem_cons, List.forall_mem_map]
  exact and_congr_right hsizes

/-- A program that appends to the vector of nodes and to the reads. -/
def Appends (m : Prog State Unit) (nodes : List DeviceDescNode) (reads : List Range) : Prop :=
  ∀ s, m s = (.ret (), ⟨s.devices ++ nodes, s.reads ++ reads⟩)

theorem Appends.pure : Appends (pure ()) [] [] := by
  intro s
  rw [List.append_nil, List.append_nil]
  rfl

theorem Appends.push (node : DeviceDescNode) : Appends (push node) [node] [] := by
  intro s
  rw [List.append_nil]
  rfl

theorem Appends.fetch {f : List UInt8 → Prog State Unit} {nodes : List DeviceDescNode}
    {reads : List Range} (h : Appends (f (bytes mem offset n)) nodes reads) :
    Appends (fetch mem offset n >>= f) nodes (⟨offset, n⟩ :: reads) := by
  intro s
  have hrun := h { s with reads := s.reads ++ [⟨offset, n⟩] }
  rw [List.append_assoc] at hrun
  exact hrun

/-- What the `match` does. -/
theorem entry_appends (type : UInt8) : Appends (arch.entry mem type offset)
    (arch.nodes mem type offset) ((arch.sizes type).map (⟨offset, ·⟩)) := by
  cases arch with
  | riscv =>
    show Appends (Riscv.entry mem type offset) _ _
    unfold Riscv.entry
    by_cases h1 : type = 24
    · subst h1
      exact Appends.fetch Appends.pure
    by_cases h2 : type = 26
    · subst h2
      exact Appends.fetch (Appends.push _)
    by_cases h3 : type = 27
    · subst h3
      exact Appends.fetch (Appends.fetch (Appends.push _))
    have hnodes : Arch.nodes mem type offset .riscv = [] := by simp [Arch.nodes, h2, h3]
    have hsizes : Arch.sizes type .riscv = [] := by simp [Arch.sizes, h1, h2, h3]
    rw [if_neg (show type ≠ Riscv.madtTypeRintc from h1),
      if_neg (show type ≠ Riscv.madtTypeAplic from h2),
      if_neg (show type ≠ Riscv.madtTypePlic from h3), hnodes, hsizes]
    exact Appends.pure
  | x86 =>
    show Appends (X86.entry mem type offset) _ _
    unfold X86.entry
    by_cases h1 : type = 0
    · subst h1
      exact Appends.fetch Appends.pure
    by_cases h2 : type = 1
    · subst h2
      exact Appends.fetch (Appends.push _)
    have hnodes : Arch.nodes mem type offset .x86 = [] := by simp [Arch.nodes, h2]
    have hsizes : Arch.sizes type .x86 = [] := by simp [Arch.sizes, h1, h2]
    rw [if_neg h1, if_neg h2, hnodes, hsizes]
    exact Appends.pure

/-! ### The loop -/

/-- An iteration at an entry. -/
theorem entryStep_eq (h : offset < length mem) : entryStep mem (arch.entry mem) offset s =
    (.ret (.inl (offset + (mem (offset + 1)).toNat)),
      ⟨s.devices ++ nodesAt mem arch offset, s.reads ++ readsAt mem arch offset⟩) := by
  have htype : UInt8.ofNat (Packed.field entryHeader 0 (bytes mem offset entryHeader.sum)) =
      mem offset := by
    simp [Packed.field, Packed.number, Packed.offset, entryHeader, bytes, List.range_succ,
      Bytes.ofLittle]
  have hlen : Packed.field entryHeader 1 (bytes mem offset entryHeader.sum) =
      (mem (offset + 1)).toNat := by
    simp [Packed.field, Packed.number, Packed.offset, entryHeader, bytes, List.range_succ,
      Bytes.ofLittle]
  have hheader : fetch mem offset entryHeader.sum s = (.ret (bytes mem offset entryHeader.sum),
      { s with reads := s.reads ++ [⟨offset, 2⟩] }) := rfl
  have hentry : arch.entry mem (mem offset) offset { s with reads := s.reads ++ [⟨offset, 2⟩] } =
    _ := entry_appends (mem offset) _
  unfold entryStep
  rw [if_pos h, bind_of_ret hheader, htype, hlen, bind_of_ret hentry]
  simp only [List.append_assoc]
  rfl

theorem entryStep_end (h : ¬ offset < length mem) :
    entryStep mem (arch.entry mem) offset s = (.ret (.inr ()), s) := by
  unfold entryStep
  rw [if_neg h]
  rfl

theorem entryStep_moves (mem : ℕ → UInt8) (arch : Arch) :
    Moves (next mem) (entryStep mem (arch.entry mem)) := by
  intro offset s r s' h
  by_cases hin : offset < length mem
  · rw [entryStep_eq hin] at h
    obtain rfl := Outcome.ret.inj (Prod.mk.inj h).1
    rw [next, if_pos hin]
    rfl
  · rw [entryStep_end hin] at h
    obtain rfl := Outcome.ret.inj (Prod.mk.inj h).1
    rw [next, if_neg hin]
    rfl

/-- The walk does not go back. -/
theorem le_of_visits {e : ℕ} (h : Visits (next mem) offset e) : offset ≤ e := by
  refine h.induct le_rfl fun c d hc hn => ?_
  unfold next at hn
  split_ifs at hn
  have := Option.some.inj hn
  omega

/-- A walk that returned took every entry that it came to, one after the other. -/
theorem loop_run (h : loop (entryStep mem (arch.entry mem)) n offset s = (.ret (), s')) :
    ∃ entries : List ℕ, (∀ e, e ∈ entries ↔ Visits (next mem) offset e ∧ e < length mem) ∧
      entries.Pairwise (· < ·) ∧
      s' = ⟨s.devices ++ entries.flatMap (nodesAt mem arch),
        s.reads ++ entries.flatMap (readsAt mem arch)⟩ := by
  induction n generalizing offset s with
  | zero => exact nomatch (Prod.mk.inj h).1
  | succ n ih =>
    by_cases hin : offset < length mem
    · have hnext : next mem offset = some (offset + (mem (offset + 1)).toNat) := if_pos hin
      have hself := (entryStep_moves mem arch).ne_self h
      rw [loop_succ_inl (entryStep_eq hin)] at h
      obtain ⟨entries, hmem, hsorted, rfl⟩ := ih h
      refine ⟨offset :: entries, fun e => ?_, ?_, ?_⟩
      · rw [List.mem_cons, hmem]
        constructor
        · rintro (rfl | ⟨hv, he⟩)
          · exact ⟨Visits.refl e, hin⟩
          · exact ⟨hv.head hnext, he⟩
        · rintro ⟨hv, he⟩
          rcases Relation.ReflTransGen.cases_head hv with rfl | ⟨d, hd, hv⟩
          · exact .inl rfl
          · rw [hnext] at hd
            obtain rfl := Option.some.inj hd
            exact .inr ⟨hv, he⟩
      · refine List.pairwise_cons.2 ⟨fun e he => ?_, hsorted⟩
        have hle := le_of_visits ((hmem e).1 he).1
        have hne : (mem (offset + 1)).toNat ≠ 0 := fun hz => hself (by rw [hnext, hz]; rfl)
        omega
      · rw [List.flatMap_cons, List.flatMap_cons, List.append_assoc, List.append_assoc]
    · rw [loop_succ_inr (entryStep_end hin)] at h
      obtain rfl := (Prod.mk.inj h).2
      refine ⟨[], fun e => ?_, List.Pairwise.nil, by simp⟩
      constructor
      · exact fun he => absurd he List.not_mem_nil
      · rintro ⟨hv, he⟩
        have := le_of_visits hv
        omega

/-- A walk over entries that have a length returns. -/
theorem loop_ret (h : ∀ e, Visits (next mem) offset e → e < length mem → mem (e + 1) ≠ 0)
    (hn : length mem - offset < n) (s : State) :
    ∃ s', loop (entryStep mem (arch.entry mem)) n offset s = (.ret (), s') := by
  have hbody : ∀ e s, Visits (next mem) offset e →
      ∃ r s', entryStep mem (arch.entry mem) e s = (.ret r, s') ∧
        r.elim (fun d => Visits (next mem) offset d ∧ length mem - d < length mem - e)
          fun _ => True := by
    intro e s hv
    by_cases hin : e < length mem
    · refine ⟨_, _, entryStep_eq hin, hv.tail (if_pos hin), ?_⟩
      have hne : (mem (e + 1)).toNat ≠ 0 := fun hz => h e hv hin (UInt8.toNat_inj.1 hz)
      omega
    · exact ⟨_, _, entryStep_end hin, trivial⟩
  obtain ⟨u, s', hs', -⟩ := loop_returns (length mem - ·) hbody (Visits.refl offset) hn (s := s)
  exact ⟨s', hs'⟩

/-! ### Entries behind each other -/

section List

variable {l l' : List UInt8}

theorem bytes_append (h : bytes mem offset (l ++ l').length = l ++ l') :
    bytes mem offset l.length = l ∧ bytes mem (offset + l.length) l'.length = l' := by
  have hsplit : bytes mem offset (l ++ l').length =
      bytes mem offset l.length ++ bytes mem (offset + l.length) l'.length := by
    simp only [bytes, List.length_append, List.range_add, List.map_append, List.map_map]
    congr 2
    funext i
    rw [Function.comp_apply, Nat.add_assoc]
  rw [hsplit] at h
  exact List.append_inj h (by simp [bytes])

theorem bytes_getElem (h : bytes mem offset l.length = l) {k : ℕ} (hk : k < l.length) :
    mem (offset + k) = l[k] := by
  have hget := congrArg (·[k]?) h
  simp only [bytes, List.getElem?_map, List.getElem?_range hk, List.getElem?_eq_getElem hk,
    Option.map_some] at hget
  exact Option.some.inj hget

/-- The memory that holds a list. -/
theorem bytes_of_list (l : List UInt8) {o n : ℕ} (hle : o + n ≤ l.length) :
    bytes (fun i => l[i]?.getD 0) o n = (l.drop o).take n := by
  have hlen : ((l.drop o).take n).length = n := by
    rw [List.length_take, List.length_drop]
    omega
  refine List.ext_getElem (by simp [bytes, hlen]) fun i hi hi' => ?_
  rw [hlen] at hi'
  have hlt : o + i < l.length := by omega
  simp [bytes, List.getElem?_eq_getElem hlt]

variable {ε : Type} {encode : ε → List UInt8} {nodes : ε → List DeviceDescNode} {es : List ε}

/-- The walk over entries from `es` on, when each of them is found with its length and its nodes. -/
theorem loop_list
    (hfound : ∀ e offset, bytes mem offset (encode e).length = encode e →
      (mem (offset + 1)).toNat = (encode e).length ∧ nodesAt mem arch offset = nodes e)
    (hpos : ∀ e, 0 < (encode e).length)
    (hlen : length mem = offset + (es.flatMap encode).length)
    (h : bytes mem offset (es.flatMap encode).length = es.flatMap encode) (hn : es.length < n) :
    ∃ s', loop (entryStep mem (arch.entry mem)) n offset s = (.ret (), s') ∧
      s'.devices = s.devices ++ es.flatMap nodes := by
  induction es generalizing offset n s with
  | nil =>
    obtain ⟨m, rfl⟩ := Nat.exists_eq_add_one.2 hn
    exact ⟨s, loop_succ_inr (entryStep_end (by simp [hlen])), by simp⟩
  | cons e es ih =>
    obtain ⟨m, rfl⟩ := Nat.exists_eq_add_one.2 (Nat.zero_lt_of_lt hn)
    rw [List.flatMap_cons] at h hlen
    rw [List.length_append] at hlen
    obtain ⟨he, hrest⟩ := bytes_append h
    obtain ⟨hlength, hnodes⟩ := hfound e offset he
    have hpos := hpos e
    have hstep : entryStep mem (arch.entry mem) offset s = _ := entryStep_eq (by omega)
    rw [hlength, hnodes] at hstep
    obtain ⟨s', hs', hdev⟩ := ih (s := ⟨s.devices ++ nodes e, s.reads ++ readsAt mem arch offset⟩)
      (by omega) hrest (Nat.lt_of_succ_lt_succ hn)
    refine ⟨s', (loop_succ_inl hstep).trans hs', ?_⟩
    rw [hdev, List.flatMap_cons, List.append_assoc]

end List

/-! ### The table -/

/-- The versions differ in what they push before the walk. -/
theorem parseMadt_eq (fuel : ℕ) (s : State) : arch.parseMadt mem fuel s =
    loop (entryStep mem (arch.entry mem)) fuel madt.sum
      ⟨s.devices ++ arch.fixed mem, s.reads⟩ := by
  cases arch with
  | riscv =>
    have hs : State.mk (s.devices ++ []) s.reads = s := by rw [List.append_nil]
    exact (congrArg (loop (entryStep mem (Riscv.entry mem)) fuel madt.sum) hs).symm
  | x86 => rfl

/-- `parse_madt` returns, it has read entries inside the table only, and it has pushed one node at
most for each entry besides the fixed one. -/
def Total (mem : ℕ → UInt8) (arch : Arch) (devices : List DeviceDescNode) : Prop :=
  ∃ fuel s', arch.parseMadt mem fuel ⟨devices, []⟩ = (.ret (), s') ∧
    (∀ r ∈ s'.reads, r.start + r.size ≤ length mem) ∧
    ∃ (entries : List ℕ) (node : ℕ → List DeviceDescNode), entries.Pairwise (· < ·) ∧
      (∀ e ∈ entries, Visits (next mem) madt.sum e ∧ e < length mem) ∧
      (∀ e, (node e).length ≤ 1) ∧
      s'.devices = devices ++ arch.fixed mem ++ entries.flatMap node

/-- **The walk over any table.**  It ends and stays inside the table iff every entry that it comes
to has a length, a header in the table, and a structure in the table. -/
theorem madt_total (mem : ℕ → UInt8) (arch : Arch) (devices : List DeviceDescNode) :
    Total mem arch devices ↔
      ∀ e, Visits (next mem) madt.sum e → e < length mem → Fits mem arch e := by
  constructor
  · rintro ⟨fuel, s', hrun, hreads, -⟩ e hv he
    rw [parseMadt_eq] at hrun
    obtain ⟨entries, hmem, -, rfl⟩ := loop_run hrun
    have hin := readsAt_inside_iff.1 fun r hr => hreads r
      (List.mem_append_right _ (List.mem_flatMap.2 ⟨e, (hmem e).2 ⟨hv, he⟩, hr⟩))
    obtain ⟨k, s₁, hk⟩ := (entryStep_moves mem arch).loop_of_visits hv hrun
    refine ⟨fun hz => (entryStep_moves mem arch).ne_self hk ?_, hin.1, hin.2⟩
    rw [next, if_pos he, hz]
    rfl
  · intro h
    obtain ⟨s', hrun⟩ : ∃ s', loop (entryStep mem (arch.entry mem))
        (length mem - madt.sum + 1) madt.sum ⟨devices ++ arch.fixed mem, []⟩ = (.ret (), s') :=
      loop_ret (fun e hv he => (h e hv he).length_ne_zero) (Nat.lt_succ_self _) _
    obtain ⟨entries, hmem, hsorted, rfl⟩ := loop_run hrun
    refine ⟨_, _, (parseMadt_eq _ ⟨devices, []⟩).trans hrun, fun r hr => ?_, entries,
      nodesAt mem arch, hsorted, fun e he => (hmem e).1 he, fun _ => length_nodesAt, rfl⟩
    obtain ⟨e, he, hr⟩ := List.mem_flatMap.1 ((List.mem_append.1 hr).resolve_left (by simp))
    obtain ⟨hv, he⟩ := (hmem e).1 he
    exact readsAt_inside_iff.2 ⟨(h e hv he).header, (h e hv he).body⟩ r hr

/-- A table of 46 bytes whose entry has the length 0. -/
def stuckTable (i : ℕ) : UInt8 := if i = 4 then 46 else 0

theorem not_total_stuckTable : ¬ Total stuckTable .riscv [] ∧ ¬ Total stuckTable .x86 [] := by
  have h : ∀ arch, ¬ Total stuckTable arch [] := by
    rintro arch ⟨fuel, s', hrun, -⟩
    rw [parseMadt_eq] at hrun
    exact (entryStep_moves stuckTable arch).ne_self hrun rfl
  exact ⟨h .riscv, h .x86⟩

end GlendaDrivers.Madt
