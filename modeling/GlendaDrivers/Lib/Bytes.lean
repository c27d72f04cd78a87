import Mathlib.Tactic
import Mathlib.Order.CompletePartialOrder

/-!
# Byte memory

A memory is a function from 64-bit addresses to bytes; `write m a l` stores the bytes `l` at
`a`, `a + 1`, …, wrapping at the end of the address space, and `read m a n` is the list of the `n`
bytes from `a` on.  `span a n` is the set of the `n` addresses from `a` on, which wraps in the same
way.  `little` and `ofLittle` convert between numbers and bytes.
-/

namespace Bytes

/-- Store the bytes `l` from address `a` on. -/
def write (m : UInt64 → UInt8) (a : UInt64) (l : List UInt8) : UInt64 → UInt8 := fun x =>
  (l[(x - a).toNat]?).getD (m x)

/-- The `n` bytes of `v`, least significant first. -/
def little (n v : ℕ) : List UInt8 := (List.range n).map fun i => UInt8.ofNat (v / 256 ^ i)

@[simp] theorem length_little (n v : ℕ) : (little n v).length = n := by simp [little]

/-- The number with the given bytes, least significant first. -/
def ofLittle : List UInt8 → ℕ
  | [] => 0
  | b :: l => b.toNat + 256 * ofLittle l

theorem ofLittle_lt (l : List UInt8) : ofLittle l < 256 ^ l.length := by
  induction l with
  | nil => exact Nat.one_pos
  | cons b l ih =>
    have hb := b.toNat_lt
    rw [ofLittle, List.length_cons, pow_succ]
    omega

/-- The bytes of a number given by its bytes. -/
theorem ofLittle_div_mod {l : List UInt8} {k : ℕ} (hk : k < l.length) :
    ofLittle l / 256 ^ k % 256 = l[k].toNat := by
  induction l generalizing k with
  | nil => simp at hk
  | cons b l ih =>
    have hb := b.toNat_lt
    cases k with
    | zero =>
      rw [pow_zero, Nat.div_one, ofLittle]
      show _ = b.toNat
      omega
    | succ k =>
      have hdiv : (b.toNat + 256 * ofLittle l) / 256 = ofLittle l := by omega
      rw [ofLittle, pow_succ', ← Nat.div_div_eq_div_mul, hdiv, ih (Nat.lt_of_succ_lt_succ hk)]
      rfl

/-- The bytes of a number give the number. -/
theorem ofLittle_little {n v : ℕ} (h : v < 256 ^ n) : ofLittle (little n v) = v := by
  induction n generalizing v with
  | zero => exact (Nat.lt_one_iff.1 h).symm
  | succ n ih =>
    have hrest : little (n + 1) v = UInt8.ofNat v :: little n (v / 256) := by
      simp only [little, List.range_succ_eq_map, List.map_cons, List.map_map, pow_zero, Nat.div_one]
      congr 1
      refine List.map_congr_left fun i _ => ?_
      rw [Function.comp_apply, Nat.succ_eq_add_one, pow_succ', Nat.div_div_eq_div_mul]
    have hlt : v / 256 < 256 ^ n := by
      rw [Nat.div_lt_iff_lt_mul (by norm_num), ← pow_succ]
      exact h
    rw [hrest, ofLittle, ih hlt, UInt8.toNat_ofNat']
    omega

/-- The bytes of the number that has the given bytes. -/
theorem little_ofLittle (l : List UInt8) : little l.length (ofLittle l) = l := by
  refine List.ext_getElem (length_little _ _) fun k hk hk' => ?_
  rw [← UInt8.toNat_inj, ← ofLittle_div_mod hk']
  simp only [little, List.getElem_map, List.getElem_range, UInt8.toNat_ofNat']

/-- Only the bytes that there is place for matter. -/
theorem little_mod (n v : ℕ) : little n (v % 256 ^ n) = little n v := by
  refine List.map_congr_left fun i hi => ?_
  have hi := List.mem_range.1 hi
  have hpow : 256 ^ n = 256 ^ i * (256 * 256 ^ (n - i - 1)) := by
    rw [← pow_succ', ← pow_add]
    congr 1
    omega
  rw [← UInt8.toNat_inj, UInt8.toNat_ofNat', UInt8.toNat_ofNat', hpow,
    Nat.mod_mul_right_div_self]
  exact Nat.mod_mul_right_mod _ _ _

/-- The `n` bytes from address `a` on. -/
def read (m : UInt64 → UInt8) (a : UInt64) (n : ℕ) : List UInt8 :=
  (List.range n).map fun i => m (a + UInt64.ofNat i)

@[simp] theorem length_read (m : UInt64 → UInt8) (a : UInt64) (n : ℕ) :
    (read m a n).length = n := by
  simp [read]

variable {m : UInt64 → UInt8} {a x : UInt64} {l : List UInt8}

/-- Bytes outside `[a, a + l.length)` keep their value. -/
theorem write_of_le (h : l.length ≤ (x - a).toNat) : write m a l x = m x := by
  simp [write, List.getElem?_eq_none h]

/-- The byte stored at the start. -/
theorem write_singleton (b : UInt8) : write m a [b] a = b := by simp [write]

theorem write_singleton_of_ne (b : UInt8) (h : x ≠ a) : write m a [b] x = m x := by
  refine write_of_le ?_
  rw [List.length_singleton, Nat.one_le_iff_ne_zero, ne_eq, ← UInt64.toNat_zero, UInt64.toNat_inj,
    UInt64.sub_eq_iff_eq_add, UInt64.zero_add]
  exact h

/-! ### Spans -/

/-- The addresses `a`, `a + 1`, …, `n` of them. -/
def span (a : UInt64) (n : ℕ) : Set UInt64 := {x | (x - a).toNat < n}

theorem mem_span {n : ℕ} : x ∈ span a n ↔ (x - a).toNat < n := Iff.rfl

variable {d e : UInt64} {k n : ℕ}

/-- The bytes that were stored, and those behind them. -/
theorem read_write_append (m : UInt64 → UInt8) (a : UInt64) (hl : l.length ≤ n) (hn : n ≤ 2 ^ 64) :
    read (write m a l) a n = l ++ (read m a n).drop l.length := by
  have hlen : (l ++ (read m a n).drop l.length).length = n := by
    simp only [read, List.length_append, List.length_drop, List.length_map, List.length_range]
    omega
  refine List.ext_getElem (by rw [hlen]; simp [read]) fun i hi hi' => ?_
  have hin : i < n := by
    rw [hlen] at hi'
    exact hi'
  have hoff : (a + UInt64.ofNat i - a).toNat = i := by
    rw [UInt64.add_comm, UInt64.add_sub_cancel, UInt64.toNat_ofNat', Nat.mod_eq_of_lt (by omega)]
  have hget : (read (write m a l) a n)[i] = (l[i]?).getD (m (a + UInt64.ofNat i)) := by
    simp only [read, List.getElem_map, List.getElem_range, write]
    rw [hoff]
  rw [hget]
  rcases Nat.lt_or_ge i l.length with hlt | hge
  · rw [List.getElem?_eq_getElem hlt, Option.getD_some, List.getElem_append_left hlt]
  · rw [List.getElem?_eq_none hge, Option.getD_none, List.getElem_append_right hge,
      List.getElem_drop]
    simp only [read, List.getElem_map, List.getElem_range, Nat.add_sub_cancel' hge]

/-- The bytes that were stored. -/
theorem read_write (m : UInt64 → UInt8) (a : UInt64) (hl : l.length ≤ 2 ^ 64) :
    read (write m a l) a l.length = l := by
  rw [read_write_append m a le_rfl hl, List.drop_eq_nil_of_le (by simp [read]), List.append_nil]

/-- The end of a range. -/
theorem read_add (m : UInt64 → UInt8) (a : UInt64) (n k : ℕ) :
    read m (a + UInt64.ofNat n) k = (read m a (n + k)).drop n := by
  refine List.ext_getElem (by simp [read]) fun i hi hi' => ?_
  simp only [read, List.getElem_drop, List.getElem_map, List.getElem_range, UInt64.ofNat_add,
    UInt64.add_assoc]

/-- What was stored behind other bytes is read back. -/
theorem read_write_behind (m : UInt64 → UInt8) (a : UInt64) {l' : List UInt8}
    (hl : l.length + l'.length ≤ 2 ^ 64) :
    read (write m a (l ++ l')) (a + UInt64.ofNat l.length) l'.length = l' := by
  have hread := read_write m a (l := l ++ l') (by rwa [List.length_append])
  rw [List.length_append] at hread
  rw [read_add, hread, List.drop_left]

/-- Reading depends on the bytes read only. -/
theorem read_congr {m' : UInt64 → UInt8} (h : ∀ x ∈ span a n, m' x = m x) :
    read m' a n = read m a n := by
  refine List.map_congr_left fun i hi => h _ ?_
  rw [mem_span, UInt64.add_comm, UInt64.add_sub_cancel, UInt64.toNat_ofNat']
  exact (Nat.mod_le _ _).trans_lt (List.mem_range.1 hi)

/-- Bytes stored elsewhere. -/
theorem read_write_of_disjoint {b : UInt64} (hd : Disjoint (span b n) (span a l.length)) :
    read (write m a l) b n = read m b n :=
  read_congr fun _ hx => write_of_le (Nat.not_lt.1 fun h => Set.disjoint_left.1 hd hx h)

/-- An address of the span at `a + d`, relative to `a`. -/
theorem exists_of_mem_span (h : x ∈ span (a + d) k) :
    ∃ u : UInt64, u.toNat < k ∧ x - a = u + d := by
  refine ⟨x - (a + d), h, ?_⟩
  rw [UInt64.sub_eq_iff_eq_add, UInt64.add_assoc, UInt64.add_comm d a, UInt64.sub_add_cancel]

theorem span_add_subset (h : d.toNat + k ≤ n) : span (a + d) k ⊆ span a n := by
  intro x hx
  obtain ⟨u, hu, hxu⟩ := exists_of_mem_span hx
  rw [mem_span, hxu, UInt64.toNat_add]
  have := Nat.mod_le (u.toNat + d.toNat) (2 ^ 64)
  omega

/-- A span that does not wrap is in another one that starts before it iff it ends there. -/
theorem span_add_subset_iff (hk : 0 < k) (h : d.toNat + k ≤ 2 ^ 64) :
    span (a + d) k ⊆ span a n ↔ d.toNat + k ≤ n := by
  constructor
  · intro hsub
    -- the last address
    have hlast : (UInt64.ofNat (k - 1)).toNat = k - 1 := by
      rw [UInt64.toNat_ofNat']
      exact Nat.mod_eq_of_lt (by omega)
    have hmem : a + d + UInt64.ofNat (k - 1) ∈ span (a + d) k := by
      rw [mem_span, UInt64.add_comm, UInt64.add_sub_cancel, hlast]
      omega
    have hin := hsub hmem
    rw [mem_span, UInt64.add_assoc, UInt64.add_comm, UInt64.add_sub_cancel, UInt64.toNat_add,
      hlast, Nat.mod_eq_of_lt (by omega)] at hin
    omega
  · exact span_add_subset

/-- Two spans one after the other. -/
theorem disjoint_span (h : d.toNat + k ≤ e.toNat) (hn : e.toNat + n ≤ 2 ^ 64) :
    Disjoint (span (a + d) k) (span (a + e) n) := by
  rw [Set.disjoint_left]
  intro x hx hx'
  obtain ⟨u, hu, hxu⟩ := exists_of_mem_span hx
  obtain ⟨v, hv, hxv⟩ := exists_of_mem_span hx'
  have heq := congrArg UInt64.toNat (hxu.symm.trans hxv)
  have he := e.toNat_lt
  rw [UInt64.toNat_add, UInt64.toNat_add, Nat.mod_eq_of_lt (by omega),
    Nat.mod_eq_of_lt (by omega)] at heq
  omega

end Bytes
