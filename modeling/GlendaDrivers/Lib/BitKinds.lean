import Mathlib.Tactic

/-!
# Registers whose bits are of different kinds

A device need not keep what is written to a register.  A bit is either writable, or cleared when
one is written to it, or it does not change.

* `BitKinds`: the kinds of the bits of a register;
* `store`, `getLsbD_store`: the register after a write;
* `store_self`: when it is safe to write back what was read;
* `write`: a write of bytes to a memory of such registers.
-/

/-- The kinds of the bits of a register. -/
structure BitKinds (w : ℕ) where
  /-- The bits that take the value that is written. -/
  writable : BitVec w
  /-- The bits that are cleared when one is written. -/
  clears : BitVec w
  disjoint : writable &&& clears = 0#w

namespace BitKinds

variable {w : ℕ}

/-- All bits are writable. -/
def plain : BitKinds w := ⟨BitVec.allOnes w, 0#w, by simp⟩

/-- The register after `new` is written to it. -/
def store (k : BitKinds w) (old new : BitVec w) : BitVec w :=
  ((old &&& ~~~k.writable) ||| (new &&& k.writable)) &&& ~~~(new &&& k.clears)

variable {k : BitKinds w} {old new : BitVec w} {i : ℕ}

theorem not_writable (h : k.clears.getLsbD i = true) : k.writable.getLsbD i = false := by
  have hand := congrArg (·.getLsbD i) k.disjoint
  simpa [h] using hand

/-- The bits of a register after a write. -/
theorem getLsbD_store (k : BitKinds w) (old new : BitVec w) (i : ℕ) :
    (k.store old new).getLsbD i =
      if k.clears.getLsbD i then old.getLsbD i && !new.getLsbD i
      else if k.writable.getLsbD i then new.getLsbD i
      else old.getLsbD i := by
  unfold store
  by_cases hi : i < w
  · simp only [BitVec.getLsbD_and, BitVec.getLsbD_or, BitVec.getLsbD_not, hi, decide_true,
      Bool.true_and]
    split_ifs with hc hw
    · simp [hc, not_writable hc]
    · simp [hc, hw]
    · simp [hc, hw]
  · simp [BitVec.getLsbD_of_ge _ _ (Nat.le_of_not_lt hi)]

/-- Writing back what was read changes nothing iff no bit that this clears is set. -/
theorem store_self (k : BitKinds w) (old : BitVec w) :
    k.store old old = old ↔ old &&& k.clears = 0#w := by
  have hbit : ∀ i, (k.store old old).getLsbD i = old.getLsbD i ↔
      (old &&& k.clears).getLsbD i = (0#w).getLsbD i := by
    intro i
    rw [getLsbD_store, BitVec.getLsbD_and, BitVec.getLsbD_zero]
    cases old.getLsbD i <;> cases k.clears.getLsbD i <;> simp
  rw [BitVec.eq_of_getLsbD_eq_iff, BitVec.eq_of_getLsbD_eq_iff]
  exact forall₂_congr fun i _ => hbit i

/-- A bit that a write changes is writable, or it is cleared and one was written to it. -/
theorem of_store_ne (h : (k.store old new).getLsbD i ≠ old.getLsbD i) :
    (k.writable.getLsbD i = true ∧ (k.store old new).getLsbD i = new.getLsbD i) ∨
      (k.clears.getLsbD i = true ∧ new.getLsbD i = true) := by
  rw [getLsbD_store] at h ⊢
  split_ifs at h ⊢ with hc hw
  · refine .inr ⟨hc, ?_⟩
    by_contra hnew
    rw [Bool.eq_false_of_not_eq_true hnew, Bool.not_false, Bool.and_true] at h
    exact h rfl
  · exact .inl ⟨hw, rfl⟩
  · exact absurd rfl h

/-! ### Memories -/

/-- A byte after `new` is written to it. -/
def storeByte (k : BitKinds 8) (old new : UInt8) : UInt8 := ⟨k.store old.toBitVec new.toBitVec⟩

theorem storeByte_self (k : BitKinds 8) (b : UInt8) :
    k.storeByte b b = b ↔ b.toBitVec &&& k.clears = 0#8 := by
  rw [← store_self, ← UInt8.toBitVec_inj]
  rfl

/-- Write the bytes `l` from address `a` on. -/
def write (kinds : UInt64 → BitKinds 8) (m : UInt64 → UInt8) (a : UInt64) (l : List UInt8) :
    UInt64 → UInt8 := fun x =>
  match l[(x - a).toNat]? with
  | some b => (kinds x).storeByte (m x) b
  | none => m x

variable {kinds : UInt64 → BitKinds 8} {m : UInt64 → UInt8} {a x : UInt64} {l : List UInt8}

/-- Bytes outside `[a, a + l.length)` keep their value. -/
theorem write_of_le (h : l.length ≤ (x - a).toNat) : write kinds m a l x = m x := by
  unfold write
  rw [List.getElem?_eq_none h]

theorem write_of_lt (h : (x - a).toNat < l.length) :
    write kinds m a l x = (kinds x).storeByte (m x) l[(x - a).toNat] := by
  unfold write
  rw [List.getElem?_eq_getElem h]

end BitKinds
