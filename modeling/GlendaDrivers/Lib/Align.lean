import Mathlib.Tactic

/-!
# Alignment of machine words

Rounding to a multiple of a power of two, with a mask.

* `alignDown m x`: `x & !(m - 1)`;
* `alignUp m x`: `(x + m - 1) & !(m - 1)`;
* `and_high`: a mask of the high bits;
* `toNat_alignDown`, `toNat_alignUp`: what they compute.
-/

namespace Align

/-- `x & !(m - 1)`. -/
def alignDown (m x : UInt64) : UInt64 := x &&& ~~~(m - 1)

/-- `(x + m - 1) & !(m - 1)`. -/
def alignUp (m x : UInt64) : UInt64 := alignDown m (x + m - 1)

variable {m x : UInt64} {k : ℕ}

/-- The exponent of a power of two that fits a word. -/
theorem lt_of_toNat (hm : m.toNat = 2 ^ k) : k < 64 := by
  have hlt := m.toNat_lt
  rw [hm] at hlt
  exact (Nat.pow_lt_pow_iff_right (by norm_num)).1 hlt

theorem toNat_sub_one (hm : m.toNat = 2 ^ k) : (m - 1).toNat = 2 ^ k - 1 := by
  have hle : 1 ≤ m := by
    rw [UInt64.le_iff_toNat_le, hm]
    exact Nat.one_le_two_pow
  rw [UInt64.toNat_sub_of_le _ _ hle, hm]
  rfl

/-- A mask of the high bits clears the low ones. -/
theorem and_high {n w : ℕ} (hk : k ≤ w) (hn : n < 2 ^ w) :
    n &&& (2 ^ w - 2 ^ k) = n / 2 ^ k * 2 ^ k := by
  apply Nat.eq_of_testBit_eq
  intro i
  have hpos := Nat.two_pow_pos k
  have hle := Nat.pow_le_pow_right (show 0 < 2 by norm_num) hk
  have hmask : 2 ^ w - 2 ^ k = 2 ^ w - (2 ^ k - 1 + 1) := by omega
  rw [Nat.testBit_and, hmask, Nat.testBit_two_pow_sub_succ (by omega),
    Nat.testBit_two_pow_sub_one, Nat.testBit_mul_two_pow, Nat.testBit_div_two_pow]
  by_cases hi : i < k
  · simp [hi, Nat.not_le.2 hi]
  · have hle := Nat.not_lt.1 hi
    by_cases hbig : i < w
    · simp [hi, hle, hbig, Nat.sub_add_cancel hle]
    · -- `n` has `w` bits
      have hx : n.testBit i = false :=
        Nat.testBit_lt_two_pow (hn.trans_le (Nat.pow_le_pow_right (by norm_num)
          (Nat.not_lt.1 hbig)))
      simp [hx, Nat.sub_add_cancel hle]

/-- The mask clears the low bits. -/
theorem toNat_alignDown (hm : m.toNat = 2 ^ k) (x : UInt64) :
    (alignDown m x).toNat = x.toNat / 2 ^ k * 2 ^ k := by
  have hnot : (~~~(m - 1)).toNat = 2 ^ 64 - 2 ^ k := by
    rw [UInt64.toNat_not, toNat_sub_one hm]
    have := Nat.one_le_two_pow (n := k)
    norm_num
    omega
  rw [alignDown, UInt64.toNat_and, hnot, and_high (lt_of_toNat hm).le x.toNat_lt]

theorem alignDown_le (hm : m.toNat = 2 ^ k) (x : UInt64) :
    (alignDown m x).toNat ≤ x.toNat := by
  rw [toNat_alignDown hm]
  exact Nat.div_mul_le_self _ _

/-- Adding less than `m` to a multiple of `m` and rounding down gives the multiple back. -/
theorem alignDown_add (hm : m.toNat = 2 ^ k) {a d : UInt64} (ha : 2 ^ k ∣ a.toNat)
    (hd : d.toNat < 2 ^ k) (hno : a.toNat + d.toNat < 2 ^ 64) : alignDown m (a + d) = a := by
  rw [← UInt64.toNat_inj, toNat_alignDown hm, UInt64.toNat_add, Nat.mod_eq_of_lt hno]
  obtain ⟨c, hc⟩ := ha
  rw [hc, Nat.mul_add_div (Nat.two_pow_pos k), Nat.div_eq_of_lt hd, Nat.add_zero, Nat.mul_comm]

/-- Without a carry out of the word, rounding up gives the least multiple that is not below. -/
theorem toNat_alignUp (hm : m.toNat = 2 ^ k) (hno : x.toNat + (2 ^ k - 1) < 2 ^ 64) :
    (alignUp m x).toNat = (x.toNat + (2 ^ k - 1)) / 2 ^ k * 2 ^ k := by
  have hx : (x + m - 1).toNat = x.toNat + (2 ^ k - 1) := by
    rw [UInt64.sub_eq_add_neg, UInt64.add_assoc, ← UInt64.sub_eq_add_neg, UInt64.toNat_add,
      toNat_sub_one hm, Nat.mod_eq_of_lt hno]
  rw [alignUp, toNat_alignDown hm, hx]

end Align
