import Mathlib.Tactic

/-!
# Words in parts

A word of 64 bits as the number that its parts make.

* `toNat_shift_or`: two words without a common bit, one of them shifted;
* `toNat_high`, `toNat_low`: the two halves of a word;
* `word64`: the word with two given halves.
-/

namespace Words

/-- Two words without a common bit, one of them shifted. -/
theorem toNat_shift_or {a b : UInt64} {n : ℕ} (hn : n < 64) (hb : b.toNat < 2 ^ n)
    (ha : a.toNat * 2 ^ n < 2 ^ 64) :
    ((a <<< UInt64.ofNat n) ||| b).toNat = a.toNat * 2 ^ n + b.toNat := by
  have hshift : (UInt64.ofNat n).toNat % 64 = n := by
    rw [UInt64.toNat_ofNat']
    omega
  rw [UInt64.toNat_or, UInt64.toNat_shiftLeft, hshift, Nat.shiftLeft_eq, Nat.mod_eq_of_lt ha,
    ← Nat.shiftLeft_eq, ← Nat.shiftLeft_add_eq_or_of_lt hb, Nat.shiftLeft_eq]

theorem toNat_high (x : UInt64) : (x >>> 32).toNat = x.toNat / 2 ^ 32 := by
  rw [UInt64.toNat_shiftRight]
  exact Nat.shiftRight_eq_div_pow _ _

theorem toNat_low (x : UInt64) : (x &&& 0xFFFFFFFF).toNat = x.toNat % 2 ^ 32 := by
  rw [UInt64.toNat_and]
  exact Nat.and_two_pow_sub_one_eq_mod _ 32

theorem toUInt32_low (x : UInt64) : (x &&& 0xFFFFFFFF).toUInt32 = x.toUInt32 := by
  rw [← UInt32.toNat_inj, UInt64.toNat_toUInt32, UInt64.toNat_toUInt32, toNat_low, Nat.mod_mod]

end Words

namespace GlendaDrivers

/-- A 64-bit value kept in two registers. -/
def word64 (low high : UInt32) : UInt64 := (high.toUInt64 <<< 32) ||| low.toUInt64

theorem toNat_word64 (low high : UInt32) :
    (word64 low high).toNat = high.toNat * 2 ^ 32 + low.toNat := by
  have hlow := low.toNat_lt
  have hhigh := high.toNat_lt
  exact Words.toNat_shift_or (a := high.toUInt64) (b := low.toUInt64) (n := 32) (by norm_num)
    (by rw [UInt32.toNat_toUInt64]; exact hlow) (by rw [UInt32.toNat_toUInt64]; omega)

variable {low high : UInt32} {x : UInt64}

/-- A word has only one pair of halves. -/
theorem word64_eq_iff : word64 low high = x ↔ low = x.toUInt32 ∧ high = (x >>> 32).toUInt32 := by
  have hlow := low.toNat_lt
  have hhigh := high.toNat_lt
  have hx := x.toNat_lt
  rw [← UInt64.toNat_inj, toNat_word64, ← UInt32.toNat_inj, ← UInt32.toNat_inj,
    UInt64.toNat_toUInt32, UInt64.toNat_toUInt32, Words.toNat_high]
  omega

/-- A 64-bit value written to two registers. -/
theorem word64_halves (x : UInt64) : word64 x.toUInt32 (x >>> 32).toUInt32 = x :=
  word64_eq_iff.2 ⟨rfl, rfl⟩

end GlendaDrivers
