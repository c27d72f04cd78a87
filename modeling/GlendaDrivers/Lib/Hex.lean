import Mathlib.Tactic

/-!
# Hexadecimal digits

`digits w n` are the last `w` hexadecimal digits of `n`; `padded w n` is the text that a format
like `{:04x}` prints for a value of `w` digits, and `paddedUpper w n` that of `{:04X}`.  Numbers
below `16 ^ w` have different digits, and different numbers have different decimal
representations.
-/

namespace Hex

/-- The last `w` digits of `n`, most significant first. -/
def digits : ℕ → ℕ → List Char
  | 0, _ => []
  | w + 1, n => digits w (n / 16) ++ [Nat.digitChar (n % 16)]

def padded (w n : ℕ) : String := String.ofList (digits w n)

def paddedUpper (w n : ℕ) : String := String.ofList ((digits w n).map Char.toUpper)

@[simp] theorem length_digits (w n : ℕ) : (digits w n).length = w := by
  induction w generalizing n with
  | zero => rfl
  | succ w ih => rw [digits, List.length_append, ih, List.length_singleton]

@[simp] theorem toList_padded (w n : ℕ) : (padded w n).toList = digits w n :=
  String.toList_ofList

theorem digitChar_inj {a b : ℕ} (ha : a < 16) (hb : b < 16)
    (h : Nat.digitChar a = Nat.digitChar b) : a = b := by
  have hall : ∀ a < 16, ∀ b < 16, Nat.digitChar a = Nat.digitChar b → a = b := by decide
  exact hall a ha b hb h

theorem digits_inj {w a b : ℕ} (ha : a < 16 ^ w) (hb : b < 16 ^ w) (h : digits w a = digits w b) :
    a = b := by
  induction w generalizing a b with
  | zero => omega
  | succ w ih =>
    unfold digits at h
    obtain ⟨hhigh, hlow⟩ := List.append_inj h (by rw [length_digits, length_digits])
    have hlow := digitChar_inj (Nat.mod_lt a (by norm_num)) (Nat.mod_lt b (by norm_num))
      (List.singleton_inj.1 hlow)
    rw [pow_succ] at ha hb
    have hhigh := ih (Nat.div_lt_of_lt_mul (by omega)) (Nat.div_lt_of_lt_mul (by omega)) hhigh
    omega

/-- Different numbers have different decimal representations. -/
theorem repr_inj {a b : ℕ} (h : Nat.repr a = Nat.repr b) : a = b := by
  have hd : Nat.toDigits 10 a = Nat.toDigits 10 b := by
    rw [← Nat.toList_repr, ← Nat.toList_repr, h]
  rw [← Nat.ofDigitChars_toDigits (n := a) (by norm_num) (le_refl 10), hd,
    Nat.ofDigitChars_toDigits (by norm_num) (le_refl 10)]

end Hex
