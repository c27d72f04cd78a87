import Mathlib.Tactic

/-!
# Reading numerals

A reader takes the digits of a numeral from the most significant one on and gives up when a
character is no digit or when the number so far reaches a bound.  It succeeds exactly when all
characters are digits and the number is below the bound: no bound is reached on the way that is not
reached at the end.

* `value b ds`: the number with the digits `ds` to the base `b`;
* `Reads digit l ds`: the characters `l` are the digits `ds`;
* `push`: one character;
* `foldlM_push`: what is read;
* `reads_toDigits`: numerals that are printed.
-/

namespace Numeral

/-- The number with the given digits, the most significant one first, behind `n`. -/
def valueFrom (b n : ℕ) (ds : List ℕ) : ℕ := ds.foldl (fun n d => n * b + d) n

/-- The number with the given digits, the most significant one first. -/
def value (b : ℕ) (ds : List ℕ) : ℕ := valueFrom b 0 ds

variable {α : Type} {digit : α → Option ℕ} {b bound n v : ℕ} {l l' : List α} {ds ds' : List ℕ}

/-- The characters are the given digits. -/
def Reads (digit : α → Option ℕ) (l : List α) (ds : List ℕ) : Prop :=
  List.Forall₂ (fun c d => digit c = some d) l ds

/-- One more character, unless the number gets too large. -/
def push (digit : α → Option ℕ) (b bound n : ℕ) (c : α) : Option ℕ := do
  let d ← digit c
  if n * b + d < bound then some (n * b + d) else none

/-- More digits do not make a number smaller. -/
theorem le_valueFrom (hb : 0 < b) (n : ℕ) (ds : List ℕ) : n ≤ valueFrom b n ds := by
  induction ds generalizing n with
  | nil => exact le_rfl
  | cons d ds ih =>
    calc n ≤ n * b := Nat.le_mul_of_pos_right n hb
      _ ≤ n * b + d := Nat.le_add_right _ _
      _ ≤ valueFrom b n (d :: ds) := ih _

theorem value_append_singleton (b : ℕ) (ds : List ℕ) (d : ℕ) :
    value b (ds ++ [d]) = value b ds * b + d := by
  unfold value valueFrom
  rw [List.foldl_append]
  rfl

theorem Reads.append (h : Reads digit l ds) (h' : Reads digit l' ds') :
    Reads digit (l ++ l') (ds ++ ds') := List.rel_append h h'

/-- What is read of a list of characters behind the number `n`. -/
theorem foldlM_push (hb : 0 < b) (hn : n < bound) : l.foldlM (push digit b bound) n = some v ↔
    ∃ ds, Reads digit l ds ∧ valueFrom b n ds = v ∧ v < bound := by
  induction l generalizing n with
  | nil =>
    constructor
    · intro h
      obtain rfl := Option.some.inj h
      exact ⟨[], .nil, rfl, hn⟩
    · rintro ⟨ds, hds, rfl, -⟩
      obtain rfl := List.forall₂_nil_left_iff.1 hds
      rfl
  | cons c l ih =>
    rw [List.foldlM_cons]
    constructor
    · intro h
      obtain ⟨m, hm, hrest⟩ := Option.bind_eq_some_iff.1 h
      obtain ⟨d, hd, hlt⟩ := Option.bind_eq_some_iff.1 hm
      split_ifs at hlt with hbound
      obtain rfl := Option.some.inj hlt
      obtain ⟨ds, hds, hv, hlt⟩ := (ih hbound).1 hrest
      exact ⟨d :: ds, .cons hd hds, hv, hlt⟩
    · rintro ⟨ds, hds, rfl, hlt⟩
      obtain ⟨d, ds, hd, hrest, rfl⟩ := List.forall₂_cons_left_iff.1 hds
      -- the number does not reach the bound later if it reaches it now
      have hbound : n * b + d < bound := (le_valueFrom hb _ ds).trans_lt hlt
      have hpush : push digit b bound n c = some (n * b + d) := by
        unfold push
        rw [hd]
        exact if_pos hbound
      rw [hpush]
      exact (ih hbound).2 ⟨ds, hrest, rfl, hlt⟩

/-- The digits that a number is printed with. -/
theorem reads_toDigits {digit : Char → Option ℕ} (hb : 1 < b)
    (hdigit : ∀ d < b, digit (Nat.digitChar d) = some d) (n : ℕ) :
    ∃ ds, Reads digit (Nat.toDigits b n) ds ∧ value b ds = n := by
  induction n using Nat.strong_induction_on with
  | _ n ih =>
    by_cases hn : n < b
    · rw [Nat.toDigits_of_lt_base hn]
      refine ⟨[n], .cons (hdigit n hn) .nil, ?_⟩
      show 0 * b + n = n
      omega
    · have hle := Nat.le_of_not_lt hn
      obtain ⟨ds, hds, hv⟩ := ih (n / b) (Nat.div_lt_self (by omega) hb)
      have hlast : digit (Nat.digitChar (n % b)) = some (n % b) :=
        hdigit _ (Nat.mod_lt n (by omega))
      rw [Nat.toDigits_of_base_le hb hle]
      refine ⟨ds ++ [n % b], hds.append (.cons hlast .nil), ?_⟩
      rw [value_append_singleton, hv, Nat.mul_comm]
      exact Nat.div_add_mod n b

end Numeral
