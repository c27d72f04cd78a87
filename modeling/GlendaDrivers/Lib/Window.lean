import Mathlib.Tactic

/-!
# A window of a history kept in a ring

A producer appends to a history, and entry `i` of it is kept in slot `i % n` of a ring of `n`
slots.  `Holds slot n lo hist` says that the entries from `lo` on are still in their slots;
they are as long as the window `[lo, hist.length)` is no wider than the ring.

The positions are known to the two sides as counters modulo some `m`.  Where `n` divides `m`
the slot of a position can be computed from its counter, and where the window is narrower
than `m` two positions with the same counter are the same.
-/

namespace Window

variable {α : Type*}

/-- The entries of `hist` from position `lo` on are in their slots. -/
def Holds (slot : ℕ → α) (n lo : ℕ) (hist : List α) : Prop :=
  ∀ i, lo ≤ i → ∀ h : i < hist.length, slot (i % n) = hist[i]

/-- Two different positions of a window no wider than the ring are in different slots. -/
theorem mod_ne {n i j : ℕ} (hij : i < j) (hn : j < i + n) : i % n ≠ j % n := by
  intro h
  have hd : n ∣ j - i := (Nat.modEq_iff_dvd' hij.le).1 h
  exact absurd (Nat.le_of_dvd (by omega) hd) (by omega)

/-- The slot of a position can be computed from its counter. -/
theorem slot_of_counter {n m : ℕ} (h : n ∣ m) (i : ℕ) : i % m % n = i % n :=
  Nat.mod_mod_of_dvd i h

/-- In a window narrower than the counters' range a counter determines the position. -/
theorem counter_inj {m i j : ℕ} (hij : i ≤ j) (hm : j < i + m) (h : i % m = j % m) : i = j := by
  rcases Nat.lt_or_ge i j with hlt | hge
  · exact absurd h (mod_ne hlt hm)
  · omega

variable {slot : ℕ → α} {n lo lo' : ℕ} {hist : List α}

theorem Holds.get (h : Holds slot n lo hist) {i : ℕ} (hlo : lo ≤ i) (hi : i < hist.length) :
    slot (i % n) = hist[i] := h i hlo hi

@[simp] theorem holds_nil (slot : ℕ → α) (n lo : ℕ) : Holds slot n lo [] := by
  intro i _ h
  simp at h

/-- The oldest entries may be given up. -/
theorem Holds.mono (h : Holds slot n lo hist) (hlo : lo ≤ lo') : Holds slot n lo' hist :=
  fun i hi => h i (by omega)

/-- While the window is narrower than the ring, the next slot is free to be written. -/
theorem Holds.write (h : Holds slot n lo hist) (hn : hist.length < lo + n) (a : α) :
    Holds (Function.update slot (hist.length % n) a) n lo hist := by
  intro i hi hlt
  rw [Function.update_of_ne (mod_ne hlt (by omega)), h.get hi hlt]

/-- Once the next slot is written, the history may grow. -/
theorem Holds.snoc (h : Holds slot n lo hist) {a : α} (ha : slot (hist.length % n) = a) :
    Holds slot n lo (hist ++ [a]) := by
  intro i hi hlt
  rw [List.length_append, List.length_singleton] at hlt
  rcases Nat.lt_or_ge i hist.length with hlt' | hge
  · rw [List.getElem_append_left hlt', h.get hi hlt']
  · obtain rfl : i = hist.length := by omega
    simp [ha]

/-- Append an entry by writing it to the next slot. -/
theorem Holds.push (h : Holds slot n lo hist) (hn : hist.length < lo + n) (a : α) :
    Holds (Function.update slot (hist.length % n) a) n lo (hist ++ [a]) :=
  (h.write hn a).snoc (Function.update_self _ _ _)

end Window
