import Mathlib.Tactic

/-!
# Lists threaded through a successor function

A list kept in a table by its links: `walk next n a` is the list of the first `n` cells
reached from `a`.  The links of cells off the walk do not matter, so a list without a
terminator, whose last link is stale, is described by its length alone.
-/

namespace Threaded

variable {α : Type*}

/-- The cells `a, next a, next (next a), …`, `n` of them. -/
def walk (next : α → α) : ℕ → α → List α
  | 0, _ => []
  | n + 1, a => a :: walk next n (next a)

@[simp] theorem walk_zero (next : α → α) (a : α) : walk next 0 a = [] := rfl

theorem walk_succ (next : α → α) (n : ℕ) (a : α) :
    walk next (n + 1) a = a :: walk next n (next a) := rfl

@[simp] theorem length_walk (next : α → α) (n : ℕ) (a : α) : (walk next n a).length = n := by
  induction n generalizing a with
  | zero => rfl
  | succ n ih => rw [walk_succ, List.length_cons, ih]

/-- Two successor functions that agree on a walk have the same walk. -/
theorem walk_congr {next next' : α → α} {n : ℕ} {a : α}
    (h : ∀ x ∈ walk next n a, next' x = next x) : walk next' n a = walk next n a := by
  induction n generalizing a with
  | zero => rfl
  | succ n ih =>
    rw [walk_succ, walk_succ, h a (by simp [walk_succ])]
    rw [ih fun x hx => h x (by simp [walk_succ, hx])]

/-- A cell off the walk can be relinked. -/
theorem walk_update [DecidableEq α] {next : α → α} {n : ℕ} {a x : α} (y : α)
    (h : x ∉ walk next n a) : walk (Function.update next x y) n a = walk next n a :=
  walk_congr fun z hz => Function.update_of_ne (by rintro rfl; exact h hz) _ _

/-- Push `x` on the front by linking it to the old head. -/
theorem walk_push [DecidableEq α] {next : α → α} {n : ℕ} {a x : α}
    (h : x ∉ walk next n a) :
    walk (Function.update next x a) (n + 1) x = x :: walk next n a := by
  rw [walk_succ, Function.update_self, walk_update a h]

end Threaded
