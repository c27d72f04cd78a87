import Mathlib.Tactic

/-!
# Traces of a memory

A memory is a function from addresses, which are natural numbers, to cells.  A trace lists the
reads and the writes that were made on a memory one after the other, each with the cells that it
moved.

* `fetch`, `put`: consecutive cells;
* `Access`, `Trace`: the accesses that lead from one memory to another;
* `Trace.cell_eq`: a cell that was not written;
* `Trace.last_written`: a read finds in each cell what was written there last.
-/

namespace MemoryTrace

variable {β : Type} {m m' m'' : ℕ → β} {p a n : ℕ} {cells : List β}

/-- The `n` cells from `p` on. -/
def fetch (m : ℕ → β) (p n : ℕ) : List β := (List.range n).map fun i => m (p + i)

/-- Put cells at `p`, `p + 1`, …. -/
def put (m : ℕ → β) (p : ℕ) (cells : List β) : ℕ → β := fun a =>
  if p ≤ a then (cells[a - p]?).getD (m a) else m a

/-- A read or a write of the cells from `p` on, with the cells that it moved. -/
inductive Access (β : Type)
  | read (p : ℕ) (cells : List β)
  | write (p : ℕ) (cells : List β)
  deriving DecidableEq

/-- The cell of the address `a`, among those from `p` on. -/
def cellAt (p : ℕ) (cells : List β) (a : ℕ) : Option β := if p ≤ a then cells[a - p]? else none

namespace Access

/-- What an access found at `a`. -/
def found : Access β → ℕ → Option β
  | .read p cells, a => cellAt p cells a
  | .write _ _, _ => none

/-- What an access put at `a`. -/
def wrote : Access β → ℕ → Option β
  | .read _ _, _ => none
  | .write p cells, a => cellAt p cells a

end Access

/-- The accesses of a list, one after the other. -/
inductive Trace : (ℕ → β) → List (Access β) → (ℕ → β) → Prop
  | nil (m : ℕ → β) : Trace m [] m
  | read {m m' : ℕ → β} {l : List (Access β)} (p n : ℕ) (h : Trace m l m') :
      Trace m (.read p (fetch m p n) :: l) m'
  | write {m m' : ℕ → β} {l : List (Access β)} (p : ℕ) (cells : List β)
      (h : Trace (put m p cells) l m') : Trace m (.write p cells :: l) m'

theorem put_apply (m : ℕ → β) (p : ℕ) (cells : List β) (a : ℕ) :
    put m p cells a = (cellAt p cells a).getD (m a) := by
  unfold put cellAt
  split_ifs <;> rfl

/-- A cell that was fetched. -/
theorem eq_of_cellAt_fetch {b : β} (h : cellAt p (fetch m p n) a = some b) : b = m a := by
  unfold cellAt fetch at h
  split_ifs at h with hle
  · obtain ⟨hlt, rfl⟩ := List.getElem?_eq_some_iff.1 h
    rw [List.getElem_map, List.getElem_range, Nat.add_sub_cancel' hle]

namespace Trace

variable {l l' pre mid post : List (Access β)} {r w : Access β}

theorem append (h : Trace m l m') (h' : Trace m' l' m'') : Trace m (l ++ l') m'' := by
  induction h with
  | nil m => exact h'
  | read p n _ ih => exact .read p n (ih h')
  | write p cells _ ih => exact .write p cells (ih h')

/-- One more read. -/
theorem snoc_read (h : Trace m l m') (p n : ℕ) : Trace m (l ++ [.read p (fetch m' p n)]) m' :=
  h.append (.read p n (.nil m'))

/-- One more write. -/
theorem snoc_write (h : Trace m l m') (p : ℕ) (cells : List β) :
    Trace m (l ++ [.write p cells]) (put m' p cells) :=
  h.append (.write p cells (.nil _))

/-- The memory between two parts of a trace. -/
theorem exists_between (h : Trace m (l ++ l') m'') : ∃ m', Trace m l m' ∧ Trace m' l' m'' := by
  induction l generalizing m with
  | nil => exact ⟨m, .nil m, h⟩
  | cons e l ih =>
    cases h with
    | read p n h =>
      obtain ⟨m', hl, hl'⟩ := ih h
      exact ⟨m', .read p n hl, hl'⟩
    | write p cells h =>
      obtain ⟨m', hl, hl'⟩ := ih h
      exact ⟨m', .write p cells hl, hl'⟩

/-- A cell that was not written. -/
theorem cell_eq (h : Trace m l m') (hl : ∀ e ∈ l, e.wrote a = none) : m' a = m a := by
  induction h with
  | nil m => rfl
  | read p n _ ih => exact ih fun e he => hl e (List.mem_cons_of_mem _ he)
  | write p cells _ ih =>
    have hfirst : cellAt p cells a = none := hl _ List.mem_cons_self
    rw [ih fun e he => hl e (List.mem_cons_of_mem _ he), put_apply, hfirst, Option.getD_none]

/-- A read finds what was written last. -/
theorem last_written (h : Trace m (pre ++ w :: mid ++ r :: post) m') {b b' : β}
    (hw : w.wrote a = some b) (hr : r.found a = some b') (hmid : ∀ e ∈ mid, e.wrote a = none) :
    b' = b := by
  obtain ⟨m₁, hpre, hpost⟩ := exists_between h
  obtain ⟨m₂, -, hpre⟩ := exists_between hpre
  have hfound : b' = m₁ a := by
    cases hpost with
    | read p n _ => exact eq_of_cellAt_fetch hr
    | write p cells _ => exact absurd hr (by simp [Access.found])
  cases hpre with
  | read p n _ => exact absurd hw (by simp [Access.wrote])
  | write p cells hbetween =>
    have hcell : cellAt p cells a = some b := hw
    rw [hfound, hbetween.cell_eq hmid, put_apply, hcell, Option.getD_some]

end Trace

end MemoryTrace
