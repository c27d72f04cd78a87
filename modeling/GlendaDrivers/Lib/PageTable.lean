import Mathlib.Tactic

/-!
# Page tables

A page table gives physical pages to some of the virtual pages.  Pages are numbers: with pages of
`P` bytes, the address `a` is in page `a / P`.

* `map`, `unmap`: a run of consecutive pages;
* `translate`: the physical address of a virtual one.
-/

/-- The physical page of each virtual page. -/
def PageTable : Type := ℕ → Option ℕ

namespace PageTable

variable {t t' : PageTable} {v p n x j P a : ℕ}

/-- Map the `n` pages from `v` on to those from `p` on. -/
def map (t : PageTable) (v p n : ℕ) : PageTable := fun x =>
  if x ∈ Set.Ico v (v + n) then some (p + (x - v)) else t x

/-- Unmap the `n` pages from `v` on. -/
def unmap (t : PageTable) (v n : ℕ) : PageTable := fun x =>
  if x ∈ Set.Ico v (v + n) then none else t x

/-- The physical address of the virtual address `a`. -/
def translate (t : PageTable) (P a : ℕ) : Option ℕ := (t (a / P)).map fun q => q * P + a % P

theorem map_of_mem (h : x ∈ Set.Ico v (v + n)) : t.map v p n x = some (p + (x - v)) := if_pos h

theorem map_of_notMem (h : x ∉ Set.Ico v (v + n)) : t.map v p n x = t x := if_neg h

theorem unmap_of_mem (h : x ∈ Set.Ico v (v + n)) : t.unmap v n x = none := if_pos h

theorem unmap_of_notMem (h : x ∉ Set.Ico v (v + n)) : t.unmap v n x = t x := if_neg h

/-- An address translates by the entry of its page. -/
theorem translate_of_eq_some {q : ℕ} (h : t (a / P) = some q) :
    t.translate P a = some (q * P + a % P) := by
  rw [translate, h, Option.map_some]

end PageTable
