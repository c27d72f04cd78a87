import Mathlib.Tactic

/-!
# Rectangles of a raster

A raster gives a value for each pixel, by its column and its row.

* `Rect.Covers`, `Rect.Within`: the pixels of a rectangle;
* `Rect.paint`: the pixels of a rectangle are replaced;
* `paintAll`, `lastCover`: after several such changes a pixel is as the last one left it that covers
  it;
* `Rect.row_add`: the distance of a pixel from the corner of its rectangle, row by row.
-/

/-- A rectangle, by its corner, its width and its height. -/
structure Rect where
  x : ℕ
  y : ℕ
  w : ℕ
  h : ℕ
  deriving DecidableEq

namespace Rect

variable {α : Type*} {r : Rect} {i j width height : ℕ}

/-- The pixel in column `i` and row `j` is in the rectangle. -/
def Covers (r : Rect) (i j : ℕ) : Prop := r.x ≤ i ∧ i < r.x + r.w ∧ r.y ≤ j ∧ j < r.y + r.h

instance (r : Rect) (i j : ℕ) : Decidable (r.Covers i j) :=
  inferInstanceAs (Decidable (_ ∧ _ ∧ _ ∧ _))

/-- The rectangle lies in a raster of the given size. -/
def Within (r : Rect) (width height : ℕ) : Prop := r.x + r.w ≤ width ∧ r.y + r.h ≤ height

instance (r : Rect) (width height : ℕ) : Decidable (r.Within width height) :=
  inferInstanceAs (Decidable (_ ∧ _))

theorem Covers.lt (h : r.Covers i j) (hr : r.Within width height) : i < width ∧ j < height :=
  ⟨h.2.1.trans_le hr.1, h.2.2.2.trans_le hr.2⟩

/-- The whole raster. -/
def whole (width height : ℕ) : Rect := ⟨0, 0, width, height⟩

@[simp] theorem covers_whole : (whole width height).Covers i j ↔ i < width ∧ j < height := by
  simp [Covers, whole]

theorem within_whole (width height : ℕ) : (whole width height).Within width height := by
  simp [Within, whole]

/-- `dst`, with the pixels of the rectangle from `src`. -/
def paint (r : Rect) (src dst : ℕ → ℕ → α) : ℕ → ℕ → α :=
  fun i j => if r.Covers i j then src i j else dst i j

variable {src dst : ℕ → ℕ → α}

theorem paint_of_covers (h : r.Covers i j) : r.paint src dst i j = src i j := if_pos h

theorem paint_of_not_covers (h : ¬ r.Covers i j) : r.paint src dst i j = dst i j := if_neg h

/-- Only the pixels of the rectangle matter. -/
theorem paint_congr {src' : ℕ → ℕ → α} (h : ∀ i j, r.Covers i j → src i j = src' i j) :
    r.paint src dst = r.paint src' dst := by
  funext i j
  by_cases hc : r.Covers i j
  · rw [paint_of_covers hc, paint_of_covers hc, h i j hc]
  · rw [paint_of_not_covers hc, paint_of_not_covers hc]

/-- A pixel, counted from the corner of its rectangle in rows of `width` pixels. -/
theorem row_add (h : r.Covers i j) :
    (r.y * width + r.x) + ((j - r.y) * width + (i - r.x)) = j * width + i := by
  obtain ⟨hx, -, hy, -⟩ := h
  have hrow : r.y * width + (j - r.y) * width = j * width := by
    rw [← Nat.add_mul, Nat.add_sub_cancel' hy]
  omega

/-- The last pixel of a rectangle that is not empty, counted in the same way, and the number of
pixels. -/
theorem row_last (h : r.Within width height) (hh : 0 < r.h) :
    (r.y * width + r.x) + ((r.h - 1) * width + r.w) ≤ width * height := by
  obtain ⟨hx, hy⟩ := h
  have hrows : r.y * width + (r.h - 1) * width + width = (r.y + r.h) * width := by
    rw [← Nat.add_mul, ← Nat.succ_mul]
    congr 1
    omega
  have hle : (r.y + r.h) * width ≤ width * height := by
    rw [Nat.mul_comm width]
    exact Nat.mul_le_mul_right width hy
  omega

end Rect

section PaintAll

variable {α β : Type*}

/-- The changes `l`, one after the other; change `b` takes the pixels from `src b`. -/
def paintAll (src : β → ℕ → ℕ → α) (l : List (Rect × β)) (dst : ℕ → ℕ → α) : ℕ → ℕ → α :=
  l.foldl (fun dst p => p.1.paint (src p.2) dst) dst

/-- The last change that covers a pixel. -/
def lastCover (l : List (Rect × β)) (i j : ℕ) : Option β :=
  (l.reverse.find? fun p => p.1.Covers i j).map Prod.snd

/-- A pixel is as the last change left it that covers it. -/
theorem paintAll_apply (src : β → ℕ → ℕ → α) (l : List (Rect × β)) (dst : ℕ → ℕ → α) (i j : ℕ) :
    paintAll src l dst i j = (lastCover l i j).elim (dst i j) fun b => src b i j := by
  unfold lastCover
  induction l using List.reverseRecOn with
  | nil => rfl
  | append_singleton l p ih =>
    have hlast : paintAll src (l ++ [p]) dst = p.1.paint (src p.2) (paintAll src l dst) :=
      List.foldl_concat ..
    rw [hlast, List.reverse_append, List.reverse_singleton, List.singleton_append]
    by_cases hc : p.1.Covers i j
    · rw [Rect.paint_of_covers hc]
      simp [hc]
    · rw [Rect.paint_of_not_covers hc, ih]
      simp [hc]

end PaintAll
