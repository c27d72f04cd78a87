import Mathlib.Tactic

/-!
# The growable ring buffer

A double-ended queue kept in an array used as a ring: `head` is the index of the first element,
and the elements that do not fit between `head` and the end of the array continue at its start.

* `pushBack`, `popFront`: the operations, `popFronts` the second one repeated;
* `asSlices`: the two contiguous runs of the elements.
-/

universe u

/-- A queue in an array of `cap` elements, of which `items` are in use from index `head` on. -/
structure VecDeque (α : Type u) where
  cap : ℕ
  head : ℕ
  items : List α
  head_lt : head < cap
  length_le : items.length ≤ cap
  deriving DecidableEq

namespace VecDeque

variable {α : Type u}

/-- The empty queue. -/
def withCapacity (cap : ℕ) (h : 0 < cap) : VecDeque α := ⟨cap, 0, [], h, Nat.zero_le cap⟩

/-- The number of elements. -/
def len (q : VecDeque α) : ℕ := q.items.length

/-- The elements up to the end of the array, and those from its start on. -/
def asSlices (q : VecDeque α) : List α × List α :=
  (q.items.take (q.cap - q.head), q.items.drop (q.cap - q.head))

/-- The index of the first element when the array has been doubled: the shorter of the two runs
is moved. -/
def grownHead (q : VecDeque α) : ℕ :=
  if q.items.length - (q.cap - q.head) < q.cap - q.head then q.head
  else 2 * q.cap - (q.cap - q.head)

theorem grownHead_lt (q : VecDeque α) : q.grownHead < 2 * q.cap := by
  have := q.head_lt
  unfold grownHead
  split <;> omega

/-- Double the array. -/
def grow (q : VecDeque α) : VecDeque α where
  cap := 2 * q.cap
  head := q.grownHead
  items := q.items
  head_lt := q.grownHead_lt
  length_le := q.length_le.trans (Nat.le_mul_of_pos_left q.cap Nat.two_pos)

/-- Append an element; a full array grows first. -/
def pushBack (q : VecDeque α) (a : α) : VecDeque α :=
  if h : q.items.length < q.cap then
    { q with
      items := q.items ++ [a]
      length_le := by rw [List.length_append]; exact h }
  else
    { q.grow with
      items := q.items ++ [a]
      length_le := by
        have := q.length_le
        have := q.head_lt
        simp only [List.length_append, List.length_singleton, grow]
        omega }

/-- Remove the first element. -/
def popFront (q : VecDeque α) : Option α × VecDeque α :=
  match h : q.items with
  | [] => (none, q)
  | a :: rest =>
      (some a,
        { q with
          head := (q.head + 1) % q.cap
          items := rest
          head_lt := Nat.mod_lt _ (Nat.zero_lt_of_lt q.head_lt)
          length_le := by
            have := q.length_le
            rw [h, List.length_cons] at this
            exact Nat.le_of_succ_le this })

/-- Remove the first `n` elements, one after the other. -/
def popFronts : ℕ → VecDeque α → VecDeque α
  | 0, q => q
  | n + 1, q => popFronts n q.popFront.2

@[simp] theorem items_pushBack (q : VecDeque α) (a : α) :
    (q.pushBack a).items = q.items ++ [a] := by
  unfold pushBack
  split <;> rfl

theorem items_popFront (q : VecDeque α) : q.popFront.2.items = q.items.tail := by
  unfold popFront
  split
  · next h => simp [h]
  · next h => simp [h]

@[simp] theorem items_popFronts (n : ℕ) (q : VecDeque α) :
    (popFronts n q).items = q.items.drop n := by
  induction n generalizing q with
  | zero => rfl
  | succ n ih => rw [popFronts, ih, items_popFront, List.drop_tail]

@[simp] theorem asSlices_append (q : VecDeque α) : q.asSlices.1 ++ q.asSlices.2 = q.items :=
  List.take_append_drop _ _

/-- The first run is no longer than the queue. -/
theorem length_asSlices_le (q : VecDeque α) : q.asSlices.1.length ≤ q.items.length := by
  rw [← q.asSlices_append, List.length_append]
  exact Nat.le_add_right _ _

end VecDeque
