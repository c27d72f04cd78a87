import GlendaDrivers.Lib.Bytes

/-!
# Packed records

A packed record is a sequence of little-endian fields without padding.  The fields are given by
their sizes; a field starts where the fields before it end.

* `number l o n`: the number in the `n` bytes from offset `o` on;
* `field sizes k l`: field `k` of the record at the start of `l`;
* `encode fs`: the bytes of a record, from the sizes and the values of its fields;
* `field_encode`: a field of an encoded record;
* `number_add`: a number that starts within a field.
-/

namespace Packed

open Bytes

/-- The number in the `n` bytes from offset `o` on. -/
def number (l : List UInt8) (o n : ℕ) : ℕ := ofLittle ((l.drop o).take n)

/-- Where field `k` starts. -/
def offset (sizes : List ℕ) (k : ℕ) : ℕ := (sizes.take k).sum

/-- Field `k` of the record at the start of `l`. -/
def field (sizes : List ℕ) (k : ℕ) (l : List UInt8) : ℕ :=
  number l (offset sizes k) (sizes[k]?.getD 0)

/-- The bytes of a record with the given sizes and values. -/
def encode : List (ℕ × ℕ) → List UInt8
  | [] => []
  | f :: fs => little f.1 f.2 ++ encode fs

variable {l rest : List UInt8} {fs : List (ℕ × ℕ)} {k n o v : ℕ}

theorem ofLittle_append (l l' : List UInt8) :
    ofLittle (l ++ l') = ofLittle l + 256 ^ l.length * ofLittle l' := by
  induction l with
  | nil => simp [ofLittle]
  | cons b l ih =>
    simp only [List.cons_append, ofLittle, ih, List.length_cons, pow_succ]
    ring

/-- A number is made of its first `n` bytes and the others. -/
theorem ofLittle_split (l : List UInt8) (n : ℕ) :
    ofLittle l = ofLittle (l.take n) + 256 ^ n * ofLittle (l.drop n) ∧
      ofLittle (l.take n) < 256 ^ n := by
  rcases Nat.le_or_le n l.length with h | h
  · have hlen : (l.take n).length = n := by simp [h]
    have hlt := ofLittle_lt (l.take n)
    have happ := ofLittle_append (l.take n) (l.drop n)
    rw [List.take_append_drop] at happ
    rw [hlen] at hlt happ
    exact ⟨happ, hlt⟩
  · have hlt := (ofLittle_lt l).trans_le (Nat.pow_le_pow_right (show 0 < 256 by norm_num) h)
    rw [List.take_of_length_le h, List.drop_eq_nil_of_le h]
    exact ⟨rfl, hlt⟩

theorem ofLittle_take (l : List UInt8) (n : ℕ) : ofLittle (l.take n) = ofLittle l % 256 ^ n := by
  obtain ⟨hsplit, hlt⟩ := ofLittle_split l n
  rw [hsplit, Nat.add_mul_mod_self_left, Nat.mod_eq_of_lt hlt]

theorem ofLittle_drop (l : List UInt8) (n : ℕ) : ofLittle (l.drop n) = ofLittle l / 256 ^ n := by
  obtain ⟨hsplit, hlt⟩ := ofLittle_split l n
  rw [hsplit, Nat.add_mul_div_left _ _ (by positivity), Nat.div_eq_of_lt hlt, Nat.zero_add]

/-- A number that starts `d` bytes behind offset `o`. -/
theorem number_add (l : List UInt8) (o d n : ℕ) :
    number l (o + d) n = ofLittle (l.drop o) / 256 ^ d % 256 ^ n := by
  rw [number, ofLittle_take, ← List.drop_drop, ofLittle_drop]

/-- The first field of a record. -/
theorem ofLittle_encode_cons (hv : v < 256 ^ n) (fs : List (ℕ × ℕ)) (rest : List UInt8) :
    ofLittle (encode ((n, v) :: fs) ++ rest) = v + 256 ^ n * ofLittle (encode fs ++ rest) := by
  rw [encode, List.append_assoc, ofLittle_append, ofLittle_little hv, length_little]

@[simp] theorem length_encode (fs : List (ℕ × ℕ)) :
    (encode fs).length = (fs.map Prod.fst).sum := by
  induction fs with
  | nil => rfl
  | cons f fs ih => simp [encode, ih]

/-- The record from field `k` on. -/
theorem drop_encode (fs : List (ℕ × ℕ)) (k : ℕ) (rest : List UInt8) :
    (encode fs ++ rest).drop (offset (fs.map Prod.fst) k) =
      if k ≤ fs.length then encode (fs.drop k) ++ rest else rest := by
  induction fs generalizing k with
  | nil => cases k <;> simp [encode, offset]
  | cons f fs ih =>
    cases k with
    | zero => simp [offset]
    | succ k =>
      have hoff : offset ((f :: fs).map Prod.fst) (k + 1) =
          f.1 + offset (fs.map Prod.fst) k := by
        simp [offset]
      rw [hoff, encode, List.append_assoc, ← List.drop_drop, List.drop_left' (length_little _ _),
        ih k]
      simp

/-- A field of an encoded record. -/
theorem field_encode (hk : fs[k]? = some (n, v)) (hv : v < 256 ^ n) (rest : List UInt8) :
    field (fs.map Prod.fst) k (encode fs ++ rest) = v := by
  obtain ⟨hlt, hget⟩ := List.getElem?_eq_some_iff.1 hk
  have hsize : (fs.map Prod.fst)[k]?.getD 0 = n := by
    rw [List.getElem?_map, hk]
    rfl
  rw [field, hsize, number, drop_encode, if_pos hlt.le, List.drop_eq_getElem_cons hlt, hget,
    ofLittle_take, ofLittle_encode_cons hv, Nat.add_mul_mod_self_left, Nat.mod_eq_of_lt hv]

end Packed
