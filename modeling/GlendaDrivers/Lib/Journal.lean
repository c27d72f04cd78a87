import GlendaDrivers.Lib.BlockDisk

/-!
# Journals of a disk

A journal lists the transfers that were made on a disk one after the other, each with the bytes
that it moved.

* `Moved`, `Moved.Makes`: a transfer with its bytes, and what it does to a disk;
* `Journal`: the transfers that lead from one disk to another;
* `Journal.read_eq`: bytes that no transfer wrote;
* `Journal.read_written`: a transfer reads what was written last.
-/

namespace BlockDisk

/-- A transfer, with the bytes that it moved. -/
structure Moved where
  transfer : Transfer
  data : List UInt8
  deriving DecidableEq

/-- The transfer was made on the disk `d`, and left `d'`. -/
structure Moved.Makes (m : Moved) (d d' : List UInt8) : Prop where
  fits : m.transfer.start + m.transfer.len ≤ d.length
  length : m.data.length = m.transfer.len
  read : m.transfer.toDisk = false → m.data = BlockDisk.read d m.transfer.start m.transfer.len
  after : d' = if m.transfer.toDisk then write d m.transfer.start m.data else d

/-- The transfers of a list, one after the other. -/
inductive Journal : List UInt8 → List Moved → List UInt8 → Prop
  | nil (d : List UInt8) : Journal d [] d
  | cons {d d' d'' : List UInt8} {m : Moved} {l : List Moved} (h : m.Makes d d')
      (hrest : Journal d' l d'') : Journal d (m :: l) d''

/-! ### Bytes -/

section Bytes

variable {d data : List UInt8} {start start' n : ℕ}

theorem length_write (h : start + data.length ≤ d.length) :
    (write d start data).length = d.length := by
  simp only [write, List.length_append, List.length_take, List.length_drop]
  omega

theorem length_read (h : start + n ≤ d.length) : (read d start n).length = n := by
  rw [read, List.length_take, List.length_drop]
  omega

/-- A byte after a write. -/
theorem getElem?_write (h : start + data.length ≤ d.length) (i : ℕ) :
    (write d start data)[i]? =
      if start ≤ i ∧ i < start + data.length then data[i - start]? else d[i]? := by
  have htake : (d.take start).length = start := by
    rw [List.length_take]
    omega
  rw [write, List.append_assoc]
  by_cases hlow : i < start
  · rw [List.getElem?_append_left (by omega), List.getElem?_take_of_lt hlow, if_neg (by omega)]
  · rw [List.getElem?_append_right (by omega), htake]
    by_cases hhigh : i < start + data.length
    · rw [List.getElem?_append_left (by omega), if_pos (by omega)]
    · rw [List.getElem?_append_right (by omega), List.getElem?_drop, if_neg (by omega)]
      congr 1
      omega

theorem getElem?_read (d : List UInt8) (start n i : ℕ) :
    (read d start n)[i]? = if i < n then d[start + i]? else none := by
  rw [read]
  by_cases h : i < n
  · rw [if_pos h, List.getElem?_take_of_lt h, List.getElem?_drop]
  · rw [if_neg h]
    exact List.getElem?_eq_none ((List.length_take_le n _).trans (Nat.not_lt.1 h))

/-- The bytes that were written. -/
theorem read_write (h : start + data.length ≤ d.length) :
    read (write d start data) start data.length = data := by
  refine List.ext_getElem? fun i => ?_
  rw [getElem?_read, getElem?_write h]
  by_cases hi : i < data.length
  · rw [if_pos hi, if_pos (by omega), Nat.add_sub_cancel_left]
  · rw [if_neg hi, List.getElem?_eq_none (Nat.not_lt.1 hi)]

/-- Bytes that were written elsewhere. -/
theorem read_write_of_disjoint (h : start + data.length ≤ d.length)
    (hd : Disjoint (Set.Ico start (start + data.length)) (Set.Ico start' (start' + n))) :
    read (write d start data) start' n = read d start' n := by
  refine List.ext_getElem? fun i => ?_
  rw [getElem?_read, getElem?_read]
  by_cases hi : i < n
  · have hmem : start' + i ∈ Set.Ico start' (start' + n) := ⟨by omega, by omega⟩
    have hnot : ¬(start ≤ start' + i ∧ start' + i < start + data.length) :=
      Set.disjoint_right.1 hd hmem
    rw [if_pos hi, if_pos hi, getElem?_write h, if_neg hnot]
  · rw [if_neg hi, if_neg hi]

end Bytes

/-! ### Transfers -/

variable {d d' d'' : List UInt8} {m w r : Moved} {l l' mid : List Moved} {start n : ℕ}

namespace Moved.Makes

section Transfer

variable {t : Transfer} {data : List UInt8}

theorem of_write (hdir : t.toDisk = true) (hfits : t.start + t.len ≤ d.length)
    (hlen : data.length = t.len) : Makes ⟨t, data⟩ d (write d t.start data) where
  fits := hfits
  length := hlen
  read h := absurd (hdir.symm.trans h) (by decide)
  after := (if_pos hdir).symm

theorem of_read (hdir : t.toDisk = false) (hfits : t.start + t.len ≤ d.length) :
    Makes ⟨t, BlockDisk.read d t.start t.len⟩ d d where
  fits := hfits
  length := length_read hfits
  read _ := rfl
  after := (if_neg (Bool.eq_false_iff.1 hdir)).symm

end Transfer

/-- The bytes lie on the disk. -/
theorem room (h : m.Makes d d') : m.transfer.start + m.data.length ≤ d.length := by
  rw [h.length]
  exact h.fits

theorem length_eq (h : m.Makes d d') : d'.length = d.length := by
  rw [h.after]
  split_ifs
  · exact length_write h.room
  · rfl

/-- A transfer that wrote elsewhere, or wrote nothing. -/
theorem read_eq (h : m.Makes d d')
    (hd : m.transfer.toDisk = true → Disjoint m.transfer.bytes (Set.Ico start (start + n))) :
    BlockDisk.read d' start n = BlockDisk.read d start n := by
  rw [h.after]
  split_ifs with hdir
  · refine read_write_of_disjoint h.room ?_
    rw [h.length]
    exact hd hdir
  · rfl

/-- What was written can be read. -/
theorem read_self (h : m.Makes d d') (hdir : m.transfer.toDisk = true) :
    BlockDisk.read d' m.transfer.start m.transfer.len = m.data := by
  rw [h.after, if_pos hdir, ← h.length]
  exact read_write h.room

end Moved.Makes

namespace Journal

theorem append (h : Journal d l d') (h' : Journal d' l' d'') : Journal d (l ++ l') d'' := by
  induction h with
  | nil d => exact h'
  | cons hm _ ih => exact .cons hm (ih h')

/-- One more transfer. -/
theorem snoc (h : Journal d l d') (hm : m.Makes d' d'') : Journal d (l ++ [m]) d'' :=
  h.append (.cons hm (.nil d''))

/-- The disk between two parts of a journal. -/
theorem exists_between (h : Journal d (l ++ l') d'') :
    ∃ d', Journal d l d' ∧ Journal d' l' d'' := by
  induction l generalizing d with
  | nil => exact ⟨d, .nil d, h⟩
  | cons m l ih =>
    cases h with
    | cons hm hrest =>
      obtain ⟨d', hl, hl'⟩ := ih hrest
      exact ⟨d', .cons hm hl, hl'⟩

/-- Bytes that no transfer wrote. -/
theorem read_eq (h : Journal d l d') (hd : ∀ m ∈ l, m.transfer.toDisk = true →
    Disjoint m.transfer.bytes (Set.Ico start (start + n))) :
    read d' start n = read d start n := by
  induction h with
  | nil d => rfl
  | cons hm _ ih =>
    rw [ih fun m hmem => hd m (List.mem_cons_of_mem _ hmem), hm.read_eq (hd _ List.mem_cons_self)]

/-- A transfer reads what another one wrote to the same bytes, if nothing was written there in
between. -/
theorem read_written (h : Journal d (l ++ w :: mid ++ r :: l') d')
    (hw : w.transfer.toDisk = true) (hr : r.transfer.toDisk = false)
    (hstart : r.transfer.start = w.transfer.start) (hlen : r.transfer.len = w.transfer.len)
    (hmid : ∀ m ∈ mid, m.transfer.toDisk = true → Disjoint m.transfer.bytes r.transfer.bytes) :
    r.data = w.data := by
  obtain ⟨d₁, hpre, hpost⟩ := exists_between h
  obtain ⟨d₂, -, hpre⟩ := exists_between hpre
  cases hpre with
  | cons hmw hbetween =>
    cases hpost with
    | cons hmr _ =>
      rw [hmr.read hr, hbetween.read_eq hmid, hstart, hlen]
      exact hmw.read_self hw

end Journal

end BlockDisk
