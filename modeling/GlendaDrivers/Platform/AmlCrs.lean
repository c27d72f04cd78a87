import GlendaDrivers.Platform.Aml

/-!
# The walk over `_CRS`

* `crs_walk_safe`: the walk ends, and it panics exactly when it comes to an item that overruns;
* `Descriptor`: well-formed resource descriptors, and their bytes;
* `crs_decode`: the walk over a list of them.
-/

namespace GlendaDrivers.Aml

open Prog

/-! ### Any buffer -/

section Walk

variable {buffer : List UInt8} {i j n : ℕ} {s : Crs}

/-- The walk goes forward, from a position in the buffer. -/
theorem lt_of_crsNext (h : crsNext buffer i = some j) : i < buffer.length ∧ i < j := by
  simp only [crsNext] at h
  split_ifs at h <;> obtain rfl := Option.some.inj h <;> omega

/-- Where the walk goes does not depend on what it found. -/
theorem crsStep_moves (buffer : List UInt8) : Moves (crsNext buffer) (crsStep buffer) := by
  intro i s r s' h
  rw [crsStep_eq] at h
  split_ifs at h with hover
  · exact nomatch (Prod.mk.inj h).1
  · obtain rfl := Outcome.ret.inj (Prod.mk.inj h).1
    cases crsNext buffer i <;> rfl

/-- An iteration that returned did not overrun. -/
theorem not_overrun_of_ret {r : ℕ ⊕ Unit} {s' : Crs} (h : crsStep buffer i s = (.ret r, s')) :
    ¬ Overrun buffer i := by
  intro hover
  rw [crsStep_eq, if_pos hover] at h
  exact nomatch (Prod.mk.inj h).1

/-- **The walk over any buffer.**  It ends, and it ends without a panic iff no item that it comes
to overruns. -/
theorem crs_walk_safe (buffer : List UInt8) :
    (crsWalk buffer ⟨[], []⟩).1 ≠ .running ∧
    ((crsWalk buffer ⟨[], []⟩).1.Returns ↔
      ∀ i, Visits (crsNext buffer) 0 i → ¬ Overrun buffer i) := by
  have hμ : ∀ {i j}, crsNext buffer i = some j → buffer.length - j < buffer.length - i := by
    intro i j h
    have := lt_of_crsNext h
    omega
  refine ⟨?_, ?_, fun h => ?_⟩
  · refine loop_ne_running (buffer.length - ·) (fun i s => ?_) (fun i s j s' h => ?_) (by omega)
    · rw [crsStep_eq]
      split_ifs <;> exact nofun
    · exact hμ (crsStep_moves buffer i s _ s' h).symm
  · rintro ⟨u, hu⟩ i hv
    obtain ⟨k, s₁, hk⟩ := (crsStep_moves buffer).loop_of_visits hv (Prod.ext hu rfl)
    obtain ⟨-, r, s₂, -, hr, -⟩ := loop_eq_ret hk
    exact not_overrun_of_ret hr
  · have hbody : ∀ i s, Visits (crsNext buffer) 0 i → ∃ r s', crsStep buffer i s = (.ret r, s') ∧
        r.elim (fun j => Visits (crsNext buffer) 0 j ∧ buffer.length - j < buffer.length - i)
          fun _ => True := by
      intro i s hv
      refine ⟨_, _, crsStep_eq.trans (if_neg (h i hv)), ?_⟩
      cases hn : crsNext buffer i with
      | none => trivial
      | some j => exact ⟨hv.tail hn, hμ hn⟩
    have hfuel : buffer.length - 0 < buffer.length + 1 := by omega
    obtain ⟨u, s', hs', -⟩ := loop_returns (buffer.length - ·) hbody (Visits.refl 0) hfuel
    exact ⟨u, congrArg Prod.fst hs'⟩

/-- A buffer that ends behind the tag of an IRQ item. -/
theorem crs_walk_panics : (crsWalk [0x22] ⟨[], []⟩).1 = .panic := rfl

end Walk

/-! ### Well-formed descriptors -/

/-- The bytes of a small item. -/
def smallBytes (type : ℕ) (data : List UInt8) : List UInt8 :=
  UInt8.ofNat (type * 8 + data.length) :: data

/-- The bytes of a large item. -/
def largeBytes (type : ℕ) (data : List UInt8) : List UInt8 :=
  UInt8.ofNat (128 + type) :: (Bytes.little 2 data.length ++ data)

/-- A resource descriptor other than the end tag. -/
inductive Descriptor
  | memory32Fixed (info : UInt8) (base size : UInt32)
  | irq (mask : UInt16) (flags : Option UInt8)
  | small (type : ℕ) (data : List UInt8)
      (h : type < 15 ∧ type ≠ 4 ∧ data.length ≤ 7)
  | large (type : ℕ) (data : List UInt8)
      (h : type < 128 ∧ type ≠ 6 ∧ data.length < 2 ^ 16)

namespace Descriptor

def encode : Descriptor → List UInt8
  | memory32Fixed info base size =>
      largeBytes 6 (info :: (Bytes.little 4 base.toNat ++ Bytes.little 4 size.toNat))
  | irq mask flags => smallBytes 4 (Bytes.little 2 mask.toNat ++ flags.toList)
  | small type data _ => smallBytes type data
  | large type data _ => largeBytes type data

/-- The memory that a descriptor lists. -/
def regions : Descriptor → List MMIORegion
  | memory32Fixed _ base size => [⟨base.toUInt64, size.toUInt64⟩]
  | _ => []

/-- The interrupts that a descriptor lists. -/
def interrupts : Descriptor → List UInt64
  | irq mask _ => setBits mask.toNat
  | _ => []

end Descriptor

/-- The tag of an end tag with a length field of `k`. -/
def endTag (k : Fin 8) : UInt8 := UInt8.ofNat (15 * 8 + k)

section Decode

variable {pre tail data : List UInt8} {type n : ℕ} {s : Crs}

theorem byteAt_append (pre l : List UInt8) (j : ℕ) :
    byteAt (pre ++ l) (pre.length + j) = byteAt l j := by
  rw [byteAt, List.getElem?_append_right (Nat.le_add_right _ _), Nat.add_sub_cancel_left, byteAt]

theorem byteAt_append_left {l : List UInt8} {j : ℕ} (h : j < l.length) (tail : List UInt8) :
    byteAt (l ++ tail) j = byteAt l j := by
  rw [byteAt, List.getElem?_append_left h, byteAt]

/-- An iteration at a small item. -/
theorem crsStep_small (htype : type < 15) (hdata : data.length ≤ 7) :
    crsStep (pre ++ (smallBytes type data ++ tail)) pre.length s =
      (.ret (.inl (pre.length + (smallBytes type data).length)), ⟨s.mmio, s.irq ++
        if type = 4 ∧ 2 ≤ data.length then setBits (Bytes.ofLittle [byteAt data 0, byteAt data 1])
        else []⟩) := by
  generalize hb : pre ++ (smallBytes type data ++ tail) = buffer
  have hlength : buffer.length = pre.length + (data.length + 1 + tail.length) := by
    rw [← hb]
    simp [smallBytes]
    omega
  have htag : (byteAt buffer pre.length).toNat = type * 8 + data.length := by
    rw [← hb, ← Nat.add_zero pre.length, byteAt_append]
    show (UInt8.ofNat (type * 8 + data.length)).toNat = _
    rw [UInt8.toNat_ofNat']
    omega
  have hbyte : ∀ k, byteAt buffer (pre.length + (k + 1)) = byteAt (data ++ tail) k := by
    intro k
    rw [← hb, byteAt_append]
    rfl
  have hover : ¬ Overrun buffer pre.length := by
    unfold Overrun
    omega
  have hnext : crsNext buffer pre.length = some (pre.length + (smallBytes type data).length) := by
    simp only [crsNext, htag]
    rw [if_neg (by omega), if_neg (by omega), if_neg (by omega)]
    simp only [smallBytes, List.length_cons]
    congr 1
    omega
  have hmmio : mmioAt buffer pre.length = [] := if_neg (by omega)
  have hirq : irqAt buffer pre.length = if type = 4 ∧ 2 ≤ data.length then
      setBits (Bytes.ofLittle [byteAt data 0, byteAt data 1]) else [] := by
    simp only [irqAt, htag]
    by_cases h : type = 4 ∧ 2 ≤ data.length
    · rw [if_pos (by omega), if_pos h, hbyte 0, hbyte 1, byteAt_append_left (by omega),
        byteAt_append_left (by omega)]
    · rw [if_neg (by omega), if_neg h]
  rw [crsStep_eq, if_neg hover, hnext, hmmio, List.append_nil, hirq]
  rfl

/-- The word at `k`. -/
def wordAt (data : List UInt8) (k : ℕ) : UInt32 := UInt32.ofNat (Bytes.ofLittle
  [byteAt data k, byteAt data (k + 1), byteAt data (k + 2), byteAt data (k + 3)])

/-- An iteration at a large item. -/
theorem crsStep_large (htype : type < 128) (hdata : data.length < 2 ^ 16)
    (hsix : type = 6 → 9 ≤ data.length) :
    crsStep (pre ++ (largeBytes type data ++ tail)) pre.length s =
      (.ret (.inl (pre.length + (largeBytes type data).length)), ⟨s.mmio ++
        if type = 6 then [⟨(wordAt data 1).toUInt64, (wordAt data 5).toUInt64⟩] else [],
        s.irq⟩) := by
  generalize hb : pre ++ (largeBytes type data ++ tail) = buffer
  have hlength : buffer.length = pre.length + (data.length + 3 + tail.length) := by
    rw [← hb]
    simp [largeBytes]
    omega
  have htag : (byteAt buffer pre.length).toNat = 128 + type := by
    rw [← hb, ← Nat.add_zero pre.length, byteAt_append]
    show (UInt8.ofNat (128 + type)).toNat = _
    rw [UInt8.toNat_ofNat']
    omega
  have hlen : largeLen buffer pre.length = data.length := by
    rw [largeLen, ← hb, byteAt_append, byteAt_append]
    exact Bytes.ofLittle_little (n := 2) hdata
  have hbyte : ∀ k, byteAt buffer (pre.length + (k + 3)) = byteAt (data ++ tail) k := by
    intro k
    rw [← hb, byteAt_append]
    rfl
  have hover : ¬ Overrun buffer pre.length := by
    unfold Overrun
    omega
  have hnext : crsNext buffer pre.length = some (pre.length + (largeBytes type data).length) := by
    simp only [crsNext, htag, hlen]
    rw [if_neg (by omega), if_pos (by omega), if_pos (by omega)]
    simp only [largeBytes, List.length_cons, List.length_append, Bytes.length_little]
    congr 1
    omega
  have hirq : irqAt buffer pre.length = [] := if_neg (by omega)
  have hmmio : mmioAt buffer pre.length = if type = 6 then
      [⟨(wordAt data 1).toUInt64, (wordAt data 5).toUInt64⟩] else [] := by
    simp only [mmioAt, htag, hlen]
    by_cases h : type = 6
    · have hsix := hsix h
      have hword : ∀ k, k + 3 < data.length → ∀ j < 4,
          byteAt buffer (pre.length + (k + 3) + j) = byteAt data (k + j) := by
        intro k hk j hj
        rw [show pre.length + (k + 3) + j = pre.length + (k + j + 3) by omega, hbyte,
          byteAt_append_left (by omega)]
      have hbase := hword 1 (by omega)
      have hsize := hword 5 (by omega)
      rw [if_pos (by omega), if_pos h]
      simp only [wordAt, ← hbase 0 (by omega), ← hbase 1 (by omega), ← hbase 2 (by omega),
        ← hbase 3 (by omega), ← hsize 0 (by omega), ← hsize 1 (by omega), ← hsize 2 (by omega),
        ← hsize 3 (by omega), Nat.add_zero]
    · rw [if_neg (by omega), if_neg h]
  rw [crsStep_eq, if_neg hover, hnext, hirq, List.append_nil, hmmio]
  rfl

/-- The word that was encoded at `k`. -/
theorem wordAt_little {v : UInt32} {k : ℕ} (h : ∀ j < 4, byteAt data (k + j) =
    byteAt (Bytes.little 4 v.toNat) j) : wordAt data k = v := by
  have hbytes : [byteAt data k, byteAt data (k + 1), byteAt data (k + 2), byteAt data (k + 3)] =
      Bytes.little 4 v.toNat := by
    rw [← Nat.add_zero k, h 0 (by norm_num), h 1 (by norm_num), h 2 (by norm_num),
      h 3 (by norm_num)]
    rfl
  rw [wordAt, hbytes, Bytes.ofLittle_little v.toNat_lt, UInt32.ofNat_toNat]

/-- An iteration at a descriptor takes it. -/
theorem crsStep_descriptor (d : Descriptor) :
    crsStep (pre ++ (d.encode ++ tail)) pre.length s =
      (.ret (.inl (pre.length + d.encode.length)),
        ⟨s.mmio ++ d.regions, s.irq ++ d.interrupts⟩) := by
  cases d with
  | memory32Fixed info base size =>
    have hbase : wordAt (info :: (Bytes.little 4 base.toNat ++ Bytes.little 4 size.toNat)) 1 =
        base := wordAt_little fun j hj => by
      rw [Nat.add_comm]
      exact byteAt_append_left (by simpa using hj) _
    have hsize : wordAt (info :: (Bytes.little 4 base.toNat ++ Bytes.little 4 size.toNat)) 5 =
        size := wordAt_little fun j hj => by
      rw [Nat.add_comm]
      show byteAt (_ ++ _) (j + 4) = _
      rw [Nat.add_comm]
      exact byteAt_append (Bytes.little 4 base.toNat) _ j
    rw [Descriptor.encode, crsStep_large (by norm_num) (by simp) (by simp), if_pos rfl, hbase,
      hsize]
    simp [Descriptor.regions, Descriptor.interrupts]
  | irq mask flags =>
    have hmask : [byteAt (Bytes.little 2 mask.toNat ++ flags.toList) 0,
        byteAt (Bytes.little 2 mask.toNat ++ flags.toList) 1] = Bytes.little 2 mask.toNat := by
      rw [byteAt_append_left (by simp), byteAt_append_left (by simp)]
      rfl
    have hlen : (Bytes.little 2 mask.toNat ++ flags.toList).length ≤ 7 := by
      cases flags <;> simp
    rw [Descriptor.encode, crsStep_small (by norm_num) hlen, if_pos ⟨rfl, by simp⟩, hmask,
      Bytes.ofLittle_little mask.toNat_lt]
    simp [Descriptor.regions, Descriptor.interrupts]
  | small type data h =>
    rw [Descriptor.encode, crsStep_small h.1 h.2.2, if_neg fun hc => h.2.1 hc.1]
    simp [Descriptor.regions, Descriptor.interrupts]
  | large type data h =>
    rw [Descriptor.encode, crsStep_large h.1 h.2.2 fun hc => absurd hc h.2.1, if_neg h.2.1]
    simp [Descriptor.regions, Descriptor.interrupts]

/-- The walk ends at an end tag. -/
theorem crsStep_endTag (k : Fin 8) :
    crsStep (pre ++ (endTag k :: tail)) pre.length s = (.ret (.inr ()), s) := by
  generalize hb : pre ++ (endTag k :: tail) = buffer
  have htag : (byteAt buffer pre.length).toNat = 120 + k := by
    rw [← hb, ← Nat.add_zero pre.length, byteAt_append]
    show (UInt8.ofNat (15 * 8 + k)).toNat = _
    rw [UInt8.toNat_ofNat']
    omega
  have hover : ¬ Overrun buffer pre.length := by
    unfold Overrun
    omega
  have hnext : crsNext buffer pre.length = none := by
    simp only [crsNext, htag]
    split_ifs <;> first | rfl | omega
  have hmmio : mmioAt buffer pre.length = [] := if_neg (by omega)
  have hirq : irqAt buffer pre.length = [] := if_neg (by omega)
  rw [crsStep_eq, if_neg hover, hnext, hmmio, hirq, List.append_nil, List.append_nil]
  rfl

/-- The walk from the descriptors `ds` on. -/
theorem loop_descriptors (ds : List Descriptor) (k : Fin 8) (hn : ds.length < n) :
    loop (crsStep (pre ++ (ds.flatMap Descriptor.encode ++ endTag k :: tail))) n pre.length s =
      (.ret (), ⟨s.mmio ++ ds.flatMap Descriptor.regions,
        s.irq ++ ds.flatMap Descriptor.interrupts⟩) := by
  induction ds generalizing n pre s with
  | nil =>
    obtain ⟨m, rfl⟩ := Nat.exists_eq_add_one.2 hn
    simp only [List.flatMap_nil, List.nil_append, List.append_nil]
    exact loop_succ_inr (crsStep_endTag k)
  | cons d ds ih =>
    obtain ⟨m, rfl⟩ := Nat.exists_eq_add_one.2 (Nat.zero_lt_of_lt hn)
    simp only [List.flatMap_cons, List.append_assoc]
    rw [loop_succ_inl (crsStep_descriptor d)]
    have hrest : loop (crsStep (pre ++ d.encode ++ (ds.flatMap Descriptor.encode ++
        endTag k :: tail))) m (pre ++ d.encode).length
        ⟨s.mmio ++ d.regions, s.irq ++ d.interrupts⟩ = _ := ih (Nat.lt_of_succ_lt_succ hn)
    simp only [List.append_assoc, List.length_append] at hrest
    exact hrest

theorem length_encode_pos (d : Descriptor) : 0 < d.encode.length := by
  cases d <;> simp [Descriptor.encode, smallBytes, largeBytes]

/-- **Decoding.**  From well-formed descriptors that are closed by an end tag the walk takes the
regions of the Memory32Fixed items and the interrupts of the IRQ items in the order of the list,
whatever the other items and the bytes behind the end tag are. -/
theorem crs_decode (ds : List Descriptor) (k : Fin 8) (rest : List UInt8) :
    crsWalk (ds.flatMap Descriptor.encode ++ endTag k :: rest) ⟨[], []⟩ =
      (.ret (), ⟨ds.flatMap Descriptor.regions, ds.flatMap Descriptor.interrupts⟩) := by
  have hlen : ds.length ≤ (ds.flatMap Descriptor.encode).length := by
    induction ds with
    | nil => exact le_rfl
    | cons d ds ih =>
      have hpos := length_encode_pos d
      rw [List.flatMap_cons, List.length_append, List.length_cons]
      omega
  have hfuel : ds.length < (ds.flatMap Descriptor.encode ++ endTag k :: rest).length + 1 := by
    rw [List.length_append]
    omega
  have h : loop (crsStep ([] ++ (ds.flatMap Descriptor.encode ++ endTag k :: rest))) _
      ([] : List UInt8).length ⟨[], []⟩ = _ := loop_descriptors ds k hfuel
  exact h

end Decode

end GlendaDrivers.Aml
