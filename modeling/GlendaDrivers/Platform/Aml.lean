import GlendaDrivers.DeviceDesc
import GlendaDrivers.Lib.Bytes
import GlendaDrivers.Lib.Cursor
import GlendaDrivers.Lib.Hex
import Mathlib.Data.Nat.Bitwise

/-!
# Devices of the ACPI namespace (`platform/acpi/src/probe/aml.rs`)

The `aml` crate evaluates `_HID` and `_CRS`; the values that it gives are inputs.

* `eisaString`, `hidOf`: the conversion of `_HID`;
* `crsStep`, `crsWalk`: the walk over the resource descriptors of `_CRS`;
* `parseDevice`, `parseDevices`: the nodes of the devices;
* `crsNext`, `Overrun`: where the walk goes, and the items that it reads beyond their data.
-/

namespace GlendaDrivers

open Prog

/-- `AmlValue`, as far as the driver tells the values apart. -/
inductive AmlValue
  | string (s : String)
  | integer (i : UInt64)
  | buffer (bytes : List UInt8)
  | other

namespace Aml

/-! ### `_HID` -/

/-- A letter of an EISA id: `v as u8 + 0x40` as a character. -/
def eisaLetter (v : UInt32) : Char := Char.ofNat (v.toUInt8 + 0x40).toNat

/-- The conversion of an integer to an EISA id. -/
def eisaString (i : UInt64) : String :=
  let cid := (i &&& 0xFFFFFFFF).toUInt32
  String.ofList [eisaLetter ((cid >>> 10) &&& 0x1f), eisaLetter ((cid >>> 5) &&& 0x1f),
    eisaLetter (cid &&& 0x1f)] ++ Hex.paddedUpper 4 (cid >>> 16).toUInt16.toNat

/-- The hardware id of a device; a device with another value is skipped. -/
def hidOf : AmlValue → Option String
  | .string s => some s
  | .integer i => some (eisaString i)
  | _ => none

/-! ### `_CRS` -/

/-- The vectors that the walk fills. -/
structure Crs where
  mmio : List MMIORegion
  irq : List UInt64
  deriving DecidableEq

/-- `data[i]`, which panics when it is out of range. -/
def index (data : List UInt8) (i : ℕ) : Prog Crs UInt8 := fun s =>
  match data[i]? with
  | some b => (.ret b, s)
  | none => (.panic, s)

/-- `u16::from_le_bytes([data[i], data[i + 1]])`. -/
def u16At (data : List UInt8) (i : ℕ) : Prog Crs UInt16 := do
  let b0 ← index data i
  let b1 ← index data (i + 1)
  return UInt16.ofNat (Bytes.ofLittle [b0, b1])

/-- `u32::from_le_bytes([data[i], .., data[i + 3]])`. -/
def u32At (data : List UInt8) (i : ℕ) : Prog Crs UInt32 := do
  let b0 ← index data i
  let b1 ← index data (i + 1)
  let b2 ← index data (i + 2)
  let b3 ← index data (i + 3)
  return UInt32.ofNat (Bytes.ofLittle [b0, b1, b2, b3])

/-- `mmio.push`. -/
def pushMmio (region : MMIORegion) : Prog Crs Unit :=
  modify fun s => { s with mmio := s.mmio ++ [region] }

/-- The loop over the bits of an IRQ mask. -/
def pushIrqs (mask : UInt16) : Prog Crs Unit :=
  modify fun s => { s with
    irq := s.irq ++ ((List.range 16).filter fun bit =>
      mask &&& ((1 : UInt16) <<< UInt16.ofNat bit) ≠ 0).map UInt64.ofNat }

/-- A large descriptor at `i`. -/
def largeItem (buffer : List UInt8) (i : ℕ) (tag : UInt8) : Prog Crs (ℕ ⊕ Unit) :=
  if i + 3 > buffer.length then return .inr ()
  else do
    let len ← u16At buffer (i + 1)
    let len := len.toNat
    if i + 3 + len > buffer.length then return .inr ()
    else do
      let typeId := tag &&& 0x7f
      let data := (buffer.drop (i + 3)).take len
      when (typeId = 6) do
        -- Memory32Fixed
        let base ← u32At data 1
        let size ← u32At data 5
        pushMmio ⟨base.toUInt64, size.toUInt64⟩
      return .inl (i + 3 + len)

/-- A small descriptor at `i`. -/
def smallItem (buffer : List UInt8) (i : ℕ) (tag : UInt8) : Prog Crs (ℕ ⊕ Unit) := do
  let len := (tag &&& 0x07).toNat
  let typeId := (tag >>> 3) &&& 0x0f
  when (typeId = 4) do
    -- IRQ
    when (2 ≤ len) do
      let mask ← u16At buffer (i + 1)
      pushIrqs mask
  if tag &&& 0x78 = 0x78 then return .inr () else return .inl (i + 1 + len)

/-- One iteration of the walk. -/
def crsStep (buffer : List UInt8) (i : ℕ) : Prog Crs (ℕ ⊕ Unit) :=
  if i < buffer.length then do
    let tag ← index buffer i
    if tag &&& 0x80 ≠ 0 then largeItem buffer i tag else smallItem buffer i tag
  else return .inr ()

/-- The walk over a buffer.  Every iteration takes a byte at least. -/
def crsWalk (buffer : List UInt8) : Prog Crs Unit :=
  loop (crsStep buffer) (buffer.length + 1) 0

/-! ### Devices -/

/-- A device of the namespace: its path, the value of `_HID`, and the value of `_CRS`. -/
structure Device where
  path : String
  hid : Option AmlValue
  crs : Option AmlValue

/-- The resources that a value of `_CRS` lists. -/
def resources : Option AmlValue → Outcome Crs
  | some (.buffer bytes) =>
      match crsWalk bytes ⟨[], []⟩ with
      | (.ret _, crs) => .ret crs
      | (.panic, _) => .panic
      | (.running, _) => .running
  | _ => .ret ⟨[], []⟩

/-- The node of a device. -/
def parseDevice (d : Device) : Outcome (Option DeviceDescNode) :=
  match d.hid.bind hidOf with
  | none => return none
  | some hid => do
      let crs ← resources d.crs
      return some {
        parent := usizeMax
        desc := {
          name := (d.path.splitOn ".").getLast?.getD "unknown"
          compatible := [hid]
          mmio := crs.mmio
          irq := crs.irq }
        nodeMeta := {
          bus := none
          unitAddr := none
          tags := ["src:acpi", "acpi:aml"]
          properties := [("acpi.path", d.path), ("acpi.hid", hid)] } }

/-- The loop of `parse` over the devices. -/
def parseDevices (ds : List Device) (devices : List DeviceDescNode) :
    Outcome (List DeviceDescNode) :=
  ds.foldlM (fun devices d => do return devices ++ (← parseDevice d).toList) devices

/-! ### Items of a buffer -/

section Items

variable (buffer : List UInt8) (i : ℕ)

/-- The byte at `i`. -/
def byteAt : UInt8 := buffer[i]?.getD 0

/-- The length field of a large item. -/
def largeLen : ℕ := Bytes.ofLittle [byteAt buffer (i + 1), byteAt buffer (i + 2)]

/-- Where the walk goes on behind the item at `i`. -/
def crsNext : Option ℕ :=
  let tag := (byteAt buffer i).toNat
  if ¬ i < buffer.length then none
  else if 128 ≤ tag then
    if i + 3 + largeLen buffer i ≤ buffer.length then some (i + 3 + largeLen buffer i) else none
  else if tag / 8 = 15 then none
  else some (i + 1 + tag % 8)

/-- The item at `i` is an IRQ item with a mask that the buffer does not have, or a Memory32Fixed
item without a base and a size. -/
def Overrun : Prop :=
  let tag := (byteAt buffer i).toNat
  i < buffer.length ∧
    (tag / 8 = 4 ∧ 2 ≤ tag % 8 ∧ buffer.length < i + 3 ∨
      tag = 0x86 ∧ i + 3 + largeLen buffer i ≤ buffer.length ∧ largeLen buffer i < 9)

instance : Decidable (Overrun buffer i) := inferInstanceAs (Decidable (_ ∧ _))

/-- The regions of the item at `i`. -/
def mmioAt : List MMIORegion :=
  if i < buffer.length ∧ (byteAt buffer i).toNat = 0x86 ∧
      i + 3 + largeLen buffer i ≤ buffer.length then
    let word k : UInt32 := UInt32.ofNat (Bytes.ofLittle
      [byteAt buffer k, byteAt buffer (k + 1), byteAt buffer (k + 2), byteAt buffer (k + 3)])
    [⟨(word (i + 4)).toUInt64, (word (i + 8)).toUInt64⟩]
  else []

/-- The bits that are set in a mask, in ascending order. -/
def setBits (mask : ℕ) : List UInt64 := ((List.range 16).filter mask.testBit).map UInt64.ofNat

/-- The interrupts of the item at `i`. -/
def irqAt : List UInt64 :=
  let tag := (byteAt buffer i).toNat
  if i < buffer.length ∧ tag / 8 = 4 ∧ 2 ≤ tag % 8 then
    setBits (Bytes.ofLittle [byteAt buffer (i + 1), byteAt buffer (i + 2)])
  else []

end Items

/-! ### One iteration -/

section Step

variable {buffer data : List UInt8} {i : ℕ} {s : Crs}

theorem index_of_lt (h : i < data.length) : index data i s = (.ret (byteAt data i), s) := by
  simp only [index, byteAt, List.getElem?_eq_getElem h, Option.getD_some]

theorem index_of_le (h : data.length ≤ i) : index data i s = (.panic, s) := by
  simp only [index, List.getElem?_eq_none h]

theorem u16At_of_lt (h : i + 1 < data.length) : u16At data i s =
    (.ret (UInt16.ofNat (Bytes.ofLittle [byteAt data i, byteAt data (i + 1)])), s) := by
  unfold u16At
  rw [bind_of_ret (index_of_lt (by omega)), bind_of_ret (index_of_lt h)]
  rfl

theorem u16At_of_le (h : data.length ≤ i + 1) : u16At data i s = (.panic, s) := by
  unfold u16At
  rcases Nat.lt_or_ge i data.length with hi | hi
  · rw [bind_of_ret (index_of_lt hi), bind_of_panic (index_of_le h)]
  · rw [bind_of_panic (index_of_le hi)]

theorem u32At_of_lt (h : i + 3 < data.length) : u32At data i s =
    (.ret (UInt32.ofNat (Bytes.ofLittle [byteAt data i, byteAt data (i + 1), byteAt data (i + 2),
      byteAt data (i + 3)])), s) := by
  unfold u32At
  rw [bind_of_ret (index_of_lt (by omega)), bind_of_ret (index_of_lt (by omega)),
    bind_of_ret (index_of_lt (by omega)), bind_of_ret (index_of_lt h)]
  rfl

theorem u32At_of_le (h : data.length ≤ i + 3) : u32At data i s = (.panic, s) := by
  unfold u32At
  rcases Nat.lt_or_ge i data.length with h0 | h0
  · rw [bind_of_ret (index_of_lt h0)]
    rcases Nat.lt_or_ge (i + 1) data.length with h1 | h1
    · rw [bind_of_ret (index_of_lt h1)]
      rcases Nat.lt_or_ge (i + 2) data.length with h2 | h2
      · rw [bind_of_ret (index_of_lt h2), bind_of_panic (index_of_le h)]
      · rw [bind_of_panic (index_of_le h2)]
    · rw [bind_of_panic (index_of_le h1)]
  · rw [bind_of_panic (index_of_le h0)]

/-- A byte of a slice. -/
theorem byteAt_slice {k len j : ℕ} (hj : j < len) :
    byteAt ((buffer.drop k).take len) j = byteAt buffer (k + j) := by
  simp [byteAt, hj]

/-- The fields of a tag. -/
theorem tag_fields (tag : UInt8) :
    (tag &&& 0x80 ≠ 0 ↔ 128 ≤ tag.toNat) ∧
    (128 ≤ tag.toNat → (tag &&& 0x7f = 6 ↔ tag.toNat = 0x86)) ∧
    (tag &&& 0x07).toNat = tag.toNat % 8 ∧
    (tag.toNat < 128 → ((tag >>> 3) &&& 0x0f = 4 ↔ tag.toNat / 8 = 4)) ∧
    (tag.toNat < 128 → (tag &&& 0x78 = 0x78 ↔ tag.toNat / 8 = 15)) := by
  have htable : ∀ n : Fin 256, let tag := UInt8.ofNat n
      (tag &&& 0x80 ≠ 0 ↔ 128 ≤ n.val) ∧ (128 ≤ n.val → (tag &&& 0x7f = 6 ↔ n.val = 0x86)) ∧
      (tag &&& 0x07).toNat = n.val % 8 ∧
      (n.val < 128 → ((tag >>> 3) &&& 0x0f = 4 ↔ n.val / 8 = 4)) ∧
      (n.val < 128 → (tag &&& 0x78 = 0x78 ↔ n.val / 8 = 15)) := by
    decide +kernel
  have h := htable ⟨tag.toNat, tag.toNat_lt⟩
  rwa [show UInt8.ofNat (⟨tag.toNat, tag.toNat_lt⟩ : Fin 256).val = tag from tag.ofNat_toNat] at h

/-- The loop over the bits of a mask finds those that are set. -/
theorem pushIrqs_run (mask : UInt16) :
    pushIrqs mask s = (.ret (), { s with irq := s.irq ++ setBits mask.toNat }) := by
  have hbit : ∀ bit ∈ List.range 16,
      decide (mask &&& ((1 : UInt16) <<< UInt16.ofNat bit) ≠ 0) = mask.toNat.testBit bit := by
    intro bit hmem
    have hlt := List.mem_range.1 hmem
    have hshift : ((1 : UInt16) <<< UInt16.ofNat bit).toNat = 2 ^ bit := by
      have hof : (UInt16.ofNat bit).toNat % 16 = bit := by
        rw [UInt16.toNat_ofNat']
        omega
      rw [UInt16.toNat_shiftLeft, hof, Nat.shiftLeft_eq, UInt16.toNat_one, Nat.one_mul,
        Nat.mod_eq_of_lt (Nat.pow_lt_pow_right (by norm_num) hlt)]
    have hand : (mask &&& ((1 : UInt16) <<< UInt16.ofNat bit)).toNat =
        (mask.toNat.testBit bit).toNat * 2 ^ bit := by
      rw [UInt16.toNat_and, hshift, Nat.and_two_pow]
    rw [Bool.eq_iff_iff, decide_eq_true_iff, ne_eq, ← UInt16.toNat_inj, hand, UInt16.toNat_zero]
    cases mask.toNat.testBit bit <;> simp
  show (Outcome.ret (), { s with irq := s.irq ++ _ }) = _
  rw [setBits, List.filter_congr hbit]

/-- A large item. -/
theorem largeItem_eq (hi : i < buffer.length) (htag : 128 ≤ (byteAt buffer i).toNat) :
    largeItem buffer i (byteAt buffer i) s =
      if Overrun buffer i then (.panic, s)
      else (.ret (((crsNext buffer i).map Sum.inl).getD (.inr ())),
        ⟨s.mmio ++ mmioAt buffer i, s.irq ++ irqAt buffer i⟩) := by
  obtain ⟨-, hsix, -⟩ := tag_fields (byteAt buffer i)
  have hsix := hsix htag
  have hirq : irqAt buffer i = [] := if_neg (by omega)
  have hnext : crsNext buffer i = if i + 3 + largeLen buffer i ≤ buffer.length then
      some (i + 3 + largeLen buffer i) else none := by
    simp only [crsNext, hi, htag, not_true_eq_false, if_false, if_true]
  unfold largeItem
  by_cases hthree : i + 3 > buffer.length
  · -- the length field is not there
    rw [if_pos hthree, if_neg (by unfold Overrun; omega), hnext, if_neg (by omega), hirq,
      mmioAt, if_neg (by omega), List.append_nil, List.append_nil]
    rfl
  rw [if_neg hthree, bind_of_ret (u16At_of_lt (by omega))]
  have hlen : (UInt16.ofNat (Bytes.ofLittle
      [byteAt buffer (i + 1), byteAt buffer (i + 1 + 1)])).toNat = largeLen buffer i := by
    have hlt := Bytes.ofLittle_lt [byteAt buffer (i + 1), byteAt buffer (i + 1 + 1)]
    rw [UInt16.toNat_ofNat', Nat.mod_eq_of_lt (by simpa using hlt)]
    rfl
  simp only [hlen]
  by_cases hfit : i + 3 + largeLen buffer i > buffer.length
  · -- the data are not there
    rw [if_pos hfit, if_neg (by unfold Overrun; omega), hnext, if_neg (by omega), hirq,
      mmioAt, if_neg (by omega), List.append_nil, List.append_nil]
    rfl
  have hfit' : i + 3 + largeLen buffer i ≤ buffer.length := Nat.not_lt.1 hfit
  rw [if_neg hfit, hnext, if_pos hfit', hirq, List.append_nil]
  by_cases htype : byteAt buffer i &&& 0x7f = 6
  · -- Memory32Fixed
    have h86 := hsix.1 htype
    have hdata : ((buffer.drop (i + 3)).take (largeLen buffer i)).length = largeLen buffer i := by
      rw [List.length_take, List.length_drop]
      omega
    rw [when, if_pos htype]
    by_cases hshort : largeLen buffer i < 9
    · have hover : Overrun buffer i := ⟨hi, .inr ⟨h86, hfit', hshort⟩⟩
      rw [if_pos hover]
      refine bind_of_panic ?_
      rcases Nat.lt_or_ge 4 (largeLen buffer i) with hb | hb
      · rw [bind_of_ret (u32At_of_lt (by omega)), bind_of_panic (u32At_of_le (by omega))]
      · rw [bind_of_panic (u32At_of_le (by omega))]
    · rw [if_neg (by unfold Overrun; omega), mmioAt, if_pos ⟨hi, h86, hfit'⟩]
      refine bind_of_ret (a := ()) ?_
      rw [bind_of_ret (u32At_of_lt (by omega)), bind_of_ret (u32At_of_lt (by omega)),
        byteAt_slice (by omega), byteAt_slice (by omega), byteAt_slice (by omega),
        byteAt_slice (by omega), byteAt_slice (by omega), byteAt_slice (by omega),
        byteAt_slice (by omega), byteAt_slice (by omega)]
      rfl
  · have h86 : (byteAt buffer i).toNat ≠ 0x86 := fun h => htype (hsix.2 h)
    rw [when, if_neg htype, if_neg (by unfold Overrun; omega), mmioAt, if_neg (by omega),
      List.append_nil]
    rfl

/-- A small item. -/
theorem smallItem_eq (hi : i < buffer.length) (htag : (byteAt buffer i).toNat < 128) :
    smallItem buffer i (byteAt buffer i) s =
      if Overrun buffer i then (.panic, s)
      else (.ret (((crsNext buffer i).map Sum.inl).getD (.inr ())),
        ⟨s.mmio ++ mmioAt buffer i, s.irq ++ irqAt buffer i⟩) := by
  obtain ⟨-, -, hlen, hfour, hend⟩ := tag_fields (byteAt buffer i)
  have hfour := hfour htag
  have hend := hend htag
  have hmmio : mmioAt buffer i = [] := if_neg (by omega)
  have hnext : crsNext buffer i = if (byteAt buffer i).toNat / 8 = 15 then none
      else some (i + 1 + (byteAt buffer i).toNat % 8) := by
    simp only [crsNext, hi, not_true_eq_false, if_false, Nat.not_le.2 htag]
  -- the last part of the iteration
  have hrest : ∀ s : Crs, (if byteAt buffer i &&& 0x78 = 0x78 then pure (.inr ())
        else pure (.inl (i + 1 + (byteAt buffer i).toNat % 8)) : Prog Crs (ℕ ⊕ Unit)) s =
      (.ret (((crsNext buffer i).map Sum.inl).getD (.inr ())), s) := by
    intro s
    rw [hnext]
    by_cases h : (byteAt buffer i).toNat / 8 = 15
    · rw [if_pos (hend.2 h), if_pos h]
      rfl
    · rw [if_neg fun hc => h (hend.1 hc), if_neg h]
      rfl
  -- an item without a mask
  have hsame : ¬ ((byteAt buffer i).toNat / 8 = 4 ∧ 2 ≤ (byteAt buffer i).toNat % 8) →
      (if Overrun buffer i then (.panic, s)
      else (.ret (((crsNext buffer i).map Sum.inl).getD (.inr ())),
        ⟨s.mmio ++ mmioAt buffer i, s.irq ++ irqAt buffer i⟩) : Outcome (ℕ ⊕ Unit) × Crs) =
      (.ret (((crsNext buffer i).map Sum.inl).getD (.inr ())), s) := by
    intro h
    have hover : ¬ Overrun buffer i := by
      unfold Overrun
      omega
    have hirq : irqAt buffer i = [] := if_neg fun hc => h hc.2
    rw [if_neg hover, hmmio, hirq, List.append_nil, List.append_nil]
  unfold smallItem
  simp only [hlen]
  by_cases htype : (byteAt buffer i >>> 3) &&& 0x0f = 4
  · have h4 := hfour.1 htype
    rw [when, if_pos htype]
    by_cases htwo : 2 ≤ (byteAt buffer i).toNat % 8
    · have hle : 2 ≤ (byteAt buffer i &&& 0x07).toNat := hlen ▸ htwo
      rw [when, if_pos hle]
      by_cases hshort : buffer.length < i + 3
      · have hover : Overrun buffer i := ⟨hi, .inl ⟨h4, htwo, hshort⟩⟩
        rw [bind_of_panic (bind_of_panic (u16At_of_le (by omega))), if_pos hover]
      · have hover : ¬ Overrun buffer i := by
          unfold Overrun
          omega
        have hirq : irqAt buffer i = _ := if_pos ⟨hi, h4, htwo⟩
        have hmask := Bytes.ofLittle_lt [byteAt buffer (i + 1), byteAt buffer (i + 1 + 1)]
        rw [bind_of_ret ((bind_of_ret (u16At_of_lt (by omega))).trans (pushIrqs_run _)), hrest,
          if_neg hover, hmmio, List.append_nil, hirq, UInt16.toNat_ofNat',
          Nat.mod_eq_of_lt (by simpa using hmask)]
    · have hle : ¬ 2 ≤ (byteAt buffer i &&& 0x07).toNat := hlen ▸ htwo
      rw [when, if_neg hle, hsame fun h => htwo h.2]
      exact hrest s
  · rw [when, if_neg htype, hsame fun h => htype (hfour.2 h.1)]
    exact hrest s

/-- One iteration panics at an item that overruns, and otherwise takes the item. -/
theorem crsStep_eq : crsStep buffer i s =
    if Overrun buffer i then (.panic, s)
    else (.ret (((crsNext buffer i).map Sum.inl).getD (.inr ())),
      ⟨s.mmio ++ mmioAt buffer i, s.irq ++ irqAt buffer i⟩) := by
  unfold crsStep
  by_cases hi : i < buffer.length
  · obtain ⟨hlarge, -⟩ := tag_fields (byteAt buffer i)
    rw [if_pos hi, bind_of_ret (index_of_lt hi)]
    by_cases htag : byteAt buffer i &&& 0x80 ≠ 0
    · rw [if_pos htag]
      exact largeItem_eq hi (hlarge.1 htag)
    · rw [if_neg htag]
      exact smallItem_eq hi (Nat.not_le.1 fun h => htag (hlarge.2 h))
  · rw [if_neg hi, if_neg fun h => hi h.1, crsNext, if_pos hi, mmioAt, if_neg fun h => hi h.1,
      irqAt, if_neg fun h => hi h.1, List.append_nil, List.append_nil]
    rfl

end Step

end Aml

end GlendaDrivers
