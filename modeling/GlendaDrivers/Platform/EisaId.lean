import GlendaDrivers.Platform.Aml

/-!
# EISA ids

* `EisaId`: an id, its text and its compressed form;
* `eisa_decode`: the ids that the conversion of `_HID` gives back, and those that it gives the
  same string.
-/

namespace GlendaDrivers.Aml

/-- An EISA id: three letters and four hexadecimal digits. -/
structure EisaId where
  l1 : Fin 26
  l2 : Fin 26
  l3 : Fin 26
  d1 : Fin 16
  d2 : Fin 16
  d3 : Fin 16
  d4 : Fin 16
  deriving DecidableEq

namespace EisaId

/-- A letter from `A` to `Z`. -/
def letter (l : Fin 26) : Char := Char.ofNat (0x41 + l)

/-- A digit from `0` to `F`. -/
def digit (d : Fin 16) : Char := (Nat.digitChar d).toUpper

def text (id : EisaId) : String :=
  String.ofList [letter id.l1, letter id.l2, letter id.l3, digit id.d1, digit id.d2, digit id.d3,
    digit id.d4]

/-- The word of the letters, 5 bits for each. -/
def letters (id : EisaId) : ℕ := (id.l1 + 1) * 1024 + (id.l2 + 1) * 32 + (id.l3 + 1)

/-- The first two digits. -/
def high (id : EisaId) : ℕ := id.d1 * 16 + id.d2

/-- The last two digits. -/
def low (id : EisaId) : ℕ := id.d3 * 16 + id.d4

/-- What `EISAID` evaluates to: the bytes of the word of the letters, high byte first, and those of
the digits, read as a little-endian number. -/
def compress (id : EisaId) : UInt64 :=
  UInt64.ofNat (Bytes.ofLittle [UInt8.ofNat (id.letters / 256), UInt8.ofNat (id.letters % 256),
    UInt8.ofNat id.high, UInt8.ofNat id.low])

end EisaId

section Decode

variable {a b : EisaId}

theorem EisaId.letters_lt (a : EisaId) : a.letters < 2 ^ 15 := by
  unfold letters
  omega

/-- The compressed form as a number. -/
theorem toNat_compress (a : EisaId) : a.compress.toNat =
    a.letters / 256 + a.letters % 256 * 256 + a.high * 65536 + a.low * 16777216 := by
  have h1 := a.letters_lt
  have h2 : a.high < 256 := by
    unfold EisaId.high
    omega
  have h3 : a.low < 256 := by
    unfold EisaId.low
    omega
  have hbyte : ∀ n < 256, (UInt8.ofNat n).toNat = n := fun n hn => by
    rw [UInt8.toNat_ofNat', Nat.mod_eq_of_lt hn]
  rw [EisaId.compress, UInt64.toNat_ofNat', Nat.mod_eq_of_lt]
  · simp only [Bytes.ofLittle]
    rw [hbyte _ (by omega), hbyte _ (by omega), hbyte _ h2, hbyte _ h3]
    omega
  · exact (Bytes.ofLittle_lt _).trans (by norm_num)

/-- The five bits of a letter. -/
theorem eisaLetter_eq {v : UInt32} (h : v.toNat < 32) :
    eisaLetter v = Char.ofNat (0x40 + v.toNat) := by
  unfold eisaLetter
  congr 1
  rw [UInt8.toNat_add, UInt32.toNat_toUInt8]
  show (v.toNat % 256 + 64) % 256 = _
  omega

/-- The characters that stand for different numbers are different. -/
theorem charOfNat_eq_iff {m n : ℕ} (hm : m < 128) (hn : n < 128) :
    Char.ofNat m = Char.ofNat n ↔ m = n := by
  have hnat : ∀ k < 128, (Char.ofNat k).toNat = k := by decide
  refine ⟨fun h => ?_, congrArg _⟩
  rw [← hnat m hm, ← hnat n hn, h]

theorem digit_eq_iff {d e : Fin 16} : EisaId.digit d = EisaId.digit e ↔ d = e := by
  have hall : ∀ d e : Fin 16, EisaId.digit d = EisaId.digit e → d = e := by decide
  exact ⟨hall d e, congrArg _⟩

/-- What the conversion makes of a number. -/
theorem toList_eisaString (i : UInt64) (hi : i.toNat < 2 ^ 32) : (eisaString i).toList =
    [Char.ofNat (0x40 + i.toNat / 1024 % 32), Char.ofNat (0x40 + i.toNat / 32 % 32),
      Char.ofNat (0x40 + i.toNat % 32)] ++
      (Hex.digits 4 (i.toNat / 65536)).map Char.toUpper := by
  have hcid : ((i &&& 0xFFFFFFFF).toUInt32).toNat = i.toNat := by
    rw [UInt64.toNat_toUInt32, UInt64.toNat_and]
    show (i.toNat &&& (2 ^ 32 - 1)) % 2 ^ 32 = _
    rw [Nat.and_two_pow_sub_one_eq_mod, Nat.mod_mod, Nat.mod_eq_of_lt hi]
  have hfield : ∀ v : UInt32, (v &&& 0x1f).toNat = v.toNat % 32 := fun v => by
    rw [UInt32.toNat_and]
    exact Nat.and_two_pow_sub_one_eq_mod _ 5
  have hletter : ∀ v : UInt32, eisaLetter (v &&& 0x1f) = Char.ofNat (0x40 + v.toNat % 32) :=
    fun v => by rw [eisaLetter_eq (by rw [hfield]; omega), hfield]
  have hshift : ∀ (v : UInt32) (k : ℕ), k < 32 →
      (v >>> UInt32.ofNat k).toNat = v.toNat / 2 ^ k := fun v k hk => by
    rw [UInt32.toNat_shiftRight, Nat.shiftRight_eq_div_pow, UInt32.toNat_ofNat',
      Nat.mod_eq_of_lt (show k < 2 ^ 32 by omega), Nat.mod_eq_of_lt hk]
  have h10 := hshift (i &&& 0xFFFFFFFF).toUInt32 10 (by norm_num)
  have h5 := hshift (i &&& 0xFFFFFFFF).toUInt32 5 (by norm_num)
  have h16 := hshift (i &&& 0xFFFFFFFF).toUInt32 16 (by norm_num)
  have hdigits : ((i &&& 0xFFFFFFFF).toUInt32 >>> 16).toUInt16.toNat = i.toNat / 65536 := by
    rw [UInt32.toNat_toUInt16]
    show ((i &&& 0xFFFFFFFF).toUInt32 >>> UInt32.ofNat 16).toNat % 2 ^ 16 = _
    rw [h16, hcid]
    omega
  simp only [eisaString, Hex.paddedUpper, String.toList_append, String.toList_ofList, hletter,
    hdigits, hcid]
  rw [show ((i &&& 0xFFFFFFFF).toUInt32 >>> 10).toNat = _ from h10,
    show ((i &&& 0xFFFFFFFF).toUInt32 >>> 5).toNat = _ from h5, hcid]
  rfl

/-- The digits of an id whose pairs have changed places. -/
theorem swapped_digits (a : EisaId) : (Hex.digits 4 (a.low * 256 + a.high)).map Char.toUpper =
    [EisaId.digit a.d3, EisaId.digit a.d4, EisaId.digit a.d1, EisaId.digit a.d2] := by
  have h3 : (a.low * 256 + a.high) / 16 / 16 / 16 % 16 = a.d3 := by
    unfold EisaId.low EisaId.high
    omega
  have h4 : (a.low * 256 + a.high) / 16 / 16 % 16 = a.d4 := by
    unfold EisaId.low EisaId.high
    omega
  have h1 : (a.low * 256 + a.high) / 16 % 16 = a.d1 := by
    unfold EisaId.low EisaId.high
    omega
  have h2 : (a.low * 256 + a.high) % 16 = a.d2 := by
    unfold EisaId.low EisaId.high
    omega
  simp only [Hex.digits, h1, h2, h3, h4, List.nil_append, List.cons_append, List.map_cons,
    List.map_nil, EisaId.digit]

/-- The word of the letters with its bytes swapped. -/
def EisaId.swapped (id : EisaId) : ℕ := id.letters / 256 + id.letters % 256 * 256

/-- What the conversion makes of an id: both halves have their bytes swapped. -/
theorem toList_eisaString_compress (a : EisaId) : (eisaString a.compress).toList =
    [Char.ofNat (0x40 + a.swapped / 1024 % 32), Char.ofNat (0x40 + a.swapped / 32 % 32),
      Char.ofNat (0x40 + a.swapped % 32), EisaId.digit a.d3, EisaId.digit a.d4,
      EisaId.digit a.d1, EisaId.digit a.d2] := by
  have hw := a.letters_lt
  have hnat := toNat_compress a
  have hhigh : a.high < 256 := by
    unfold EisaId.high
    omega
  have hlow : a.low < 256 := by
    unfold EisaId.low
    omega
  have hswap : a.swapped = a.compress.toNat % 65536 := by
    rw [hnat, EisaId.swapped]
    omega
  have hrest : a.compress.toNat / 65536 = a.low * 256 + a.high := by
    rw [hnat]
    omega
  rw [toList_eisaString _ (by omega), hrest, swapped_digits, hswap]
  -- the fields are in the low half
  have e1 : a.compress.toNat % 65536 / 1024 % 32 = a.compress.toNat / 1024 % 32 := by
    rw [show 65536 = 1024 * 64 from rfl, Nat.mod_mul_right_div_self,
      Nat.mod_mod_of_dvd _ (by norm_num)]
  have e2 : a.compress.toNat % 65536 / 32 % 32 = a.compress.toNat / 32 % 32 := by
    rw [show 65536 = 32 * 2048 from rfl, Nat.mod_mul_right_div_self,
      Nat.mod_mod_of_dvd _ (by norm_num)]
  have e3 : a.compress.toNat % 65536 % 32 = a.compress.toNat % 32 :=
    Nat.mod_mod_of_dvd _ (by norm_num)
  rw [e1, e2, e3]
  rfl

/-- Three fields of five bits make a word of 15 bits. -/
theorem fields_eq_iff (m n : ℕ) : m / 1024 % 32 = n / 1024 % 32 ∧ m / 32 % 32 = n / 32 % 32 ∧
    m % 32 = n % 32 ↔ m % 32768 = n % 32768 := by
  have hfields : ∀ n : ℕ, n % 32768 = n / 1024 % 32 * 1024 + n / 32 % 32 * 32 + n % 32 := by
    intro n
    rw [show 1024 = 32 * 32 from rfl, ← Nat.div_div_eq_div_mul]
    have h1 := Nat.div_add_mod n 32
    have h2 := Nat.div_add_mod (n / 32) 32
    have h3 := Nat.div_add_mod (n / 32 / 32) 32
    omega
  rw [hfields m, hfields n]
  omega

/-- Swapping the bytes of a word of 15 bits and dropping bit 15. -/
theorem swapped_mod (a : EisaId) :
    a.swapped % 32768 = a.letters % 128 * 256 + a.letters / 256 := by
  have hhigh : a.letters / 256 < 128 := by
    have := a.letters_lt
    omega
  have hmod : a.letters % 128 = a.letters % 256 % 128 :=
    (Nat.mod_mod_of_dvd _ (by norm_num)).symm
  rw [EisaId.swapped, hmod]
  generalize a.letters / 256 = high at hhigh ⊢
  generalize a.letters % 256 = low
  omega

/-- The pairs of digits of two ids. -/
theorem pairs_eq_iff (a b : EisaId) : a.high = b.high ∧ a.low = b.low ↔
    a.d1 = b.d1 ∧ a.d2 = b.d2 ∧ a.d3 = b.d3 ∧ a.d4 = b.d4 := by
  simp only [EisaId.high, EisaId.low, Fin.ext_iff]
  omega

/-- The ids that are given back. -/
theorem eisaString_eq_text_iff (a : EisaId) : eisaString a.compress = a.text ↔
    a.letters / 256 = a.letters % 256 ∧ a.high = a.low := by
  have ha := a.letters_lt
  rw [← String.toList_inj, toList_eisaString_compress, EisaId.text, String.toList_ofList]
  simp only [List.cons.injEq, and_true, EisaId.letter, digit_eq_iff]
  rw [charOfNat_eq_iff (by omega) (by omega), charOfNat_eq_iff (by omega) (by omega),
    charOfNat_eq_iff (by omega) (by omega)]
  -- the letters of the id are the fields of its word
  have hfields : a.letters / 1024 % 32 = a.l1 + 1 ∧ a.letters / 32 % 32 = a.l2 + 1 ∧
      a.letters % 32 = a.l3 + 1 := by
    unfold EisaId.letters
    omega
  have hword : (0x40 + a.swapped / 1024 % 32 = 0x41 + a.l1 ∧
      0x40 + a.swapped / 32 % 32 = 0x41 + a.l2 ∧ 0x40 + a.swapped % 32 = 0x41 + a.l3) ↔
      a.letters / 256 = a.letters % 256 := by
    have h := fields_eq_iff a.swapped a.letters
    rw [swapped_mod, hfields.1, hfields.2.1, hfields.2.2] at h
    omega
  have hsame : a.high = a.low ↔
      a.d3 = a.d1 ∧ a.d4 = a.d2 ∧ a.d1 = a.d3 ∧ a.d2 = a.d4 := by
    simp only [EisaId.high, EisaId.low, Fin.ext_iff]
    omega
  rw [← hword, hsame]
  tauto

/-- The ids that are given the same string. -/
theorem eisaString_eq_iff (a b : EisaId) : eisaString a.compress = eisaString b.compress ↔
    a.letters / 256 = b.letters / 256 ∧ a.letters % 128 = b.letters % 128 ∧
      a.high = b.high ∧ a.low = b.low := by
  have ha := a.letters_lt
  have hb := b.letters_lt
  rw [← String.toList_inj, toList_eisaString_compress, toList_eisaString_compress]
  simp only [List.cons.injEq, and_true, digit_eq_iff]
  rw [charOfNat_eq_iff (by omega) (by omega), charOfNat_eq_iff (by omega) (by omega),
    charOfNat_eq_iff (by omega) (by omega), Nat.add_left_cancel_iff, Nat.add_left_cancel_iff,
    Nat.add_left_cancel_iff]
  have hword := fields_eq_iff a.swapped b.swapped
  rw [swapped_mod, swapped_mod] at hword
  have hbytes : a.letters % 128 * 256 + a.letters / 256 =
      b.letters % 128 * 256 + b.letters / 256 ↔
      a.letters / 256 = b.letters / 256 ∧ a.letters % 128 = b.letters % 128 := by
    omega
  constructor
  · rintro ⟨w1, w2, w3, h3, h4, h1, h2⟩
    obtain ⟨hh, hl⟩ := hbytes.1 (hword.1 ⟨w1, w2, w3⟩)
    exact ⟨hh, hl, (pairs_eq_iff a b).2 ⟨h1, h2, h3, h4⟩⟩
  · rintro ⟨hh, hl, hp⟩
    obtain ⟨w1, w2, w3⟩ := hword.2 (hbytes.2 ⟨hh, hl⟩)
    obtain ⟨h1, h2, h3, h4⟩ := (pairs_eq_iff a b).1 hp
    exact ⟨w1, w2, w3, h3, h4, h1, h2⟩

/-- **EISA ids.**  The conversion gives an id back iff its word of letters consists of two equal
bytes and its last two digits are the first two; it makes the same string of two ids iff they have
the same digits and their words of letters differ in bit 7 at most. -/
theorem eisa_decode (a : EisaId) :
    (hidOf (.integer a.compress) = some a.text ↔
      a.letters / 256 = a.letters % 256 ∧ a.high = a.low) ∧
    ∀ b : EisaId, hidOf (.integer a.compress) = hidOf (.integer b.compress) ↔
      a.letters / 256 = b.letters / 256 ∧ a.letters % 128 = b.letters % 128 ∧
        a.high = b.high ∧ a.low = b.low := by
  constructor
  · rw [hidOf, Option.some_inj]
    exact eisaString_eq_text_iff a
  · intro b
    rw [hidOf, hidOf, Option.some_inj]
    exact eisaString_eq_iff a b

/-- The id of a PCI bus. -/
theorem eisa_misread :
    let id : EisaId := ⟨15, 13, 15, 0, 10, 0, 3⟩
    id.text = "PNP0A03" ∧ id.compress = 0x030AD041 ∧
      hidOf (.integer id.compress) = some "TBA030A" ∧
      hidOf (.integer id.compress) ≠ some id.text := by
  have hread : hidOf (.integer (EisaId.mk 15 13 15 0 10 0 3).compress) = some "TBA030A" := by
    rw [hidOf, Option.some_inj, ← String.toList_inj, toList_eisaString_compress]
    decide
  refine ⟨by decide, by decide, hread, ?_⟩
  rw [hread]
  decide

end Decode

end GlendaDrivers.Aml
