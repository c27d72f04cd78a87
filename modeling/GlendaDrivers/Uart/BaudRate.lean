import GlendaDrivers.Uart.Registers

/-!
# The divisor of a baud rate

* `IsDivisor`: the divisor that yields a baud rate;
* `programDivisor_latch`: what `set_baud_rate` leaves in the divisor latch;
* `calculateDivisor_eq`: the divisor that is computed;
* `baud_rate_programmed`: the baud rates that are programmed safely and accurately.
-/

namespace GlendaDrivers.Uart

/-- `d` fits into the divisor latch, and divides the clock down to `baud`, rounded. -/
def IsDivisor (baud d : ℕ) : Prop :=
  1 ≤ d ∧ d ≤ 65535 ∧ 16 * d * baud ≤ uartClock.toNat ∧ uartClock.toNat < 16 * (d + 1) * baud

/-- The divisor in the latch. -/
def Chip.latch (c : Chip) : ℕ := c.dlm.toNat * 256 + c.dll.toNat

/-- `set_baud_rate` neither overflows nor divides by zero; it leaves the divisor for `baud` in the
latch, or there is none and the line settings are unchanged. -/
def ProgramsBaud (baud : UInt32) : Prop :=
  16 * baud.toNat < 2 ^ 32 ∧ 16 * baud.toNat ≠ 0 ∧ ∀ m, ∃ m',
    setBaudRate baud m = (.ret ⟨⟩, m') ∧
      (IsDivisor baud.toNat m'.chip.latch ∨
        (∀ d, ¬IsDivisor baud.toNat d) ∧ m'.chip.latch = m.chip.latch ∧ m'.chip.lcr = m.chip.lcr)

/-! ### The latch -/

theorem isDivisor_iff {baud d : ℕ} (hbaud : 0 < baud) :
    IsDivisor baud d ↔ d = 115200 / baud ∧ 1 ≤ d ∧ d ≤ 65535 := by
  have hclock : uartClock.toNat = 1843200 := rfl
  unfold IsDivisor
  rw [hclock, eq_comm, Nat.div_eq_iff hbaud]
  have hlow : 16 * d * baud = 16 * (d * baud) := Nat.mul_assoc ..
  have hhigh : 16 * (d + 1) * baud = 16 * (d * baud) + 16 * baud := by ring
  rw [hlow, hhigh]
  omega

section Latch

variable {m : Machine}

theorem writeDll_chip (hlcr : m.chip.lcr = lcrDlab) (val : UInt8) :
    (m.moved.writeAt val Reg.dll).chip = { m.moved.chip with dll := val } := by
  have hd : m.moved.chip.dlab = true := dlab_eq_true (m := m) (by
    show m.chip.lcr &&& lcrDlab ≠ 0
    rw [hlcr]
    decide)
  simp only [Reg.dll, Machine.writeAt, hd, if_true]

theorem writeDlm_chip (hlcr : m.chip.lcr = lcrDlab) (val : UInt8) :
    (m.moved.writeAt val Reg.dlm).chip = { m.moved.chip with dlm := val } := by
  have hd : m.moved.chip.dlab = true := dlab_eq_true (m := m) (by
    show m.chip.lcr &&& lcrDlab ≠ 0
    rw [hlcr]
    decide)
  simp only [Reg.dlm, Machine.writeAt, hd, if_true]

/-- Writes to the other registers leave the latch alone. -/
theorem latch_writeAt (m : Machine) (val : UInt8) {offset : ℕ} (h : 2 ≤ offset) :
    (m.moved.writeAt val offset).chip.latch = m.chip.latch := by
  have hmoved : m.moved.chip.latch = m.chip.latch := rfl
  rw [← hmoved]
  generalize m.moved = m
  match offset, h with
  | 2, _ => rfl
  | 3, _ => rfl
  | 4, _ => rfl
  | _ + 5, _ => rfl

/-- The two halves of the divisor are written while the latch is selected. -/
theorem programDivisor_latch (divisor : UInt16) (m : Machine) : ∃ m',
    programDivisor divisor m = (.ret ⟨⟩, m') ∧ m'.chip.latch = divisor.toNat ∧
      m'.chip.lcr = lcr8N1 := by
  let m₁ := (m.moved.writeAt 0x00 Reg.ier).moved.writeAt lcrDlab Reg.lcr
  let m₂ := m₁.moved.writeAt (divisor &&& 0xFF).toUInt8 Reg.dll
  let m₃ := m₂.moved.writeAt (divisor >>> 8).toUInt8 Reg.dlm
  have hm₂ : m₂.chip = { m₁.moved.chip with dll := (divisor &&& 0xFF).toUInt8 } :=
    writeDll_chip rfl _
  have hm₃ : m₃.chip = { m₂.moved.chip with dlm := (divisor >>> 8).toUInt8 } :=
    writeDlm_chip (by rw [hm₂]; rfl) _
  refine ⟨_, rfl, ?_, rfl⟩
  refine (latch_writeAt _ _ (by decide)).trans ((latch_writeAt _ _ (by decide)).trans
    ((latch_writeAt m₃ _ (by decide)).trans ?_))
  show m₃.chip.dlm.toNat * 256 + m₃.chip.dll.toNat = divisor.toNat
  have hdll : m₃.chip.dll = (divisor &&& 0xFF).toUInt8 := by
    rw [hm₃]
    show m₂.chip.dll = _
    rw [hm₂]
  have hdlm : m₃.chip.dlm = (divisor >>> 8).toUInt8 := by rw [hm₃]
  have hmask : divisor.toNat &&& 255 = divisor.toNat % 256 :=
    Nat.and_two_pow_sub_one_eq_mod divisor.toNat 8
  have hshift : divisor.toNat >>> 8 = divisor.toNat / 256 := Nat.shiftRight_eq_div_pow _ 8
  rw [hdll, hdlm, UInt16.toNat_toUInt8, UInt16.toNat_toUInt8, UInt16.toNat_and,
    UInt16.toNat_shiftRight]
  show (divisor.toNat >>> 8) % 2 ^ 8 * 256 + (divisor.toNat &&& 255) % 2 ^ 8 = _
  rw [hmask, hshift]
  have := divisor.toNat_lt
  omega

end Latch

/-! ### The computation -/

/-- Without overflow the divisor is that of the baud rate, cut to 16 bits. -/
theorem calculateDivisor_eq {baud : UInt32} (hlt : 16 * baud.toNat < 2 ^ 32)
    (hpos : 0 < baud.toNat) : ∃ divisor : UInt16,
      calculateDivisor baud = .ret divisor ∧ divisor.toNat = 115200 / baud.toNat % 65536 := by
  have hmul : (16 * baud).toNat = 16 * baud.toNat := by
    rw [UInt32.toNat_mul]
    exact Nat.mod_eq_of_lt hlt
  refine ⟨(uartClock / (16 * baud)).toUInt16, if_neg fun h => ?_, ?_⟩
  · rw [h] at hmul
    have : (0 : UInt32).toNat = 0 := rfl
    omega
  · rw [UInt32.toNat_toUInt16, UInt32.toNat_div, hmul]
    show 1843200 / (16 * baud.toNat) % 65536 = _
    rw [← Nat.div_div_eq_div_mul]

theorem setBaudRate_latch {baud : UInt32} (hlt : 16 * baud.toNat < 2 ^ 32)
    (hpos : 0 < baud.toNat) (m : Machine) : ∃ m', setBaudRate baud m = (.ret ⟨⟩, m') ∧
      m'.chip.latch = 115200 / baud.toNat % 65536 := by
  obtain ⟨divisor, hcalc, hdiv⟩ := calculateDivisor_eq hlt hpos
  obtain ⟨m', hret, hlatch, -⟩ := programDivisor_latch divisor m
  refine ⟨m', ?_, hlatch.trans hdiv⟩
  unfold setBaudRate
  rw [hcalc]
  exact hret

theorem programsBaud_of_range {baud : UInt32} (htwo : 2 ≤ baud.toNat) (hle : baud.toNat ≤ 115200) :
    ProgramsBaud baud := by
  refine ⟨by omega, by omega, fun m => ?_⟩
  have hlt : 16 * baud.toNat < 2 ^ 32 := by omega
  obtain ⟨m', hret, hlatch⟩ := setBaudRate_latch hlt (by omega) m
  refine ⟨m', hret, Or.inl ((isDivisor_iff (by omega)).mpr ?_)⟩
  have hone : 1 ≤ 115200 / baud.toNat := (Nat.one_le_div_iff (by omega)).mpr hle
  have hsmall : 115200 / baud.toNat ≤ 115200 / 2 := Nat.div_le_div_left htwo (by decide)
  rw [hlatch, Nat.mod_eq_of_lt (by omega)]
  exact ⟨rfl, hone, by omega⟩

/-- The machine as `init_hw` leaves it, with the divisor of the default baud rate. -/
def initialised : Machine :=
  { Machine.initial (fun _ => .quiet) with chip := ⟨0, 0, lcr8N1, 0, 3, 0, []⟩ }

/-- Baud rate 1 needs a divisor that is too large, and larger baud rates than 115200 need a
smaller one than 1; the latch is programmed all the same. -/
theorem range_of_programsBaud {baud : UInt32} (h : ProgramsBaud baud) :
    2 ≤ baud.toNat ∧ baud.toNat ≤ 115200 := by
  obtain ⟨hlt, hne, hrun⟩ := h
  have hpos : 0 < baud.toNat := by omega
  by_contra hrange
  have hquot : 115200 / baud.toNat = 115200 ∨ 115200 / baud.toNat = 0 := by
    rcases Nat.lt_or_ge 115200 baud.toNat with hlarge | hle
    · exact Or.inr (Nat.div_eq_of_lt hlarge)
    · have hbaud : baud.toNat = 1 := by omega
      exact Or.inl (by rw [hbaud])
  obtain ⟨m', hret, hdiv⟩ := hrun initialised
  obtain ⟨m'', hret', hlatch⟩ := setBaudRate_latch hlt hpos initialised
  obtain rfl : m' = m'' := (Prod.mk.inj (hret.symm.trans hret')).2
  obtain hdiv | ⟨-, hsame, -⟩ := hdiv
  · obtain ⟨-, hone, hle⟩ := (isDivisor_iff hpos).mp hdiv
    obtain hquot | hquot := hquot
    · have hd := ((isDivisor_iff hpos).mp hdiv).1
      omega
    · rw [hlatch, hquot] at hone
      omega
  · have hsame : m'.chip.latch = 3 := hsame
    rw [hlatch] at hsame
    omega

/-- **Baud rates.**  `set_baud_rate` is safe and accurate exactly for the baud rates from 2 to
115200. -/
theorem baud_rate_programmed (baud : UInt32) :
    ProgramsBaud baud ↔ 2 ≤ baud.toNat ∧ baud.toNat ≤ 115200 :=
  ⟨range_of_programsBaud, fun h => programsBaud_of_range h.1 h.2⟩

/-- For the baud rate 0 the driver divides by zero, and for 200000 it programs the divisor 0. -/
theorem baud_rate_zero : (setBaudRate 0 initialised).1 = .panic ∧ ¬ProgramsBaud 0 ∧
    (setBaudRate 200000 initialised).2.chip.latch = 0 ∧ ¬ProgramsBaud 200000 := by
  refine ⟨rfl, fun h => ?_, by decide, fun h => ?_⟩
  · exact absurd (range_of_programsBaud h) (by decide)
  · exact absurd (range_of_programsBaud h) (by decide)

end GlendaDrivers.Uart
