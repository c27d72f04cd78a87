import GlendaDrivers.Glenda
import GlendaDrivers.Lib.Cells

/-!
# The SiFive GPIO driver (`gpio/sifive-gpio/src/gpio.rs`, `server.rs`)

Every pin has one bit in each of three registers.  The pin of a request is a 32-bit number, by
which `1` is shifted without a check.  In a build with overflow checks a shift by the width of the
type or more panics; otherwise the amount is taken modulo the width.

* `setMode`, `write`, `read`: the operations on the registers;
* `serve`: the requests;
* `column`, `actsOn_serve`: a request acts on the bits of its pin only, when it has any;
* `pinLaws_iff`: the pins for which the laws hold.
-/

namespace GlendaDrivers.Gpio

/-! ### The driver -/

/-- `GPIO_VALUE`. -/
def gpioValue : ℕ := 0x00

/-- `GPIO_INPUT_EN`. -/
def gpioInputEn : ℕ := 0x04

/-- `GPIO_OUTPUT_EN`. -/
def gpioOutputEn : ℕ := 0x08

/-- The contents of the registers, by offset. -/
abbrev Regs := ℕ → UInt32

/-- `read_reg`. -/
def readReg (offset : ℕ) : Prog Regs UInt32 := Prog.ofFn fun regs => (regs offset, regs)

/-- `write_reg`. -/
def writeReg (offset : ℕ) (value : UInt32) : Prog Regs Unit :=
  Prog.modify fun regs => Function.update regs offset value

section Driver

variable (checks : Bool) (modeInput modeOutput : UInt8)

/-- `1 << pin`, in a build with or without overflow checks. -/
def shl (pin : UInt32) : Prog Regs UInt32 :=
  if checks ∧ 32 ≤ pin then Prog.panic else pure (1 <<< pin)

/-- `set_mode`. -/
def setMode (pin : UInt32) (mode : UInt8) : Prog Regs (Except Error Unit) := do
  let bit ← shl checks pin
  if mode = modeInput then
    let val ← readReg gpioInputEn
    writeReg gpioInputEn (val ||| bit)
    let val ← readReg gpioOutputEn
    writeReg gpioOutputEn (val &&& ~~~bit)
    pure (.ok ())
  else if mode = modeOutput then
    let val ← readReg gpioOutputEn
    writeReg gpioOutputEn (val ||| bit)
    let val ← readReg gpioInputEn
    writeReg gpioInputEn (val &&& ~~~bit)
    pure (.ok ())
  else pure (.error .invalidArgs)

/-- `write`. -/
def write (pin : UInt32) (value : Bool) : Prog Regs (Except Error Unit) := do
  let bit ← shl checks pin
  let val ← readReg gpioValue
  writeReg gpioValue (if value then val ||| bit else val &&& ~~~bit)
  pure (.ok ())

/-- `read`. -/
def read (pin : UInt32) : Prog Regs (Except Error Bool) := do
  let val ← readReg gpioValue
  let bit ← shl checks pin
  pure (.ok (val &&& bit != 0))

/-- `GpioService`: whether `gpio` is set, and the registers. -/
@[ext] structure GpioService where
  gpio : Bool
  regs : Regs

/-- The methods of `GpioDriver` for the service: they need `gpio`. -/
def withGpio {α : Type} (m : Prog Regs (Except Error α)) :
    Prog GpioService (Except Error α) := do
  let s ← Prog.get
  if s.gpio then Prog.zoom GpioService.regs (fun regs s => { s with regs }) m
  else pure (.error .notInitialized)

/-- A request, with the message registers that are read. -/
inductive GpioRequest
  | setMode (mr0 mr1 : UInt64)
  | write (mr0 mr1 : UInt64)
  | read (mr0 : UInt64)
  deriving DecidableEq

/-- `on_set_mode`.  The first message register is left alone. -/
def onSetMode (mr0 mr1 : UInt64) : Prog GpioService (Except Error UInt64) := do
  let r ← withGpio (setMode checks modeInput modeOutput mr0.toUInt32 mr1.toUInt8)
  Prog.attempt r fun _ => pure (.ok mr0)

/-- `on_write`. -/
def onWrite (mr0 mr1 : UInt64) : Prog GpioService (Except Error UInt64) := do
  let r ← withGpio (write checks mr0.toUInt32 (mr1 != 0))
  Prog.attempt r fun _ => pure (.ok mr0)

/-- `on_read`. -/
def onRead (mr0 : UInt64) : Prog GpioService (Except Error UInt64) := do
  let r ← withGpio (read checks mr0.toUInt32)
  Prog.attempt r fun value => pure (.ok value.toUInt64)

/-- The handler of a request; the result is an error or the first message register of the reply. -/
def serve : GpioRequest → Prog GpioService (Except Error UInt64)
  | .setMode mr0 mr1 => onSetMode checks modeInput modeOutput mr0 mr1
  | .write mr0 mr1 => onWrite checks mr0 mr1
  | .read mr0 => onRead checks mr0

end Driver

/-- The pin of a request. -/
def GpioRequest.pin : GpioRequest → UInt32
  | setMode mr0 _ => mr0.toUInt32
  | write mr0 _ => mr0.toUInt32
  | read mr0 => mr0.toUInt32

/-! ### The bits of a pin -/

/-- Only the bit `n` is set. -/
def IsBit (n : ℕ) (bit : UInt32) : Prop :=
  n < 32 ∧ ∀ i, bit.toBitVec.getLsbD i = decide (i = n)

namespace IsBit

variable {n : ℕ} {bit : UInt32}

theorem or (h : IsBit n bit) (val : UInt32) (i : ℕ) :
    (val ||| bit).toBitVec.getLsbD i = if i = n then true else val.toBitVec.getLsbD i := by
  rw [UInt32.toBitVec_or, BitVec.getLsbD_or, h.2]
  split_ifs with hi <;> simp [hi]

theorem and_not (h : IsBit n bit) (val : UInt32) (i : ℕ) :
    (val &&& ~~~bit).toBitVec.getLsbD i = if i = n then false else val.toBitVec.getLsbD i := by
  rw [UInt32.toBitVec_and, UInt32.toBitVec_not, BitVec.getLsbD_and, BitVec.getLsbD_not, h.2]
  split_ifs with hi
  · simp [hi]
  · cases hbit : val.toBitVec.getLsbD i
    · rfl
    · simp [hi, BitVec.lt_of_getLsbD hbit]

theorem and_ne_zero (h : IsBit n bit) (val : UInt32) :
    (val &&& bit != 0) = val.toBitVec.getLsbD n := by
  have hbits : ∀ i, (val &&& bit).toBitVec.getLsbD i =
      (val.toBitVec.getLsbD i && decide (i = n)) := by
    intro i
    rw [UInt32.toBitVec_and, BitVec.getLsbD_and, h.2]
  cases hn : val.toBitVec.getLsbD n
  · have hzero : val &&& bit = 0 := by
      apply UInt32.toBitVec_inj.mp
      apply BitVec.eq_of_getLsbD_eq
      intro i _
      rw [hbits]
      by_cases hi : i = n
      · subst hi
        simp [hn]
      · simp [hi]
    rw [hzero]
    rfl
  · have hone := hbits n
    rw [hn, decide_eq_true rfl, Bool.and_true] at hone
    rw [bne_iff_ne]
    intro hzero
    rw [hzero] at hone
    simp at hone

end IsBit

theorem isBit_shl {pin : UInt32} (hpin : pin.toNat < 32) : IsBit pin.toNat (1 <<< pin) := by
  refine ⟨hpin, fun i => ?_⟩
  have hmod : (pin.toBitVec % 32).toNat = pin.toNat := by
    rw [BitVec.toNat_umod]
    exact Nat.mod_eq_of_lt hpin
  rw [UInt32.toBitVec_shiftLeft]
  show (1#32 <<< (pin.toBitVec % 32).toNat).getLsbD i = _
  rw [hmod, ← BitVec.twoPow_eq, BitVec.getLsbD_twoPow]
  simp only [hpin, decide_true, Bool.true_and, eq_comm]

/-- The bits that the registers have at `i`. -/
def column (regs : Regs) (i : ℕ) : ℕ → Bool := fun offset => (regs offset).toBitVec.getLsbD i

theorem column_injective : Function.Injective column := by
  intro regs regs' h
  funext offset
  apply UInt32.toBitVec_inj.mp
  apply BitVec.eq_of_getLsbD_eq
  intro i _
  exact congrFun (congrFun h i) offset

/-- A register whose bit `n` becomes `v`. -/
theorem column_update {n : ℕ} {val : UInt32} {v : Bool} (regs : Regs) (offset : ℕ)
    (h : ∀ i, val.toBitVec.getLsbD i =
      if i = n then v else (regs offset).toBitVec.getLsbD i) :
    column (Function.update regs offset val) =
      Function.update (column regs) n (Function.update (column regs n) offset v) := by
  funext i offset'
  by_cases hoff : offset' = offset
  · subst hoff
    by_cases hi : i = n
    · subst hi
      simp [column, h]
    · simp [column, h, hi]
  · by_cases hi : i = n
    · subst hi
      simp [column, hoff]
    · simp [column, hoff, hi]

/-! ### Requests act on the bits of their pin -/

section Acts

variable {checks : Bool} {modeInput modeOutput : UInt8}

theorem shl_eq {pin : UInt32} (hpin : pin.toNat < 32) : shl checks pin = pure (1 <<< pin) := by
  have hlt : ¬32 ≤ pin := by
    rw [UInt32.not_le, UInt32.lt_iff_toNat_lt]
    exact hpin
  unfold shl
  rw [if_neg fun h => hlt h.2]

/-- Setting the bit of a pin in one register and clearing it in another. -/
theorem column_set_clear {n : ℕ} {bit : UInt32} (hbit : IsBit n bit) (regs : Regs) (on off : ℕ) :
    column (Function.update (Function.update regs on (regs on ||| bit)) off
      (Function.update regs on (regs on ||| bit) off &&& ~~~bit)) =
        Function.update (column regs) n
          (Function.update (Function.update (column regs n) on true) off false) := by
  rw [column_update _ off (hbit.and_not _), column_update _ on (hbit.or _), Function.update_self,
    Function.update_idem]

/-- What `set_mode` does to the bits of its pin. -/
def modeAct (modeInput modeOutput mode : UInt8) (c : ℕ → Bool) : ℕ → Bool :=
  if mode = modeInput then Function.update (Function.update c gpioInputEn true) gpioOutputEn false
  else if mode = modeOutput then
    Function.update (Function.update c gpioOutputEn true) gpioInputEn false
  else c

/-- How `set_mode` ends. -/
def modeAns (modeInput modeOutput mode : UInt8) : Except Error Unit :=
  if mode = modeInput then .ok () else if mode = modeOutput then .ok () else .error .invalidArgs

theorem actsOn_setMode {pin : UInt32} (hpin : pin.toNat < 32) (mode : UInt8) :
    Prog.ActsOn column pin.toNat (fun _ => modeAns modeInput modeOutput mode)
      (modeAct modeInput modeOutput mode) (setMode checks modeInput modeOutput pin mode) := by
  intro regs
  have hbit := isBit_shl hpin
  unfold setMode modeAns modeAct
  rw [shl_eq hpin, pure_bind]
  split_ifs with hin hout
  · exact ⟨_, rfl, column_set_clear hbit regs gpioInputEn gpioOutputEn⟩
  · exact ⟨_, rfl, column_set_clear hbit regs gpioOutputEn gpioInputEn⟩
  · exact ⟨regs, rfl, (Function.update_eq_self _ _).symm⟩

theorem actsOn_write {pin : UInt32} (hpin : pin.toNat < 32) (value : Bool) :
    Prog.ActsOn column pin.toNat (fun _ => .ok ())
      (fun c => Function.update c gpioValue value) (write checks pin value) := by
  intro regs
  have hbit := isBit_shl hpin
  unfold write
  rw [shl_eq hpin, pure_bind]
  refine ⟨_, rfl, column_update regs gpioValue fun i => ?_⟩
  cases value
  · exact hbit.and_not _ i
  · exact hbit.or _ i

theorem actsOn_read {pin : UInt32} (hpin : pin.toNat < 32) :
    Prog.ActsOn column pin.toNat (fun c => .ok (c gpioValue)) id (read checks pin) := by
  intro regs
  refine ⟨regs, ?_, (Function.update_eq_self _ _).symm⟩
  unfold read
  rw [shl_eq hpin]
  show (Outcome.ret (Except.ok (regs gpioValue &&& 1 <<< pin != 0)), regs) = _
  rw [(isBit_shl hpin).and_ne_zero]
  rfl

/-- What the service keeps for a pin. -/
def GpioService.cell (s : GpioService) (i : ℕ) : Bool × (ℕ → Bool) := (s.gpio, column s.regs i)

theorem GpioService.cell_injective : Function.Injective GpioService.cell := by
  intro s s' h
  refine GpioService.ext (congrArg Prod.fst (congrFun h 0)) (column_injective ?_)
  funext i
  exact congrArg Prod.snd (congrFun h i)

/-- How a request changes the bits of its pin. -/
def GpioRequest.act (modeInput modeOutput : UInt8) : GpioRequest → (ℕ → Bool) → ℕ → Bool
  | setMode _ mr1 => modeAct modeInput modeOutput mr1.toUInt8
  | write _ mr1 => fun c => Function.update c gpioValue (mr1 != 0)
  | read _ => id

/-- How a request is answered. -/
def GpioRequest.ans (modeInput modeOutput : UInt8) :
    GpioRequest → (ℕ → Bool) → Except Error UInt64
  | setMode mr0 mr1 => fun _ => (modeAns modeInput modeOutput mr1.toUInt8).map fun _ => mr0
  | write mr0 _ => fun _ => .ok mr0
  | read _ => fun c => .ok (c gpioValue).toUInt64

/-- A method of the service, and the handler that goes on with its result. -/
theorem actsOn_withGpio {α : Type} {n : ℕ} {ans : (ℕ → Bool) → Except Error α}
    {act : (ℕ → Bool) → ℕ → Bool} {m : Prog Regs (Except Error α)}
    (h : Prog.ActsOn column n ans act m) (f : α → UInt64) :
    Prog.ActsOn GpioService.cell n
      (fun c => if c.1 then (ans c.2).map f else .error .notInitialized)
      (fun c => if c.1 then (c.1, act c.2) else c)
      (do let r ← withGpio m; Prog.attempt r fun a => pure (.ok (f a))) := by
  rintro ⟨gpio, regs⟩
  cases gpio with
  | false =>
    refine ⟨⟨false, regs⟩, rfl, ?_⟩
    exact (Function.update_eq_self _ _).symm
  | true =>
    obtain ⟨regs', hrun, hcol⟩ := h regs
    have hgpio : withGpio m ⟨true, regs⟩ = (.ret (ans (column regs n)), ⟨true, regs'⟩) := by
      show ((m regs).1, (⟨true, (m regs).2⟩ : GpioService)) = _
      rw [hrun]
    refine ⟨⟨true, regs'⟩, ?_, ?_⟩
    · rw [Prog.bind_of_ret hgpio]
      show Prog.attempt (ans (column regs n)) _ _ =
        (Outcome.ret ((ans (column regs n)).map f), _)
      cases ans (column regs n) <;> rfl
    · funext i
      show (true, column regs' i) = _
      rw [hcol]
      by_cases hi : i = n
      · subst hi
        rw [Function.update_self, Function.update_self]
        rfl
      · rw [Function.update_of_ne hi, Function.update_of_ne hi]
        rfl

/-- How a request is answered by the service. -/
def GpioRequest.cellAns (modeInput modeOutput : UInt8) (req : GpioRequest)
    (c : Bool × (ℕ → Bool)) : Except Error UInt64 :=
  if c.1 then req.ans modeInput modeOutput c.2 else .error .notInitialized

/-- How a request changes what the service keeps for its pin. -/
def GpioRequest.cellAct (modeInput modeOutput : UInt8) (req : GpioRequest)
    (c : Bool × (ℕ → Bool)) : Bool × (ℕ → Bool) :=
  if c.1 then (c.1, req.act modeInput modeOutput c.2) else c

/-- A request acts on the bits of its pin, if there are any, and leaves the others alone. -/
theorem actsOn_serve (checks : Bool) (modeInput modeOutput : UInt8) (req : GpioRequest)
    (hpin : req.pin.toNat < 32) :
    Prog.ActsOn GpioService.cell req.pin.toNat (req.cellAns modeInput modeOutput)
      (req.cellAct modeInput modeOutput) (serve checks modeInput modeOutput req) := by
  cases req with
  | setMode mr0 mr1 => exact actsOn_withGpio (actsOn_setMode hpin mr1.toUInt8) fun _ => mr0
  | write mr0 mr1 => exact actsOn_withGpio (actsOn_write hpin (mr1 != 0)) fun _ => mr0
  | read mr0 => exact actsOn_withGpio (actsOn_read hpin) Bool.toUInt64

end Acts

/-! ### The laws of the pins -/

section Laws

variable (checks : Bool) (modeInput modeOutput : UInt8)

/-- From `s` to `s'` at most the bit of `pin` changes, in the three registers. -/
def ChangesPin (pin : UInt32) (s s' : GpioService) : Prop :=
  pin.toNat < 32 ∧ s'.gpio = s.gpio ∧ ∀ offset i, column s'.regs i offset ≠ column s.regs i offset →
    i = pin.toNat ∧ offset ∈ [gpioInputEn, gpioOutputEn, gpioValue]

/-- The requests to the pins in `S` act on their own pins only. -/
structure PinLaws (S : Set UInt32) : Prop where
  /-- A call that fails changes nothing; one that succeeds changes at most the bit of its pin. -/
  frame : ∀ req : GpioRequest, req.pin ∈ S → ∀ s, ∃ r s',
    serve checks modeInput modeOutput req s = (.ret r, s') ∧
      (∀ e, r = .error e → s' = s) ∧ ∀ mr0, r = .ok mr0 → ChangesPin req.pin s s'
  /-- A pin whose mode was set is either an input or an output. -/
  mode : ∀ mr0 mr1 : UInt64, mr0.toUInt32 ∈ S → ∀ s r s',
    serve checks modeInput modeOutput (.setMode mr0 mr1) s = (.ret (.ok r), s') →
      column s'.regs mr0.toUInt32.toNat gpioInputEn =
        !column s'.regs mr0.toUInt32.toNat gpioOutputEn
  /-- What was written is read, also after requests to other pins. -/
  readback : ∀ mr0 mr1 : UInt64, mr0.toUInt32 ∈ S → ∀ s r s',
    serve checks modeInput modeOutput (.write mr0 mr1) s = (.ret (.ok r), s') →
      ∀ reqs : List GpioRequest, (∀ req ∈ reqs, req.pin ∈ S ∧ req.pin ≠ mr0.toUInt32) →
        ∃ rs s'', reqs.mapM (serve checks modeInput modeOutput) s' = (.ret rs, s'') ∧
          ∀ mr0' : UInt64, mr0'.toUInt32 = mr0.toUInt32 →
            (serve checks modeInput modeOutput (.read mr0') s'').1 =
              .ret (.ok (mr1 != 0).toUInt64)
  /-- Requests to distinct pins commute. -/
  commute : ∀ a b : GpioRequest, a.pin ∈ S → b.pin ∈ S → a.pin ≠ b.pin →
    (do let x ← serve checks modeInput modeOutput a
        let y ← serve checks modeInput modeOutput b
        pure (x, y)) =
      (do let y ← serve checks modeInput modeOutput b
          let x ← serve checks modeInput modeOutput a
          pure (x, y))

variable {checks modeInput modeOutput}

theorem act_of_not_mem (req : GpioRequest) (c : ℕ → Bool) {offset : ℕ}
    (h : offset ∉ [gpioInputEn, gpioOutputEn, gpioValue]) :
    req.act modeInput modeOutput c offset = c offset := by
  simp only [List.mem_cons, List.not_mem_nil, or_false, not_or] at h
  obtain ⟨hin, hout, hvalue⟩ := h
  cases req with
  | setMode mr0 mr1 =>
    show modeAct modeInput modeOutput mr1.toUInt8 c offset = c offset
    unfold modeAct
    split_ifs
    · rw [Function.update_of_ne hout, Function.update_of_ne hin]
    · rw [Function.update_of_ne hin, Function.update_of_ne hout]
    · rfl
  | write mr0 mr1 => exact Function.update_of_ne hvalue _ _
  | read mr0 => rfl

theorem modeAct_of_error {mode : UInt8} {e : Error}
    (h : modeAns modeInput modeOutput mode = .error e) (c : ℕ → Bool) :
    modeAct modeInput modeOutput mode c = c := by
  unfold modeAns at h
  unfold modeAct
  split_ifs at h ⊢
  · rfl

/-- A mode that is accepted sets one of the two bits and clears the other. -/
theorem modeAct_of_ok {mode : UInt8} (h : modeAns modeInput modeOutput mode = .ok ())
    (c : ℕ → Bool) : modeAct modeInput modeOutput mode c gpioInputEn =
      !modeAct modeInput modeOutput mode c gpioOutputEn := by
  unfold modeAns at h
  unfold modeAct
  split_ifs at h ⊢
  · rfl
  · rfl

theorem act_of_error {req : GpioRequest} {c : ℕ → Bool} {e : Error}
    (h : req.ans modeInput modeOutput c = .error e) : req.act modeInput modeOutput c = c := by
  cases req with
  | setMode mr0 mr1 =>
    have h : (modeAns modeInput modeOutput mr1.toUInt8).map (fun _ => mr0) = .error e := h
    cases hmode : modeAns modeInput modeOutput mr1.toUInt8 with
    | error e' => exact modeAct_of_error hmode c
    | ok u =>
      rw [hmode] at h
      cases h
  | write mr0 mr1 => cases h
  | read mr0 => cases h

theorem cellAct_of_error {req : GpioRequest} {c : Bool × (ℕ → Bool)} {e : Error}
    (h : req.cellAns modeInput modeOutput c = .error e) :
    req.cellAct modeInput modeOutput c = c := by
  unfold GpioRequest.cellAns at h
  unfold GpioRequest.cellAct
  split_ifs at h ⊢
  · rw [act_of_error h]
  · rfl

theorem cellAct_fst (req : GpioRequest) (c : Bool × (ℕ → Bool)) :
    (req.cellAct modeInput modeOutput c).1 = c.1 := by
  unfold GpioRequest.cellAct
  split_ifs <;> rfl

theorem cellAct_snd_of_not_mem (req : GpioRequest) (c : Bool × (ℕ → Bool)) {offset : ℕ}
    (h : offset ∉ [gpioInputEn, gpioOutputEn, gpioValue]) :
    (req.cellAct modeInput modeOutput c).2 offset = c.2 offset := by
  unfold GpioRequest.cellAct
  split_ifs
  · exact act_of_not_mem req c.2 h
  · rfl

theorem serve_frame {req : GpioRequest} (hpin : req.pin.toNat < 32) (s : GpioService) :
    ∃ r s', serve checks modeInput modeOutput req s = (.ret r, s') ∧
      (∀ e, r = .error e → s' = s) ∧ ∀ mr0, r = .ok mr0 → ChangesPin req.pin s s' := by
  obtain ⟨s', hrun, hcell⟩ := actsOn_serve checks modeInput modeOutput req hpin s
  refine ⟨_, s', hrun, fun e he => ?_, fun mr0 _ => ⟨hpin, ?_, fun offset i hne => ?_⟩⟩
  · apply GpioService.cell_injective
    rw [hcell, cellAct_of_error he, Function.update_eq_self]
  · have hgpio : (s'.cell req.pin.toNat).1 = (s.cell req.pin.toNat).1 := by
      rw [hcell, Function.update_self, cellAct_fst]
    exact hgpio
  · have hne : (s'.cell i).2 offset ≠ (s.cell i).2 offset := hne
    have hpin : i = req.pin.toNat := by
      by_contra hi
      exact hne (by rw [hcell, Function.update_of_ne hi])
    refine ⟨hpin, ?_⟩
    by_contra hoff
    subst hpin
    exact hne (by rw [hcell, Function.update_self, cellAct_snd_of_not_mem req _ hoff])

/-- A read that returns succeeds. -/
theorem read_returns {pin : UInt32} {regs : Regs} {r : Except Error Bool}
    (hret : (read checks pin regs).1 = .ret r) : ∃ value, r = .ok value := by
  have hrun : read checks pin regs = (.ret r, (read checks pin regs).2) := Prod.ext hret rfl
  obtain ⟨val, _, -, hrest⟩ := Prog.bind_eq_ret.mp hrun
  obtain ⟨bit, _, -, hpure⟩ := Prog.bind_eq_ret.mp hrest
  cases hpure
  exact ⟨_, rfl⟩

theorem serve_read_returns {mr0 : UInt64} {regs : Regs} {r : Except Error UInt64}
    {s' : GpioService} (hrun : serve checks modeInput modeOutput (.read mr0) ⟨true, regs⟩ =
      (.ret r, s')) : ∃ value, r = .ok value := by
  obtain ⟨r₁, s₁, hread, hattempt⟩ := Prog.bind_eq_ret.mp hrun
  have hret : (read checks mr0.toUInt32 regs).1 = .ret r₁ := congrArg Prod.fst hread
  obtain ⟨value, rfl⟩ := read_returns hret
  cases hattempt
  exact ⟨_, rfl⟩

theorem toNat_ne {pin pin' : UInt32} (h : pin ≠ pin') : pin.toNat ≠ pin'.toNat :=
  fun heq => h (UInt32.toNat_inj.mp heq)

theorem serve_mode {mr0 mr1 : UInt64} (hpin : mr0.toUInt32.toNat < 32) {s s' : GpioService}
    {r : UInt64} (hrun : serve checks modeInput modeOutput (.setMode mr0 mr1) s =
      (.ret (.ok r), s')) :
    column s'.regs mr0.toUInt32.toNat gpioInputEn =
      !column s'.regs mr0.toUInt32.toNat gpioOutputEn := by
  obtain ⟨hans, hcell⟩ := (actsOn_serve _ _ _ (.setMode mr0 mr1) hpin).self hrun
  have hcell : s'.cell mr0.toUInt32.toNat = _ := hcell
  have hcol : column s'.regs mr0.toUInt32.toNat = _ := congrArg Prod.snd hcell
  rw [hcol]
  unfold GpioRequest.cellAns at hans
  unfold GpioRequest.cellAct
  split_ifs at hans ⊢
  · have hans : .ok r = (modeAns modeInput modeOutput mr1.toUInt8).map (fun _ => mr0) := hans
    cases hmode : modeAns modeInput modeOutput mr1.toUInt8 with
    | error e =>
      rw [hmode] at hans
      cases hans
    | ok u => exact modeAct_of_ok hmode _

theorem serve_readback {mr0 mr1 : UInt64} (hpin : mr0.toUInt32.toNat < 32) {s s' : GpioService}
    {r : UInt64} (hrun : serve checks modeInput modeOutput (.write mr0 mr1) s =
      (.ret (.ok r), s')) {reqs : List GpioRequest}
    (hreqs : ∀ req ∈ reqs, req.pin.toNat < 32 ∧ req.pin ≠ mr0.toUInt32) :
    ∃ rs s'', reqs.mapM (serve checks modeInput modeOutput) s' = (.ret rs, s'') ∧
      ∀ mr0' : UInt64, mr0'.toUInt32 = mr0.toUInt32 →
        (serve checks modeInput modeOutput (.read mr0') s'').1 =
          .ret (.ok (mr1 != 0).toUInt64) := by
  obtain ⟨hans, hcell⟩ := (actsOn_serve _ _ _ (.write mr0 mr1) hpin).self hrun
  obtain ⟨rs, s'', hruns, hsame⟩ := Prog.ActsOn.mapM
    (fun req hreq => actsOn_serve checks modeInput modeOutput req (hreqs req hreq).1)
    (fun req hreq => toNat_ne (hreqs req hreq).2) s'
  refine ⟨rs, s'', hruns, fun mr0' hmr => ?_⟩
  have hpin' : mr0'.toUInt32.toNat < 32 := by rwa [hmr]
  obtain ⟨t, hread, -⟩ := actsOn_serve checks modeInput modeOutput (.read mr0') hpin' s''
  rw [hread]
  show Outcome.ret (GpioRequest.cellAns modeInput modeOutput (.read mr0')
    (s''.cell mr0'.toUInt32.toNat)) = _
  rw [hmr, hsame]
  show Outcome.ret (GpioRequest.cellAns modeInput modeOutput (.read mr0')
    (s'.cell (GpioRequest.write mr0 mr1).pin.toNat)) = _
  rw [hcell]
  unfold GpioRequest.cellAns at hans ⊢
  unfold GpioRequest.cellAct
  split_ifs at hans ⊢ with hgpio
  · rfl

/-- The pins for which the laws hold have a bit: a read from another pin succeeds or panics. -/
theorem PinLaws.lt {S : Set UInt32} (h : PinLaws checks modeInput modeOutput S) {pin : UInt32}
    (hpin : pin ∈ S) : pin.toNat < 32 := by
  have hmr : (GpioRequest.read pin.toUInt64).pin = pin := UInt32.toUInt32_toUInt64 pin
  obtain ⟨r, s', hrun, -, hok⟩ := h.frame (.read pin.toUInt64) (by rwa [hmr]) ⟨true, fun _ => 0⟩
  obtain ⟨mr0, rfl⟩ := serve_read_returns hrun
  have hlow := (hok mr0 rfl).1
  rwa [hmr] at hlow

variable (checks modeInput modeOutput)

/-- **GPIO pins.**  The requests to the pins in `S` act on their own pins only exactly when every
pin in `S` has a bit in the registers. -/
theorem pinLaws_iff (S : Set UInt32) :
    PinLaws checks modeInput modeOutput S ↔ ∀ pin ∈ S, pin.toNat < 32 := by
  constructor
  · exact fun h pin hpin => h.lt hpin
  · intro h
    exact {
      frame := fun req hreq => serve_frame (h _ hreq)
      mode := fun mr0 mr1 hmr s r s' hrun => serve_mode (h _ hmr) hrun
      readback := fun mr0 mr1 hmr s r s' hrun reqs hreqs =>
        serve_readback (h _ hmr) hrun fun req hreq => ⟨h _ (hreqs req hreq).1, (hreqs req hreq).2⟩
      commute := fun a b ha hb hne => Prog.ActsOn.comm GpioService.cell_injective
        (actsOn_serve _ _ _ a (h _ ha)) (actsOn_serve _ _ _ b (h _ hb)) (toNat_ne hne) }

/-- Without overflow checks a write to pin 33 succeeds and changes the bit of pin 1; with overflow
checks it panics. -/
theorem pin_aliased :
    (∃ s', serve false 0 1 (.write 33 1) ⟨true, fun _ => 0⟩ = (.ret (.ok 33), s') ∧
      column s'.regs 1 gpioValue = true) ∧
      (serve true 0 1 (.write 33 1) ⟨true, fun _ => 0⟩).1 = .panic ∧
      ¬PinLaws false 0 1 Set.univ ∧ ¬PinLaws true 0 1 Set.univ := by
  have hnot : ∀ checks, ¬PinLaws checks 0 1 Set.univ := by
    intro checks h
    exact absurd (h.lt (Set.mem_univ 33)) (by decide)
  exact ⟨⟨_, rfl, by decide⟩, by decide, hnot false, hnot true⟩

end Laws

end GlendaDrivers.Gpio
