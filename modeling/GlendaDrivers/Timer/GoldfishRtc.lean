import GlendaDrivers.Glenda
import GlendaDrivers.Lib.Outcome
import GlendaDrivers.Lib.Words

/-!
# The Goldfish RTC driver (`timer/goldfish-rtc/src/rtc.rs`, `server.rs`)

The device keeps the time of the alarm in two registers of 32 bits.  A write to the low one arms
the alarm, for the time that the two registers then hold; `set_alarm` writes the low one first.

* `RtcDevice`: the registers and the alarm of the device;
* `setTime`, `setAlarm`, `stopAlarm`: the operations on the registers;
* `serve`: the requests;
* `serve_run`, `mapM_serve_run`: what a request, and a sequence of requests, leaves in the high
  register;
* `set_alarm_arms_iff`: the alarms that are armed for the time that was asked for.
-/

namespace GlendaDrivers.Rtc

/-! ### The device -/

def timerTimeLow : ℕ := 0x00
def timerTimeHigh : ℕ := 0x04
def timerAlarmLow : ℕ := 0x08
def timerAlarmHigh : ℕ := 0x0C
def timerIrqEnabled : ℕ := 0x10
def timerClearAlarm : ℕ := 0x14
def timerSetTimeLow : ℕ := 0x20
def timerSetTimeHigh : ℕ := 0x24

/-- The device: the contents of its registers, by offset, and its alarm. -/
structure RtcDevice where
  regs : ℕ → UInt32
  /-- The time that the alarm is armed for. -/
  armed : Option UInt64
  /-- The same after every write to a register, in order. -/
  moments : List (Option UInt64)

/-- The alarm after `value` is written at `offset`. -/
def RtcDevice.alarmAfter (dev : RtcDevice) (offset : ℕ) (value : UInt32) : Option UInt64 :=
  if offset = timerAlarmLow then some (word64 value (dev.regs timerAlarmHigh))
  else if offset = timerClearAlarm then none
  else dev.armed

/-- A write to a register. -/
def RtcDevice.store (dev : RtcDevice) (offset : ℕ) (value : UInt32) : RtcDevice where
  regs := Function.update dev.regs offset value
  armed := dev.alarmAfter offset value
  moments := dev.moments ++ [dev.alarmAfter offset value]

/-! ### The driver -/

/-- `read_reg`. -/
def readReg (offset : ℕ) : Prog RtcDevice UInt32 := Prog.ofFn fun dev => (dev.regs offset, dev)

/-- `write_reg`. -/
def writeReg (offset : ℕ) (value : UInt32) : Prog RtcDevice Unit :=
  Prog.modify (·.store offset value)

/-- `get_time`. -/
def getTime : Prog RtcDevice UInt64 := do
  let low ← readReg timerTimeLow
  let high ← readReg timerTimeHigh
  pure (word64 low high)

/-- `set_time`. -/
def setTime (timestamp : UInt64) : Prog RtcDevice (Except Error Unit) := do
  writeReg timerSetTimeLow (timestamp &&& 0xFFFFFFFF).toUInt32
  writeReg timerSetTimeHigh (timestamp >>> 32).toUInt32
  pure (.ok ())

/-- `set_alarm`. -/
def setAlarm (timestamp : UInt64) : Prog RtcDevice (Except Error Unit) := do
  writeReg timerAlarmLow (timestamp &&& 0xFFFFFFFF).toUInt32
  writeReg timerAlarmHigh (timestamp >>> 32).toUInt32
  writeReg timerIrqEnabled 1
  pure (.ok ())

/-- `stop_alarm`. -/
def stopAlarm : Prog RtcDevice (Except Error Unit) := do
  writeReg timerIrqEnabled 0
  writeReg timerClearAlarm 1
  pure (.ok ())

/-! ### The requests -/

/-- `RtcService`: whether `rtc` is set, and the device. -/
structure RtcService where
  rtc : Bool
  dev : RtcDevice

/-- An operation of the driver, on the device of the service. -/
def onDevice {α : Type} (m : Prog RtcDevice α) : Prog RtcService α :=
  Prog.zoom RtcService.dev (fun dev s => { s with dev }) m

/-- The methods of `TimerDriver` for the service, except `get_time`: they need `rtc`. -/
def withRtc (m : Prog RtcDevice (Except Error Unit)) : Prog RtcService (Except Error Unit) := do
  let s ← Prog.get
  if s.rtc then onDevice m else pure (.error .notInitialized)

/-- `get_time` of the service. -/
def RtcService.getTime : Prog RtcService UInt64 := do
  let s ← Prog.get
  if s.rtc then onDevice Rtc.getTime else pure 0

/-- A request, with the message register that is read. -/
inductive RtcRequest
  | getFreq
  | getTime
  | setTime (mr0 : UInt64)
  | setAlarm (mr0 : UInt64)
  | stopAlarm (mr0 : UInt64)
  deriving DecidableEq

/-- `on_get_freq`.  The time registers count nanoseconds. -/
def onGetFreq : Prog RtcService (Except Error UInt64) := pure (.ok 1000000000)

/-- `on_get_time`. -/
def onGetTime : Prog RtcService (Except Error UInt64) := do
  let time ← RtcService.getTime
  pure (.ok time)

/-- `on_set_time`.  The first message register is left alone. -/
def onSetTime (mr0 : UInt64) : Prog RtcService (Except Error UInt64) := do
  let r ← withRtc (setTime mr0)
  Prog.attempt r fun _ => pure (.ok mr0)

/-- `on_set_alarm`. -/
def onSetAlarm (mr0 : UInt64) : Prog RtcService (Except Error UInt64) := do
  let r ← withRtc (setAlarm mr0)
  Prog.attempt r fun _ => pure (.ok mr0)

/-- `on_stop_alarm`, which does not read the message register. -/
def onStopAlarm (mr0 : UInt64) : Prog RtcService (Except Error UInt64) := do
  let r ← withRtc stopAlarm
  Prog.attempt r fun _ => pure (.ok mr0)

/-- The handler of a request; the result is an error or the first message register of the reply. -/
def serve : RtcRequest → Prog RtcService (Except Error UInt64)
  | .getFreq => onGetFreq
  | .getTime => onGetTime
  | .setTime mr0 => onSetTime mr0
  | .setAlarm mr0 => onSetAlarm mr0
  | .stopAlarm mr0 => onStopAlarm mr0

/-! ### What a request does -/

/-- What a request leaves in the high register, when it held `h`. -/
def RtcRequest.highAfter (h : UInt32) : RtcRequest → UInt32
  | setAlarm mr0 => (mr0 >>> 32).toUInt32
  | _ => h

/-- The high half of the last alarm of a history; `h` when there is none. -/
def lastHigh (h : UInt32) (past : List RtcRequest) : UInt32 := past.foldl RtcRequest.highAfter h

/-- A request to a service whose `rtc` is set succeeds. -/
theorem serve_run (req : RtcRequest) (dev : RtcDevice) : ∃ mr0 dev',
    serve req ⟨true, dev⟩ = (.ret (.ok mr0), ⟨true, dev'⟩) ∧
      dev'.regs timerAlarmHigh = req.highAfter (dev.regs timerAlarmHigh) := by
  cases req with
  | getFreq => exact ⟨_, dev, rfl, rfl⟩
  | getTime => exact ⟨_, dev, rfl, rfl⟩
  | setTime mr0 => exact ⟨mr0, _, rfl, rfl⟩
  | setAlarm mr0 => exact ⟨mr0, _, rfl, rfl⟩
  | stopAlarm mr0 => exact ⟨mr0, _, rfl, rfl⟩

/-- A history of requests, with what it leaves in the high register. -/
theorem mapM_serve_run (past : List RtcRequest) (dev : RtcDevice) : ∃ rs dev',
    past.mapM serve ⟨true, dev⟩ = (.ret rs, ⟨true, dev'⟩) ∧
      dev'.regs timerAlarmHigh = lastHigh (dev.regs timerAlarmHigh) past := by
  have hcall : ∀ req ∈ past, ∀ s h, (s.rtc = true ∧ s.dev.regs timerAlarmHigh = h) →
      ∃ r s', serve req s = (.ret r, s') ∧
        (s'.rtc = true ∧ s'.dev.regs timerAlarmHigh = req.highAfter h) := by
    rintro req - ⟨rtc, dev⟩ h ⟨rfl, rfl⟩
    obtain ⟨mr0, dev', hrun, hhigh⟩ := serve_run req dev
    exact ⟨_, _, hrun, rfl, hhigh⟩
  obtain ⟨rs, ⟨rtc, dev'⟩, hrun, rfl, hhigh⟩ := Prog.mapM_simulates
    (R := fun (s : RtcService) h => s.rtc = true ∧ s.dev.regs timerAlarmHigh = h) hcall
    (s := ⟨true, dev⟩) ⟨rfl, rfl⟩
  exact ⟨rs, dev', hrun, hhigh⟩

/-- An alarm is armed for its low half and what the high register held before. -/
theorem serve_setAlarm (t : UInt64) (dev : RtcDevice) : ∃ dev',
    serve (.setAlarm t) ⟨true, dev⟩ = (.ret (.ok t), ⟨true, dev'⟩) ∧
      dev'.armed = some (word64 t.toUInt32 (dev.regs timerAlarmHigh)) ∧
      dev'.moments = dev.moments ++
        List.replicate 3 (some (word64 t.toUInt32 (dev.regs timerAlarmHigh))) := by
  rw [← Words.toUInt32_low t]
  refine ⟨_, rfl, rfl, ?_⟩
  show ((dev.moments ++ [_]) ++ [_]) ++ [_] = _
  rw [List.append_assoc, List.append_assoc]
  rfl

/-! ### Alarms that are armed for the time asked for -/

/-- From `s` to `s'` the alarm was armed for no other time than `t`, and in the end it is. -/
structure ArmsFor (t : UInt64) (s s' : RtcService) : Prop where
  armed : s'.dev.armed = some t
  moments : ∃ new, s'.dev.moments = s.dev.moments ++ new ∧
    ∀ t', some t' ∈ new → t' = t

/-- In a history that starts in `s₀`, every alarm is armed for the time that is asked for. -/
def AllArm (s₀ : RtcService) (reqs : List RtcRequest) : Prop :=
  ∀ past t rest, reqs = past ++ .setAlarm t :: rest → ∀ rs s, past.mapM serve s₀ = (.ret rs, s) →
    ArmsFor t s (serve (.setAlarm t) s).2

theorem armsFor_iff (t : UInt64) (dev : RtcDevice) :
    ArmsFor t ⟨true, dev⟩ (serve (.setAlarm t) ⟨true, dev⟩).2 ↔
      (t >>> 32).toUInt32 = dev.regs timerAlarmHigh := by
  obtain ⟨dev', hrun, harmed, hmoments⟩ := serve_setAlarm t dev
  have hword : word64 t.toUInt32 (dev.regs timerAlarmHigh) = t ↔
      (t >>> 32).toUInt32 = dev.regs timerAlarmHigh := by
    rw [word64_eq_iff, and_iff_right rfl, eq_comm]
  rw [hrun, ← hword]
  constructor
  · intro h
    exact Option.some.inj (harmed.symm.trans h.armed)
  · intro h
    rw [h] at harmed hmoments
    refine ⟨harmed, _, hmoments, fun t' ht' => ?_⟩
    exact Option.some.inj (List.eq_of_mem_replicate ht')

/-- Alarms with the high half `h` leave `h` in the register. -/
theorem lastHigh_of_forall {h : UInt32} {l : List RtcRequest}
    (hl : ∀ t : UInt64, .setAlarm t ∈ l → (t >>> 32).toUInt32 = h) : lastHigh h l = h := by
  induction l with
  | nil => rfl
  | cons req l ih =>
    have hreq : req.highAfter h = h := by
      cases req with
      | setAlarm t => exact hl t List.mem_cons_self
      | _ => rfl
    show lastHigh (req.highAfter h) l = h
    rw [hreq]
    exact ih fun t ht => hl t (List.mem_cons_of_mem _ ht)

/-- Every alarm of a history has the high half of the one before it iff they all have `h`. -/
theorem forall_lastHigh_iff (h : UInt32) (reqs : List RtcRequest) :
    (∀ (past : List RtcRequest) (t : UInt64) (rest : List RtcRequest),
      reqs = past ++ .setAlarm t :: rest → (t >>> 32).toUInt32 = lastHigh h past) ↔
      ∀ t : UInt64, .setAlarm t ∈ reqs → (t >>> 32).toUInt32 = h := by
  constructor
  · intro hall
    induction reqs with
    | nil => exact fun t ht => absurd ht List.not_mem_nil
    | cons req reqs ih =>
      have hreq : req.highAfter h = h := by
        cases req with
        | setAlarm t => exact hall [] t reqs rfl
        | _ => rfl
      have hrest := ih fun past t rest hreqs => by
        have hnext : (t >>> 32).toUInt32 = lastHigh (req.highAfter h) past :=
          hall (req :: past) t rest (congrArg (req :: ·) hreqs)
        rwa [hreq] at hnext
      intro t ht
      rcases List.mem_cons.1 ht with rfl | ht
      · exact hreq
      · exact hrest t ht
  · rintro hall past t rest rfl
    rw [lastHigh_of_forall fun t ht => hall t (List.mem_append_left _ ht)]
    exact hall t (List.mem_append_right _ List.mem_cons_self)

/-- An alarm after any history. -/
theorem setAlarm_after (dev : RtcDevice) (past : List RtcRequest) (t : UInt64) : ∃ rs s s',
    past.mapM serve ⟨true, dev⟩ = (.ret rs, s) ∧ serve (.setAlarm t) s = (.ret (.ok t), s') ∧
      (ArmsFor t s s' ↔ (t >>> 32).toUInt32 = lastHigh (dev.regs timerAlarmHigh) past) := by
  obtain ⟨rs, dev₁, hpast, hhigh⟩ := mapM_serve_run past dev
  obtain ⟨dev₂, hrun, -⟩ := serve_setAlarm t dev₁
  have hiff := armsFor_iff t dev₁
  rw [hrun, hhigh] at hiff
  exact ⟨rs, _, _, hpast, hrun, hiff⟩

/-- After any history, an alarm is armed for the time that is asked for, and for no other time on
the way, iff this time has the high half of the alarm before it.  All the alarms of a history are
iff their times have the high half that the register held in the beginning. -/
theorem set_alarm_arms_iff (dev : RtcDevice) :
    (∀ (past : List RtcRequest) (t : UInt64), ∃ rs s s',
      past.mapM serve ⟨true, dev⟩ = (.ret rs, s) ∧ serve (.setAlarm t) s = (.ret (.ok t), s') ∧
        (ArmsFor t s s' ↔ (t >>> 32).toUInt32 = lastHigh (dev.regs timerAlarmHigh) past)) ∧
    ∀ reqs : List RtcRequest, AllArm ⟨true, dev⟩ reqs ↔
      ∀ t : UInt64, .setAlarm t ∈ reqs → (t >>> 32).toUInt32 = dev.regs timerAlarmHigh := by
  refine ⟨setAlarm_after dev, fun reqs => ?_⟩
  rw [← forall_lastHigh_iff]
  constructor
  · intro h past t rest hreqs
    obtain ⟨rs, s, s', hpast, hrun, hiff⟩ := setAlarm_after dev past t
    have harms := h past t rest hreqs rs s hpast
    rw [hrun] at harms
    exact hiff.1 harms
  · intro h past t rest hreqs rs s hpast
    obtain ⟨rs', s₁, s', hpast', hrun, hiff⟩ := setAlarm_after dev past t
    obtain ⟨-, rfl⟩ := Prod.mk.inj (hpast'.symm.trans hpast)
    rw [hrun]
    exact hiff.2 (h past t rest hreqs)

/-- The device after a reset. -/
def RtcDevice.reset : RtcDevice := ⟨fun _ => 0, none, []⟩

/-- The first alarm, for 4294967301 ns, is armed for 5 ns. -/
theorem set_alarm_arms_other :
    (serve (.setAlarm 0x100000005) ⟨true, .reset⟩).2.dev.armed = some 5 ∧
      ¬ArmsFor 0x100000005 ⟨true, .reset⟩ (serve (.setAlarm 0x100000005) ⟨true, .reset⟩).2 := by
  have harmed : (serve (.setAlarm 0x100000005) ⟨true, .reset⟩).2.dev.armed = some 5 := by
    rw [show some (5 : UInt64) = some (word64 5 0) by decide]
    rfl
  refine ⟨harmed, fun h => ?_⟩
  have hother := h.armed
  rw [harmed] at hother
  exact absurd hother (by decide)

end GlendaDrivers.Rtc
