import GlendaDrivers.Service.Dispatch

/-!
# Who owns a device

The services have exclusive sessions: `Service.session` maps the state of a service to the
abstract session, and every call of a client is a step of it.  The calls that install a ring
server or a shared buffer do not make their client the owner, so that another client can become
the owner of a device with a foreign ring.

* `Effect`: a call is a step of the session, and the driver has what the session says;
* `BlockService.refines`, `NetService.refines`, `RamdiskService.refines`,
  `UartService.refines`;
* `ServiceKind`: the four services, and `sessions_exclusive`: a session is exclusive unless a
  claim usurps;
* `sessions_usurped`: two calls that lead to a foreign ring.
-/

namespace GlendaDrivers

open Prog (attempt Keeps)

namespace Service

variable {δ : Type}

/-- The session of a service. -/
def session (s : Service δ) : Session UInt64 Resource := ⟨s.connectedClient, s.installedBy⟩

theorem owner_of_not_refuses {badge : UInt64} {s : Service δ} (hb : badge ≠ 0)
    (h : ¬s.Refuses badge) :
    s.connectedClient = none ∨ s.connectedClient = some badge := by
  cases hc : s.connectedClient with
  | none => exact Or.inl rfl
  | some c =>
    right
    by_contra hne
    exact h ⟨hb, by rw [hc]; rfl, by rw [hc]; exact hne⟩

variable [Driver δ]

/-- The resources with an installer are those in the driver. -/
def Tracked (s : Service δ) : Prop :=
  ∀ r, (s.installedBy r).isSome ↔ ∃ d, s.driver = some d ∧ Driver.has r d = true

/-- The connected client has installed the ring server and the shared buffer, if there are any. -/
def Exclusive (s : Service δ) : Prop :=
  ∀ b, s.connectedClient = some b → ∀ d r, s.driver = some d → Driver.has r d = true →
    s.installedBy r = some b

theorem Tracked.exclusive_iff {s : Service δ} (h : s.Tracked) :
    s.Exclusive ↔ s.session.Exclusive := by
  constructor
  · intro hs b hb r c hc
    obtain ⟨d, hd, hr⟩ := (h r).mp (Option.isSome_iff_exists.mpr ⟨c, hc⟩)
    exact Option.some.inj (hc.symm.trans (hs b hb d r hd hr))
  · intro hs b hb d r hd hr
    obtain ⟨c, hc⟩ := Option.isSome_iff_exists.mp ((h r).mpr ⟨d, hd, hr⟩)
    rw [hc, hs b hb r c hc]

/-! ### Effects of calls -/

/-- The change `f` of the driver installs `r` and nothing else. -/
def Installs (r : Resource) (f : δ → δ) : Prop :=
  ∀ d i, Driver.has i (f d) = if i = r then true else Driver.has i d

/-- From `s` to `s'` the session makes a step of client `badge`. -/
structure Effect (badge : UInt64) (a : Session.Action Resource) (s s' : Service δ) : Prop where
  step : Session.Step badge a s.session s'.session
  tracked : s.Tracked → s'.Tracked

/-- The program does not change the session. -/
def Neutral {α : Type} (p : Prog (Service δ) α) : Prop :=
  ∀ s, (p s).2.session = s.session ∧ (s.Tracked → (p s).2.Tracked)

/-- For a client that is not refused the program does what a call of kind `a` does. -/
def Performs {α : Type} (badge : UInt64) (a : Session.Action Resource)
    (p : Prog (Service δ) α) : Prop :=
  ∀ s, ¬s.Refuses badge → Effect badge a s (p s).2

variable {α : Type} {badge : UInt64} {a : Session.Action Resource} {s : Service δ}

/-- A call of another kind than a claim may have no effect. -/
theorem effect_idle (ha : a ≠ .claim) (s : Service δ) : Effect badge a s s := by
  refine ⟨?_, fun h => h⟩
  cases a with
  | other => exact .other _
  | claim => exact absurd rfl ha
  | install i => exact .fail i _

theorem effect_refused (a : Session.Action Resource) (h : s.Refuses badge) :
    Effect badge a s s := by
  by_cases ha : a = .claim
  · subst ha
    refine ⟨.claimed _ fun hnone => ?_, fun h => h⟩
    have hnone : s.connectedClient = none := hnone
    have hsome := h.2.1
    rw [hnone] at hsome
    cases hsome
  · exact effect_idle ha s

theorem effect_installed (hb : badge ≠ 0) (h : ¬s.Refuses badge) {r : Resource} {f : δ → δ}
    (hf : Installs r f) : Effect badge (.install r) s (s.installed badge r f) := by
  unfold installed
  cases hd : s.driver with
  | none => exact effect_idle (by simp) s
  | some d =>
    refine ⟨.install r s.session (owner_of_not_refuses hb h), fun htracked i => ?_⟩
    by_cases hi : i = r
    · subst hi
      simp [hf d i]
    · simp only [Function.update_of_ne hi, Option.some.injEq, exists_eq_left', hf d i, if_neg hi]
      rw [htracked i, hd]
      simp

theorem effect_claimed (hb : badge ≠ 0) (s : Service δ) :
    Effect badge .claim s (s.claimed badge) := by
  unfold claimed
  by_cases hnone : s.connectedClient = none
  · rw [if_pos ⟨hb, hnone⟩]
    exact ⟨.claim s.session hnone, fun h => h⟩
  · rw [if_neg fun h => hnone h.2]
    exact ⟨.claimed s.session hnone, fun h => h⟩

/-! ### Programs -/

theorem neutral_pure (v : α) : Neutral (pure v : Prog (Service δ) α) := fun _ => ⟨rfl, fun h => h⟩

/-- A program of the driver that installs nothing. -/
theorem neutral_onDriver {absent : Except Error Reply} {p : Prog δ (Except Error Reply)}
    (hp : ∀ d r, Driver.has r (p d).2 = Driver.has r d) : Neutral (onDriver absent p) := by
  intro s
  unfold onDriver
  cases hd : s.driver with
  | none => exact ⟨rfl, fun h => h⟩
  | some d =>
    refine ⟨rfl, fun h r => ?_⟩
    rw [h r, hd]
    simp [hp]

theorem neutral_unwrapDriver {p : Prog (Service δ) (Except Error Reply)} (hp : Neutral p) :
    Neutral (unwrapDriver p) := by
  intro s
  show (((if s.driver.isSome then p else .panic) : Prog _ _) s).2.session = _ ∧
    (_ → (((if s.driver.isSome then p else .panic) : Prog _ _) s).2.Tracked)
  split_ifs
  · exact hp s
  · exact ⟨rfl, fun h => h⟩

theorem Neutral.performs (ha : a ≠ .claim) {p : Prog (Service δ) α} (h : Neutral p) :
    Performs badge a p := by
  intro s _
  have hidle : Effect badge a s s := effect_idle ha s
  refine ⟨?_, (h s).2⟩
  rw [(h s).1]
  exact hidle.step

theorem performs_attempt (ha : a ≠ .claim) {r : Except Error UInt64}
    {k : UInt64 → Prog (Service δ) (Except Error Reply)} (hk : ∀ v, Performs badge a (k v)) :
    Performs badge a (attempt r k) := by
  cases r with
  | error e => exact (neutral_pure _).performs ha
  | ok v => exact hk v

theorem performs_install (hb : badge ≠ 0) {r : Resource} {f : δ → δ} (hf : Installs r f)
    (v : Except Error Reply) :
    Performs badge (.install r) (do install badge r f; pure v) := fun _ h =>
  effect_installed hb h hf

/-- A test of whether there is a driver. -/
theorem performs_ifDriver {p p' : Prog (Service δ) (Except Error Reply)}
    (hp : Performs badge a p) (hp' : Performs badge a p') :
    Performs badge a (do
      let s ← Prog.get
      if s.driver.isSome then p else p') := by
  intro s h
  show Effect badge a s (((if s.driver.isSome then p else p') : Prog _ _) s).2
  split_ifs
  · exact hp s h
  · exact hp' s h

theorem performs_unwrapDriver (ha : a ≠ .claim) {p : Prog (Service δ) (Except Error Reply)}
    (hp : Performs badge a p) : Performs badge a (unwrapDriver p) :=
  performs_ifDriver hp fun s _ => effect_idle ha s

theorem performs_claim (hb : badge ≠ 0) {p : Prog (Service δ) (Except Error Reply)}
    (hp : Neutral p) : Performs badge .claim (do claim badge; p) := by
  intro s _
  have h := effect_claimed hb s
  show Effect badge .claim s (p (s.claimed badge)).2
  refine ⟨?_, fun hs => (hp _).2 (h.tracked hs)⟩
  rw [(hp _).1]
  exact h.step

/-- The entry test refuses the call, or the handler runs. -/
theorem effect_guarded {p : Prog (Service δ) (Except Error Reply)} (hp : Performs badge a p)
    (s : Service δ) : Effect badge a s (guarded badge p s).2 := by
  show Effect badge a s (((if s.Refuses badge then pure _ else p) : Prog _ _) s).2
  by_cases h : s.Refuses badge
  · rw [if_pos h]
    exact effect_refused a h
  · rw [if_neg h]
    exact hp s h

end Service

open Service

/-! ### The services -/

/-- Every call of a client is a step of the session. -/
def Refines {δ κ : Type} [Driver δ] (action : κ → Session.Action Resource)
    (dispatch : Ext → UInt64 → κ → Prog (Service δ) (Except Error Reply)) : Prop :=
  ∀ x badge call s, badge ≠ 0 → Effect badge (action call) s (dispatch x badge call s).2

theorem BlockService.refines : Refines BlockCall.action BlockService.dispatch := by
  intro x badge call s hb
  refine effect_guarded ?_ s
  cases call with
  | device call => exact (neutral_pure _).performs (by nofun)
  | getCapacity => exact performs_claim hb (neutral_onDriver fun _ _ => rfl)
  | getBlockSize => exact (neutral_onDriver fun _ _ => rfl).performs (by nofun)
  | setupBuffer vaddr size paddr =>
    iterate 2 refine performs_attempt (by nofun) fun _ => ?_
    refine performs_ifDriver (performs_install hb ?_ _) ((neutral_pure _).performs (by nofun))
    intro d i
    cases i <;> rfl
  | setupRing =>
    iterate 5 refine performs_attempt (by nofun) fun _ => ?_
    refine performs_install hb ?_ _
    intro d i
    cases i <;> rfl
  | other => exact (neutral_pure _).performs (by nofun)

theorem NetService.refines : Refines NetCall.action NetService.dispatch := by
  intro x badge call s hb
  refine effect_guarded ?_ s
  cases call with
  | device call => exact (neutral_pure _).performs (by nofun)
  | getMac => exact performs_claim hb (neutral_onDriver fun _ _ => rfl)
  | setupBuffer vaddr size paddr =>
    iterate 3 refine performs_attempt (by nofun) fun _ => ?_
    refine performs_ifDriver (performs_install hb ?_ _) ((neutral_pure _).performs (by nofun))
    intro d i
    cases i <;> rfl
  | setupRing =>
    iterate 5 refine performs_attempt (by nofun) fun _ => ?_
    refine performs_install hb ?_ _
    intro d i
    cases i <;> rfl
  | other => exact (neutral_pure _).performs (by nofun)

theorem RamdiskService.refines : Refines BlockCall.action RamdiskService.dispatch := by
  intro x badge call s hb
  refine effect_guarded ?_ s
  cases call with
  | device call => exact (neutral_pure _).performs (by nofun)
  | getCapacity =>
    refine performs_claim hb (neutral_unwrapDriver (neutral_onDriver fun d r => ?_))
    unfold RamdiskService.capacity
    split <;> rfl
  | getBlockSize =>
    exact (neutral_unwrapDriver (neutral_onDriver fun _ _ => rfl)).performs (by nofun)
  | setupBuffer clientVaddr size paddr =>
    refine performs_attempt (by nofun) fun _ => performs_unwrapDriver (by nofun) ?_
    refine performs_attempt (by nofun) fun _ => performs_install hb ?_ _
    intro d i
    cases i <;> rfl
  | setupRing =>
    refine performs_attempt (by nofun) fun _ => performs_unwrapDriver (by nofun) ?_
    iterate 2 refine performs_attempt (by nofun) fun _ => ?_
    refine performs_install hb ?_ _
    intro d i
    cases i <;> rfl
  | other => exact (neutral_pure _).performs (by nofun)

namespace UartService

open Uart

/-- The ring server and the shared buffer are as in `m`. -/
def SameRings (m m' : Machine) : Prop :=
  m'.uart.ring.isSome = m.uart.ring.isSome ∧ m'.uart.shm = m.uart.shm

theorem SameRings.has {m m' : Machine} (h : SameRings m m') (r : Resource) :
    Driver.has r m' = Driver.has r m := by
  cases r with
  | ring => exact h.1
  | buffer => exact congrArg Option.isSome h.2

theorem SameRings.moved {m m' : Machine} (h : SameRings m m') : SameRings m m'.moved :=
  ⟨Option.isSome_map.trans h.1, h.2⟩

variable {m : Machine}

theorem keeps_readReg (offset : ℕ) : Keeps (SameRings m) (Uart.readReg offset) := by
  refine Keeps.ofFn fun m' h => ?_
  have huart : (m'.moved.readAt m'.move offset).2.uart = m'.moved.uart := by
    match offset with
    | 0 =>
      dsimp only [Machine.readAt]
      split_ifs <;> rfl
    | 1 | 2 | 3 | 4 | 5 => rfl
    | _ + 6 => rfl
  unfold SameRings
  rw [huart]
  exact h.moved

theorem keeps_writeReg (offset : ℕ) (val : UInt8) :
    Keeps (SameRings m) (Uart.writeReg offset val) := by
  refine Keeps.modify fun m' h => ?_
  have huart : (m'.moved.writeAt val offset).uart = m'.moved.uart := by
    match offset with
    | 0 | 1 =>
      dsimp only [Machine.writeAt]
      split_ifs <;> rfl
    | 2 | 3 | 4 => rfl
    | _ + 5 => rfl
  unfold SameRings
  rw [huart]
  exact h.moved

theorem keeps_getchar : Keeps (SameRings m) getchar := by
  refine Keeps.bind (keeps_readReg _) fun _ => Keeps.ite ?_ (Keeps.pure _)
  exact Keeps.bind (keeps_readReg _) fun _ => Keeps.pure _

theorem neutral_of_keeps {absent : Except Error Reply} {p : Prog Machine (Except Error Reply)}
    (hp : ∀ m, Keeps (SameRings m) p) : Neutral (onDriver absent p) :=
  neutral_onDriver fun m r => ((hp m).snd (⟨rfl, rfl⟩ : SameRings m m)).has r

theorem refines (fuel : ℕ) : Refines UartCall.action (dispatch fuel) := by
  intro x badge call s hb
  refine effect_guarded ?_ s
  cases call with
  | write buf =>
    refine performs_claim hb (neutral_of_keeps fun m => ?_)
    refine Keeps.bind (Keeps.bind ?_ fun _ => Keeps.pure _) fun _ => Keeps.pure _
    exact keeps_putchars (keeps_readReg _) (fun _ => keeps_writeReg _ _) fuel buf
  | read maxLen =>
    refine (neutral_of_keeps fun m => ?_).performs (by nofun)
    refine Keeps.bind (keeps_readBytes keeps_getchar _) fun _ => ?_
    exact Keeps.bind (Keeps.modify fun _ h => h) fun _ => Keeps.pure _
  | setBaudRate baud =>
    refine (neutral_of_keeps fun m => ?_).performs (by nofun)
    exact Keeps.bind (keeps_setBaudRate keeps_writeReg _) fun _ => Keeps.pure _
  | setupRing =>
    iterate 4 refine performs_attempt (by nofun) fun _ => ?_
    refine performs_install hb ?_ _
    intro d i
    cases i <;> rfl
  | setupBuffer vaddr size paddr =>
    iterate 2 refine performs_attempt (by nofun) fun _ => ?_
    refine performs_install hb ?_ _
    intro d i
    cases i <;> rfl

end UartService

/-! ### Runs -/

section Runs

variable {δ κ : Type} [Driver δ] {action : κ → Session.Action Resource}
  {dispatch : Ext → UInt64 → κ → Prog (Service δ) (Except Error Reply)}

/-- A client makes a call. -/
def Call (dispatch : Ext → UInt64 → κ → Prog (Service δ) (Except Error Reply))
    (s s' : Service δ) : Prop :=
  ∃ x badge call, badge ≠ 0 ∧ s' = (dispatch x badge call s).2

/-- A client makes a call that does not usurp. -/
def FairCall (action : κ → Session.Action Resource)
    (dispatch : Ext → UInt64 → κ → Prog (Service δ) (Except Error Reply))
    (s s' : Service δ) : Prop :=
  ∃ x badge call, badge ≠ 0 ∧ ¬Session.Usurps badge (action call) s.session ∧
    s' = (dispatch x badge call s).2

/-- The service as it is initialised: no client, no ring server and no shared buffer. -/
structure Service.Fresh (s : Service δ) : Prop where
  connectedClient : s.connectedClient = none
  installedBy : ∀ r, s.installedBy r = none
  driver : ∀ d r, s.driver = some d → Driver.has r d = false

theorem Service.Fresh.tracked {s : Service δ} (h : s.Fresh) : s.Tracked := by
  intro r
  rw [h.installedBy r]
  constructor
  · intro hsome
    cases hsome
  · rintro ⟨d, hd, hr⟩
    rw [h.driver d r hd] at hr
    cases hr

omit [Driver δ] in
theorem FairCall.call {s s' : Service δ} (h : FairCall action dispatch s s') :
    Call dispatch s s' := by
  obtain ⟨x, badge, call, hb, -, hs⟩ := h
  exact ⟨x, badge, call, hb, hs⟩

/-- The driver has what the session says, in every run. -/
theorem Refines.tracked_run (hR : Refines action dispatch) {s s' : Service δ}
    (h : Relation.ReflTransGen (Call dispatch) s s') (hs : s.Tracked) : s'.Tracked := by
  induction h with
  | refl => exact hs
  | tail _ hcall ih =>
    obtain ⟨x, badge, call, hb, rfl⟩ := hcall
    exact (hR x badge call _ hb).tracked ih

/-- The connected client does not change in a run. -/
theorem Refines.connectedClient_run (hR : Refines action dispatch) {s s' : Service δ}
    (h : Relation.ReflTransGen (Call dispatch) s s') {b : UInt64}
    (hb : s.connectedClient = some b) : s'.connectedClient = some b := by
  refine Session.owner_run (Relation.ReflTransGen.lift Service.session ?_ s s' h) hb
  rintro s s' ⟨x, badge, call, hne, rfl⟩
  exact ⟨badge, action call, (hR x badge call s hne).step⟩

/-- The session stays exclusive in a run without usurping calls. -/
theorem Refines.exclusive_run (hR : Refines action dispatch) {s s' : Service δ} (hs : s.Fresh)
    (h : Relation.ReflTransGen (FairCall action dispatch) s s') : s'.session.Exclusive := by
  refine Session.exclusive_run (Relation.ReflTransGen.lift Service.session ?_ s s' h)
    (Session.exclusive_of_owner_none hs.connectedClient)
  rintro s s' ⟨x, badge, call, hne, hfair, rfl⟩
  exact ⟨badge, action call, (hR x badge call s hne).step, hfair⟩

end Runs

/-! ### The four services -/

/-- The services at issue. -/
inductive ServiceKind
  | block
  | net
  | ramdisk
  | uart
  deriving DecidableEq

namespace ServiceKind

/-- The driver of a service. -/
def DriverOf : ServiceKind → Type
  | block => VirtIOBlk
  | net => VirtIONet
  | ramdisk => Ramdisk
  | uart => Uart.Machine

/-- The calls of a service. -/
def CallOf : ServiceKind → Type
  | block => BlockCall
  | net => NetCall
  | ramdisk => BlockCall
  | uart => UartCall

instance : (k : ServiceKind) → Driver k.DriverOf
  | block => inferInstanceAs (Driver VirtIOBlk)
  | net => inferInstanceAs (Driver VirtIONet)
  | ramdisk => inferInstanceAs (Driver Ramdisk)
  | uart => inferInstanceAs (Driver Uart.Machine)

/-- Which part of the session a call is about. -/
def action : (k : ServiceKind) → k.CallOf → Session.Action Resource
  | block => BlockCall.action
  | net => NetCall.action
  | ramdisk => BlockCall.action
  | uart => UartCall.action

/-- The `dispatch` function of a service; `fuel` bounds the polling of the UART. -/
def dispatch (fuel : ℕ) : (k : ServiceKind) → Ext → UInt64 → k.CallOf →
    Prog (Service k.DriverOf) (Except Error Reply)
  | block => BlockService.dispatch
  | net => NetService.dispatch
  | ramdisk => RamdiskService.dispatch
  | uart => UartService.dispatch fuel

theorem dispatch_refines (fuel : ℕ) (k : ServiceKind) : Refines k.action (k.dispatch fuel) := by
  cases k with
  | block => exact BlockService.refines
  | net => exact NetService.refines
  | ramdisk => exact RamdiskService.refines
  | uart => exact UartService.refines fuel

end ServiceKind

/-- **Who owns a device.**  In each of the four services, in every run in which no client becomes
the connected one while a ring server or a shared buffer of another client is installed, the
connected client has installed the ring server and the shared buffer, if there are any, in every
state.  One more call keeps this iff it is not such a call, and the connected client never changes,
whatever calls follow. -/
theorem sessions_exclusive (fuel : ℕ) (k : ServiceKind) {s₀ s : Service k.DriverOf}
    (hs₀ : s₀.Fresh)
    (hrun : Relation.ReflTransGen (FairCall k.action (k.dispatch fuel)) s₀ s) :
    s.Exclusive ∧
      (∀ x badge call, badge ≠ 0 →
        ((k.dispatch fuel x badge call s).2.Exclusive ↔
          ¬Session.Usurps badge (k.action call) s.session)) ∧
      ∀ b s', s.connectedClient = some b →
        Relation.ReflTransGen (Call (k.dispatch fuel)) s s' → s'.connectedClient = some b := by
  have hR := k.dispatch_refines fuel
  have hcalls : Relation.ReflTransGen (Call (k.dispatch fuel)) s₀ s :=
    Relation.ReflTransGen.mono (show FairCall k.action (k.dispatch fuel) ≤ Call (k.dispatch fuel)
      from fun _ _ h => h.call) _ _ hrun
  have htracked := hR.tracked_run hcalls hs₀.tracked
  have hexcl := hR.exclusive_run hs₀ hrun
  refine ⟨htracked.exclusive_iff.mpr hexcl, ?_, fun b s' hb h => hR.connectedClient_run h hb⟩
  intro x badge call hb
  have heffect := hR x badge call s hb
  rw [(heffect.tracked htracked).exclusive_iff]
  exact heffect.step.exclusive_iff hexcl

/-! ### Two runs -/

/-- All calls outside the services succeed. -/
def Ext.ok : Ext where
  call _ := .ok 1
  getMmio _ := .ok (1, 0, 0)
  getIrq _ := .ok 1
  capacity := 1
  ipcBufferSize := 256
  shmRingCapacity := 2000

/-- A service with a driver, before the first call. -/
def Service.start {δ : Type} (d : δ) : Service δ := ⟨some d, none, fun _ => none⟩

section TwoCalls

variable {δ κ : Type} [Driver δ]
  {dispatch : Ext → UInt64 → κ → Prog (Service δ) (Except Error Reply)}

theorem fresh_start {d : δ} (h : ∀ r, Driver.has r d = false) : (Service.start d).Fresh where
  connectedClient := rfl
  installedBy _ := rfl
  driver d' r hd := by
    obtain rfl := Option.some.inj hd
    exact h r

/-- Client `b` makes the first call and client `c` the second one. -/
def twoCalls (dispatch : Ext → UInt64 → κ → Prog (Service δ) (Except Error Reply)) (d : δ)
    (b c : UInt64) (first second : κ) : Service δ :=
  (dispatch .ok c second (dispatch .ok b first (.start d)).2).2

/-- Two calls of a new service make client 2 the connected one, with client 1's ring server. -/
structure Usurped (dispatch : Ext → UInt64 → κ → Prog (Service δ) (Except Error Reply)) (d : δ)
    (first second : κ) : Prop where
  fresh : (Service.start d).Fresh
  run : Relation.ReflTransGen (Call dispatch) (.start d) (twoCalls dispatch d 1 2 first second)
  connectedClient : (twoCalls dispatch d 1 2 first second).connectedClient = some 2
  not_exclusive : ¬(twoCalls dispatch d 1 2 first second).Exclusive

theorem usurped_of_foreign {d : δ} {first second : κ} (h : ∀ r, Driver.has r d = false)
    (hconn : (twoCalls dispatch d 1 2 first second).connectedClient = some 2)
    (hby : (twoCalls dispatch d 1 2 first second).installedBy .ring = some 1)
    (hring : ∃ d', (twoCalls dispatch d 1 2 first second).driver = some d' ∧
      Driver.has .ring d' = true) : Usurped dispatch d first second where
  fresh := fresh_start h
  run := (Relation.ReflTransGen.single ⟨.ok, 1, first, by decide, rfl⟩).tail
    ⟨.ok, 2, second, by decide, rfl⟩
  connectedClient := hconn
  not_exclusive := by
    intro hexcl
    obtain ⟨d', hd', hr⟩ := hring
    have hby' := hexcl 2 hconn d' .ring hd' hr
    rw [hby] at hby'
    exact absurd hby' (by decide)

end TwoCalls

/-- A client that sets up its ring and then asks for the capacity owns the device and its ring. -/
theorem sessions_exclusive_own :
    (twoCalls RamdiskService.dispatch (.new []) 1 1 .setupRing .getCapacity).connectedClient =
        some 1 ∧
      (twoCalls RamdiskService.dispatch (.new []) 1 1 .setupRing .getCapacity).Exclusive := by
  have hfresh : (Service.start (Ramdisk.new [])).Fresh := fresh_start fun r => by cases r <;> rfl
  have hset : FairCall BlockCall.action RamdiskService.dispatch (.start (Ramdisk.new []))
      (RamdiskService.dispatch .ok 1 .setupRing (.start (.new []))).2 :=
    ⟨.ok, 1, .setupRing, by decide, fun hu => absurd hu.1 (by decide), rfl⟩
  have hclaim : FairCall BlockCall.action RamdiskService.dispatch
      (RamdiskService.dispatch .ok 1 .setupRing (.start (.new []))).2
      (twoCalls RamdiskService.dispatch (.new []) 1 1 .setupRing .getCapacity) := by
    refine ⟨.ok, 1, .getCapacity, by decide, ?_, rfl⟩
    rintro ⟨-, -, r, c, hc, hne⟩
    cases r with
    | ring => exact hne (Option.some.inj hc).symm
    | buffer => cases hc
  exact ⟨rfl, (sessions_exclusive 0 .ramdisk hfresh
    ((Relation.ReflTransGen.single hset).tail hclaim)).1⟩

/-- In each service client 1 sets up a ring and client 2 becomes the connected one. -/
theorem sessions_usurped :
    Usurped BlockService.dispatch { VirtIOBlk.initial 512 with ringServer := none }
      .setupRing .getCapacity ∧
    Usurped NetService.dispatch { VirtIONet.initial none with ringServer := none }
      .setupRing .getMac ∧
    Usurped RamdiskService.dispatch (.new []) .setupRing .getCapacity ∧
    Usurped (UartService.dispatch 0) (.initial fun _ => .quiet) .setupRing (.write []) := by
  refine ⟨usurped_of_foreign ?_ rfl rfl ⟨_, rfl, rfl⟩, usurped_of_foreign ?_ rfl rfl ⟨_, rfl, rfl⟩,
    usurped_of_foreign ?_ rfl rfl ⟨_, rfl, rfl⟩, usurped_of_foreign ?_ rfl rfl ⟨_, rfl, rfl⟩⟩
  all_goals
    intro r
    cases r <;> rfl

end GlendaDrivers
