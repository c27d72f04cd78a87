import Mathlib.Logic.Function.Basic
import Mathlib.Logic.Relation

/-!
# Exclusive sessions

A device is used by one client at a time.  Before it uses the device a client installs
resources; some call makes it the owner, and from then on the calls of other clients are refused.

* `Session κ ι`: the owner, and the client that installed each resource;
* `Step c a`: what a call of client `c` does, by the kind `a` of the call;
* `Exclusive`: the owner has installed all resources there are;
* `Usurps`: a claim that finds a resource of another client;
* `Step.exclusive_iff`: a step loses exclusiveness iff it usurps; `exclusive_run`, `owner_run`:
  runs.
-/

universe u v

/-- The owner of a device, and the client that installed each of its resources. -/
@[ext] structure Session (κ : Type u) (ι : Type v) where
  owner : Option κ
  installed : ι → Option κ

namespace Session

variable {κ : Type u} {ι : Type v}

/-- Nobody owns the device, and no resource is installed. -/
def empty : Session κ ι := ⟨none, fun _ => none⟩

/-- The kinds of calls. -/
inductive Action (ι : Type v)
  | other
  | claim
  | install (i : ι)
  deriving DecidableEq

/-- What a call of client `c` does to the session. -/
inductive Step [DecidableEq ι] (c : κ) : Action ι → Session κ ι → Session κ ι → Prop
  | other (s) : Step c .other s s
  | claim (s) : s.owner = none → Step c .claim s { s with owner := some c }
  | claimed (s) : s.owner ≠ none → Step c .claim s s
  | fail (i s) : Step c (.install i) s s
  | install (i s) : s.owner = none ∨ s.owner = some c →
      Step c (.install i) s { s with installed := Function.update s.installed i (some c) }

/-- Every resource there is was installed by the owner. -/
def Exclusive (s : Session κ ι) : Prop :=
  ∀ b, s.owner = some b → ∀ i c, s.installed i = some c → c = b

/-- The call makes `c` the owner although a resource of another client is installed. -/
def Usurps (c : κ) (a : Action ι) (s : Session κ ι) : Prop :=
  a = .claim ∧ s.owner = none ∧ ∃ i d, s.installed i = some d ∧ d ≠ c

theorem exclusive_of_owner_none {s : Session κ ι} (h : s.owner = none) : s.Exclusive := by
  intro b hb
  rw [h] at hb
  cases hb

variable [DecidableEq ι] {c b : κ} {a : Action ι} {s s' : Session κ ι}

/-- The owner does not change. -/
theorem Step.owner (h : Step c a s s') (hb : s.owner = some b) : s'.owner = some b := by
  cases h with
  | other => exact hb
  | claim _ hnone =>
    rw [hnone] at hb
    cases hb
  | claimed => exact hb
  | fail => exact hb
  | install => exact hb

/-- A step loses exclusiveness iff it makes a client the owner of another client's resource. -/
theorem Step.exclusive_iff (h : Step c a s s') (hs : s.Exclusive) :
    s'.Exclusive ↔ ¬Usurps c a s := by
  cases h with
  | other => exact ⟨fun _ hu => absurd hu.1 (by simp), fun _ => hs⟩
  | claimed _ hne => exact ⟨fun _ hu => hne hu.2.1, fun _ => hs⟩
  | fail i => exact ⟨fun _ hu => absurd hu.1 (by simp), fun _ => hs⟩
  | claim _ hnone =>
    constructor
    · rintro hs' ⟨-, -, i, d, hd, hne⟩
      exact hne (hs' c rfl i d hd)
    · intro hu b hb i d hd
      obtain rfl := Option.some.inj hb
      by_contra hne
      exact hu ⟨rfl, hnone, i, d, hd, hne⟩
  | install i _ howner =>
    refine ⟨fun _ hu => absurd hu.1 (by simp), fun _ b hb j d hd => ?_⟩
    have hb : s.owner = some b := hb
    by_cases hij : j = i
    · subst hij
      have hd : some c = some d := (Function.update_self j (some c) s.installed).symm.trans hd
      obtain rfl := Option.some.inj hd
      rw [hb] at howner
      obtain hnone | hsome := howner
      · cases hnone
      · exact (Option.some.inj hsome).symm
    · have hd : s.installed j = some d :=
        (Function.update_of_ne hij (some c) s.installed).symm.trans hd
      exact hs b hb j d hd

/-- In a run in which no claim usurps, the session stays exclusive. -/
theorem exclusive_run
    (h : Relation.ReflTransGen (fun s s' => ∃ (c : κ) (a : Action ι), Step c a s s' ∧ ¬Usurps c a s)
      s s') (hs : s.Exclusive) : s'.Exclusive := by
  induction h with
  | refl => exact hs
  | tail _ hstep ih =>
    obtain ⟨c, a, hstep, hu⟩ := hstep
    exact (hstep.exclusive_iff ih).mpr hu

/-- The owner does not change in a run. -/
theorem owner_run
    (h : Relation.ReflTransGen (fun s s' => ∃ (c : κ) (a : Action ι), Step c a s s') s s')
    (hb : s.owner = some b) : s'.owner = some b := by
  induction h with
  | refl => exact hb
  | tail _ hstep ih =>
    obtain ⟨c, a, hstep⟩ := hstep
    exact hstep.owner ih

end Session
