import GlendaDrivers.RingLoop
import GlendaDrivers.Uart.Driver

/-!
# The request ring of the UART driver

* `RingView`: the part of the machine that requests pass through;
* `kept_ring`: what the steps of the notifications keep of it;
* `Serving`: which requests were fetched and which were completed;
* `handleSq_ret`: what a call of `handle_sq` leaves.
-/

namespace GlendaDrivers.Uart

open Prog (Triple Keeps)

/-- The requests that the client has queued so far. -/
def Machine.queued (m : Machine) : List Sqe :=
  (List.range m.clock).flatMap fun k => (m.env k).sqes

/-- What requests pass through. -/
structure RingView where
  ring : Option IoUringServer
  queued : List Sqe

def Machine.ringView (m : Machine) : RingView := ⟨m.uart.ring, m.queued⟩

namespace RingView

/-- The client queues requests. -/
def moved (v : RingView) (sqes : List Sqe) : RingView where
  ring := v.ring.map fun ring => { ring with sq := ring.sq ++ sqes }
  queued := v.queued ++ sqes

/-- A completion is posted. -/
def complete (v : RingView) (userData : UInt64) (result : Int32) : RingView :=
  { v with ring := v.ring.map (·.complete userData result) }

end RingView

theorem ringView_moved (m : Machine) : m.moved.ringView = m.ringView.moved m.move.sqes := by
  unfold Machine.ringView RingView.moved Machine.queued
  show RingView.mk _ ((List.range (m.clock + 1)).flatMap fun k => (m.env k).sqes) = _
  rw [List.range_succ, List.flatMap_append, List.flatMap_singleton]
  rfl

/-- The predicate on machines that `I` is about. -/
def OnRing (I : RingView → Prop) (m : Machine) : Prop := I m.ringView

/-! ### Steps -/

section Steps

variable {I : RingView → Prop}

/-- A change that does not concern the ring. -/
theorem keeps_modify {f : Machine → Machine} (h : ∀ m, (f m).ringView = m.ringView) :
    Keeps (OnRing I) (.modify f) := by
  refine Keeps.modify fun m hm => ?_
  unfold OnRing
  rw [h m]
  exact hm

/-- An access that does not concern the ring. -/
theorem keeps_access {α : Type} {f : Machine → α × Machine}
    (hmoved : ∀ v sqes, I v → I (v.moved sqes))
    (h : ∀ m, (f m).2.ringView = m.moved.ringView) : Keeps (OnRing I) (.ofFn f) := by
  refine Keeps.ofFn fun m hm => ?_
  unfold OnRing
  rw [h m, ringView_moved]
  exact hmoved _ _ hm

theorem ringView_readAt (m : Machine) (e : EnvMove) (offset : ℕ) :
    (m.readAt e offset).2.ringView = m.ringView := by
  match offset with
  | 0 =>
    unfold Machine.readAt
    split_ifs <;> rfl
  | 1 | 2 | 3 | 4 | 5 => rfl
  | _ + 6 => rfl

theorem ringView_writeThr (m : Machine) (c : UInt8) :
    (m.writeAt c Reg.thr).ringView = m.ringView := by
  unfold Reg.thr Machine.writeAt
  split_ifs <;> rfl

theorem ringView_flushStep (m : Machine) (pushedTotal : ℕ) :
    (flushStep pushedTotal m).2.ringView = m.moved.ringView := by
  unfold flushStep Prog.ofFn
  cases hring : m.moved.uart.rxRing with
  | none => simp only [hring]
  | some ring =>
    simp only [hring]
    unfold Ns16550a.flush
    dsimp only
    split_ifs <;> rfl

/-- What is kept when requests are queued and completions are posted, is kept by the steps of the
notifications. -/
theorem kept_ring (hmoved : ∀ v sqes, I v → I (v.moved sqes))
    (hcomplete : ∀ v userData result, I v → I (v.complete userData result)) :
    KeptBySteps (OnRing I) := by
  have hread : ∀ offset, Keeps (OnRing I) (readReg offset) := fun offset =>
    keeps_access hmoved fun m => ringView_readAt m.moved m.move offset
  have hbuffer : ∀ c drained, Keeps (OnRing I) (bufferByte c drained) := by
    refine fun c drained => Keeps.ofFn fun m hm => ?_
    split_ifs <;> exact hm
  refine
    { readReg := fun _ => hread _
      writeThr := fun c => Keeps.modify fun m hm => ?_
      popTx := fun n => keeps_access hmoved fun m => ?_
      hasPendingTx := keeps_access hmoved fun m => ?_
      count := fun _ _ => keeps_modify fun _ => rfl
      complete := fun userData result => Keeps.modify fun m hm => hcomplete _ _ _ hm
      setPendingRead := fun _ => keeps_modify fun _ => rfl
      drainStep := fun budget drained => ?_
      flushStep := fun pushedTotal => Keeps.ofFn fun m hm => ?_ }
  · unfold OnRing
    rw [ringView_writeThr, ringView_moved]
    exact hmoved _ _ hm
  · dsimp only
    split <;> rfl
  · dsimp only
    split <;> rfl
  · unfold drainStep
    refine Keeps.ite (Keeps.bind ?_ fun c => ?_) (Keeps.pure _)
    · unfold getchar
      refine Keeps.bind (hread _) fun lsr => Keeps.ite ?_ (Keeps.pure _)
      exact Keeps.bind (hread _) fun c => Keeps.pure _
    · cases c with
      | none => exact Keeps.pure _
      | some c => exact Keeps.bind (hbuffer c drained) fun _ => Keeps.pure _
  · show I (flushStep pushedTotal m).2.ringView
    rw [ringView_flushStep, ringView_moved]
    exact hmoved _ _ hm

end Steps

/-! ### Requests -/

/-- Since the ring was `ring`, when `queued` had been queued, the requests `fetched` were fetched,
and completions with the user data `answered` were posted. -/
def Serving (ring : IoUringServer) (queued fetched : List Sqe) (answered : List UInt64)
    (v : RingView) : Prop :=
  ∃ (t : IoUringServer) (more : List Sqe) (new : List (UInt64 × Int32)), v.ring = some t ∧
    v.queued = queued ++ more ∧ fetched ++ t.sq = ring.sq ++ more ∧
      t.completions = ring.completions ++ new ∧ answered.Sublist (new.map Prod.fst)

namespace Serving

variable {ring : IoUringServer} {queued fetched : List Sqe} {answered : List UInt64}
  {v : RingView}

theorem start (h : v.ring = some ring) : Serving ring v.queued [] [] v :=
  ⟨ring, [], [], h, (List.append_nil _).symm, (List.append_nil _).symm,
    (List.append_nil _).symm, List.Sublist.refl _⟩

theorem moved (h : Serving ring queued fetched answered v) (sqes : List Sqe) :
    Serving ring queued fetched answered (v.moved sqes) := by
  obtain ⟨t, more, new, hring, hqueued, hsq, hnew, hsub⟩ := h
  refine ⟨{ t with sq := t.sq ++ sqes }, more ++ sqes, new, ?_, ?_, ?_, hnew, hsub⟩
  · unfold RingView.moved
    rw [hring]
    rfl
  · unfold RingView.moved
    rw [hqueued, List.append_assoc]
  · rw [← List.append_assoc, hsq, List.append_assoc]

/-- One more completion. -/
theorem answer (h : Serving ring queued fetched answered v) (userData : UInt64) (result : Int32) :
    Serving ring queued fetched (answered ++ [userData]) (v.complete userData result) := by
  obtain ⟨t, more, new, hring, hqueued, hsq, hnew, hsub⟩ := h
  refine ⟨t.complete userData result, more, new ++ [(userData, result)], ?_, hqueued, hsq, ?_, ?_⟩
  · unfold RingView.complete
    rw [hring]
    rfl
  · unfold IoUringServer.complete
    rw [hnew, List.append_assoc]
  · rw [List.map_append]
    exact hsub.append (List.Sublist.refl _)

/-- A completion for another request. -/
theorem complete (h : Serving ring queued fetched answered v) (userData : UInt64)
    (result : Int32) : Serving ring queued fetched answered (v.complete userData result) := by
  obtain ⟨t, more, new, hring, hqueued, hsq, hnew, hsub⟩ := h.answer userData result
  exact ⟨t, more, new, hring, hqueued, hsq, hnew, (List.sublist_append_left _ _).trans hsub⟩

theorem kept : KeptBySteps (OnRing (Serving ring queued fetched answered)) :=
  kept_ring (fun _ sqes h => h.moved sqes) fun _ userData result h => h.complete userData result

end Serving

/-- All requests of `ring` were fetched, and those that were fetched were completed. -/
def Finished (ring : IoUringServer) (queued : List Sqe) (v : RingView) : Prop :=
  ∃ fetched, ring.sq <+: fetched ∧
    Serving ring queued fetched (fetched.map Sqe.userData) v

section Calls

variable {ring : IoUringServer} {queued fetched : List Sqe} {answered : List UInt64}
  {F : Machine → Prop}

/-- `next_request` takes a request, or the queue is empty. -/
theorem triple_nextSqe :
    Triple (OnRing (Serving ring queued fetched answered)) nextSqe
      (fun sqe m => match sqe with
        | none => ring.sq <+: fetched ∧ OnRing (Serving ring queued fetched answered) m
        | some sqe => OnRing (Serving ring queued (fetched ++ [sqe]) answered) m) F := by
  refine Triple.ofFn fun m hm => ?_
  have hmoved : Serving ring queued fetched answered m.moved.ringView := by
    rw [ringView_moved]
    exact Serving.moved hm _
  obtain ⟨t, more, new, hring, hqueued, hsq, hnew, hsub⟩ := hmoved
  have hring : m.moved.uart.ring = some t := hring
  unfold IoUringServer.nextRequest
  simp only [hring]
  cases htsq : t.sq with
  | nil =>
    rw [htsq, List.append_nil] at hsq
    refine ⟨⟨more, hsq.symm⟩, t, more, new, rfl, hqueued, ?_, hnew, hsub⟩
    rw [htsq, List.append_nil, hsq]
  | cons sqe rest =>
    refine ⟨{ t with sq := rest }, more, new, rfl, hqueued, ?_, hnew, hsub⟩
    rw [List.append_assoc, ← hsq, htsq]
    rfl

/-- The request at hand is completed. -/
theorem triple_handleSqe (fuel : ℕ) (sqe : Sqe) :
    Triple (OnRing (Serving ring queued fetched answered)) (handleSqe fuel sqe)
      (fun _ => OnRing (Serving ring queued fetched (answered ++ [sqe.userData])))
      fun _ => True := by
  have hkept : KeptBySteps (OnRing (Serving ring queued fetched answered)) := Serving.kept
  have hlast : ∀ result, Triple (OnRing (Serving ring queued fetched answered))
      (complete sqe.userData result)
      (fun _ => OnRing (Serving ring queued fetched (answered ++ [sqe.userData])))
      fun _ => True := fun result => Triple.modify fun _ hm => Serving.answer hm _ result
  unfold handleSqe
  split
  · exact Triple.bind ((hkept.processTxRing fuel _).triple fun _ _ => trivial) fun _ => hlast _
  · refine Triple.bind ((hkept.setPendingRead _).triple fun _ _ => trivial) fun _ => ?_
    exact Triple.bind (hkept.processRxRing.triple fun _ _ => trivial) fun _ => hlast _
  · exact Triple.bind (Keeps.get.triple fun _ _ => trivial) fun _ => hlast _

/-- A call of `handle_sq` that returns has served all requests of the ring. -/
theorem handleSq_ret {fuel : ℕ} {m m' : Machine} (hring : m.uart.ring = some ring)
    (h : handleSq fuel m = (.ret ⟨⟩, m')) :
    ∃ (t : IoUringServer) (more : List Sqe), m'.uart.ring = some t ∧
      m'.queued = m.queued ++ more ∧ ring.Served t more := by
  -- the loop, of which every iteration completes what it fetches
  have hloop : Triple (fun m₁ => ∃ fetched,
      OnRing (Serving ring m.queued fetched (fetched.map Sqe.userData)) m₁)
      (Prog.loop (sqStep fuel) fuel ()) (fun _ => OnRing (Finished ring m.queued))
      fun _ => True := by
    refine Triple.loop (I := fun _ m₁ => ∃ fetched,
      OnRing (Serving ring m.queued fetched (fetched.map Sqe.userData)) m₁) (fun _ => ?_)
      (fun _ _ _ => trivial) fuel ()
    rintro m₁ ⟨fetched, hm₁⟩
    refine Triple.bind triple_nextSqe (fun sqe => ?_) m₁ hm₁
    cases sqe with
    | none => exact Triple.pure _ fun m₂ hm₂ => ⟨fetched, hm₂.1, hm₂.2⟩
    | some sqe =>
      refine Triple.bind (triple_handleSqe fuel sqe) fun _ => Triple.pure _ fun m₂ hm₂ => ?_
      refine ⟨fetched ++ [sqe], ?_⟩
      rw [List.map_append]
      exact hm₂
  have hkept : KeptBySteps (OnRing (Finished ring m.queued)) :=
    kept_ring (fun _ sqes ⟨fetched, hpre, hs⟩ => ⟨fetched, hpre, hs.moved sqes⟩)
      fun _ userData result ⟨fetched, hpre, hs⟩ => ⟨fetched, hpre, hs.complete userData result⟩
  have hcall := Triple.bind hloop (fun _ => (hkept.flushIfBuffered false).mono (fun _ h => h)
    (fun _ _ h => h) fun _ _ => trivial) m ⟨[], Serving.start (v := m.ringView) hring⟩
  unfold handleSq at h
  rw [h] at hcall
  obtain ⟨fetched, hpre, t, more, new, ht, hqueued, hsq, hnew, hsub⟩ := hcall
  exact ⟨t, more, ht, hqueued, fetched, new, hpre, hsq, hnew, hsub⟩

end Calls

end GlendaDrivers.Uart
