import GlendaDrivers.RingLoop
import GlendaDrivers.Virtio.Gpu

/-!
# The ring server of the GPU driver

`handle_ring` takes the server out of the driver for the time of its loop.

* `flush_keeps`: commands do not touch the server;
* `ringLoop_ret`: the loop ends when the queue is empty, or with the first completion that fails;
* `gpu_ring`: when the server is installed again.
-/

namespace GlendaDrivers

open Prog VirtIOGpu

namespace VirtIOGpu

variable {fuel : ℕ}

theorem flush_keeps {mmio : Mmio} {server : Option IoUringServer} (x y w h : UInt64) :
    Keeps (Untouched mmio server) (flush fuel x y w h) := by
  have hattempt : ∀ (r : Except Error (List UInt8)) (k : Prog GpuState (Except Error Unit)),
      Keeps (Untouched mmio server) k → Keeps (Untouched mmio server) (attempt r fun _ => k) := by
    intro r k hk
    cases r with
    | error e => exact Keeps.pure _
    | ok a => exact hk
  unfold flush
  refine Keeps.bind Keeps.get fun s => Keeps.bind (sendCmd_keeps _ _ _) fun r => hattempt _ _ ?_
  exact Keeps.bind (sendCmd_keeps _ _ _) fun r => hattempt _ _ (Keeps.pure _)

/-! ### The loop -/

section Ring

variable {opFlush : Opcode} {answer : ℕ → Except Error Unit} {sv : IoUringServer} {n k : ℕ}
  {s s' : GpuState}

/-- An iteration with an empty queue. -/
theorem ringStep_nil (hsq : sv.sq = []) :
    ringStep fuel opFlush answer (sv, k) s = (.ret (.inr (.ok sv)), s) := by
  unfold ringStep IoUringServer.nextRequest
  rw [hsq]
  rfl

/-- An iteration with a request: it is answered, with 0 or -1. -/
theorem ringStep_cons {sqe : Sqe} {rest : List Sqe} (hsq : sv.sq = sqe :: rest)
    {r : (IoUringServer × ℕ) ⊕ Except Error IoUringServer}
    (h : ringStep fuel opFlush answer (sv, k) s = (.ret r, s')) :
    s'.gpu.ringServer = s.gpu.ringServer ∧
      ∃ ret, r = completeRing (answer k) { sv with sq := rest } k sqe.userData ret := by
  unfold ringStep IoUringServer.nextRequest at h
  rw [hsq] at h
  dsimp only at h
  split_ifs at h
  · obtain ⟨res, s₁, hflush, h⟩ := bind_eq_ret.1 h
    obtain ⟨hr, rfl⟩ := Prod.mk.inj h
    exact ⟨((flush_keeps _ _ _ _).of_run ⟨rfl, rfl⟩ hflush).2, _, (Outcome.ret.inj hr).symm⟩
  · obtain ⟨hr, rfl⟩ := Prod.mk.inj h
    exact ⟨rfl, _, (Outcome.ret.inj hr).symm⟩

/-- The loop leaves the driver's own server alone. -/
theorem ringLoop_ret {r : Except Error IoUringServer}
    (h : loop (ringStep fuel opFlush answer) n (sv, k) s = (.ret r, s')) :
    s'.gpu.ringServer = s.gpu.ringServer ∧ sv.LoopEnd answer k r := by
  have hloop : ∃ r', sv.LoopEnd answer k r' ∧ s'.gpu.ringServer = s.gpu.ringServer ∧ r' = r := by
    refine IoUringServer.LoopEnd.of_loop
      (fun t k b x => b = (t, k) ∧ x.gpu.ringServer = s.gpu.ringServer)
      (fun r c x => x.gpu.ringServer = s.gpu.ringServer ∧ r = c) ?_ ?_ ⟨rfl, rfl⟩ h
    · rintro t k b x r x' ⟨rfl, hx⟩ hsq hstep
      rw [ringStep_nil hsq] at hstep
      obtain ⟨hr, rfl⟩ := Prod.mk.inj hstep
      exact ⟨.ok t, (Outcome.ret.inj hr).symm, hx, rfl⟩
    · rintro t k b x r x' sqe rest ⟨rfl, hx⟩ hsq hstep
      obtain ⟨hkeeps, ret, rfl⟩ := ringStep_cons hsq hstep
      cases ha : answer k with
      | error e => exact .inl ⟨e, .error e, rfl, rfl, hkeeps.trans hx, rfl⟩
      | ok u => exact .inr ⟨ret, _, rfl, rfl, rfl, hkeeps.trans hx⟩
  obtain ⟨r', hend, hkeeps, rfl⟩ := hloop
  exact ⟨hkeeps, hend⟩

/-! ### The call -/

/-- What a call of `handle_ring` leaves of the server `sv`. -/
theorem handleRing_ret {r : Except Error Unit} (hserver : s.gpu.ringServer = some sv)
    (h : handleRing fuel opFlush answer s = (.ret r, s')) :
    (∃ after, r = .ok () ∧ s'.gpu.ringServer = some after ∧ sv.LoopEnd answer 0 (.ok after)) ∨
      ∃ e, r = .error e ∧ s'.gpu.ringServer = none ∧ sv.LoopEnd answer 0 (.error e) := by
  unfold handleRing at h
  obtain ⟨_, _, hget, h⟩ := bind_eq_ret.1 h
  obtain ⟨hg, rfl⟩ := Prod.mk.inj hget
  obtain rfl := Outcome.ret.inj hg
  rw [hserver] at h
  obtain ⟨_, s₁, hset, h⟩ := bind_eq_ret.1 h
  obtain rfl := (Prod.mk.inj hset).2
  obtain ⟨r', s₂, hloop, h⟩ := bind_eq_ret.1 h
  obtain ⟨hkeeps, hend⟩ := ringLoop_ret hloop
  cases r' with
  | error e =>
    obtain ⟨hr, rfl⟩ := Prod.mk.inj h
    exact .inr ⟨e, (Outcome.ret.inj hr).symm, hkeeps, hend⟩
  | ok after =>
    obtain ⟨_, s₃, hset, h⟩ := bind_eq_ret.1 h
    obtain rfl := (Prod.mk.inj hset).2
    obtain ⟨hr, rfl⟩ := Prod.mk.inj h
    exact .inl ⟨after, (Outcome.ret.inj hr).symm, rfl, hend⟩

end Ring

end VirtIOGpu

/-- **The ring of the GPU driver.**  After a call of `handle_ring` that returns, a server that was
installed before is still installed iff none of the completions of the call failed. -/
theorem gpu_ring {fuel : ℕ} {opFlush : Opcode} {answer : ℕ → Except Error Unit}
    {s s' : GpuState} {sv : IoUringServer} {r : Except Error Unit}
    (hserver : s.gpu.ringServer = some sv)
    (h : handleRing fuel opFlush answer s = (.ret r, s')) :
    s'.gpu.ringServer ≠ none ↔ ∀ k < sv.sq.length, answer k = .ok () := by
  rcases handleRing_ret hserver h with ⟨after, -, hafter, hend⟩ | ⟨e, -, hnone, hend⟩
  · exact iff_of_true (by rw [hafter]; exact Option.some_ne_none after) (hend.isOk_iff.1 rfl)
  · exact iff_of_false (fun hne => hne hnone) (mt hend.isOk_iff.2 Bool.false_ne_true)

/-- A driver with one request in its queue, which is not for a flush. -/
def oneRequest : GpuState where
  mmio := .initial default
  gpu := ⟨0, 0, some ⟨[⟨.read, 0, 0, 0, 5⟩], []⟩, none, none, 0, fun _ => 0⟩
  device := ⟨fun _ _ => [], fun _ => 0, fun _ => 0⟩
  notified := 0
  devAvail := 0
  waited := 0
  answered := []

theorem gpu_ring_answered : ∃ s', handleRing 2 (.other 16) (fun _ => .ok ()) oneRequest =
    (.ret (.ok ()), s') ∧ s'.gpu.ringServer ≠ none := by
  obtain ⟨s', hrun⟩ : ∃ s', handleRing 2 (.other 16) (fun _ => .ok ()) oneRequest =
      (.ret (.ok ()), s') := ⟨_, rfl⟩
  exact ⟨s', hrun, (gpu_ring rfl hrun).2 fun _ _ => rfl⟩

/-- The completion of the request fails, and the server is gone. -/
theorem gpu_ring_lost : ∃ s', oneRequest.gpu.ringServer ≠ none ∧
    handleRing 2 (.other 16) (fun _ => .error .generic) oneRequest = (.ret (.error .generic), s') ∧
      s'.gpu.ringServer = none :=
  ⟨_, Option.some_ne_none _, rfl, rfl⟩

end GlendaDrivers
