import GlendaDrivers.RingLoop
import GlendaDrivers.Sys.RamdiskStore

/-!
# The ring of the RAM disk

* `handleIo`: the loop over the queue, which leaves the server in the driver;
* `handleIo_ret`: the loop ends when the queue is empty, or with the first completion that fails.
-/

namespace GlendaDrivers

namespace Ramdisk

open Prog

/-- The driver and its memory. -/
structure State where
  disk : Ramdisk
  mem : UInt64 → UInt8

/-- `process_sqe` and its copy.  The call ends where the language promises nothing. -/
def serveSqe (code : Error → Int32) (sqe : Sqe) : Prog State Int32 := fun s =>
  match s.disk.serve code s.mem sqe with
  | .ret (some (v, disk, mem)) => (.ret v, ⟨disk, mem⟩)
  | .ret none => (.panic, s)
  | .panic => (.panic, s)
  | .running => (.running, s)

/-- `server.next_request()`, if there is a server. -/
def nextSqe : Prog State (Option Sqe) := .ofFn fun s =>
  match s.disk.ring with
  | none => (none, s)
  | some server =>
      let (sqe, server) := server.nextRequest
      (sqe, { s with disk := { s.disk with ring := some server } })

/-- `server.complete(user_data, res_val)?`, if there is a server, when `complete` answers
`answer`; `k` completions came before. -/
def completeSqe (answer : Except Error Unit) (k : ℕ) (userData : UInt64) (res : Int32) :
    Prog State (ℕ ⊕ Except Error Unit) := .ofFn fun s =>
  match s.disk.ring with
  | none => (.inl k, s)
  | some server =>
      match answer with
      | .ok () =>
          let server := server.complete userData res
          (.inl (k + 1), { s with disk := { s.disk with ring := some server } })
      | .error e => (.inr (.error e), s)

/-- One iteration of the loop of `handle_io`, after `k` completions. -/
def ioStep (code : Error → Int32) (answer : ℕ → Except Error Unit) (k : ℕ) :
    Prog State (ℕ ⊕ Except Error Unit) := do
  let sqe ← nextSqe
  match sqe with
  | some sqe => do
      let res ← serveSqe code sqe
      completeSqe (answer k) k sqe.userData res
  | none => return .inr (.ok ())

/-- `handle_io`, for at most `fuel` iterations; completion number `k` of the call is answered by
`answer k`. -/
def handleIo (code : Error → Int32) (fuel : ℕ) (answer : ℕ → Except Error Unit) :
    Prog State (Except Error Unit) := loop (ioStep code answer) fuel 0

section Loop

variable {code : Error → Int32} {answer : ℕ → Except Error Unit} {server : IoUringServer}
  {s s' : State} {n k : ℕ} {v : Int32} {sqe : Sqe} {rest : List Sqe}

/-- A request does not touch the server. -/
theorem serve_ring {r r' : Ramdisk} {mem mem' : UInt64 → UInt8}
    (h : r.serve code mem sqe = .ret (some (v, r', mem'))) : r'.ring = r.ring := by
  unfold serve at h
  obtain ⟨res, -, h⟩ := Outcome.bind_eq_ret.1 h
  rcases res with e | ⟨w, _ | c⟩
  · obtain ⟨rfl, -⟩ := Prod.mk.inj (Prod.mk.inj (Option.some.inj (Outcome.ret.inj h))).2
    rfl
  · obtain ⟨rfl, -⟩ := Prod.mk.inj (Prod.mk.inj (Option.some.inj (Outcome.ret.inj h))).2
    rfl
  · obtain ⟨after, -, hafter⟩ := Option.map_eq_some_iff.1 (Outcome.ret.inj h)
    obtain ⟨rfl, -⟩ := Prod.mk.inj (Prod.mk.inj hafter).2
    rfl

theorem serveSqe_ring (h : serveSqe code sqe s = (.ret v, s')) : s'.disk.ring = s.disk.ring := by
  unfold serveSqe at h
  rcases hserve : s.disk.serve code s.mem sqe with (_ | ⟨w, disk, mem⟩) | _ | _
  · rw [hserve] at h
    exact nomatch (Prod.mk.inj h).1
  · rw [hserve] at h
    obtain ⟨-, rfl⟩ := Prod.mk.inj h
    exact serve_ring hserve
  · rw [hserve] at h
    exact nomatch (Prod.mk.inj h).1
  · rw [hserve] at h
    exact nomatch (Prod.mk.inj h).1

/-- An iteration with an empty queue. -/
theorem ioStep_nil (hs : s.disk.ring = some server) (hsq : server.sq = []) :
    ioStep code answer k s = (.ret (.inr (.ok ())), s) := by
  have hnext : nextSqe s = (.ret none, s) := by
    obtain ⟨⟨data, blockSize, ring, buffer⟩, mem⟩ := s
    obtain ⟨sq, completions⟩ := server
    obtain rfl : ring = some ⟨sq, completions⟩ := hs
    obtain rfl : sq = [] := hsq
    rfl
  unfold ioStep
  rw [bind_of_ret hnext]
  rfl

/-- An iteration with a request: it is completed, or the loop ends. -/
theorem ioStep_cons {r : ℕ ⊕ Except Error Unit} (hs : s.disk.ring = some server)
    (hsq : server.sq = sqe :: rest) (h : ioStep code answer k s = (.ret r, s')) :
    (∃ e, answer k = .error e ∧ r = .inr (.error e)) ∨
      ∃ v, answer k = .ok () ∧ r = .inl (k + 1) ∧ s'.disk.ring =
        some (({ server with sq := rest } : IoUringServer).complete sqe.userData v) := by
  have hnext : nextSqe s = (.ret (some sqe),
      { s with disk := { s.disk with ring := some { server with sq := rest } } }) := by
    unfold nextSqe ofFn IoUringServer.nextRequest
    simp only [hs, hsq]
  unfold ioStep at h
  rw [bind_of_ret hnext] at h
  obtain ⟨v, s₁, hserve, h⟩ := bind_eq_ret.1 h
  have hring := serveSqe_ring hserve
  unfold completeSqe ofFn at h
  cases ha : answer k with
  | error e =>
    simp only [hring, ha] at h
    obtain ⟨hr, -⟩ := Prod.mk.inj h
    exact .inl ⟨e, rfl, (Outcome.ret.inj hr).symm⟩
  | ok u =>
    simp only [hring, ha] at h
    obtain ⟨hr, rfl⟩ := Prod.mk.inj h
    exact .inr ⟨v, rfl, (Outcome.ret.inj hr).symm, rfl⟩

/-- What a call of `handle_io` leaves of the server. -/
theorem handleIo_ret {fuel : ℕ} {r : Except Error Unit} (hs : s.disk.ring = some server)
    (h : handleIo code fuel answer s = (.ret r, s')) :
    ∃ r', server.LoopEnd answer 0 r' ∧ r = r'.map (fun _ => ()) ∧
      ∀ t, r' = .ok t → s'.disk.ring = some t := by
  refine IoUringServer.LoopEnd.of_loop (fun t k b x => b = k ∧ x.disk.ring = some t)
    (fun r' r x => r = r'.map (fun _ => ()) ∧ ∀ t, r' = .ok t → x.disk.ring = some t)
    ?_ ?_ ⟨rfl, hs⟩ h
  · rintro t k b x r x' ⟨rfl, hx⟩ hsq hstep
    rw [ioStep_nil hx hsq] at hstep
    obtain ⟨hr, rfl⟩ := Prod.mk.inj hstep
    refine ⟨.ok (), (Outcome.ret.inj hr).symm, rfl, fun t' ht => ?_⟩
    rw [hx, Except.ok.inj ht]
  · rintro t k b x r x' sqe rest ⟨rfl, hx⟩ hsq hstep
    obtain ⟨e, ha, rfl⟩ | ⟨v, ha, rfl, hring⟩ := ioStep_cons hx hsq hstep
    · exact .inl ⟨e, .error e, ha, rfl, rfl, nofun⟩
    · exact .inr ⟨v, _, ha, rfl, rfl, hring⟩

end Loop

end Ramdisk

end GlendaDrivers
