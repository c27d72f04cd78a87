import GlendaDrivers.Glenda
import GlendaDrivers.Lib.Cursor

/-!
# Loops over a queue of requests

* `Served`: a call has fetched and completed the requests that were queued before;
* `LoopEnd`: how a loop ends that answers one request after the other;
* `LoopEnd.of_loop`: the rule for such a loop.
-/

namespace GlendaDrivers

namespace IoUringServer

/-- A call has served the requests of `s`, and left the server `t`: the requests that it fetched
include those of `s`, and each was completed.  The requests `more` were queued meanwhile. -/
def Served (s t : IoUringServer) (more : List Sqe) : Prop :=
  ∃ fetched new, s.sq <+: fetched ∧ fetched ++ t.sq = s.sq ++ more ∧
    t.completions = s.completions ++ new ∧
      (fetched.map Sqe.userData).Sublist (new.map Prod.fst)

/-! ### Loops over the queue -/

/-- How a loop ends that answers the requests of `s` one after the other, after `k` completions:
with the queue empty, or with the first completion that fails. -/
inductive LoopEnd (answer : ℕ → Except Error Unit) (s : IoUringServer) (k : ℕ) :
    Except Error IoUringServer → Prop
  | drained {t : IoUringServer} {new : List (UInt64 × Int32)} (hsq : t.sq = [])
      (hnew : t.completions = s.completions ++ new)
      (hposted : new.map Prod.fst = s.sq.map Sqe.userData)
      (hok : ∀ i < s.sq.length, answer (k + i) = .ok ()) : LoopEnd answer s k (.ok t)
  | failed {e : Error} {i : ℕ} (hi : i < s.sq.length) (he : answer (k + i) = .error e) :
      LoopEnd answer s k (.error e)

namespace LoopEnd

variable {answer : ℕ → Except Error Unit} {s : IoUringServer} {k : ℕ}
  {r : Except Error IoUringServer} {sqe : Sqe} {rest : List Sqe}

theorem nil (hsq : s.sq = []) : LoopEnd answer s k (.ok s) := by
  refine .drained hsq (List.append_nil _).symm ?_ fun i hi => ?_
  · rw [hsq]
    rfl
  · rw [hsq] at hi
    exact absurd hi (Nat.not_lt_zero i)

/-- The completion of the first request fails. -/
theorem head {e : Error} (hsq : s.sq = sqe :: rest) (he : answer k = .error e) :
    LoopEnd answer s k (.error e) :=
  .failed (i := 0) (by rw [hsq]; exact Nat.succ_pos _) he

/-- The first request is completed, and the loop goes on. -/
theorem cons {v : Int32} (hsq : s.sq = sqe :: rest) (ha : answer k = .ok ())
    (h : LoopEnd answer (({ s with sq := rest } : IoUringServer).complete sqe.userData v) (k + 1)
      r) : LoopEnd answer s k r := by
  have hlen : s.sq.length = rest.length + 1 := by rw [hsq, List.length_cons]
  cases h with
  | @drained t new hnil hnew hposted hok =>
    have hnew' : t.completions = s.completions ++ (sqe.userData, v) :: new := by
      rw [hnew]
      simp [complete]
    refine .drained hnil hnew' ?_ fun i hi => ?_
    · rw [hsq, List.map_cons, hposted]
      rfl
    · cases i with
      | zero => exact ha
      | succ i =>
        rw [Nat.add_comm i 1, ← Nat.add_assoc]
        exact hok i (by show i < rest.length; omega)
  | @failed e i hi he =>
    have hi : i < rest.length := hi
    refine .failed (i := i + 1) (by omega) ?_
    rw [Nat.add_comm i 1, ← Nat.add_assoc]
    exact he

/-- The loop ends without an error iff no completion fails. -/
theorem isOk_iff (h : LoopEnd answer s 0 r) :
    r.isOk = true ↔ ∀ i < s.sq.length, answer i = .ok () := by
  cases h with
  | drained _ _ _ hok =>
    refine iff_of_true rfl fun i hi => ?_
    rw [← Nat.zero_add i]
    exact hok i hi
  | failed hi he =>
    refine iff_of_false Bool.false_ne_true fun hok => ?_
    rw [Nat.zero_add, hok _ hi] at he
    exact nomatch he

/-- Then all requests are served. -/
theorem served {t : IoUringServer} (h : LoopEnd answer s k (.ok t)) : s.Served t [] := by
  cases h with
  | @drained t new hsq hnew hposted hok =>
    refine ⟨s.sq, new, List.prefix_refl _, by rw [hsq], hnew, ?_⟩
    rw [hposted]

/-- The rule for a loop that answers one request in each iteration.  `At t k b x` says where the
server `t` is after `k` completions, and `Done` what is left when the loop ends. -/
theorem of_loop {β γ σ : Type} {body : β → Prog σ (β ⊕ γ)}
    (At : IoUringServer → ℕ → β → σ → Prop) (Done : Except Error IoUringServer → γ → σ → Prop)
    (hnil : ∀ {t k b x r x'}, At t k b x → t.sq = [] → body b x = (.ret r, x') →
      ∃ c, r = .inr c ∧ Done (.ok t) c x')
    (hcons : ∀ {t k b x r x' sqe rest}, At t k b x → t.sq = sqe :: rest →
      body b x = (.ret r, x') →
        (∃ e c, answer k = .error e ∧ r = .inr c ∧ Done (.error e) c x') ∨
        ∃ v b', answer k = .ok () ∧ r = .inl b' ∧
          At (({ t with sq := rest } : IoUringServer).complete sqe.userData v) (k + 1) b' x')
    {n : ℕ} {b : β} {x x' : σ} {c : γ} (hb : At s k b x)
    (h : Prog.loop body n b x = (.ret c, x')) : ∃ r, s.LoopEnd answer k r ∧ Done r c x' := by
  induction hsq : s.sq generalizing s n k b x with
  | nil =>
    obtain ⟨m, r, x₁, -, hstep, hrest⟩ := Prog.loop_eq_ret h
    obtain ⟨c', rfl, hdone⟩ := hnil hb hsq hstep
    obtain ⟨_, hr, -⟩ | ⟨hr, rfl⟩ := hrest
    · exact nomatch hr
    · obtain rfl := Sum.inr.inj hr
      exact ⟨.ok s, .nil hsq, hdone⟩
  | cons sqe rest ih =>
    obtain ⟨m, r, x₁, -, hstep, hrest⟩ := Prog.loop_eq_ret h
    obtain ⟨e, c', ha, rfl, hdone⟩ | ⟨v, b', ha, rfl, hb'⟩ := hcons hb hsq hstep
    · obtain ⟨_, hr, -⟩ | ⟨hr, rfl⟩ := hrest
      · exact nomatch hr
      · obtain rfl := Sum.inr.inj hr
        exact ⟨.error e, .head hsq ha, hdone⟩
    · obtain ⟨b'', hr, hloop⟩ | ⟨hr, -⟩ := hrest
      · obtain rfl := Sum.inl.inj hr
        obtain ⟨r, hend, hdone⟩ := ih hb' hloop rfl
        exact ⟨r, hend.cons hsq ha, hdone⟩
      · exact nomatch hr

end LoopEnd

end IoUringServer

end GlendaDrivers
