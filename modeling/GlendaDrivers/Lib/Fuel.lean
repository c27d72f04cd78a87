import GlendaDrivers.Lib.Outcome

/-!
# Programs whose loops are bounded

A program whose loops run for at most `n` iterations is a family `p : ℕ → Prog σ α`.

* `Prog.Refines`: a program returns what another one returns;
* `Prog.Increasing`: a larger bound does not change a result;
* `Prog.Total`: total correctness, from a bound that is large enough;
* `Prog.Total.loop`: the variant rule of the loop.
-/

universe u v

namespace Prog

variable {σ α β γ : Type u}

/-! ### Larger bounds -/

/-- Whenever `m` returns, `m'` does the same. -/
def Refines (m m' : Prog σ α) : Prop := ∀ s a s', m s = (.ret a, s') → m' s = (.ret a, s')

theorem Refines.refl (m : Prog σ α) : Refines m m := fun _ _ _ h => h

theorem Refines.bind {m m' : Prog σ α} {f f' : α → Prog σ β} (hm : Refines m m')
    (hf : ∀ a, Refines (f a) (f' a)) : Refines (m >>= f) (m' >>= f') := by
  intro s b s'' h
  obtain ⟨a, s', hret, hrest⟩ := bind_eq_ret.mp h
  exact bind_eq_ret.mpr ⟨a, s', hm s a s' hret, hf a s' b s'' hrest⟩

theorem Refines.loop {body body' : β → Prog σ (β ⊕ γ)} (h : ∀ b, Refines (body b) (body' b))
    {n n' : ℕ} (hn : n ≤ n') (b : β) : Refines (loop body n b) (loop body' n' b) := by
  induction n generalizing n' b with
  | zero =>
    intro s a s' hret
    cases hret
  | succ n ih =>
    obtain ⟨n', rfl⟩ : ∃ k, n' = k + 1 := ⟨n' - 1, by omega⟩
    refine Refines.bind (h b) fun r => ?_
    cases r with
    | inl b' => exact ih (by omega) b'
    | inr c => exact Refines.refl _

/-- A larger bound does not change a result. -/
def Increasing (p : ℕ → Prog σ α) : Prop := ∀ n n' : ℕ, n ≤ n' → Refines (p n) (p n')

theorem Increasing.const (m : Prog σ α) : Increasing fun _ => m :=
  fun _ _ _ => Refines.refl m

theorem Increasing.bind {p : ℕ → Prog σ α} {f : ℕ → α → Prog σ β} (hp : Increasing p)
    (hf : ∀ a, Increasing fun n => f n a) : Increasing fun n => p n >>= f n :=
  fun n n' hn => Refines.bind (hp n n' hn) fun a => hf a n n' hn

theorem Increasing.ite {c : Prop} [Decidable c] {p q : ℕ → Prog σ α} (hp : Increasing p)
    (hq : Increasing q) : Increasing fun n => if c then p n else q n := by
  by_cases hc : c
  · simp only [hc, if_true]
    exact hp
  · simp only [hc, if_false]
    exact hq

/-- The result does not depend on the bound. -/
theorem Increasing.unique {p : ℕ → Prog σ α} (hp : Increasing p) {n k : ℕ} {s s' s'' : σ}
    {a b : α} (h : p n s = (.ret a, s')) (h' : p k s = (.ret b, s'')) : a = b ∧ s' = s'' := by
  have hn := hp n (max n k) (le_max_left n k) s a s' h
  rw [hp k (max n k) (le_max_right n k) s b s'' h'] at hn
  cases hn
  exact ⟨rfl, rfl⟩

section Loop

variable {body : ℕ → β → Prog σ (β ⊕ γ)}

/-- A loop with a bound of its own. -/
theorem Increasing.loop (h : ∀ b, Increasing fun n => body n b) (k : ℕ) (b : β) :
    Increasing fun n => Prog.loop (body n) k b :=
  fun n n' hn => Refines.loop (fun b => h b n n' hn) le_rfl b

theorem Increasing.loop_fuel (h : ∀ b, Increasing fun n => body n b) (b : β) :
    Increasing fun n => Prog.loop (body n) n b :=
  fun n n' hn => Refines.loop (fun b => h b n n' hn) hn b

end Loop

/-! ### Total correctness -/

/-- From a state in `P`, `p` returns with `Q` when its loops may run long enough. -/
def Total (P : σ → Prop) (p : ℕ → Prog σ α) (Q : α → σ → Prop) : Prop :=
  ∀ s, P s → ∃ n a s', p n s = (.ret a, s') ∧ Q a s'

namespace Total

variable {P P' : σ → Prop} {p : ℕ → Prog σ α} {Q Q' : α → σ → Prop} {R : β → σ → Prop}
  {F : σ → Prop}

/-- Every larger bound does as well. -/
theorem eventually (h : Total P p Q) (hp : Increasing p) {s : σ} (hs : P s) :
    ∃ n a s', Q a s' ∧ ∀ k, n ≤ k → p k s = (.ret a, s') := by
  obtain ⟨n, a, s', hret, hQ⟩ := h s hs
  exact ⟨n, a, s', hQ, fun k hk => hp n k hk s a s' hret⟩

/-- A program without such loops. -/
theorem of_triple {m : Prog σ α} (h : Triple P m Q fun _ => False) : Total P (fun _ => m) Q := by
  intro s hs
  have h := h s hs
  rcases hm : m s with ⟨a | _ | _, s'⟩ <;> rw [hm] at h
  · exact ⟨0, a, s', hm, h⟩
  · exact h.elim
  · exact h.elim

theorem pure {a : α} (h : ∀ s, P s → Q a s) : Total P (fun _ => (pure a : Prog σ α)) Q :=
  fun s hs => ⟨0, a, s, rfl, h s hs⟩

theorem mono (h : Total P p Q) (hP : ∀ s, P' s → P s) (hQ : ∀ a s, Q a s → Q' a s) :
    Total P' p Q' := by
  intro s hs
  obtain ⟨n, a, s', hret, ha⟩ := h s (hP s hs)
  exact ⟨n, a, s', hret, hQ a s' ha⟩

/-- Termination and an invariant. -/
theorem of_keeps {I : σ → Prop} (h : ∀ s, I s → ∃ n a s', p n s = (.ret a, s'))
    (hkeeps : ∀ n, Keeps I (p n)) : Total I p fun _ => I := by
  intro s hs
  obtain ⟨n, a, s', hret⟩ := h s hs
  exact ⟨n, a, s', hret, (hkeeps n).of_run hs hret⟩

theorem ite {c : Prop} [Decidable c] {q : ℕ → Prog σ α} (h : c → Total P p Q)
    (h' : ¬c → Total P q Q) : Total P (fun n => if c then p n else q n) Q := by
  by_cases hc : c
  · simp only [hc, if_true]
    exact h hc
  · simp only [hc, if_false]
    exact h' hc

theorem bind {f : ℕ → α → Prog σ β} (hp : Increasing p) (hf : ∀ a, Increasing fun n => f n a)
    (hm : Total P p Q) (hrest : ∀ a, Total (Q a) (fun n => f n a) R) :
    Total P (fun n => p n >>= f n) R := by
  intro s hs
  obtain ⟨n, a, s', hret, ha⟩ := hm s hs
  obtain ⟨k, b, s'', hret', hb⟩ := hrest a s' ha
  refine ⟨max n k, b, s'', ?_, hb⟩
  refine bind_eq_ret.mpr ⟨a, s', hp n _ (le_max_left n k) s a s' hret, ?_⟩
  exact hf a k _ (le_max_right n k) s' b s'' hret'

section Loop

variable {body : ℕ → β → Prog σ (β ⊕ γ)} {I : β → σ → Prop} {μ : β → σ → ℕ}
  {Q : γ → σ → Prop}

/-- The variant rule, for a loop with a bound of its own: every iteration but the last decreases
`μ`, which is below that bound. -/
theorem loop (hinc : ∀ b, Increasing fun n => body n b)
    (hbody : ∀ b k, Total (fun s => I b s ∧ μ b s = k) (fun n => body n b)
      fun r s => r.elim (fun b' => I b' s ∧ μ b' s < k) fun c => Q c s) (N : ℕ) (b : β) :
    Total (fun s => I b s ∧ μ b s < N) (fun n => Prog.loop (body n) N b) Q := by
  induction N generalizing b with
  | zero =>
    rintro s ⟨-, hs⟩
    exact absurd hs (Nat.not_lt_zero _)
  | succ N ih =>
    intro s hs
    let next (n : ℕ) (r : β ⊕ γ) : Prog σ γ := r.elim (Prog.loop (body n) N) Pure.pure
    have hloop : ∀ n, Prog.loop (body n) (N + 1) b = body n b >>= next n := fun n =>
      congrArg (body n b >>= ·) (funext fun r => by cases r <;> rfl)
    have hnext : ∀ r, Increasing fun n => next n r := by
      intro r
      cases r with
      | inl b' => exact Increasing.loop hinc N b'
      | inr c => exact Increasing.const _
    simp only [hloop]
    refine bind (f := next) (hinc b) hnext (hbody b (μ b s)) (fun r => ?_) s ⟨hs.1, rfl⟩
    cases r with
    | inl b' => exact (ih b').mono (fun _ h => ⟨h.1, by have := h.2; omega⟩) fun _ _ h => h
    | inr c => exact pure fun _ h => h

end Loop

end Total

end Prog
