import GlendaDrivers.Lib.Outcome

/-!
# Loops with a cursor

A loop that walks through data moves a cursor, and where the cursor goes next is a matter of the
data alone.

* `Visits next b c`: a cursor that starts at `b` comes to `c`;
* `Moves`: the body of a loop moves its cursor as `next` says, when it returns;
* `Moves.loop_of_visits`: a loop that returned was at every cursor that is visited;
* `loop_returns`, `loop_ne_running`: a loop whose iterations decrease a measure of the cursor.
-/

universe u

namespace Prog

variable {σ β γ : Type u}

/-- A cursor that starts at `b` comes to `c`. -/
def Visits (next : β → Option β) : β → β → Prop :=
  Relation.ReflTransGen fun b c => next b = some c

/-- An iteration that returns goes on at the next cursor, or ends the loop when there is none. -/
def Moves (next : β → Option β) (body : β → Prog σ (β ⊕ γ)) : Prop :=
  ∀ b s r s', body b s = (.ret r, s') → r.getLeft? = next b

section Visits

variable {next : β → Option β} {b c d : β}

theorem Visits.refl (b : β) : Visits next b b := Relation.ReflTransGen.refl

theorem Visits.tail (h : Visits next b c) (hn : next c = some d) : Visits next b d :=
  Relation.ReflTransGen.tail h hn

theorem Visits.head (hn : next b = some c) (h : Visits next c d) : Visits next b d :=
  Relation.ReflTransGen.head hn h

/-- What the cursor keeps. -/
theorem Visits.induct {P : β → Prop} (h : Visits next b c) (hb : P b)
    (hstep : ∀ c d, P c → next c = some d → P d) : P c := by
  induction h with
  | refl => exact hb
  | tail _ hn ih => exact hstep _ _ ih hn

end Visits

variable {next : β → Option β} {body : β → Prog σ (β ⊕ γ)} {b b' : β} {c : γ} {s s' : σ} {n : ℕ}

/-- The first iteration of a loop that returned. -/
theorem loop_eq_ret (h : loop body n b s = (.ret c, s')) :
    ∃ k r s₁, n = k + 1 ∧ body b s = (.ret r, s₁) ∧
      ((∃ b', r = .inl b' ∧ loop body k b' s₁ = (.ret c, s')) ∨ r = .inr c ∧ s₁ = s') := by
  cases n with
  | zero => exact nomatch (Prod.mk.inj h).1
  | succ k =>
    obtain ⟨r, s₁, hr, h⟩ := bind_eq_ret.1 h
    refine ⟨k, r, s₁, rfl, hr, ?_⟩
    cases r with
    | inl b' => exact .inl ⟨b', rfl, h⟩
    | inr c' =>
      obtain ⟨hc, rfl⟩ := Prod.mk.inj h
      obtain rfl := Outcome.ret.inj hc
      exact .inr ⟨rfl, rfl⟩

/-- One iteration, and then the loop from the next cursor. -/
theorem loop_succ_inl {s₁ : σ} (h : body b s = (.ret (.inl b'), s₁)) :
    loop body (n + 1) b s = loop body n b' s₁ := bind_of_ret h

/-- The last iteration. -/
theorem loop_succ_inr {s₁ : σ} (h : body b s = (.ret (.inr c), s₁)) :
    loop body (n + 1) b s = (.ret c, s₁) := bind_of_ret h

/-- A loop that returned was at every cursor that is visited. -/
theorem Moves.loop_of_visits (hm : Moves next body) (hv : Visits next b b')
    (h : loop body n b s = (.ret c, s')) : ∃ k s₁, loop body k b' s₁ = (.ret c, s') := by
  induction hv using Relation.ReflTransGen.head_induction_on generalizing n s with
  | refl => exact ⟨n, s, h⟩
  | head hn _ ih =>
    obtain ⟨k, r, s₁, -, hr, ⟨d, rfl, hrest⟩ | ⟨rfl, -⟩⟩ := loop_eq_ret h
    · have hd := hm _ _ _ _ hr
      rw [hn] at hd
      obtain rfl := Option.some.inj hd
      exact ih hrest
    · have hd := hm _ _ _ _ hr
      rw [hn] at hd
      exact nomatch hd

/-- A loop whose cursor stands still does not return. -/
theorem Moves.ne_self (hm : Moves next body) (h : loop body n b s = (.ret c, s')) :
    next b ≠ some b := by
  intro hn
  induction n generalizing s with
  | zero => exact nomatch (Prod.mk.inj h).1
  | succ n ih =>
    obtain ⟨k, r, s₁, hk, hr, ⟨d, rfl, hrest⟩ | ⟨rfl, -⟩⟩ := loop_eq_ret h
    · have hd := hm _ _ _ _ hr
      rw [hn] at hd
      obtain rfl := Option.some.inj hd
      obtain rfl := Nat.succ.inj hk
      exact ih hrest
    · have hd := hm _ _ _ _ hr
      rw [hn] at hd
      exact nomatch hd

/-- A loop returns when every iteration does and decreases a measure of the cursor. -/
theorem loop_returns {I : β → σ → Prop} {Q : γ → σ → Prop} (μ : β → ℕ)
    (hbody : ∀ b s, I b s → ∃ r s', body b s = (.ret r, s') ∧
      r.elim (fun b' => I b' s' ∧ μ b' < μ b) fun c => Q c s')
    (hs : I b s) (hn : μ b < n) : ∃ c s', loop body n b s = (.ret c, s') ∧ Q c s' := by
  induction n generalizing b s with
  | zero => exact absurd hn (Nat.not_lt_zero _)
  | succ n ih =>
    obtain ⟨r, s₁, hr, hq⟩ := hbody b s hs
    cases r with
    | inl b' =>
      rw [loop_succ_inl hr]
      exact ih hq.1 (hq.2.trans_le (Nat.le_of_lt_succ hn))
    | inr c => exact ⟨c, s₁, loop_succ_inr hr, hq⟩

/-- A loop ends when its iterations end and decrease a measure of the cursor. -/
theorem loop_ne_running (μ : β → ℕ) (hrun : ∀ b s, (body b s).1 ≠ .running)
    (hμ : ∀ b s b' s', body b s = (.ret (.inl b'), s') → μ b' < μ b) (hn : μ b < n) :
    (loop body n b s).1 ≠ .running := by
  induction n generalizing b s with
  | zero => exact absurd hn (Nat.not_lt_zero _)
  | succ n ih =>
    rcases hr : body b s with ⟨(b' | c) | _ | _, s₁⟩
    · rw [loop_succ_inl hr]
      exact ih ((hμ b s b' s₁ hr).trans_le (Nat.le_of_lt_succ hn))
    · rw [loop_succ_inr hr]
      exact nofun
    · have hpanic : loop body (n + 1) b s = (.panic, s₁) := bind_of_panic hr
      rw [hpanic]
      exact nofun
    · exact absurd (congrArg Prod.fst hr) (hrun b s)

end Prog
