import Mathlib.Tactic

/-!
# Outcomes of imperative code

A call of imperative code returns a value, panics, or is still running when the bound on
its loop iterations is used up.

* `Outcome α`: the three possibilities, a monad in which `panic` and `running` end the call;
* `Prog σ α`: a program over the state `σ`; the state survives a panic;
* `Prog.bind_of_ret`, `Prog.bind_eq_ret`: the runs of a sequence;
* `Prog.mapM_simulates`: the run of a list of calls, against an abstract machine;
* `Prog.Triple`: pre- and postconditions, with a separate condition on the state in which a
  call that does not return is left;
* `Prog.loop`: the unbounded loop, run for a bounded number of iterations, with its
  invariant rule and its variant rule;
* `Prog.Keeps`: a program keeps an invariant, however it ends.
-/

universe u v w

/-- How a call ends. -/
inductive Outcome (α : Type u) where
  | ret (a : α)
  | panic
  | running
  deriving DecidableEq

namespace Outcome

variable {α β γ : Type u}

/-- Continue with the value of a call that returned. -/
protected def bind (x : Outcome α) (f : α → Outcome β) : Outcome β :=
  match x with
  | ret a => f a
  | panic => panic
  | running => running

instance : Monad Outcome where
  pure := ret
  bind := Outcome.bind

@[simp] theorem pure_eq (a : α) : (pure a : Outcome α) = ret a := rfl
@[simp] theorem ret_bind (a : α) (f : α → Outcome β) : (ret a >>= f) = f a := rfl
@[simp] theorem panic_bind (f : α → Outcome β) : ((panic : Outcome α) >>= f) = panic := rfl
@[simp] theorem running_bind (f : α → Outcome β) : ((running : Outcome α) >>= f) = running := rfl

@[simp] theorem map_ret (f : α → β) (a : α) : f <$> ret a = ret (f a) := rfl
@[simp] theorem map_panic (f : α → β) : f <$> (panic : Outcome α) = panic := rfl

/-- A sequence of two calls returns iff both do. -/
theorem bind_eq_ret {x : Outcome α} {f : α → Outcome β} {b : β} :
    (x >>= f) = ret b ↔ ∃ a, x = ret a ∧ f a = ret b := by
  cases x <;> simp

instance : LawfulMonad Outcome := LawfulMonad.mk' Outcome
  (fun x => by cases x <;> rfl) (fun _ _ => rfl) (fun x _ _ => by cases x <;> rfl)

/-- The call returned. -/
def Returns (x : Outcome α) : Prop := ∃ a, x = ret a

end Outcome

/-- A program over the state `σ`. -/
def Prog (σ : Type u) (α : Type u) : Type u := σ → Outcome α × σ

namespace Prog

variable {σ α β γ : Type u}

/-- Run `m`, and go on with `f` if it returns. -/
protected def bind (m : Prog σ α) (f : α → Prog σ β) : Prog σ β := fun s =>
  match m s with
  | (.ret a, s') => f a s'
  | (.panic, s') => (.panic, s')
  | (.running, s') => (.running, s')

instance : Monad (Prog σ) where
  pure a := fun s => (.ret a, s)
  bind := Prog.bind

/-- The current state. -/
def get : Prog σ σ := fun s => (.ret s, s)

/-- Change the state. -/
def modify (f : σ → σ) : Prog σ PUnit := fun s => (.ret ⟨⟩, f s)

/-- Change the state and compute a value. -/
def ofFn (f : σ → α × σ) : Prog σ α := fun s => (.ret (f s).1, (f s).2)

/-- Run `m` if `c` holds. -/
def when (c : Prop) [Decidable c] (m : Prog σ PUnit) : Prog σ PUnit := if c then m else pure ⟨⟩

/-- Panic. -/
def panic : Prog σ α := fun s => (.panic, s)

/-- Give up the loop at hand: it has not ended within its bound. -/
def running : Prog σ α := fun s => (.running, s)

/-- Repeat `body` until it yields a result, for at most `n` iterations. -/
def loop (body : β → Prog σ (β ⊕ γ)) : ℕ → β → Prog σ γ
  | 0, _ => running
  | n + 1, b => body b >>= fun
    | .inl b' => loop body n b'
    | .inr c => pure c

/-- Go on with the value of a call that succeeded; otherwise return its error. -/
def attempt {ε : Type u} (r : Except ε α) (k : α → Prog σ (Except ε β)) : Prog σ (Except ε β) :=
  match r with
  | .error e => pure (.error e)
  | .ok a => k a

@[simp] theorem attempt_ok {ε : Type u} (a : α) (k : α → Prog σ (Except ε β)) :
    attempt (.ok a) k = k a := rfl

@[simp] theorem attempt_error {ε : Type u} (e : ε) (k : α → Prog σ (Except ε β)) :
    attempt (.error e) k = pure (.error e) := rfl

/-- A call that does not touch the state. -/
def ofOutcome (x : Outcome α) : Prog σ α := fun s => (x, s)

/-- A program over a part of the state. -/
def zoom {τ : Type u} (part : σ → τ) (put : τ → σ → σ) (m : Prog τ α) : Prog σ α := fun s =>
  ((m (part s)).1, put (m (part s)).2 s)

/-! ### Runs -/

section Runs

variable {m : Prog σ α} {f : α → Prog σ β} {s s' : σ}

/-- Go on after a call that returned. -/
theorem bind_of_ret {a : α} (h : m s = (.ret a, s')) : (m >>= f) s = f a s' := by
  show Prog.bind m f s = _
  unfold Prog.bind
  rw [h]

/-- A call that has not ended. -/
theorem bind_of_running (h : m s = (.running, s')) : (m >>= f) s = (.running, s') := by
  show Prog.bind m f s = _
  unfold Prog.bind
  rw [h]

/-- A call that panics. -/
theorem bind_of_panic (h : m s = (.panic, s')) : (m >>= f) s = (.panic, s') := by
  show Prog.bind m f s = _
  unfold Prog.bind
  rw [h]

/-- A sequence returns iff both parts do. -/
theorem bind_eq_ret {b : β} {s'' : σ} :
    (m >>= f) s = (.ret b, s'') ↔ ∃ a s', m s = (.ret a, s') ∧ f a s' = (.ret b, s'') := by
  constructor
  · intro h
    have h : Prog.bind m f s = (.ret b, s'') := h
    unfold Prog.bind at h
    rcases hms : m s with ⟨a | _ | _, s'⟩
    · rw [hms] at h
      exact ⟨a, s', rfl, h⟩
    · rw [hms] at h
      simp at h
    · rw [hms] at h
      simp at h
  · rintro ⟨a, s', hm, hf⟩
    rw [bind_of_ret hm, hf]

end Runs

instance : LawfulMonad (Prog σ) := LawfulMonad.mk' (Prog σ)
  (fun m => by
    funext s
    show Prog.bind m (fun a s => (.ret a, s)) s = m s
    unfold Prog.bind
    rcases m s with ⟨_ | _ | _, _⟩ <;> rfl)
  (fun _ _ => rfl)
  (fun m f g => by
    funext s
    show Prog.bind (Prog.bind m f) g s = Prog.bind m (fun a => Prog.bind (f a) g) s
    unfold Prog.bind
    rcases m s with ⟨_ | _ | _, _⟩ <;> rfl)

/-- Calls in a row, each of which keeps the state in step with an abstract one. -/
theorem mapM_simulates {ι : Type v} {τ : Type w} {f : ι → Prog σ α} {R : σ → τ → Prop}
    {step : τ → ι → τ} {l : List ι}
    (h : ∀ i ∈ l, ∀ s t, R s t → ∃ a s', f i s = (.ret a, s') ∧ R s' (step t i)) {s : σ} {t : τ}
    (hs : R s t) : ∃ as s', l.mapM f s = (.ret as, s') ∧ R s' (l.foldl step t) := by
  induction l generalizing s t with
  | nil => exact ⟨[], s, rfl, hs⟩
  | cons i l ih =>
    obtain ⟨a, s₁, hcall, hs₁⟩ := h i List.mem_cons_self s t hs
    obtain ⟨as, s', hrest, hs'⟩ := ih (fun j hj => h j (List.mem_cons_of_mem i hj)) hs₁
    refine ⟨a :: as, s', ?_, hs'⟩
    rw [List.mapM_cons, bind_of_ret hcall, bind_of_ret hrest]
    rfl

/-! ### Triples -/

/-- From a state in `P`, `m` either returns with `Q`, or is left in a state in `F`. -/
def Triple (P : σ → Prop) (m : Prog σ α) (Q : α → σ → Prop) (F : σ → Prop) : Prop :=
  ∀ s, P s → match m s with
    | (.ret a, s') => Q a s'
    | (.panic, s') => F s'
    | (.running, s') => F s'

variable {P P' : σ → Prop} {Q Q' : α → σ → Prop} {R : β → σ → Prop} {F F' : σ → Prop}

theorem Triple.pure (a : α) (h : ∀ s, P s → Q a s) : Triple P (pure a : Prog σ α) Q F := h

theorem Triple.modify {f : σ → σ} {Q : PUnit → σ → Prop} (h : ∀ s, P s → Q ⟨⟩ (f s)) :
    Triple P (Prog.modify f) Q F := h

theorem Triple.get {Q : σ → σ → Prop} (h : ∀ s, P s → Q s s) :
    Triple P (Prog.get : Prog σ σ) Q F := h

theorem Triple.ofFn {f : σ → α × σ} (h : ∀ s, P s → Q (f s).1 (f s).2) :
    Triple P (Prog.ofFn f) Q F := h

theorem Triple.panic (h : ∀ s, P s → F s) : Triple P (Prog.panic : Prog σ α) Q F := h

theorem Triple.running (h : ∀ s, P s → F s) : Triple P (Prog.running : Prog σ α) Q F := h

theorem Triple.bind {m : Prog σ α} {f : α → Prog σ β} (hm : Triple P m Q F)
    (hf : ∀ a, Triple (Q a) (f a) R F) : Triple P (m >>= f) R F := by
  intro s hs
  have h := hm s hs
  show match Prog.bind m f s with
    | (.ret a, s') => R a s'
    | (.panic, s') => F s'
    | (.running, s') => F s'
  unfold Prog.bind
  rcases hms : m s with ⟨a | _ | _, s'⟩ <;> rw [hms] at h
  · exact hf a s' h
  · exact h
  · exact h

/-- A postcondition that does not depend on how the call ends. -/
theorem Triple.snd {Q : σ → Prop} {m : Prog σ α} (h : Triple P m (fun _ => Q) Q) {s : σ}
    (hs : P s) : Q (m s).2 := by
  have h := h s hs
  rcases hms : m s with ⟨a | _ | _, s'⟩ <;> rw [hms] at h
  · exact h
  · exact h
  · exact h

/-- Strengthen the precondition, weaken the postconditions. -/
theorem Triple.mono {m : Prog σ α} (h : Triple P m Q F) (hP : ∀ s, P' s → P s)
    (hQ : ∀ a s, Q a s → Q' a s) (hF : ∀ s, F s → F' s) : Triple P' m Q' F' := by
  intro s hs
  have h := h s (hP s hs)
  rcases hms : m s with ⟨a | _ | _, s'⟩ <;> rw [hms] at h
  · exact hQ a s' h
  · exact hF s' h
  · exact hF s' h

theorem Triple.ite {c : Prop} [Decidable c] {m m' : Prog σ α}
    (h : c → Triple P m Q F) (h' : ¬c → Triple P m' Q F) :
    Triple P (if c then m else m') Q F := by
  split_ifs with hc
  · exact h hc
  · exact h' hc

/-- The invariant rule: what every iteration keeps holds when the loop ends, and also if it
has not ended. -/
theorem Triple.loop {body : β → Prog σ (β ⊕ γ)} {I : β → σ → Prop} {Q : γ → σ → Prop}
    (hbody : ∀ b, Triple (I b) (body b) (fun r s => r.elim (fun b' => I b' s) (fun c => Q c s)) F)
    (hF : ∀ b s, I b s → F s) (n : ℕ) (b : β) : Triple (I b) (loop body n b) Q F := by
  induction n generalizing b with
  | zero => exact Triple.running (hF b)
  | succ n ih =>
    refine Triple.bind (hbody b) fun r => ?_
    cases r with
    | inl b' => exact ih b'
    | inr c => exact Triple.pure c fun _ h => h

/-- The variant rule: the bound is not reached when every iteration but the last decreases `μ`,
which is below the bound. -/
theorem Triple.loop_variant {body : β → Prog σ (β ⊕ γ)} {I : β → σ → Prop} {μ : σ → ℕ}
    {Q : γ → σ → Prop}
    (hbody : ∀ b k, Triple (fun s => I b s ∧ μ s = k) (body b)
      (fun r s => r.elim (fun b' => I b' s ∧ μ s < k) (fun c => Q c s)) F) (n : ℕ) (b : β) :
    Triple (fun s => I b s ∧ μ s < n) (Prog.loop body n b) Q F := by
  induction n generalizing b with
  | zero => exact Triple.running fun s h => absurd h.2 (Nat.not_lt_zero _)
  | succ n ih =>
    intro s hs
    refine Triple.bind (hbody b (μ s)) (fun r => ?_) s ⟨hs.1, rfl⟩
    cases r with
    | inl b' =>
      exact (ih b').mono (fun _ h => ⟨h.1, Nat.lt_of_lt_of_le h.2 (Nat.le_of_lt_succ hs.2)⟩)
        (fun _ _ h => h) fun _ h => h
    | inr c => exact Triple.pure c fun _ h => h

/-- A loop over the rest of a list, when the elements `done` are behind. -/
theorem Triple.foldlM_append {f : β → α → Prog σ β} {D : List α → β → σ → Prop} {l done : List α}
    (h : ∀ done a b, a ∈ l → Triple (D done b) (f b a) (D (done ++ [a])) F) (b : β) :
    Triple (D done b) (l.foldlM f b) (D (done ++ l)) F := by
  induction l generalizing done b with
  | nil =>
    rw [List.append_nil]
    exact Triple.pure b fun _ hb => hb
  | cons a l ih =>
    rw [List.foldlM_cons, List.append_cons]
    refine Triple.bind (h done a b List.mem_cons_self) fun b' => ?_
    exact ih (fun done a b ha => h done a b (List.mem_cons_of_mem _ ha)) b'

/-- The rule for a loop over a list, with an invariant about the elements that are behind. -/
theorem Triple.foldlM {f : β → α → Prog σ β} {l : List α} (D : List α → β → σ → Prop)
    (h : ∀ done a b, a ∈ l → Triple (D done b) (f b a) (D (done ++ [a])) F) (b : β) :
    Triple (D [] b) (l.foldlM f b) (D l) F := Triple.foldlM_append h b

/-- The run from one state, when the call always returns. -/
theorem Triple.run {m : Prog σ α} (h : Triple P m Q fun _ => False) {s : σ} (hs : P s) :
    ∃ a s', m s = (.ret a, s') ∧ Q a s' := by
  have h := h s hs
  rcases hm : m s with ⟨a | _ | _, s'⟩ <;> rw [hm] at h
  · exact ⟨a, s', rfl, h⟩
  · exact h.elim
  · exact h.elim

/-! ### Invariants -/

/-- Started in a state in `I`, `m` leaves a state in `I`. -/
def Keeps (I : σ → Prop) (m : Prog σ α) : Prop := Triple I m (fun _ => I) I

variable {I : σ → Prop}

theorem Keeps.snd {m : Prog σ α} (h : Keeps I m) {s : σ} (hs : I s) : I (m s).2 :=
  Triple.snd h hs

theorem Keeps.of_run {m : Prog σ α} (h : Keeps I m) {s s' : σ} {x : Outcome α} (hs : I s)
    (hrun : m s = (x, s')) : I s' := by
  have hsnd := h.snd hs
  rwa [hrun] at hsnd

/-- A call that keeps `I` leaves any weaker condition if it does not return. -/
theorem Keeps.triple {m : Prog σ α} (h : Keeps I m) (hF : ∀ s, I s → F s) :
    Triple I m (fun _ => I) F :=
  h.mono (fun _ h => h) (fun _ _ h => h) hF

theorem Keeps.pure (a : α) : Keeps I (pure a : Prog σ α) := Triple.pure a fun _ h => h

theorem Keeps.panic : Keeps I (Prog.panic : Prog σ α) := Triple.panic fun _ h => h

theorem Keeps.get : Keeps I (Prog.get : Prog σ σ) := Triple.get fun _ h => h

theorem Keeps.modify {f : σ → σ} (h : ∀ s, I s → I (f s)) : Keeps I (Prog.modify f) :=
  Triple.modify h

theorem Keeps.ofFn {f : σ → α × σ} (h : ∀ s, I s → I (f s).2) : Keeps I (Prog.ofFn f) :=
  Triple.ofFn h

theorem Keeps.bind {m : Prog σ α} {f : α → Prog σ β} (hm : Keeps I m) (hf : ∀ a, Keeps I (f a)) :
    Keeps I (m >>= f) := Triple.bind hm hf

theorem Keeps.ite {c : Prop} [Decidable c] {m m' : Prog σ α} (h : Keeps I m) (h' : Keeps I m') :
    Keeps I (if c then m else m') := Triple.ite (fun _ => h) fun _ => h'

theorem Keeps.when {c : Prop} [Decidable c] {m : Prog σ PUnit} (h : Keeps I m) :
    Keeps I (Prog.when c m) := Keeps.ite h (Keeps.pure _)

theorem Keeps.loop {body : β → Prog σ (β ⊕ γ)} (h : ∀ b, Keeps I (body b)) (n : ℕ) (b : β) :
    Keeps I (loop body n b) := by
  refine Triple.loop (I := fun _ => I) (fun b => ?_) (fun _ _ hs => hs) n b
  refine (h b).mono (fun _ hs => hs) (fun r s hs => ?_) fun _ hs => hs
  cases r with
  | inl b' => exact hs
  | inr c => exact hs

/-- A part of the state that `m` leaves alone keeps its properties. -/
theorem Keeps.of_part {τ : Type v} {part : σ → τ} {m : Prog σ α}
    (h : ∀ c, Keeps (part · = c) m) (J : τ → Prop) : Keeps (fun s => J (part s)) m := by
  intro s hs
  refine (h (part s)).mono (fun _ h => h) (fun a s' h => ?_) (fun s' h => ?_) s rfl
  · show J (part s')
    rw [h]
    exact hs
  · show J (part s')
    rw [h]
    exact hs

/-! ### Values -/

/-- Started in a state in `I`, `m` returns a value in `A` and leaves a state in `I`. -/
def Yields (I : σ → Prop) (m : Prog σ α) (A : α → Prop) : Prop :=
  Triple I m (fun a s => A a ∧ I s) fun _ => False

section Yields

variable {A A' : α → Prop} {B : β → Prop} {m : Prog σ α}

theorem Yields.pure {a : α} (h : A a) : Yields I (pure a : Prog σ α) A := fun _ hs => ⟨h, hs⟩

theorem Yields.ofFn {f : σ → α × σ} (h : ∀ s, I s → A (f s).1 ∧ I (f s).2) :
    Yields I (Prog.ofFn f) A := h

theorem Yields.modify {f : σ → σ} (h : ∀ s, I s → I (f s)) :
    Yields I (Prog.modify f) fun _ => True := fun s hs => ⟨trivial, h s hs⟩

theorem Yields.bind {f : α → Prog σ β} (hm : Yields I m A) (hf : ∀ a, A a → Yields I (f a) B) :
    Yields I (m >>= f) B :=
  Triple.bind hm fun a s hs => hf a hs.1 s hs.2

theorem Yields.mono (h : Yields I m A) (hA : ∀ a, A a → A' a) : Yields I m A' :=
  Triple.mono h (fun _ hs => hs) (fun a _ ha => ⟨hA a ha.1, ha.2⟩) fun _ hs => hs

theorem Yields.ite {c : Prop} [Decidable c] {m' : Prog σ α} (h : c → Yields I m A)
    (h' : ¬c → Yields I m' A) : Yields I (if c then m else m') A := Triple.ite h h'

/-- Go on from a value with a postcondition of another kind. -/
theorem Yields.bind_triple {f : α → Prog σ β} (hm : Yields I m A)
    (hf : ∀ a, A a → Triple I (f a) R F) : Triple I (m >>= f) R F :=
  Triple.bind (Triple.mono hm (fun _ hs => hs) (fun _ _ hs => hs) fun _ h => h.elim)
    fun a s hs => hf a hs.1 s hs.2

/-- The run from one state. -/
theorem Yields.run (h : Yields I m A) {s : σ} (hs : I s) :
    ∃ a s', m s = (.ret a, s') ∧ A a ∧ I s' := Triple.run h hs

/-- The rule for a loop over a list, with an invariant about the elements that are behind. -/
theorem Yields.foldlM {f : β → α → Prog σ β} {l : List α} {b : β} (D : List α → β → Prop)
    (h : ∀ done a b, a ∈ l → D done b → Yields I (f b a) (D (done ++ [a]))) (hb : D [] b) :
    Yields I (l.foldlM f b) (D l) := fun s hs =>
  Triple.foldlM (fun done b s => D done b ∧ I s)
    (fun done a b ha s hs => h done a b ha hs.1 s hs.2) b s ⟨hb, hs⟩

end Yields

end Prog
