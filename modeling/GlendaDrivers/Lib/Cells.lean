import GlendaDrivers.Lib.Outcome

/-!
# Programs that act on one cell

The state is seen as a family of cells, of which a program reads and changes one.

* `Prog.ActsOn`: the program returns, with an answer and a change that depend on its cell;
* `ActsOn.comm`: programs on distinct cells commute;
* `ActsOn.mapM`: programs on other cells leave a cell as it was.
-/

namespace Prog

universe u v w

variable {σ α β : Type u} {κ : Type v} {γ : Type w} [DecidableEq κ]

/-- From any state `m` returns an answer that depends on the cell `k` only, and changes this cell
only, by `act`. -/
def ActsOn (view : σ → κ → γ) (k : κ) (ans : γ → α) (act : γ → γ) (m : Prog σ α) : Prop :=
  ∀ s, ∃ s', m s = (.ret (ans (view s k)), s') ∧
    view s' = Function.update (view s) k (act (view s k))

namespace ActsOn

variable {view : σ → κ → γ} {k k' : κ} {ans : γ → α} {ans' : γ → β} {act act' : γ → γ}
  {m : Prog σ α} {m' : Prog σ β}

/-- A program that was run changed its cell. -/
theorem self (h : ActsOn view k ans act m) {s s' : σ} {a : α} (hrun : m s = (.ret a, s')) :
    a = ans (view s k) ∧ view s' k = act (view s k) := by
  obtain ⟨t, ht, hview⟩ := h s
  rw [hrun] at ht
  cases ht
  exact ⟨rfl, by rw [hview, Function.update_self]⟩

/-- A program that was run left the other cells alone. -/
theorem of_ne (h : ActsOn view k ans act m) (hne : k' ≠ k) {s s' : σ} {a : α}
    (hrun : m s = (.ret a, s')) : view s' k' = view s k' := by
  obtain ⟨t, ht, hview⟩ := h s
  rw [hrun] at ht
  cases ht
  rw [hview, Function.update_of_ne hne]

/-- Two programs on distinct cells, one after the other. -/
theorem seq (h : ActsOn view k ans act m) (h' : ActsOn view k' ans' act' m') (hne : k ≠ k')
    (s : σ) : ∃ s', (do let a ← m; let b ← m'; pure (a, b)) s =
      (.ret (ans (view s k), ans' (view s k')), s') ∧
        view s' = Function.update (Function.update (view s) k (act (view s k))) k'
          (act' (view s k')) := by
  obtain ⟨t, hm, ht⟩ := h s
  obtain ⟨s', hm', hs'⟩ := h' t
  have hcell : view t k' = view s k' := by rw [ht, Function.update_of_ne hne.symm]
  rw [hcell] at hm' hs'
  refine ⟨s', ?_, ?_⟩
  · rw [bind_of_ret hm, bind_of_ret hm']
    rfl
  · rw [hs', ht]

/-- Programs on distinct cells commute. -/
theorem comm (hview : Function.Injective view) (h : ActsOn view k ans act m)
    (h' : ActsOn view k' ans' act' m') (hne : k ≠ k') :
    (do let a ← m; let b ← m'; pure (a, b)) = (do let b ← m'; let a ← m; pure (a, b)) := by
  funext s
  obtain ⟨t, hrun, ht⟩ := h.seq h' hne s
  obtain ⟨t', hrun', ht'⟩ := h'.seq h hne.symm s
  have hsame : t = t' := by
    apply hview
    rw [ht, ht', Function.update_comm hne]
  obtain ⟨b, s₁, hm', hrest⟩ := bind_eq_ret.mp hrun'
  obtain ⟨a, s₂, hm, hpure⟩ := bind_eq_ret.mp hrest
  cases hpure
  rw [hrun, bind_of_ret hm', bind_of_ret hm, hsame]
  rfl

/-- A sequence of programs on other cells returns, and leaves a cell as it was. -/
theorem mapM {ι : Type u} {f : ι → Prog σ α} {cell : ι → κ} {ans : ι → γ → α} {act : ι → γ → γ}
    {l : List ι} (h : ∀ i ∈ l, ActsOn view (cell i) (ans i) (act i) (f i))
    (hne : ∀ i ∈ l, cell i ≠ k) (s : σ) :
    ∃ as s', l.mapM f s = (.ret as, s') ∧ view s' k = view s k := by
  have hcall : ∀ i ∈ l, ∀ t c, view t k = c → ∃ a t', f i t = (.ret a, t') ∧ view t' k = c := by
    intro i hi t c ht
    obtain ⟨t', hrun, -⟩ := h i hi t
    exact ⟨_, t', hrun, ((h i hi).of_ne (hne i hi).symm hrun).trans ht⟩
  obtain ⟨as, s', hrun, hs'⟩ := mapM_simulates (R := fun t c => view t k = c) hcall rfl
  exact ⟨as, s', hrun, by rw [hs', List.foldl_fixed]⟩

end ActsOn

end Prog
