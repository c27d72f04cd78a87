import GlendaDrivers.Virtio.Traffic

/-!
# The table of pending requests

A driver enters every request that it submits in a table, as the client's `user_data` and the
head of the chain, and takes the entry out when the head comes back in the used ring.

* `someCount`: the number of `Some` entries of a table;
* `PendingInv pending out slot userData`: the entries of the table are the outstanding requests
  `out`, the request at position `k` of the submission history in entry `slot k`.
-/

namespace GlendaDrivers

/-- The number of `Some` entries of a table. -/
def someCount {ι α : Type*} [Fintype ι] (table : ι → Option α) : ℕ :=
  (Finset.univ.filter fun i => (table i).isSome).card

/-- The entries of the table are the outstanding requests. -/
structure PendingInv {ι : Type*} (pending : ι → Option (UInt64 × UInt16)) (out : List Request)
    (slot : ℕ → ι) (userData : ℕ → UInt64) : Prop where
  entry : ∀ r ∈ out, ∃ head, r.chain.head? = some head ∧
    pending (slot r.pos) = some (userData r.pos, head)
  inj : ∀ r ∈ out, ∀ r' ∈ out, slot r.pos = slot r'.pos → r = r'
  occupied : ∀ i, pending i ≠ none → ∃ r ∈ out, slot r.pos = i

namespace PendingInv

variable {ι : Type*} {pending : ι → Option (UInt64 × UInt16)} {out : List Request}
  {slot : ℕ → ι} {userData : ℕ → UInt64}

/-- An empty table. -/
theorem empty (slot : ℕ → ι) (userData : ℕ → UInt64) :
    PendingInv (fun _ => none) [] slot userData :=
  ⟨by simp, by simp, by simp⟩

/-- What an entry says belongs to an outstanding request. -/
theorem eq_some (h : PendingInv pending out slot userData) {i : ι} {info : UInt64 × UInt16}
    (hi : pending i = some info) :
    ∃ r ∈ out, slot r.pos = i ∧ userData r.pos = info.1 ∧ r.chain.head? = some info.2 := by
  obtain ⟨r, hr, rfl⟩ := h.occupied i (by simp [hi])
  obtain ⟨head, hhead, he⟩ := h.entry r hr
  obtain rfl := Option.some.inj (hi.symm.trans he)
  exact ⟨r, hr, rfl, rfl, hhead⟩

/-- The table holds as many entries as there are outstanding requests. -/
theorem someCount_eq [Fintype ι] (h : PendingInv pending out slot userData) (hnd : out.Nodup) :
    someCount pending = out.length := by
  classical
  have hmap : (out.map fun r => slot r.pos).Nodup :=
    List.Nodup.map_on (fun r hr r' hr' he => h.inj r hr r' hr' he) hnd
  have hset : (Finset.univ.filter fun i => (pending i).isSome) =
      (out.map fun r => slot r.pos).toFinset := by
    ext i
    simp only [Finset.mem_filter, Finset.mem_univ, true_and, List.mem_toFinset, List.mem_map]
    constructor
    · intro hi
      exact h.occupied i (Option.isSome_iff_ne_none.1 hi)
    · rintro ⟨r, hr, rfl⟩
      obtain ⟨head, -, he⟩ := h.entry r hr
      simp [he]
  rw [someCount, hset, List.toFinset_card_of_nodup hmap, List.length_map]

/-- Enter a new request in a free entry. -/
theorem insert [DecidableEq ι] (h : PendingInv pending out slot userData) {i : ι} {k : ℕ}
    {ud : UInt64} {chain : List UInt16} {head : UInt16} (hi : pending i = none)
    (hk : k ∉ out.map Request.pos) (hhead : chain.head? = some head) :
    PendingInv (Function.update pending i (some (ud, head))) (out ++ [⟨k, chain⟩])
      (Function.update slot k i) (Function.update userData k ud) := by
  have hslot : ∀ r ∈ out, Function.update slot k i r.pos = slot r.pos := fun r hr =>
    Function.update_of_ne (by rintro rfl; exact hk (List.mem_map_of_mem hr)) _ _
  have hud : ∀ r ∈ out, Function.update userData k ud r.pos = userData r.pos := fun r hr =>
    Function.update_of_ne (by rintro rfl; exact hk (List.mem_map_of_mem hr)) _ _
  have hne : ∀ r ∈ out, slot r.pos ≠ i := by
    rintro r hr rfl
    obtain ⟨x, -, he⟩ := h.entry r hr
    rw [hi] at he
    exact absurd he (by simp)
  refine ⟨fun r hr => ?_, fun r hr r' hr' he => ?_, fun j hj => ?_⟩
  · rcases List.mem_append.1 hr with hr | hr
    · obtain ⟨x, hx, he⟩ := h.entry r hr
      refine ⟨x, hx, ?_⟩
      rw [hslot r hr, hud r hr, Function.update_of_ne (hne r hr), he]
    · obtain rfl := List.mem_singleton.1 hr
      exact ⟨head, hhead, by simp⟩
  · rcases List.mem_append.1 hr with hr | hr <;> rcases List.mem_append.1 hr' with hr' | hr'
    · rw [hslot r hr, hslot r' hr'] at he
      exact h.inj r hr r' hr' he
    · obtain rfl := List.mem_singleton.1 hr'
      rw [hslot r hr, Function.update_self] at he
      exact absurd he (hne r hr)
    · obtain rfl := List.mem_singleton.1 hr
      rw [hslot r' hr', Function.update_self] at he
      exact absurd he.symm (hne r' hr')
    · rw [List.mem_singleton.1 hr, List.mem_singleton.1 hr']
  · by_cases hji : j = i
    · subst hji
      exact ⟨_, List.mem_append_right _ (List.mem_singleton_self _), by simp⟩
    · rw [Function.update_of_ne hji] at hj
      obtain ⟨r, hr, rfl⟩ := h.occupied j hj
      exact ⟨r, List.mem_append_left _ hr, hslot r hr⟩

/-- Take the entry of a request out. -/
theorem erase [DecidableEq ι] (h : PendingInv pending out slot userData) (hnd : out.Nodup)
    {r : Request} (hr : r ∈ out) :
    PendingInv (Function.update pending (slot r.pos) none) (out.erase r) slot userData := by
  have hne : ∀ r' ∈ out.erase r, slot r'.pos ≠ slot r.pos := fun r' hr' he =>
    (hnd.mem_erase_iff.1 hr').1 (h.inj r' (List.mem_of_mem_erase hr') r hr he)
  refine ⟨fun r' hr' => ?_, fun r' hr' r'' hr'' he => ?_, fun i hi => ?_⟩
  · obtain ⟨x, hx, he⟩ := h.entry r' (List.mem_of_mem_erase hr')
    exact ⟨x, hx, by rw [Function.update_of_ne (hne r' hr'), he]⟩
  · exact h.inj r' (List.mem_of_mem_erase hr') r'' (List.mem_of_mem_erase hr'') he
  · by_cases hir : i = slot r.pos
    · subst hir
      simp at hi
    · rw [Function.update_of_ne hir] at hi
      obtain ⟨r', hr', rfl⟩ := h.occupied i hi
      exact ⟨r', hnd.mem_erase_iff.2 ⟨by rintro rfl; exact hir rfl, hr'⟩, rfl⟩

end PendingInv

end GlendaDrivers
