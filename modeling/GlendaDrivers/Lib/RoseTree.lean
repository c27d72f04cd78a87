import Mathlib.Tactic

/-!
# Trees as lists of entries with a parent index

A tree with a value and a list of children at each node is written as the list of its values in
preorder, each with the index of the entry of its parent.

* `paths`: the addresses of the nodes in preorder, which is their lexicographic order;
* `flat t p i`: the list for `t`, when its root's parent is `p` and its first entry has index `i`;
* `rebuild`: the tree of such a list.  The entries are read from the last to the first, and every
  one is put in front of the children collected for its parent.
-/

universe u v

/-- A tree with a list of children at each node. -/
inductive Rose (α : Type u) : Type u
  | node (value : α) (children : List (Rose α))

namespace Rose

variable {α : Type u} {β : Type v}

/-- The value at the root. -/
def value : Rose α → α
  | node a _ => a

@[simp] theorem value_node (a : α) (ts : List (Rose α)) : (node a ts).value = a := rfl

/-- Induction on a tree together with its lists of children. -/
theorem induction {P : Rose α → Prop} {Q : List (Rose α) → Prop}
    (hnode : ∀ a ts, Q ts → P (node a ts)) (hnil : Q [])
    (hcons : ∀ t ts, P t → Q ts → Q (t :: ts)) : (∀ t, P t) ∧ ∀ ts, Q ts := by
  have htree : ∀ t, P t := fun t => Rose.rec hnode hnil hcons t
  refine ⟨htree, fun ts => ?_⟩
  induction ts with
  | nil => exact hnil
  | cons t ts ih => exact hcons t ts (htree t) ih

mutual
/-- The number of nodes. -/
def size : Rose α → ℕ
  | node _ ts => sizes ts + 1

/-- The number of nodes of a list of trees. -/
def sizes : List (Rose α) → ℕ
  | [] => 0
  | t :: ts => size t + sizes ts
end

mutual
/-- The same tree with `f` of each value. -/
def map (f : α → β) : Rose α → Rose β
  | node a ts => node (f a) (maps f ts)

def maps (f : α → β) : List (Rose α) → List (Rose β)
  | [] => []
  | t :: ts => map f t :: maps f ts
end

/-- The subtree at an address, the numbers of the children on the way from the root. -/
def sub : Rose α → List ℕ → Option (Rose α)
  | t, [] => some t
  | node _ ts, c :: ρ => ts[c]?.bind fun t => sub t ρ

mutual
/-- The addresses of the nodes in preorder. -/
def paths : Rose α → List (List ℕ)
  | node _ ts => [] :: pathsFrom 0 ts

/-- The addresses below a node, from its child number `n` on. -/
def pathsFrom (n : ℕ) : List (Rose α) → List (List ℕ)
  | [] => []
  | t :: ts => (paths t).map (n :: ·) ++ pathsFrom (n + 1) ts
end

mutual
/-- The entries of a tree: the parent's index and the value. -/
def flat : Rose α → ℕ → ℕ → List (ℕ × α)
  | node a ts, p, i => (p, a) :: flats ts i (i + 1)

/-- The entries of a list of trees with a common parent. -/
def flats : List (Rose α) → ℕ → ℕ → List (ℕ × α)
  | [], _, _ => []
  | t :: ts, p, i => flat t p i ++ flats ts p (i + size t)
end

/-- The children that a list of entries, the first with index `i`, gives to each index. -/
def gather : ℕ → List (ℕ × α) → ℕ → List (Rose α)
  | _, [] => fun _ => []
  | i, (p, a) :: l =>
      let found := gather (i + 1) l
      Function.update found p (node a (found i) :: found p)

/-- The tree of a list of entries. -/
def rebuild : List (ℕ × α) → Option (Rose α)
  | [] => none
  | (_, a) :: l => some (node a (gather 1 l 0))

@[simp] theorem gather_nil (i j : ℕ) : gather i ([] : List (ℕ × α)) j = [] := rfl

@[simp] theorem gather_cons (i p : ℕ) (a : α) (l : List (ℕ × α)) :
    gather i ((p, a) :: l) =
      Function.update (gather (i + 1) l) p
        (node a (gather (i + 1) l i) :: gather (i + 1) l p) := rfl

@[simp] theorem size_node (a : α) (ts : List (Rose α)) : size (node a ts) = sizes ts + 1 := by
  rw [size]

@[simp] theorem sizes_nil : sizes ([] : List (Rose α)) = 0 := by rw [sizes]

@[simp] theorem sizes_cons (t : Rose α) (ts : List (Rose α)) :
    sizes (t :: ts) = size t + sizes ts := by
  rw [sizes]

@[simp] theorem flat_node (a : α) (ts : List (Rose α)) (p i : ℕ) :
    flat (node a ts) p i = (p, a) :: flats ts i (i + 1) := by
  rw [flat]

@[simp] theorem flats_nil (p i : ℕ) : flats ([] : List (Rose α)) p i = [] := by rw [flats]

@[simp] theorem flats_cons (t : Rose α) (ts : List (Rose α)) (p i : ℕ) :
    flats (t :: ts) p i = flat t p i ++ flats ts p (i + size t) := by
  rw [flats]

@[simp] theorem paths_node (a : α) (ts : List (Rose α)) :
    paths (node a ts) = [] :: pathsFrom 0 ts := by
  rw [paths]

@[simp] theorem pathsFrom_nil (n : ℕ) : pathsFrom n ([] : List (Rose α)) = [] := by
  rw [pathsFrom]

@[simp] theorem pathsFrom_cons (n : ℕ) (t : Rose α) (ts : List (Rose α)) :
    pathsFrom n (t :: ts) = (paths t).map (n :: ·) ++ pathsFrom (n + 1) ts := by
  rw [pathsFrom]

@[simp] theorem map_node (f : α → β) (a : α) (ts : List (Rose α)) :
    map f (node a ts) = node (f a) (maps f ts) := by
  rw [map]

@[simp] theorem maps_nil (f : α → β) : maps f [] = [] := by rw [maps]

@[simp] theorem maps_cons (f : α → β) (t : Rose α) (ts : List (Rose α)) :
    maps f (t :: ts) = map f t :: maps f ts := by
  rw [maps]

@[simp] theorem sub_nil (t : Rose α) : t.sub [] = some t := by unfold sub; rfl

@[simp] theorem sub_cons (a : α) (ts : List (Rose α)) (c : ℕ) (ρ : List ℕ) :
    (node a ts).sub (c :: ρ) = ts[c]?.bind fun t => sub t ρ := by
  rw [sub]

/-! ## Addresses -/

/-- An address below a node starts with the number of one of its children. -/
theorem mem_pathsFrom {n : ℕ} {ts : List (Rose α)} {ρ : List ℕ} :
    ρ ∈ pathsFrom n ts ↔ ∃ c σ t, ρ = (n + c) :: σ ∧ ts[c]? = some t ∧ σ ∈ t.paths := by
  induction ts generalizing n with
  | nil => simp
  | cons t ts ih =>
    rw [pathsFrom_cons, List.mem_append, List.mem_map, ih]
    constructor
    · rintro (⟨σ, hσ, rfl⟩ | ⟨c, σ, s, rfl, hs, hσ⟩)
      · exact ⟨0, σ, t, rfl, rfl, hσ⟩
      · exact ⟨c + 1, σ, s, by rw [Nat.add_right_comm, Nat.add_assoc], hs, hσ⟩
    · rintro ⟨c, σ, s, rfl, hs, hσ⟩
      cases c with
      | zero =>
        cases hs
        exact .inl ⟨σ, hσ, rfl⟩
      | succ c => exact .inr ⟨c, σ, s, by rw [Nat.add_right_comm, Nat.add_assoc], hs, hσ⟩

/-- The addresses are those of the subtrees. -/
theorem mem_paths {t : Rose α} {ρ : List ℕ} : ρ ∈ t.paths ↔ (t.sub ρ).isSome := by
  induction ρ generalizing t with
  | nil =>
    obtain ⟨a, ts⟩ := t
    simp
  | cons c ρ ih =>
    obtain ⟨a, ts⟩ := t
    rw [paths_node, List.mem_cons, mem_pathsFrom, sub_cons]
    constructor
    · rintro (h | ⟨c', σ, s, h, hs, hσ⟩)
      · exact absurd h (List.cons_ne_nil _ _)
      · rw [Nat.zero_add] at h
        obtain ⟨rfl, rfl⟩ := List.cons.inj h
        rw [hs]
        exact ih.1 hσ
    · intro h
      obtain ⟨s, hs⟩ := Option.isSome_iff_exists.1 (Option.isSome_of_isSome_bind h)
      rw [hs] at h
      exact .inr ⟨c, ρ, s, by rw [Nat.zero_add], hs, ih.2 h⟩

/-- Preorder is the lexicographic order of the addresses. -/
theorem paths_sorted :
    (∀ t : Rose α, t.paths.Pairwise (· < ·)) ∧
      ∀ (ts : List (Rose α)) (n : ℕ), (pathsFrom n ts).Pairwise (· < ·) := by
  apply induction
  case hnode =>
    intro a ts ih
    rw [paths_node, List.pairwise_cons]
    refine ⟨fun ρ hρ => ?_, ih 0⟩
    obtain ⟨c, σ, s, rfl, -, -⟩ := mem_pathsFrom.1 hρ
    exact List.nil_lt_cons _ _
  case hnil =>
    intro n
    rw [pathsFrom_nil]
    exact List.Pairwise.nil
  case hcons =>
    intro t ts iht ih n
    rw [pathsFrom_cons, List.pairwise_append, List.pairwise_map]
    refine ⟨iht.imp fun h => List.cons_lt_cons_iff.2 (.inr ⟨rfl, h⟩), ih (n + 1), ?_⟩
    intro ρ hρ σ hσ
    obtain ⟨ρ, -, rfl⟩ := List.mem_map.1 hρ
    obtain ⟨c, σ, s, rfl, -, -⟩ := mem_pathsFrom.1 hσ
    exact List.cons_lt_cons_iff.2 (.inl (by omega))

theorem length_paths :
    (∀ t : Rose α, t.paths.length = t.size) ∧
      ∀ (ts : List (Rose α)) (n : ℕ), (pathsFrom n ts).length = sizes ts := by
  apply induction
  case hnode =>
    intro a ts ih
    rw [paths_node, size_node, List.length_cons, ih]
  case hnil =>
    intro n
    rfl
  case hcons =>
    intro t ts iht ih n
    rw [pathsFrom_cons, sizes_cons, List.length_append, List.length_map, iht, ih]

/-! ## Entries -/

theorem length_flat :
    (∀ (t : Rose α) (p i : ℕ), (t.flat p i).length = t.size) ∧
      ∀ (ts : List (Rose α)) (p i : ℕ), (flats ts p i).length = sizes ts := by
  apply induction
  case hnode =>
    intro a ts ih p i
    rw [flat_node, size_node, List.length_cons, ih]
  case hnil =>
    intro p i
    rfl
  case hcons =>
    intro t ts iht ih p i
    rw [flats_cons, sizes_cons, List.length_append, iht, ih]

/-- Entry `k` has the value at address `k`. -/
theorem flat_values :
    (∀ (t : Rose α) (p i : ℕ),
      (t.flat p i).map (fun e => some e.2) = t.paths.map fun ρ => (t.sub ρ).map value) ∧
      ∀ (ts : List (Rose α)) (a : α) (us : List (Rose α)) (p i : ℕ),
        (flats ts p i).map (fun e => some e.2) =
          (pathsFrom us.length ts).map fun ρ => ((node a (us ++ ts)).sub ρ).map value := by
  apply induction
  case hnode =>
    intro a ts ih p i
    rw [flat_node, paths_node, List.map_cons, List.map_cons, ih a [] i (i + 1)]
    rfl
  case hnil =>
    intro a us p i
    rfl
  case hcons =>
    intro t ts iht ih a us p i
    have hrest := ih a (us ++ [t]) p (i + size t)
    rw [List.append_assoc, List.singleton_append, List.length_append, List.length_singleton]
      at hrest
    rw [flats_cons, pathsFrom_cons, List.map_append, List.map_append, List.map_map, iht, hrest]
    congr 1
    apply List.map_congr_left
    intro ρ _
    simp

/-- An entry's parent is the given one when it is the first, or else the earlier entry one step up
in the tree. -/
theorem flat_parent :
    (∀ (t : Rose α) (p i k q : ℕ) (a : α), (t.flat p i)[k]? = some (q, a) →
      k = 0 ∧ q = p ∨
        ∃ ρ c j, t.paths[k]? = some (ρ ++ [c]) ∧ t.paths[j]? = some ρ ∧ j < k ∧ q = i + j) ∧
      ∀ (ts : List (Rose α)) (p i n k q : ℕ) (a : α), (flats ts p i)[k]? = some (q, a) →
        (∃ c, (pathsFrom n ts)[k]? = some [c]) ∧ q = p ∨
          ∃ ρ c j, (pathsFrom n ts)[k]? = some (ρ ++ [c]) ∧ (pathsFrom n ts)[j]? = some ρ ∧
            j < k ∧ q = i + j := by
  apply induction
  case hnode =>
    intro a ts ih p i k q b h
    rw [flat_node] at h
    cases k with
    | zero =>
      cases h
      exact .inl ⟨rfl, rfl⟩
    | succ k =>
      rw [List.getElem?_cons_succ] at h
      rw [paths_node, List.getElem?_cons_succ]
      obtain ⟨⟨c, hk⟩, rfl⟩ | ⟨ρ, c, j, hk, hj, hjk, rfl⟩ := ih i (i + 1) 0 k q b h
      · exact .inr ⟨[], c, 0, hk, rfl, Nat.succ_pos k, rfl⟩
      · exact .inr ⟨ρ, c, j + 1, hk, by rw [List.getElem?_cons_succ, hj],
          Nat.succ_lt_succ hjk, by omega⟩
  case hnil =>
    intro p i n k q a h
    rw [flats_nil, List.getElem?_nil] at h
    exact absurd h (by simp)
  case hcons =>
    intro t ts iht ih p i n k q a h
    have hlen := length_flat.1 t p i
    have hpaths : ((paths t).map (n :: ·)).length = t.size := by
      rw [List.length_map, length_paths.1]
    rw [flats_cons] at h
    rw [pathsFrom_cons]
    by_cases hk : k < t.size
    · -- the entry belongs to the first tree
      rw [List.getElem?_append_left (by omega)] at h
      rw [List.getElem?_append_left (by omega), List.getElem?_map]
      obtain ⟨rfl, rfl⟩ | ⟨ρ, c, j, hk', hj, hjk, rfl⟩ := iht p i k q a h
      · obtain ⟨b, us⟩ := t
        exact .inl ⟨⟨n, by rw [paths_node]; rfl⟩, rfl⟩
      · refine .inr ⟨n :: ρ, c, j, by rw [hk']; rfl, ?_, hjk, rfl⟩
        rw [List.getElem?_append_left (by omega), List.getElem?_map, hj]
        rfl
    · -- the entry belongs to a later tree
      rw [List.getElem?_append_right (by omega), hlen] at h
      rw [List.getElem?_append_right (by omega), hpaths]
      obtain ⟨hc, rfl⟩ | ⟨ρ, c, j, hk', hj, hjk, rfl⟩ := ih p (i + t.size) (n + 1) _ q a h
      · exact .inl ⟨hc, rfl⟩
      · refine .inr ⟨ρ, c, t.size + j, hk', ?_, by omega, by omega⟩
        rw [List.getElem?_append_right (by omega), hpaths, Nat.add_sub_cancel_left, hj]

/-! ## The way back -/

/-- What the entries of a tree add to the children gathered from the entries behind them, when
none of these names a node of the tree. -/
theorem gather_flat :
    (∀ (t : Rose α) (p i : ℕ) (l : List (ℕ × α)), p < i →
      (∀ j, i ≤ j → j < i + t.size → gather (i + t.size) l j = []) →
      ∀ j, j < i ∨ i + t.size ≤ j → gather i (t.flat p i ++ l) j =
        if j = p then t :: gather (i + t.size) l j else gather (i + t.size) l j) ∧
      ∀ (ts : List (Rose α)) (p i : ℕ) (l : List (ℕ × α)), p < i →
        (∀ j, i ≤ j → j < i + sizes ts → gather (i + sizes ts) l j = []) →
        ∀ j, j < i ∨ i + sizes ts ≤ j → gather i (flats ts p i ++ l) j =
          if j = p then ts ++ gather (i + sizes ts) l j else gather (i + sizes ts) l j := by
  apply induction
  case hnode =>
    intro a ts ih p i l hp hnone j hj
    have hend : i + (node a ts).size = i + 1 + sizes ts := by rw [size_node]; omega
    rw [hend] at hnone hj ⊢
    have hgather := ih i (i + 1) l (Nat.lt_succ_self i)
      fun j h h' => hnone j (Nat.le_of_succ_le h) h'
    have hself : gather (i + 1) (flats ts i (i + 1) ++ l) i = ts := by
      rw [hgather i (.inl (Nat.lt_succ_self i)), if_pos rfl, hnone i (le_refl i) (by omega),
        List.append_nil]
    have hother : ∀ j, j ≠ i → j < i ∨ i + 1 + sizes ts ≤ j →
        gather (i + 1) (flats ts i (i + 1) ++ l) j = gather (i + 1 + sizes ts) l j := by
      intro j hne hj
      rw [hgather j (by omega), if_neg hne]
    rw [flat_node, List.cons_append, gather_cons, hself, hother p (by omega) (.inl hp)]
    by_cases h : j = p
    · subst j
      rw [Function.update_self, if_pos rfl]
    · rw [Function.update_of_ne h, hother j (by omega) hj, if_neg h]
  case hnil =>
    intro p i l _ _ j _
    rw [sizes_nil, Nat.add_zero, flats_nil, List.nil_append, List.nil_append, ite_self]
  case hcons =>
    intro t ts iht ih p i l hp hnone j hj
    have hend : i + sizes (t :: ts) = i + t.size + sizes ts := by rw [sizes_cons]; omega
    rw [hend] at hnone hj ⊢
    have hrest := ih p (i + t.size) l (by omega) fun j h h' => hnone j (by omega) h'
    rw [flats_cons, List.append_assoc, iht p i _ hp ?_ j (by omega), hrest j (by omega)]
    · by_cases h : j = p
      · rw [if_pos h, if_pos h, if_pos h, List.cons_append]
      · rw [if_neg h, if_neg h, if_neg h]
    · intro j h h'
      rw [hrest j (.inl h'), if_neg (by omega)]
      exact hnone j h (by omega)

/-- The tree is read back from its entries alone. -/
theorem rebuild_flat (t : Rose α) (p : ℕ) : rebuild (t.flat p 0) = some t := by
  obtain ⟨a, ts⟩ := t
  have h := gather_flat.2 ts 0 1 [] Nat.one_pos (fun _ _ _ => rfl) 0 (.inl Nat.one_pos)
  rw [List.append_nil, if_pos rfl] at h
  rw [flat_node, rebuild, h, gather_nil, List.append_nil]

/-- Mapping the values of the entries maps those of the tree. -/
theorem flat_map (f : α → β) :
    (∀ (t : Rose α) (p i : ℕ), (t.map f).flat p i = (t.flat p i).map (Prod.map id f)) ∧
      ∀ (ts : List (Rose α)) (p i : ℕ),
        flats (maps f ts) p i = (flats ts p i).map (Prod.map id f) := by
  have hsize : (∀ t : Rose α, (t.map f).size = t.size) ∧
      ∀ ts : List (Rose α), sizes (maps f ts) = sizes ts := by
    apply induction
    case hnode => intro a ts ih; rw [map_node, size_node, size_node, ih]
    case hnil => rw [maps_nil, sizes_nil, sizes_nil]
    case hcons => intro t ts iht ih; rw [maps_cons, sizes_cons, sizes_cons, iht, ih]
  apply induction
  case hnode =>
    intro a ts ih p i
    rw [map_node, flat_node, flat_node, ih]
    rfl
  case hnil =>
    intro p i
    rw [maps_nil, flats_nil, flats_nil, List.map_nil]
  case hcons =>
    intro t ts iht ih p i
    rw [maps_cons, flats_cons, flats_cons, List.map_append, iht, ih, hsize.1]

end Rose
