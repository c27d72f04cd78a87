import GlendaDrivers.Glenda

/-!
# A ledger of requests and their completions

The requests that a driver fetches are numbered in the order in which they are fetched.  A
request is handed to the driver's submit function, which rejects it or submits it to a queue;
`accepted` has the number of the request at each position of the queue's submission history.

`Ledger` says which calls of `complete` were made for each request so far: none while it waits
or is outstanding, one when it was rejected or its used entry was popped.

A driver that fetches its requests in batches has `Handled` a queue or has left a part of it
behind.  A driver with several queues has one ledger, for the list of all requests that its queues
accepted: `Interleaved`.
-/

namespace GlendaDrivers

/-- The completions posted to a ring server. -/
def postedTo (server : Option IoUringServer) : List (UInt64 × Int32) :=
  (server.map (·.completions)).getD []

/-- The completions that are in `after` and not in `before`, as calls for request `n`. -/
def newCalls (n : ℕ) (before after : List (UInt64 × Int32)) : List (ℕ × UInt64 × Int32) :=
  (after.drop before.length).map fun c => (n, c)

@[simp] theorem newCalls_self (n : ℕ) (cs : List (UInt64 × Int32)) : newCalls n cs cs = [] := by
  simp [newCalls]

@[simp] theorem newCalls_append (n : ℕ) (cs : List (UInt64 × Int32)) (c : UInt64 × Int32) :
    newCalls n cs (cs ++ [c]) = [(n, c)] := by
  simp [newCalls]

/-- A call of `complete` posts one completion. -/
theorem postedTo_complete {server : IoUringServer} {s' : Option IoUringServer} {userData : UInt64}
    {result : Int32} (h : s' = some (server.complete userData result)) :
    postedTo s' = postedTo (some server) ++ [(userData, result)] := by
  rw [h]
  rfl

/-- The calls of `complete` for request `n`. -/
def callsOf (calls : List (ℕ × UInt64 × Int32)) (n : ℕ) : List (UInt64 × Int32) :=
  (calls.filter fun c => c.1 == n).map Prod.snd

@[simp] theorem callsOf_nil (n : ℕ) : callsOf [] n = [] := rfl

@[simp] theorem callsOf_append (calls calls' : List (ℕ × UInt64 × Int32)) (n : ℕ) :
    callsOf (calls ++ calls') n = callsOf calls n ++ callsOf calls' n := by
  simp [callsOf]

@[simp] theorem callsOf_self (n : ℕ) (c : UInt64 × Int32) : callsOf [(n, c)] n = [c] := by
  simp [callsOf]

theorem callsOf_of_ne {m n : ℕ} (h : m ≠ n) (c : UInt64 × Int32) : callsOf [(m, c)] n = [] := by
  simp [callsOf, h]

/-- The calls agree with the requests' fates.  The positions `popped` of the submission history
have been popped, with the result `result pos`. -/
structure Ledger (fetched : List Sqe) (handed : ℕ) (accepted popped : List ℕ)
    (result : ℕ → Option Int32) (calls : List (ℕ × UInt64 × Int32)) : Prop where
  handed_le : handed ≤ fetched.length
  nodup : accepted.Nodup
  lt : ∀ n ∈ accepted, n < handed
  calls_lt : ∀ c ∈ calls, c.1 < handed
  popped_lt : ∀ pos ∈ popped, pos < accepted.length
  rejected : ∀ n sqe, fetched[n]? = some sqe → n < handed → n ∉ accepted →
    callsOf calls n = [(sqe.userData, -1)]
  pending : ∀ pos n, accepted[pos]? = some n → pos ∉ popped → callsOf calls n = []
  done : ∀ pos n sqe, accepted[pos]? = some n → fetched[n]? = some sqe → pos ∈ popped →
    ∃ v, result pos = some v ∧ callsOf calls n = [(sqe.userData, v)]

namespace Ledger

variable {fetched : List Sqe} {handed n pos : ℕ} {accepted popped : List ℕ}
  {result result' : ℕ → Option Int32} {calls : List (ℕ × UInt64 × Int32)} {sqe : Sqe}

/-- Nothing was fetched. -/
theorem empty (result : ℕ → Option Int32) : Ledger [] 0 [] [] result [] where
  handed_le := le_rfl
  nodup := List.nodup_nil
  lt := by simp
  calls_lt := by simp
  popped_lt := by simp
  rejected := by simp
  pending := by simp
  done := by simp

/-- There are no calls for a request that was not handed on. -/
theorem waiting (h : Ledger fetched handed accepted popped result calls) (hn : handed ≤ n) :
    callsOf calls n = [] := by
  rw [callsOf, List.map_eq_nil_iff, List.filter_eq_nil_iff]
  intro c hc he
  rw [beq_iff_eq] at he
  exact absurd (h.calls_lt c hc) (by omega)

/-- Requests that were fetched earlier keep their numbers. -/
theorem getElem?_of_lt (h : Ledger fetched handed accepted popped result calls) (hn : n < handed)
    (more : List Sqe) : (fetched ++ more)[n]? = fetched[n]? :=
  List.getElem?_append_left (hn.trans_le h.handed_le)

/-- More requests are fetched. -/
theorem fetch (h : Ledger fetched handed accepted popped result calls) (more : List Sqe) :
    Ledger (fetched ++ more) handed accepted popped result calls :=
  { h with
    handed_le := h.handed_le.trans (by simp)
    rejected := fun n sqe hget hn hna =>
      h.rejected n sqe (h.getElem?_of_lt hn more ▸ hget) hn hna
    done := fun pos n sqe hacc hget hpos =>
      h.done pos n sqe hacc (h.getElem?_of_lt (h.lt n (List.mem_of_getElem? hacc)) more ▸ hget)
        hpos }

/-- A result, once it is known, stays. -/
theorem mono (h : Ledger fetched handed accepted popped result calls)
    (hr : ∀ pos ∈ popped, result' pos = result pos) :
    Ledger fetched handed accepted popped result' calls :=
  { h with
    done := fun pos n sqe hacc hget hpos => by
      rw [hr pos hpos]
      exact h.done pos n sqe hacc hget hpos }

/-- The next request is submitted. -/
theorem accept (h : Ledger fetched handed accepted popped result calls)
    (hget : fetched[handed]? = some sqe) :
    Ledger fetched (handed + 1) (accepted ++ [handed]) popped result calls where
  handed_le := (List.getElem?_eq_some_iff.1 hget).1
  nodup := by
    rw [List.nodup_append]
    refine ⟨h.nodup, by simp, fun a ha b hb => ?_⟩
    obtain rfl := List.mem_singleton.1 hb
    exact (h.lt a ha).ne
  lt := fun n hn => by
    rcases List.mem_append.1 hn with hn | hn
    · have := h.lt n hn
      omega
    · obtain rfl := List.mem_singleton.1 hn
      omega
  calls_lt := fun c hc => (h.calls_lt c hc).trans (Nat.lt_succ_self _)
  popped_lt := fun pos hpos => by
    rw [List.length_append]
    have := h.popped_lt pos hpos
    omega
  rejected := fun n sqe' hget' hn hna => by
    rw [List.mem_append, not_or, List.mem_singleton] at hna
    exact h.rejected n sqe' hget' (by omega) hna.1
  pending := fun pos n hacc hpos => by
    rcases Nat.lt_or_ge pos accepted.length with hlt | hge
    · rw [List.getElem?_append_left hlt] at hacc
      exact h.pending pos n hacc hpos
    · obtain rfl : n = handed := by
        rw [List.getElem?_append_right hge, List.getElem?_singleton] at hacc
        split at hacc
        · exact (Option.some.inj hacc).symm
        · exact absurd hacc (by simp)
      exact h.waiting le_rfl
  done := fun pos n sqe' hacc hget' hpos => by
    rw [List.getElem?_append_left (h.popped_lt pos hpos)] at hacc
    exact h.done pos n sqe' hacc hget' hpos

/-- The next request is rejected. -/
theorem reject (h : Ledger fetched handed accepted popped result calls)
    (hget : fetched[handed]? = some sqe) :
    Ledger fetched (handed + 1) accepted popped result
      (calls ++ [(handed, sqe.userData, -1)]) := by
  have hne : ∀ n ∈ accepted, callsOf [(handed, sqe.userData, (-1 : Int32))] n = [] := fun n hn =>
    callsOf_of_ne (h.lt n hn).ne' _
  exact
    { handed_le := (List.getElem?_eq_some_iff.1 hget).1
      nodup := h.nodup
      lt := fun n hn => (h.lt n hn).trans (Nat.lt_succ_self _)
      calls_lt := fun c hc => by
        rcases List.mem_append.1 hc with hc | hc
        · exact (h.calls_lt c hc).trans (Nat.lt_succ_self _)
        · obtain rfl := List.mem_singleton.1 hc
          exact Nat.lt_succ_self _
      popped_lt := h.popped_lt
      rejected := fun n sqe' hget' hn hna => by
        rw [callsOf_append]
        by_cases he : n = handed
        · subst he
          obtain rfl := Option.some.inj (hget.symm.trans hget')
          rw [h.waiting le_rfl, callsOf_self, List.nil_append]
        · rw [h.rejected n sqe' hget' (by omega) hna, callsOf_of_ne (Ne.symm he), List.append_nil]
      pending := fun pos n hacc hpos => by
        rw [callsOf_append, h.pending pos n hacc hpos, hne n (List.mem_of_getElem? hacc)]
        rfl
      done := fun pos n sqe' hacc hget' hpos => by
        rw [callsOf_append, hne n (List.mem_of_getElem? hacc), List.append_nil]
        exact h.done pos n sqe' hacc hget' hpos }

/-- The used entry of an outstanding request is popped. -/
theorem pop (h : Ledger fetched handed accepted popped result calls)
    (hacc : accepted[pos]? = some n) (hget : fetched[n]? = some sqe) (hpos : pos ∉ popped)
    {v : Int32} (hv : result pos = some v) :
    Ledger fetched handed accepted (popped ++ [pos]) result
      (calls ++ [(n, sqe.userData, v)]) := by
  have hlt := h.lt n (List.mem_of_getElem? hacc)
  -- another position has another request
  have hinj : ∀ {pos' n' : ℕ}, accepted[pos']? = some n' → pos' ≠ pos → n ≠ n' := by
    rintro pos' n' hacc' hne rfl
    obtain ⟨hl, he⟩ := List.getElem?_eq_some_iff.1 hacc
    obtain ⟨hl', he'⟩ := List.getElem?_eq_some_iff.1 hacc'
    exact hne (h.nodup.getElem_inj_iff.1 (he'.trans he.symm))
  exact
    { handed_le := h.handed_le
      nodup := h.nodup
      lt := h.lt
      calls_lt := fun c hc => by
        rcases List.mem_append.1 hc with hc | hc
        · exact h.calls_lt c hc
        · obtain rfl := List.mem_singleton.1 hc
          exact hlt
      popped_lt := fun pos' hpos' => by
        rcases List.mem_append.1 hpos' with hp | hp
        · exact h.popped_lt pos' hp
        · obtain rfl := List.mem_singleton.1 hp
          exact (List.getElem?_eq_some_iff.1 hacc).1
      rejected := fun n' sqe' hget' hn' hna => by
        have hne : n ≠ n' := by
          rintro rfl
          exact hna (List.mem_of_getElem? hacc)
        rw [callsOf_append, callsOf_of_ne hne, List.append_nil]
        exact h.rejected n' sqe' hget' hn' hna
      pending := fun pos' n' hacc' hpos' => by
        rw [List.mem_append, not_or, List.mem_singleton] at hpos'
        rw [callsOf_append, h.pending pos' n' hacc' hpos'.1,
          callsOf_of_ne (hinj hacc' hpos'.2)]
        rfl
      done := fun pos' n' sqe' hacc' hget' hpos' => by
        by_cases he : pos' = pos
        · subst he
          obtain rfl := Option.some.inj (hacc.symm.trans hacc')
          obtain rfl := Option.some.inj (hget.symm.trans hget')
          exact ⟨v, hv, by rw [callsOf_append, h.pending pos' n hacc hpos, callsOf_self]; rfl⟩
        · have hmem : pos' ∈ popped := by
            rcases List.mem_append.1 hpos' with hp | hp
            · exact hp
            · exact absurd (List.mem_singleton.1 hp) he
          rw [callsOf_append, callsOf_of_ne (hinj hacc' he), List.append_nil]
          exact h.done pos' n' sqe' hacc' hget' hmem }

end Ledger

/-! ### Batches -/

/-- The requests `sq`, of which the first has the number `k`, were all fetched, and each of them
was submitted or completed with an error. -/
def Handled (fetched : List Sqe) (accepted : ℕ → Prop) (calls : List (ℕ × UInt64 × Int32)) (k : ℕ)
    (sq : List Sqe) : Prop :=
  ∀ i sqe, sq[i]? = some sqe → fetched[k + i]? = some sqe ∧
    (accepted (k + i) ∨ callsOf calls (k + i) = [(sqe.userData, -1)])

/-- When at most `m` requests are fetched, those of a longer queue are not all handled. -/
theorem handled_iff {before fetched sq : List Sqe} {accepted : ℕ → Prop}
    {calls : List (ℕ × UInt64 × Int32)} {m : ℕ} (hfetched : fetched = before ++ sq.take m)
    (h : ∀ n sqe, fetched[n]? = some sqe → accepted n ∨ callsOf calls n = [(sqe.userData, -1)]) :
    Handled fetched accepted calls before.length sq ↔ sq.length ≤ m := by
  have hget : ∀ i, fetched[before.length + i]? = (sq.take m)[i]? := by
    intro i
    rw [hfetched, List.getElem?_append_right (Nat.le_add_right _ _), Nat.add_sub_cancel_left]
  constructor
  · intro hall
    by_contra hlt
    -- request number `m` of the queue is not fetched
    have hm : m < sq.length := Nat.lt_of_not_le hlt
    have hnone := (hall m sq[m] (List.getElem?_eq_getElem hm)).1
    rw [hget, List.getElem?_take_eq_none le_rfl] at hnone
    exact nomatch hnone
  · intro hle i sqe hi
    have hfetch : fetched[before.length + i]? = some sqe := by
      rw [hget, List.take_of_length_le hle, hi]
    exact ⟨hfetch, h _ sqe hfetch⟩

/-! ### Several queues -/

/-- The requests that several queues accepted are those of the list `order`: the one at position
`pos` of queue `i` is at position `place i pos`. -/
structure Interleaved {ι : Type*} (accepted popped : ι → List ℕ) (order done : List ℕ)
    (place : ι → ℕ → ℕ) : Prop where
  get : ∀ i pos, pos < (accepted i).length → order[place i pos]? = (accepted i)[pos]?
  mem : ∀ n ∈ order, ∃ i, n ∈ accepted i
  inj : ∀ i j pos pos', pos < (accepted i).length → pos' < (accepted j).length →
    place i pos = place j pos' → i = j ∧ pos = pos'
  done : ∀ i pos, pos < (accepted i).length → (place i pos ∈ done ↔ pos ∈ popped i)

namespace Interleaved

variable {ι : Type*} {accepted popped popped' : ι → List ℕ} {order done : List ℕ}
  {place : ι → ℕ → ℕ} {i : ι} {n pos : ℕ}

/-- No request was accepted. -/
theorem empty : Interleaved (fun _ : ι => []) (fun _ => []) [] [] (fun _ _ => 0) where
  get := by simp
  mem := by simp
  inj := by simp
  done := by simp

theorem place_lt (h : Interleaved accepted popped order done place)
    (hpos : pos < (accepted i).length) : place i pos < order.length := by
  have hget := h.get i pos hpos
  rw [List.getElem?_eq_getElem hpos] at hget
  exact (List.getElem?_eq_some_iff.1 hget).1

/-- A request of a queue is in the list. -/
theorem getElem?_place (h : Interleaved accepted popped order done place)
    (hacc : (accepted i)[pos]? = some n) : order[place i pos]? = some n := by
  rw [h.get i pos (List.getElem?_eq_some_iff.1 hacc).1, hacc]

/-- Queue `i` accepts request `n`. -/
theorem accept [DecidableEq ι] (h : Interleaved accepted popped order done place) (i : ι) (n : ℕ)
    (hdone : ∀ k ∈ done, k < order.length)
    (hpop : ∀ pos ∈ popped i, pos < (accepted i).length) :
    Interleaved (Function.update accepted i (accepted i ++ [n])) popped (order ++ [n]) done
      (Function.update place i (Function.update (place i) (accepted i).length order.length)) := by
  -- a position is an earlier one, or the new one
  have hcases : ∀ j pos, pos < (Function.update accepted i (accepted i ++ [n]) j).length →
      (pos < (accepted j).length ∧ Function.update place i (Function.update (place i)
        (accepted i).length order.length) j pos = place j pos) ∨
      (j = i ∧ pos = (accepted i).length ∧ Function.update place i (Function.update (place i)
        (accepted i).length order.length) j pos = order.length) := by
    intro j pos hpos
    by_cases hj : j = i
    · subst hj
      rw [Function.update_self, List.length_append, List.length_singleton] at hpos
      rw [Function.update_self]
      rcases Nat.lt_succ_iff_lt_or_eq.1 hpos with hlt | rfl
      · exact Or.inl ⟨hlt, Function.update_of_ne hlt.ne _ _⟩
      · exact Or.inr ⟨rfl, rfl, Function.update_self _ _ _⟩
    · rw [Function.update_of_ne hj] at hpos
      exact Or.inl ⟨hpos, by rw [Function.update_of_ne hj]⟩
  refine ⟨fun j pos hpos => ?_, fun m hm => ?_, fun j j' pos pos' hpos hpos' he => ?_,
    fun j pos hpos => ?_⟩
  · rcases hcases j pos hpos with ⟨hlt, he⟩ | ⟨rfl, rfl, he⟩
    · rw [he, List.getElem?_append_left (h.place_lt hlt), h.get j pos hlt]
      by_cases hj : j = i
      · subst hj
        rw [Function.update_self, List.getElem?_append_left hlt]
      · rw [Function.update_of_ne hj]
    · rw [he, Function.update_self]
      simp
  · rcases List.mem_append.1 hm with hm | hm
    · obtain ⟨j, hj⟩ := h.mem m hm
      refine ⟨j, ?_⟩
      by_cases hji : j = i
      · subst hji
        rw [Function.update_self]
        exact List.mem_append_left _ hj
      · rwa [Function.update_of_ne hji]
    · exact ⟨i, by rw [Function.update_self]; exact List.mem_append_right _ hm⟩
  · rcases hcases j pos hpos with ⟨hlt, e⟩ | ⟨rfl, rfl, e⟩ <;>
      rcases hcases j' pos' hpos' with ⟨hlt', e'⟩ | ⟨rfl, rfl, e'⟩
    · exact h.inj j j' pos pos' hlt hlt' (e.symm.trans (he.trans e'))
    · have := h.place_lt hlt
      omega
    · have := h.place_lt hlt'
      omega
    · exact ⟨rfl, rfl⟩
  · rcases hcases j pos hpos with ⟨hlt, e⟩ | ⟨rfl, rfl, e⟩
    · rw [e]
      exact h.done j pos hlt
    · rw [e]
      exact ⟨fun hm => absurd (hdone _ hm) (lt_irrefl _), fun hm => absurd (hpop _ hm)
        (lt_irrefl _)⟩

/-- The request at position `pos` of queue `i` is done. -/
theorem pop (h : Interleaved accepted popped order done place)
    (hpos : pos < (accepted i).length) (hi : popped' i = popped i ++ [pos])
    (hj : ∀ j ≠ i, popped' j = popped j) :
    Interleaved accepted popped' order (done ++ [place i pos]) place :=
  { h with
    done := fun j pos' hpos' => by
      rw [List.mem_append, List.mem_singleton, h.done j pos' hpos']
      by_cases hji : j = i
      · subst hji
        rw [hi, List.mem_append, List.mem_singleton]
        refine or_congr Iff.rfl ⟨fun he => (h.inj j j pos' pos hpos' hpos he).2, fun he => ?_⟩
        rw [he]
      · rw [hj j hji]
        refine ⟨fun hm => hm.resolve_right fun he => hji ?_, Or.inl⟩
        exact (h.inj j i pos' pos hpos' hpos he).1 }

end Interleaved

end GlendaDrivers
