import GlendaDrivers.Virtio.NetRuns

/-!
# The requests of the network driver and their completions

Both queues complete their requests in one ring, so one ledger has the requests of both.

* `Traffic.answers`: the used entries that the driver popped;
* `Books`: the ledger of the requests of both queues, and the results of the popped ones;
* `NetState.Account`: the books agree with the queues;
* `NetState.Account.step`, `run`: every step keeps the account.
-/

namespace GlendaDrivers

open VirtQueue VirtIONet

/-- The used entries that the driver popped. -/
def Traffic.answers (t : Traffic) : List (ℕ × UsedElem) := t.published.take t.pops

theorem Traffic.answers_pop (t : Traffic) (hp : t.pops < t.published.length) :
    t.pop.answers = t.answers ++ [t.published[t.pops]] := (List.take_append_getElem hp).symm

theorem Traffic.answers_publish (t : Traffic) (hp : t.pops ≤ t.published.length) (pos : ℕ)
    (elem : UsedElem) : (t.publish pos elem).answers = t.answers := by
  simp [answers, publish, List.take_append_of_le_length hp]

/-- The ledger of the requests of both queues, of which those at the positions in `answers` are
answered, and their results. -/
structure Books (fetched : List Sqe) (handed : ℕ) (accepted : NetDir → List ℕ)
    (answers : NetDir → List (ℕ × UsedElem)) (calls : List (ℕ × UInt64 × Int32))
    (order done : List ℕ) (place : NetDir → ℕ → ℕ) (result : ℕ → Option Int32) : Prop where
  ledger : Ledger fetched handed order done result calls
  interleaved : Interleaved accepted (fun i => (answers i).map Prod.fst) order done place
  result : ∀ i, ∀ p ∈ answers i, result (place i p.1) = some (resultLen i p.2.len)
  answers_lt : ∀ i, ∀ p ∈ answers i, p.1 < (accepted i).length
  dir : ∀ i n sqe, n ∈ accepted i → fetched[n]? = some sqe → netDir sqe.opcode = some i

namespace Books

variable {fetched : List Sqe} {handed : ℕ} {accepted : NetDir → List ℕ}
  {answers answers' : NetDir → List (ℕ × UsedElem)} {calls : List (ℕ × UInt64 × Int32)}
  {order done : List ℕ} {place : NetDir → ℕ → ℕ} {result : ℕ → Option Int32}
  {i : NetDir} {n pos : ℕ} {sqe : Sqe} {elem : UsedElem}

/-- Nothing was fetched. -/
theorem empty : Books [] 0 (fun _ => []) (fun _ => []) [] [] [] (fun _ _ => 0) fun _ => none where
  ledger := Ledger.empty _
  interleaved := Interleaved.empty
  result := by simp
  answers_lt := by simp
  dir := by simp

/-- An accepted request was handed on before. -/
theorem lt (h : Books fetched handed accepted answers calls order done place result)
    (hn : n ∈ accepted i) : n < handed := by
  obtain ⟨pos, hpos⟩ := List.getElem?_of_mem hn
  exact h.ledger.lt n (List.mem_of_getElem? (h.interleaved.getElem?_place hpos))

theorem exists_sqe (h : Books fetched handed accepted answers calls order done place result)
    (hn : n ∈ accepted i) : ∃ sqe, fetched[n]? = some sqe :=
  ⟨_, List.getElem?_eq_getElem ((h.lt hn).trans_le h.ledger.handed_le)⟩

/-- More requests are fetched. -/
theorem fetch (h : Books fetched handed accepted answers calls order done place result)
    (more : List Sqe) :
    Books (fetched ++ more) handed accepted answers calls order done place result :=
  { h with
    ledger := h.ledger.fetch more
    dir := fun i n sqe hn hget =>
      h.dir i n sqe hn (h.ledger.getElem?_of_lt (h.lt hn) more ▸ hget) }

/-- The next request is submitted to queue `i`. -/
theorem accept (h : Books fetched handed accepted answers calls order done place result)
    (hget : fetched[handed]? = some sqe) (hi : netDir sqe.opcode = some i) :
    ∃ place', Books fetched (handed + 1)
      (Function.update accepted i (accepted i ++ [handed])) answers calls (order ++ [handed]) done
      place' result := by
  refine ⟨_,
    { ledger := h.ledger.accept hget
      interleaved := h.interleaved.accept i handed h.ledger.popped_lt fun pos hpos => ?_
      result := fun j p hp => ?_
      answers_lt := fun j p hp => ?_
      dir := fun j n sqe' hn hget' => ?_ }⟩
  · obtain ⟨p, hp, rfl⟩ := List.mem_map.1 hpos
    exact h.answers_lt i p hp
  · rw [← h.result j p hp]
    by_cases hj : j = i
    · subst hj
      rw [Function.update_self, Function.update_of_ne (h.answers_lt j p hp).ne]
    · rw [Function.update_of_ne hj]
  · have hlt := h.answers_lt j p hp
    by_cases hj : j = i
    · subst hj
      rw [Function.update_self, List.length_append]
      exact Nat.lt_add_right _ hlt
    · rwa [Function.update_of_ne hj]
  · by_cases hj : j = i
    · subst hj
      rw [Function.update_self, List.mem_append, List.mem_singleton] at hn
      rcases hn with hn | rfl
      · exact h.dir j n sqe' hn hget'
      · rwa [← Option.some.inj (hget.symm.trans hget')]
    · rw [Function.update_of_ne hj] at hn
      exact h.dir j n sqe' hn hget'

/-- The next request is rejected. -/
theorem reject (h : Books fetched handed accepted answers calls order done place result)
    (hget : fetched[handed]? = some sqe) :
    Books fetched (handed + 1) accepted answers (calls ++ [(handed, sqe.userData, -1)]) order done
      place result :=
  { h with ledger := h.ledger.reject hget }

/-- The used entry `elem` of the request at position `pos` of queue `i` is popped. -/
theorem pop (h : Books fetched handed accepted answers calls order done place result)
    (hacc : (accepted i)[pos]? = some n) (hget : fetched[n]? = some sqe)
    (hpos : pos ∉ (answers i).map Prod.fst) (hi : answers' i = answers i ++ [(pos, elem)])
    (hj : ∀ j ≠ i, answers' j = answers j) :
    Books fetched handed accepted answers' (calls ++ [(n, sqe.userData, resultLen i elem.len)])
      order (done ++ [place i pos]) place
      (Function.update result (place i pos) (some (resultLen i elem.len))) := by
  have hlt := (List.getElem?_eq_some_iff.1 hacc).1
  have hdone : place i pos ∉ done := fun hm => hpos ((h.interleaved.done i pos hlt).1 hm)
  -- an entry popped before is at another place
  have hne : ∀ j, ∀ p ∈ answers j, place j p.1 ≠ place i pos := by
    intro j p hp he
    obtain ⟨rfl, he'⟩ := h.interleaved.inj j i p.1 pos (h.answers_lt j p hp) hlt he
    exact hpos (he' ▸ List.mem_map_of_mem hp)
  have hcases : ∀ j, ∀ p ∈ answers' j, p ∈ answers j ∨ j = i ∧ p = (pos, elem) := by
    intro j p hp
    by_cases hji : j = i
    · subst hji
      rw [hi, List.mem_append, List.mem_singleton] at hp
      exact hp.imp id fun he => ⟨rfl, he⟩
    · rw [hj j hji] at hp
      exact Or.inl hp
  refine
    { ledger := ?_
      interleaved := ?_
      result := fun j p hp => ?_
      answers_lt := fun j p hp => ?_
      dir := h.dir }
  · refine (h.ledger.mono fun k hk => ?_).pop (h.interleaved.getElem?_place hacc) hget hdone
      (Function.update_self _ _ _)
    rw [Function.update_of_ne]
    rintro rfl
    exact hdone hk
  · refine h.interleaved.pop hlt ?_ fun j hji => ?_
    · rw [hi, List.map_append]
      rfl
    · rw [hj j hji]
  · rcases hcases j p hp with hp | ⟨rfl, rfl⟩
    · rw [Function.update_of_ne (hne j p hp)]
      exact h.result j p hp
    · exact Function.update_self _ _ _
  · rcases hcases j p hp with hp | ⟨rfl, rfl⟩
    · exact h.answers_lt j p hp
    · exact hlt

end Books

namespace NetState

/-- Queue `i` agrees with its outstanding requests, which have the user data of their client. -/
def Served (s : NetState) (i : NetDir) : Prop :=
  ∃ q out held slot userData, NetInv s.net i q (s.traffic i) out held slot userData ∧
    ∀ pos n sqe, (s.accepted i)[pos]? = some n → s.fetched[n]? = some sqe →
      userData pos = sqe.userData

/-- The invariant: the queues and the books agree.  Before the run, the completions `before` had
been posted. -/
structure Account (s : NetState) (before : List (UInt64 × Int32)) : Prop where
  served : ∀ i, s.Served i
  books : ∃ order done place result, Books s.fetched s.handed s.accepted
    (fun i => (s.traffic i).answers) s.calls order done place result
  length : ∀ i, (s.accepted i).length = (s.traffic i).submitted.length
  todo : match s.phase with
    | .submitting sqes => sqes = s.fetched.drop s.handed
    | _ => s.handed = s.fetched.length
  posted : s.net.completions = before ++ s.calls.map Prod.snd
  server : s.fetched ≠ [] → s.net.ringServer ≠ none

variable {s t : NetState} {before : List (UInt64 × Int32)} {i : NetDir} {n : VirtIONet}
  {sqe : Sqe} {todo : List Sqe}

@[simp] theorem setTraffic_self (s : NetState) (i : NetDir) (tr : Traffic) :
    s.setTraffic i tr i = tr := Function.update_self _ _ _

theorem setTraffic_of_ne (s : NetState) {i j : NetDir} (hj : j ≠ i) (tr : Traffic) :
    s.setTraffic i tr j = s.traffic j := Function.update_of_ne hj _ _

/-- What holds of the new traffic of queue `i` and the old traffic of the other queue. -/
theorem forall_setTraffic {p : NetDir → Traffic → Prop} {tr : Traffic} (hi : p i tr)
    (hj : ∀ j ≠ i, p j (s.traffic j)) (j : NetDir) : p j (s.setTraffic i tr j) := by
  by_cases h : j = i
  · subst h
    rwa [setTraffic_self]
  · rw [setTraffic_of_ne s h]
    exact hj j h

theorem Served.intro {q : VirtQueue} {tr : Traffic} {out : List Request} {held : List UInt16}
    {slot : ℕ → Fin 128} {userData : ℕ → UInt64} (h : NetInv s.net i q tr out held slot userData)
    (ht : s.traffic i = tr)
    (hnamed : ∀ pos n sqe, (s.accepted i)[pos]? = some n → s.fetched[n]? = some sqe →
      userData pos = sqe.userData) : s.Served i :=
  ⟨q, out, held, slot, userData, ht.symm ▸ h, hnamed⟩

/-- Nothing is popped from queue `i`. -/
theorem answers_setTraffic {tr : Traffic} (h : tr.answers = (s.traffic i).answers) :
    (fun j => (s.setTraffic i tr j).answers) = fun j => (s.traffic j).answers := by
  funext j
  exact forall_setTraffic (p := fun j tr => tr.answers = (s.traffic j).answers) h
    (fun _ _ => rfl) j

/-- What happens elsewhere does not concern queue `i`. -/
theorem Served.frame (h : s.Served i) (hq : t.net.queue i = s.net.queue i)
    (hp : t.net.pending i = s.net.pending i) (hd : t.net.dmaPaddr = s.net.dmaPaddr)
    (ht : t.traffic i = s.traffic i) (ha : t.accepted i = s.accepted i)
    (hf : ∀ n ∈ s.accepted i, t.fetched[n]? = s.fetched[n]?) : t.Served i := by
  obtain ⟨q, out, held, slot, userData, hinv, hnamed⟩ := h
  refine ⟨q, out, held, slot, userData, ?_, fun pos n sqe hacc hget => ?_⟩
  · rw [ht]
    exact hinv.frame hq hp hd
  · rw [ha] at hacc
    exact hnamed pos n sqe hacc (hf n (List.mem_of_getElem? hacc) ▸ hget)

namespace Account

/-- The system when `init` has returned. -/
theorem start (hn : n.Started) : Account (.start n) n.completions where
  served := fun i => by
    obtain ⟨q, h⟩ := NetInv.start hn i (fun _ => 0) (fun _ => 0)
    exact ⟨q, [], [], _, _, h, by simp [NetState.start]⟩
  books := ⟨_, _, _, _, Books.empty⟩
  length := fun _ => rfl
  todo := rfl
  posted := by simp [NetState.start]
  server := by simp [NetState.start]

/-- The request at hand is the next of the fetched ones. -/
theorem next (h : s.Account before) (hp : s.phase = .submitting (sqe :: todo)) :
    s.fetched[s.handed]? = some sqe ∧ todo = s.fetched.drop (s.handed + 1) := by
  have htodo := h.todo
  rw [hp] at htodo
  have hd : s.fetched.drop s.handed = sqe :: todo := htodo.symm
  constructor
  · rw [← List.head?_drop, hd]
    rfl
  · rw [← List.tail_drop, hd]
    rfl

/-- There is a ring server as soon as a request was fetched. -/
theorem exists_server (h : s.Account before) {n : ℕ} (hn : s.fetched[n]? = some sqe) :
    ∃ server, s.net.ringServer = some server := by
  refine Option.ne_none_iff_exists'.1 (h.server ?_)
  intro he
  simp [he] at hn

/-- Steps that leave the queues and the history alone. -/
theorem congr (h : s.Account before) (hq : n.queue = s.net.queue)
    (hp : n.pending = s.net.pending) (hd : n.dmaPaddr = s.net.dmaPaddr)
    (hc : n.completions = s.net.completions) (hr : s.net.ringServer ≠ none → n.ringServer ≠ none) :
    Account { s with net := n } before :=
  { h with
    served := fun i =>
      (h.served i).frame (congrFun hq i) (congrFun hp i) hd rfl rfl fun _ _ => rfl
    posted := hc.trans h.posted
    server := fun hne => hr (h.server hne) }

/-- `handle_ring` fetches requests. -/
theorem fetch (h : s.Account before) {server : IoUringServer} (hp : s.phase = .idle)
    (hs : s.net.ringServer = some server) :
    Account { s with
      net := { s.net with ringServer := some (server.fetch 16).2 }
      phase := .submitting (server.fetch 16).1
      fetched := s.fetched ++ (server.fetch 16).1 } before := by
  obtain ⟨order, done, place, result, hbooks⟩ := h.books
  have hc : ({ s.net with ringServer := some (server.fetch 16).2 } : VirtIONet).completions =
      s.net.completions := by
    simp [completions, postedTo, hs, IoUringServer.fetch_eq 16 server]
  have htodo := h.todo
  rw [hp] at htodo
  have htodo : s.handed = s.fetched.length := htodo
  exact
    { served := fun i => (h.served i).frame rfl rfl rfl rfl rfl fun n hn =>
        hbooks.ledger.getElem?_of_lt (hbooks.lt hn) _
      books := ⟨order, done, place, result, hbooks.fetch _⟩
      length := h.length
      todo := by simp [htodo]
      posted := hc.trans h.posted
      server := fun _ => by simp }

/-- A request is submitted. -/
theorem accept (h : s.Account before) {q q' : VirtQueue} (hp : s.phase = .submitting (sqe :: todo))
    (hn : s.net.submitSqe sqe = .ret (.ok (), n)) (hi : netDir sqe.opcode = some i)
    (hq : s.net.queue i = some q) (hq' : n.queue i = some q') :
    Account { s with
      net := n
      phase := .submitting todo
      traffic := s.setTraffic i ((s.traffic i).submit (q'.readAvail q.mem.availIdx))
      handed := s.handed + 1
      accepted := Function.update s.accepted i (s.accepted i ++ [s.handed])
      calls := s.calls ++ newCalls s.handed s.net.completions n.completions } before := by
  obtain ⟨hget, htodo⟩ := h.next hp
  rw [submitSqe_eq hi] at hn
  obtain ⟨order, done, place, result, hbooks⟩ := h.books
  obtain ⟨q₀, out, held, slot, userData, hinv, hnamed⟩ := h.served i
  obtain rfl : q₀ = q := Option.some.inj (hinv.queue.symm.trans hq)
  rcases hinv.submit_cases sqe with ⟨-, hsub⟩ | ⟨e, q₁, lost, -, -, hsub, -⟩ |
    ⟨d1, d2, rest, paddr, hids, hd⟩
  · simp [hsub] at hn
  · simp [hsub] at hn
  obtain ⟨q₁, idx, hsub, havail, -, -, -, hinv'⟩ := hinv.submit_ok hids hd
  obtain ⟨-, rfl⟩ := Prod.mk.inj (Outcome.ret.inj (hsub.symm.trans hn))
  obtain rfl : q₁ = q' := Option.some.inj ((entered_queue _ _ _ _ _ _).symm.trans hq')
  have hcomp : (s.net.entered i q₁ sqe d1 idx).completions = s.net.completions := rfl
  rw [hcomp, newCalls_self, List.append_nil, havail]
  obtain ⟨place', hbooks'⟩ := hbooks.accept hget hi
  refine
    { served := fun j => ?_
      books := ⟨order ++ [s.handed], done, place', result, ?_⟩
      length := fun j => ?_
      todo := htodo
      posted := h.posted
      server := h.server }
  · by_cases hj : j = i
    · subst hj
      refine Served.intro hinv' (setTraffic_self s j _) fun pos n sqe' hacc hget' => ?_
      have hacc : (Function.update s.accepted j (s.accepted j ++ [s.handed]) j)[pos]? = some n :=
        hacc
      rw [Function.update_self] at hacc
      rcases Nat.lt_or_ge pos (s.accepted j).length with hlt | hge
      · rw [List.getElem?_append_left hlt] at hacc
        rw [Function.update_of_ne (by rw [← h.length j]; omega)]
        exact hnamed pos n sqe' hacc hget'
      · have hlt := (List.getElem?_eq_some_iff.1 hacc).1
        rw [List.length_append, List.length_singleton] at hlt
        obtain rfl : pos = (s.accepted j).length := by omega
        obtain rfl : s.handed = n := by simpa using hacc
        rw [h.length j, Function.update_self]
        exact congrArg Sqe.userData (Option.some.inj (hget.symm.trans hget'))
    · exact (h.served j).frame (Function.update_of_ne hj _ _) (Function.update_of_ne hj _ _) rfl
        (setTraffic_of_ne s hj _) (Function.update_of_ne hj _ _) fun _ _ => rfl
  · show Books _ _ _ (fun j => (s.setTraffic i ((s.traffic i).submit d1) j).answers) _ _ _ _ _
    rw [answers_setTraffic (by rfl)]
    exact hbooks'
  · show (Function.update s.accepted i _ j).length = (s.setTraffic i _ j).submitted.length
    by_cases hj : j = i
    · subst hj
      rw [setTraffic_self, Function.update_self, Traffic.submit, List.length_append,
        List.length_append, h.length j]
      rfl
    · rw [setTraffic_of_ne s hj, Function.update_of_ne hj]
      exact h.length j

/-- A request is rejected. -/
theorem reject (h : s.Account before) {e : VirtIOError}
    (hp : s.phase = .submitting (sqe :: todo)) (hn : s.net.submitSqe sqe = .ret (.error e, n)) :
    Account { s with
      net := n.complete sqe.userData (-1)
      phase := .submitting todo
      handed := s.handed + 1
      calls := s.calls ++
        newCalls s.handed s.net.completions (n.complete sqe.userData (-1)).completions }
      before := by
  obtain ⟨hget, htodo⟩ := h.next hp
  obtain ⟨server, hserver⟩ := h.exists_server hget
  obtain ⟨order, done, place, result, hbooks⟩ := h.books
  -- what is common to all rejections
  have main : n.ringServer = s.net.ringServer →
      (∀ j, Served { s with net := n.complete sqe.userData (-1) } j) → Account { s with
        net := n.complete sqe.userData (-1)
        phase := .submitting todo
        handed := s.handed + 1
        calls := s.calls ++
          newCalls s.handed s.net.completions (n.complete sqe.userData (-1)).completions }
        before := by
    intro hr hserved
    have hcomp : (n.complete sqe.userData (-1)).completions =
        s.net.completions ++ [(sqe.userData, -1)] := by
      rw [VirtIONet.completions, VirtIONet.completions, hserver]
      exact postedTo_complete (by simp [complete, hr, hserver])
    rw [hcomp, newCalls_append]
    exact
      { served := hserved
        books := ⟨order, done, place, result, hbooks.reject hget⟩
        length := h.length
        todo := htodo
        posted := by
          show (n.complete sqe.userData (-1)).completions = _
          rw [hcomp, h.posted]
          simp
        server := fun _ => by simp [complete, hr, hserver] }
  cases hi : netDir sqe.opcode with
  | none =>
    rw [submitSqe_none hi] at hn
    obtain ⟨-, rfl⟩ := Prod.mk.inj (Outcome.ret.inj hn)
    exact main rfl fun j => (h.served j).frame rfl rfl rfl rfl rfl fun _ _ => rfl
  | some i =>
    rw [submitSqe_eq hi] at hn
    obtain ⟨q, out, held, slot, userData, hinv, hnamed⟩ := h.served i
    rcases hinv.submit_cases sqe with ⟨-, hsub⟩ | ⟨e', q', lost, -, -, hsub, -, -, hinv'⟩ |
      ⟨d1, d2, rest, paddr, hids, hd⟩
    · obtain ⟨-, rfl⟩ := Prod.mk.inj (Outcome.ret.inj (hsub.symm.trans hn))
      exact main rfl fun j => (h.served j).frame rfl rfl rfl rfl rfl fun _ _ => rfl
    · obtain ⟨-, rfl⟩ := Prod.mk.inj (Outcome.ret.inj (hsub.symm.trans hn))
      refine main rfl fun j => ?_
      by_cases hj : j = i
      · subst hj
        exact Served.intro (hinv'.frame rfl rfl rfl) rfl hnamed
      · exact (h.served j).frame (Function.update_of_ne hj _ _) rfl rfl rfl rfl fun _ _ => rfl
    · obtain ⟨q', idx, hsub, -⟩ := hinv.submit_ok hids hd
      simp [hsub] at hn

/-- A popped entry completes the request that it answers. -/
theorem pop (h : s.Account before) (hp : s.phase = .popping i)
    (hn : s.net.popCompletion i = .ret (true, n)) :
    Account { s with
      net := n
      traffic := s.setTraffic i (s.traffic i).pop
      calls := s.calls ++ newCalls (s.answered i) s.net.completions n.completions } before := by
  obtain ⟨order, done, place, result, hbooks⟩ := h.books
  obtain ⟨q, out, held, slot, userData, hinv, hnamed⟩ := h.served i
  have hpops := hinv.pops_lt hn
  obtain ⟨r, hr, d1, d2, q', hpos, hc, hpop, -, hinv'⟩ := hinv.pop_some hpops
  set p := (s.traffic i).published[(s.traffic i).pops] with hpdef
  obtain ⟨-, rfl⟩ := Prod.mk.inj (Outcome.ret.inj (hpop.symm.trans hn))
  -- the request that the entry answers
  have hlt : r.pos < (s.accepted i).length := h.length i ▸ hinv.traffic.pos_lt hr
  obtain ⟨m, hacc⟩ : ∃ m, (s.accepted i)[r.pos]? = some m := ⟨_, List.getElem?_eq_getElem hlt⟩
  obtain ⟨sqe, hget⟩ := hbooks.exists_sqe (List.mem_of_getElem? hacc)
  have hanswered : s.answered i = m := by
    simp [answered, List.getElem?_eq_getElem hpops, ← hpdef, ← hpos, hacc]
  obtain ⟨server, hserver⟩ := h.exists_server hget
  have hcomp : (s.net.completed i q' (slot r.pos) (userData r.pos) p.2.len).completions =
      s.net.completions ++ [(userData r.pos, resultLen i p.2.len)] := by
    rw [VirtIONet.completions, VirtIONet.completions, hserver]
    exact postedTo_complete (by simp [completed, complete, setQueue, setPending, hserver])
  have hnp : r.pos ∉ ((s.traffic i).answers).map Prod.fst := hpos ▸ hinv.traffic.notMem_popped hpops
  have hud := hnamed r.pos _ _ hacc hget
  rw [hcomp, newCalls_append, hanswered]
  refine
    { served := fun j => ?_
      books := ⟨order, done ++ [place i r.pos], place,
        Function.update result (place i r.pos) (some (resultLen i p.2.len)), ?_⟩
      length := fun j => ?_
      todo := ?_
      posted := ?_
      server := fun _ => ?_ }
  · by_cases hj : j = i
    · subst hj
      exact Served.intro hinv' (setTraffic_self s j _) hnamed
    · exact (h.served j).frame (Function.update_of_ne hj _ _) (Function.update_of_ne hj _ _) rfl
        (setTraffic_of_ne s hj _) rfl fun _ _ => rfl
  · rw [hud]
    refine hbooks.pop hacc hget hnp ?_ fun j hj => ?_
    · show (s.setTraffic i (s.traffic i).pop i).answers = _
      rw [setTraffic_self, (s.traffic i).answers_pop hpops, ← hpdef, hpos]
    · show (s.setTraffic i (s.traffic i).pop j).answers = _
      rw [setTraffic_of_ne s hj]
  · apply forall_setTraffic (p := fun j tr => (s.accepted j).length = tr.submitted.length)
    · exact h.length i
    · exact fun j _ => h.length j
  · have htodo := h.todo
    rw [hp] at htodo
    rw [hp]
    exact htodo
  · show (s.net.completed i q' (slot r.pos) (userData r.pos) p.2.len).completions = _
    rw [hcomp, h.posted]
    simp
  · simp [completed, complete, setQueue, setPending, hserver]

/-- The loop ends without a change. -/
theorem popDone (h : s.Account before) (hn : s.net.popCompletion i = .ret (false, n)) :
    s.net = n := by
  obtain ⟨q, out, held, slot, userData, hinv, -⟩ := h.served i
  exact (hinv.pops_eq hn).2

/-- The device reads a head of queue `i` or publishes one. -/
theorem device (h : s.Account before) {tr : Traffic} (hserved : Served { s with
      net := n
      traffic := s.setTraffic i tr } i)
    (hq : ∀ j ≠ i, n.queue j = s.net.queue j) (hp : n.pending = s.net.pending)
    (hd : n.dmaPaddr = s.net.dmaPaddr) (hr : n.ringServer = s.net.ringServer)
    (hsub : tr.submitted = (s.traffic i).submitted)
    (hans : tr.answers = (s.traffic i).answers) :
    Account { s with
      net := n
      traffic := s.setTraffic i tr } before := by
  refine
    { h with
      served := fun j => ?_
      books := ?_
      length := fun j => ?_
      posted := ?_
      server := fun hne => hr ▸ h.server hne }
  · by_cases hj : j = i
    · subst hj
      exact hserved
    · exact (h.served j).frame (hq j hj) (congrFun hp j) hd (setTraffic_of_ne s hj _) rfl
        fun _ _ => rfl
  · show ∃ order done place result, Books _ _ _ (fun j => (s.setTraffic i tr j).answers) _ _ _ _ _
    rw [answers_setTraffic hans]
    exact h.books
  · exact forall_setTraffic (p := fun j tr => (s.accepted j).length = tr.submitted.length)
      (hsub ▸ h.length i) (fun j _ => h.length j) j
  · rw [← h.posted]
    show postedTo n.ringServer = postedTo s.net.ringServer
    rw [hr]

/-- Every step keeps the account. -/
theorem step (h : s.Account before) (hstep : NetStep s t) : t.Account before := by
  cases hstep with
  | client server sqe hs =>
    exact h.congr rfl rfl rfl (by simp [completions, postedTo, hs, IoUringServer.push]) fun _ => by
      simp
  | setup vaddr paddr size hp => exact h.congr rfl rfl rfl rfl id
  | fetch server hp hs => exact h.fetch hp hs
  | accept sqe todo i n q q' hp hn hi hq hq' => exact h.accept hp hn hi hq hq'
  | reject sqe todo e n hp hn => exact h.reject hp hn
  | submitted hp =>
    have htodo := h.todo
    rw [hp] at htodo
    obtain ⟨order, done, place, result, hbooks⟩ := h.books
    exact { h with
      todo := le_antisymm hbooks.ledger.handed_le (List.drop_eq_nil_iff.1 htodo.symm) }
  | irq hp =>
    have htodo := h.todo
    rw [hp] at htodo
    have h' := h.congr (n := { s.net with transport := s.net.transport.interruptAck.2 })
      rfl rfl rfl rfl id
    refine { h' with todo := ?_ }
    by_cases hgo : s.net.transport.interruptAck.1 = true ∧ s.net.ringServer.isSome = true
    · rw [if_pos hgo]
      exact htodo
    · rw [if_neg hgo]
      exact htodo
  | pop i n hp hn => exact h.pop hp hn
  | popDone i n hp hn =>
    have htodo := h.todo
    rw [hp] at htodo
    obtain rfl := h.popDone hn
    refine { h with todo := ?_ }
    cases i
    · exact htodo
    · exact htodo
  | raise v => exact h.congr rfl rfl rfl rfl id
  | write dma => exact h.congr rfl rfl rfl rfl id
  | take i q hq hne =>
    obtain ⟨q₀, out, held, slot, userData, hinv, hnamed⟩ := h.served i
    obtain rfl : q₀ = q := Option.some.inj (hinv.queue.symm.trans hq)
    exact h.device (Served.intro (hinv.take hne) (setTraffic_self s i _) hnamed) (fun _ _ => rfl)
      rfl rfl rfl rfl rfl
  | publish i q pos elem hq hc =>
    obtain ⟨q₀, out, held, slot, userData, hinv, hnamed⟩ := h.served i
    obtain rfl : q₀ = q := Option.some.inj (hinv.queue.symm.trans hq)
    exact h.device (Served.intro (hinv.publish hc) (setTraffic_self s i _) hnamed)
      (fun j hj => Function.update_of_ne hj _ _) rfl rfl rfl rfl
      ((s.traffic i).answers_publish hinv.traffic.pops_le pos elem)

/-- The account holds along every run. -/
theorem run (h : s.Account before) (hrun : NetReach s t) : t.Account before := by
  induction hrun with
  | refl => exact h
  | tail _ hstep ih => exact ih.step hstep

end Account

end NetState

end GlendaDrivers
