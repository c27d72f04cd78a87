import GlendaDrivers.Virtio.BlockSystem

/-!
# The invariant of the block driver's runs

* `BlkState.Inv`: the invariant of the system, which adds the ledger of requests to `BlkInv`;
* `BlkState.Inv.step`, `run`: every step keeps it, and loses descriptors only when a request
  is submitted with one or two descriptors free (`RunsOut`);
* `exists_loaded`: runs that fill the queue.
-/

namespace GlendaDrivers

open VirtQueue VirtIOBlk

/-- The request passes all checks, and one or two descriptors are free. -/
def VirtIOBlk.RunsOut (b : VirtIOBlk) (sqe : Sqe) : Prop :=
  ∃ q i type isWrite paddr, b.Admitted sqe q i type isWrite paddr ∧
    (q.numFree = 1 ∨ q.numFree = 2)

/-- A request that finds three free descriptors does not run out of them. -/
theorem VirtIOBlk.Admitted.not_runsOut {b : VirtIOBlk} {sqe : Sqe} {q : VirtQueue} {i : Fin 64}
    {type : UInt32} {isWrite : Bool} {paddr : UInt64} (h : b.Admitted sqe q i type isWrite paddr)
    (hfree : 3 ≤ q.freeIds.length) : ¬ b.RunsOut sqe := by
  rintro ⟨q', i', type', w', p', h', hf⟩
  obtain rfl := Option.some.inj (h.queue.symm.trans h'.queue)
  rw [← UInt16.toNat_inj, ← UInt16.toNat_inj, ← length_freeIds] at hf
  have hf : q.freeIds.length = 1 ∨ q.freeIds.length = 2 := hf
  omega

/-- A request of one block. -/
def readBlock : Sqe := ⟨.read, 0, 0, 512, 0⟩

namespace BlkState

/-! ### The invariant -/

/-- The results of the popped requests. -/
def result (s : BlkState) (pos : ℕ) : Option Int32 := (s.answers pos).map statusResult

/-- The invariant: the driver and its device agree, and the calls of `complete` agree with the
ledger of requests.  Before the run, the completions `before` had been posted. -/
structure Inv (s : BlkState) (blkSize : UInt32) (before : List (UInt64 × Int32)) (q : VirtQueue)
    (out : List Request) (held : List UInt16) (slot : ℕ → Fin 64) (userData : ℕ → UInt64) :
    Prop where
  blk : BlkInv s.blk q s.traffic s.answers out held slot userData
  blkSize : s.blk.blkSize = blkSize
  length : s.accepted.length = s.traffic.submitted.length
  named : ∀ pos n sqe, s.accepted[pos]? = some n → s.fetched[n]? = some sqe →
    userData pos = sqe.userData
  ledger : Ledger s.fetched s.handed s.accepted s.traffic.popped s.result s.calls
  todo : match s.phase with
    | .submitting sqes => sqes = s.fetched.drop s.handed
    | _ => s.handed = s.fetched.length
  posted : s.blk.completions = before ++ s.calls.map Prod.snd
  server : s.fetched ≠ [] → s.blk.ringServer ≠ none

namespace Inv

variable {s t : BlkState} {blkSize : UInt32} {before : List (UInt64 × Int32)} {q : VirtQueue}
  {out : List Request} {held : List UInt16} {slot : ℕ → Fin 64} {userData : ℕ → UInt64}
  {sqe : Sqe} {todo : List Sqe}

/-- The system when `init` has returned. -/
theorem start {b : VirtIOBlk} (hb : b.Started) (slot : ℕ → Fin 64) (userData : ℕ → UInt64) :
    Inv (.start b) b.blkSize b.completions (.fresh 0 128 (b.dmaPaddr + 8192) .zeroed) [] [] slot
      userData where
  blk := BlkInv.start hb slot userData
  blkSize := rfl
  length := rfl
  named := by simp [BlkState.start]
  ledger := Ledger.empty _
  todo := rfl
  posted := by simp [BlkState.start]
  server := by simp [BlkState.start]

/-- The request at hand is the next of the fetched ones. -/
theorem next (h : s.Inv blkSize before q out held slot userData)
    (hp : s.phase = .submitting (sqe :: todo)) :
    s.fetched[s.handed]? = some sqe ∧ todo = s.fetched.drop (s.handed + 1) := by
  have htodo := h.todo
  rw [hp] at htodo
  have hd : s.fetched.drop s.handed = sqe :: todo := htodo.symm
  refine ⟨?_, ?_⟩
  · rw [← List.head?_drop, hd]
    rfl
  · rw [← List.tail_drop, hd]
    rfl

/-- There is a ring server as soon as a request was fetched. -/
theorem exists_server (h : s.Inv blkSize before q out held slot userData) {n : ℕ}
    (hn : s.fetched[n]? = some sqe) : ∃ server, s.blk.ringServer = some server := by
  refine Option.ne_none_iff_exists'.1 (h.server ?_)
  rintro he
  simp [he] at hn

/-- Steps that leave the history alone. -/
theorem congr (h : s.Inv blkSize before q out held slot userData) {b : VirtIOBlk}
    (hq : b.queue = s.blk.queue) (hv : b.dmaVaddr = s.blk.dmaVaddr)
    (hd : b.dmaPaddr = s.blk.dmaPaddr) (hm : b.dma = s.blk.dma)
    (hi : b.pendingInfo = s.blk.pendingInfo) (hz : b.blkSize = s.blk.blkSize)
    (hc : b.completions = s.blk.completions)
    (hr : s.blk.ringServer ≠ none → b.ringServer ≠ none) :
    Inv { s with blk := b } blkSize before q out held slot userData :=
  { h with
    blk := h.blk.congr hq hv hd hm hi
    blkSize := hz.trans h.blkSize
    posted := hc.trans h.posted
    server := fun hne => hr (h.server hne) }

/-- The client queues a request. -/
theorem client (h : s.Inv blkSize before q out held slot userData) {server : IoUringServer}
    (hs : s.blk.ringServer = some server) (sqe : Sqe) :
    Inv { s with blk := { s.blk with ringServer := some (server.push sqe) } } blkSize before q out
      held slot userData :=
  h.congr rfl rfl rfl rfl rfl rfl
    (by simp [completions, postedTo, hs, IoUringServer.push]) fun _ => by simp

/-- `handle_ring` fetches requests. -/
theorem fetch (h : s.Inv blkSize before q out held slot userData) {server : IoUringServer}
    (hp : s.phase = .idle) (hs : s.blk.ringServer = some server) :
    Inv { s with
      blk := { s.blk with ringServer := some (server.fetch 16).2 }
      phase := if (server.fetch 16).1 = [] then .idle else .submitting (server.fetch 16).1
      fetched := s.fetched ++ (server.fetch 16).1 } blkSize before q out held slot userData := by
  have hf := IoUringServer.fetch_eq 16 server
  have hc : ({ s.blk with ringServer := some (server.fetch 16).2 } : VirtIOBlk).completions =
      s.blk.completions := by simp [completions, postedTo, hs, hf]
  refine
    { h with
      blk := h.blk.congr rfl rfl rfl rfl rfl
      named := fun pos n sqe hacc hget =>
        h.named pos n sqe hacc (h.ledger.getElem?_of_lt
          (h.ledger.lt n (List.mem_of_getElem? hacc)) _ ▸ hget)
      ledger := h.ledger.fetch _
      todo := ?_
      posted := hc.trans h.posted
      server := fun _ => by simp }
  have htodo := h.todo
  rw [hp] at htodo
  have htodo : s.handed = s.fetched.length := htodo
  by_cases he : (server.fetch 16).1 = []
  · simp [he, htodo]
  · simp [he, htodo]

/-- A submitted request. -/
theorem accept (h : s.Inv blkSize before q out held slot userData) {b : VirtIOBlk}
    {q' : VirtQueue} (hp : s.phase = .submitting (sqe :: todo))
    (hb : s.blk.submitVirtioRequest sqe = .ret (.ok (), b)) (hq' : b.queue = some q') :
    ∃ r slot' userData', Inv { s with
      blk := b
      phase := .submitting todo
      traffic := s.traffic.submit (q'.readAvail q.mem.availIdx)
      handed := s.handed + 1
      accepted := s.accepted ++ [s.handed]
      calls := s.calls ++ newCalls s.handed s.blk.completions b.completions }
        blkSize before q' (out ++ [r]) held slot' userData' := by
  obtain ⟨hget, htodo⟩ := h.next hp
  rcases submit_cases s.blk sqe with ⟨-, hpan⟩ | ⟨r, c, hr, ⟨⟨e, rfl⟩, -⟩⟩ | ⟨q₀, i, type, w, p, ha⟩
  · simp [hpan] at hb
  · simp [hr] at hb
  obtain rfl : q = q₀ := Option.some.inj (h.blk.queue.symm.trans ha.queue)
  rcases Nat.lt_or_ge q.freeIds.length 3 with hlt | hge
  · obtain ⟨q₁, hsub, -⟩ := h.blk.submit_short ha hlt
    simp [hsub] at hb
  obtain ⟨d1, d2, d3, q₁, hsub, havail, -, -, hinv⟩ := h.blk.submit_ok ha hge
  obtain rfl : s.blk.entered q₁ i type sqe d1 = b :=
    (Prod.mk.inj (Outcome.ret.inj (hsub.symm.trans hb))).2
  obtain rfl : q₁ = q' := Option.some.inj hq'
  have hcomp : (s.blk.entered q₁ i type sqe d1).completions = s.blk.completions := rfl
  rw [hcomp, newCalls_self, List.append_nil, havail]
  refine ⟨⟨s.traffic.submitted.length, [d1, d2, d3]⟩,
    Function.update slot s.traffic.submitted.length i,
    Function.update userData s.traffic.submitted.length sqe.userData, ?_⟩
  exact
    { blk := hinv
      blkSize := h.blkSize
      length := by
        show (s.accepted ++ [s.handed]).length = (s.traffic.submitted ++ [d1]).length
        rw [List.length_append, List.length_append, h.length]
        rfl
      named := fun pos n sqe' hacc hget' => by
        rcases Nat.lt_or_ge pos s.accepted.length with hlt | hge
        · rw [List.getElem?_append_left hlt] at hacc
          rw [Function.update_of_ne (by rw [← h.length]; omega)]
          exact h.named pos n sqe' hacc hget'
        · have hlt := (List.getElem?_eq_some_iff.1 hacc).1
          rw [List.length_append, List.length_singleton] at hlt
          obtain rfl : pos = s.accepted.length := by omega
          obtain rfl : s.handed = n := by simpa using hacc
          obtain rfl := Option.some.inj (hget.symm.trans hget')
          rw [h.length, Function.update_self]
      ledger := h.ledger.accept hget
      todo := htodo
      posted := hcomp.trans h.posted
      server := h.server }

/-- A rejected request.  It loses descriptors only when it runs out of them. -/
theorem reject (h : s.Inv blkSize before q out held slot userData) {b : VirtIOBlk} {e : Error}
    (hp : s.phase = .submitting (sqe :: todo))
    (hb : s.blk.submitVirtioRequest sqe = .ret (.error e, b)) :
    ∃ q' held', (held' ≠ held → s.blk.RunsOut sqe) ∧ Inv { s with
      blk := b.complete sqe.userData (-1)
      phase := .submitting todo
      handed := s.handed + 1
      calls := s.calls ++
        newCalls s.handed s.blk.completions (b.complete sqe.userData (-1)).completions }
        blkSize before q' out held' slot userData := by
  obtain ⟨hget, htodo⟩ := h.next hp
  obtain ⟨server, hserver⟩ := h.exists_server hget
  -- what is common to all rejections
  have main : ∀ {q' : VirtQueue} {held' : List UInt16}, b.ringServer = s.blk.ringServer →
      b.blkSize = s.blk.blkSize →
      BlkInv b q' s.traffic s.answers out held' slot userData → Inv { s with
        blk := b.complete sqe.userData (-1)
        phase := .submitting todo
        handed := s.handed + 1
        calls := s.calls ++
          newCalls s.handed s.blk.completions (b.complete sqe.userData (-1)).completions }
          blkSize before q' out held' slot userData := by
    intro q' held' hr hz hinv
    have hcomp : (b.complete sqe.userData (-1)).completions =
        s.blk.completions ++ [(sqe.userData, -1)] := by
      rw [VirtIOBlk.completions, VirtIOBlk.completions, hserver]
      exact postedTo_complete (by simp [complete, hr, hserver])
    rw [hcomp, newCalls_append]
    exact
      { blk := hinv.congr rfl rfl rfl rfl rfl
        blkSize := hz.trans h.blkSize
        length := h.length
        named := h.named
        ledger := h.ledger.reject hget
        todo := htodo
        posted := by
          show (b.complete sqe.userData (-1)).completions = _
          rw [hcomp, h.posted]
          simp
        server := fun _ => by simp [complete, hr, hserver] }
  rcases submit_cases s.blk sqe with ⟨-, hpan⟩ | ⟨r, c, hr, href⟩ | ⟨q₀, i, type, w, p, ha⟩
  · simp [hpan] at hb
  · obtain ⟨-, rfl⟩ := Prod.mk.inj (Outcome.ret.inj (hr.symm.trans hb))
    refine ⟨q, held, fun hne => absurd rfl hne, main ?_ ?_ (h.blk.refused href)⟩
    · rcases href.state with rfl | ⟨i, type, -, rfl⟩ <;> rfl
    · rcases href.state with rfl | ⟨i, type, -, rfl⟩ <;> rfl
  · obtain rfl : q = q₀ := Option.some.inj (h.blk.queue.symm.trans ha.queue)
    rcases Nat.lt_or_ge q.freeIds.length 3 with hlt | hge
    · obtain ⟨q₁, hsub, -, -, hinv⟩ := h.blk.submit_short ha hlt
      obtain ⟨-, rfl⟩ := Prod.mk.inj (Outcome.ret.inj (hsub.symm.trans hb))
      refine ⟨q₁, q.freeIds.reverse ++ held, fun hne => ?_, main rfl rfl hinv⟩
      refine ⟨q, i, type, w, p, ha, ?_⟩
      rw [length_freeIds] at hlt
      have hpos : q.numFree.toNat ≠ 0 := fun hz => hne (by
        rw [List.eq_nil_of_length_eq_zero ((length_freeIds q).trans hz)]
        rfl)
      rw [← UInt16.toNat_inj, ← UInt16.toNat_inj]
      show q.numFree.toNat = 1 ∨ q.numFree.toNat = 2
      omega
    · obtain ⟨d1, d2, d3, q₁, hsub, -⟩ := h.blk.submit_ok ha hge
      simp [hsub] at hb

/-- All fetched requests were handed on. -/
theorem submitted (h : s.Inv blkSize before q out held slot userData)
    (hp : s.phase = .submitting []) :
    Inv { s with phase := .popping } blkSize before q out held slot userData := by
  have htodo := h.todo
  rw [hp] at htodo
  refine { h with todo := le_antisymm h.ledger.handed_le ?_ }
  exact List.drop_eq_nil_iff.1 htodo.symm

/-- The call returns. -/
theorem finish (h : s.Inv blkSize before q out held slot userData) (hp : s.phase = .popping) :
    Inv { s with phase := .idle } blkSize before q out held slot userData := by
  have htodo := h.todo
  rw [hp] at htodo
  exact { h with todo := htodo }

/-- A popped entry completes the request that it answers. -/
theorem pop (h : s.Inv blkSize before q out held slot userData) {b : VirtIOBlk}
    (hp : s.phase = .popping) (hb : s.blk.popCompletion = .ret (true, b)) :
    ∃ q' out', Inv { s with
      blk := b
      traffic := s.traffic.pop
      calls := s.calls ++ newCalls s.answered s.blk.completions b.completions }
        blkSize before q' out' held slot userData := by
  have hpops := h.blk.pops_lt hb
  obtain ⟨r, hr, d1, d2, d3, st, q', hpos, hc, hst, hpop, -, hinv⟩ := h.blk.pop_some hpops
  obtain rfl : s.blk.completed q' (slot r.pos) (userData r.pos) st = b :=
    (Prod.mk.inj (Outcome.ret.inj (hpop.symm.trans hb))).2
  -- the request that the entry answers
  have hlt : r.pos < s.accepted.length := h.length ▸ h.blk.traffic.pos_lt hr
  have hacc : s.accepted[r.pos]? = some s.accepted[r.pos] := List.getElem?_eq_getElem hlt
  have hfetched : s.accepted[r.pos] < s.fetched.length :=
    (h.ledger.lt _ (List.getElem_mem hlt)).trans_le h.ledger.handed_le
  have hget : s.fetched[s.accepted[r.pos]]? = some s.fetched[s.accepted[r.pos]] :=
    List.getElem?_eq_getElem hfetched
  have hanswered : s.answered = s.accepted[r.pos] := by
    simp [answered, List.getElem?_eq_getElem hpops, ← hpos, hacc]
  obtain ⟨server, hserver⟩ := h.exists_server hget
  have hud := h.named r.pos _ _ hacc hget
  have hcomp : (s.blk.completed q' (slot r.pos) (userData r.pos) st).completions =
      s.blk.completions ++ [(userData r.pos, statusResult st)] := by
    rw [VirtIOBlk.completions, VirtIOBlk.completions, hserver]
    exact postedTo_complete (by simp [completed, hserver])
  have hnp : r.pos ∉ s.traffic.popped := hpos ▸ h.blk.traffic.notMem_popped hpops
  have hled := h.ledger.pop hacc hget hnp (v := statusResult st)
    (show s.result r.pos = some (statusResult st) by simp [result, hst])
  rw [hcomp, newCalls_append, hanswered]
  refine ⟨q', out.erase r, ?_⟩
  exact
    { blk := hinv
      blkSize := h.blkSize
      length := h.length
      named := h.named
      ledger := by
        show Ledger s.fetched s.handed s.accepted s.traffic.pop.popped s.result _
        rw [s.traffic.popped_pop hpops, ← hpos, hud]
        exact hled
      todo := by
        have := h.todo
        rw [hp] at this
        rw [hp]
        exact this
      posted := by
        show (s.blk.completed q' (slot r.pos) (userData r.pos) st).completions = _
        rw [hcomp, h.posted]
        simp
      server := fun _ => by simp [completed, hserver] }

/-- The loop ends without a change. -/
theorem popDone (h : s.Inv blkSize before q out held slot userData) {b : VirtIOBlk}
    (hb : s.blk.popCompletion = .ret (false, b)) : s.blk = b :=
  (h.blk.pops_eq hb).2

/-- The device writes a status byte. -/
theorem answer (h : s.Inv blkSize before q out held slot userData) {pos : ℕ} {head : UInt16}
    (hhead : s.traffic.taken[pos]? = some head) (hnew : s.answers pos = none) (st : UInt8) :
    Inv { s with
      blk := s.blk.deviceWrite (q.mem.desc (chainEnd q.mem.desc q.num.toNat head)).addr st
      answers := Function.update s.answers pos (some st) } blkSize before q out held slot
        userData :=
  { h with
    blk := h.blk.answer hhead hnew st
    ledger := h.ledger.mono fun pos' hpos' => by
      -- a popped position was answered before
      obtain ⟨p, hp, rfl⟩ := List.mem_map.1 hpos'
      have hne : p.1 ≠ pos := by
        intro he
        exact h.blk.answered p (List.mem_of_mem_take hp) (he ▸ hnew)
      simp [result, Function.update_of_ne hne] }

/-- The device publishes a used entry. -/
theorem publish (h : s.Inv blkSize before q out held slot userData) {pos : ℕ} {elem : UsedElem}
    (hc : s.traffic.CanPublish pos elem) (ha : s.answers pos ≠ none) :
    Inv { s with
      blk := { s.blk with queue := some (q.publishUsed elem) }
      traffic := s.traffic.publish pos elem } blkSize before (q.publishUsed elem) out held slot
        userData :=
  { h with
    blk := h.blk.publish hc ha
    ledger := by
      show Ledger _ _ _ (s.traffic.publish pos elem).popped _ _
      rw [s.traffic.popped_publish h.blk.traffic.pops_le]
      exact h.ledger }

/-- Every step keeps the invariant.  Descriptors are lost only by a request that runs out of
them. -/
theorem step (h : s.Inv blkSize before q out held slot userData) (hstep : BlkStep s t) :
    ∃ q' out' held' slot' userData', t.Inv blkSize before q' out' held' slot' userData' ∧
      (held' ≠ held → t.handed ≠ s.handed ∧
        ∃ sqe todo, s.phase = .submitting (sqe :: todo) ∧ s.blk.RunsOut sqe) := by
  -- steps that lose nothing
  have keep : ∀ {q' out' slot' userData'}, t.Inv blkSize before q' out' held slot' userData' →
      ∃ q' out' held' slot' userData', t.Inv blkSize before q' out' held' slot' userData' ∧
        (held' ≠ held → t.handed ≠ s.handed ∧
          ∃ sqe todo, s.phase = .submitting (sqe :: todo) ∧ s.blk.RunsOut sqe) :=
    fun h => ⟨_, _, _, _, _, h, fun hne => absurd rfl hne⟩
  cases hstep with
  | client server sqe hs => exact keep (h.client hs sqe)
  | setup vaddr paddr size hp => exact keep (h.congr rfl rfl rfl rfl rfl rfl rfl id)
  | fetch server hp hs => exact keep (h.fetch hp hs)
  | accept sqe todo b q₀ q' hp hb hq hq' =>
    obtain rfl : q = q₀ := Option.some.inj (h.blk.queue.symm.trans hq)
    obtain ⟨r, slot', userData', h'⟩ := h.accept hp hb hq'
    exact keep h'
  | reject sqe todo e b hp hb =>
    obtain ⟨q', held', hlost, h'⟩ := h.reject hp hb
    exact ⟨q', out, held', slot, userData, h', fun hne =>
      ⟨Nat.succ_ne_self _, sqe, todo, hp, hlost hne⟩⟩
  | submitted hp => exact keep (h.submitted hp)
  | irq hp =>
    have htodo := h.todo
    rw [hp] at htodo
    have h' := h.congr (b := { s.blk with transport := s.blk.transport.interruptAck.2 })
      rfl rfl rfl rfl rfl rfl rfl id
    refine keep { h' with todo := ?_ }
    cases s.blk.transport.interruptAck.1 <;> exact htodo
  | pop b hp hb =>
    obtain ⟨q', out', h'⟩ := h.pop hp hb
    exact keep h'
  | popDone b hp hb =>
    obtain rfl := h.popDone hb
    exact keep (h.finish hp)
  | raise v =>
    exact keep (h.congr rfl rfl rfl rfl rfl rfl rfl id)
  | take q₀ hq hne =>
    obtain rfl : q = q₀ := Option.some.inj (h.blk.queue.symm.trans hq)
    exact keep { h with blk := h.blk.take hne }
  | answer q₀ pos head status hq hhead hnew =>
    obtain rfl : q = q₀ := Option.some.inj (h.blk.queue.symm.trans hq)
    exact keep (h.answer hhead hnew status)
  | publish q₀ pos elem hq hc ha =>
    obtain rfl : q = q₀ := Option.some.inj (h.blk.queue.symm.trans hq)
    exact keep (h.publish hc ha)

/-- The invariant holds along every run. -/
theorem run (h : s.Inv blkSize before q out held slot userData) (hrun : BlkReach s t) :
    ∃ q' out' held' slot' userData', t.Inv blkSize before q' out' held' slot' userData' := by
  induction hrun with
  | refl => exact ⟨q, out, held, slot, userData, h⟩
  | tail _ hstep ih =>
    obtain ⟨q', out', held', slot', userData', h'⟩ := ih
    obtain ⟨q'', out'', held'', slot'', userData'', h'', -⟩ := h'.step hstep
    exact ⟨q'', out'', held'', slot'', userData'', h''⟩

end Inv

/-! ### Filling the queue -/

/-- The driver waits with `k` requests in its queue, of which the device has answered none. -/
structure Loaded (k : ℕ) (s : BlkState) : Prop where
  idle : s.phase = .idle
  server : ∃ completions, s.blk.ringServer = some ⟨[], completions⟩
  buffer : s.blk.buffer = none
  fetched : s.fetched = List.replicate k readBlock
  taken : s.traffic.taken = []
  answers : s.answers = fun _ => none
  published : s.traffic.published = []
  inv : ∃ q out slot userData, s.Inv 512 [] q out [] slot userData ∧ out.length = k

/-- Without a shared buffer and with a free slot, an aligned request passes all checks. -/
theorem admitted_of_free {s : BlkState} {blkSize : UInt32} {before : List (UInt64 × Int32)}
    {q : VirtQueue} {out : List Request} {held : List UInt16} {slot : ℕ → Fin 64}
    {userData : ℕ → UInt64} {sqe : Sqe} {type : UInt32} {isWrite : Bool}
    (h : s.Inv blkSize before q out held slot userData) (hz : blkSize ≠ 0)
    (hal : sqe.len % blkSize = 0) (hop : requestType sqe.opcode = some (type, isWrite))
    (hbuf : s.blk.buffer = none) (hlt : out.length < 64) :
    ∃ i, s.blk.Admitted sqe q i type isWrite sqe.addr := by
  obtain ⟨i, hi⟩ : ∃ i, s.blk.freeSlot = some i := by
    rw [← Option.isSome_iff_exists, freeSlot, Fin.isSome_find?_iff]
    by_contra hne
    -- all slots would be taken
    have hall : (Finset.univ.filter fun i => (s.blk.pendingInfo i).isSome) = Finset.univ := by
      refine Finset.filter_true_of_mem fun i _ => ?_
      cases hi : s.blk.pendingInfo i with
      | none => exact absurd ⟨i, by simp [hi]⟩ hne
      | some info => rfl
    have hcount := h.blk.someCount_eq
    rw [someCount, hall, Finset.card_univ, Fintype.card_fin] at hcount
    omega
  refine ⟨i, ?_, ?_, h.blk.queue, hi, h.blk.dmaVaddr, hop, by rw [hbuf]; rfl⟩
  · rw [h.blkSize]
    exact hz
  · rw [h.blkSize]
    exact hal

/-- With a free slot, `readBlock` passes all checks. -/
theorem admitted_readBlock {s : BlkState} {before : List (UInt64 × Int32)} {q : VirtQueue}
    {out : List Request} {held : List UInt16} {slot : ℕ → Fin 64} {userData : ℕ → UInt64}
    (h : s.Inv 512 before q out held slot userData) (hbuf : s.blk.buffer = none)
    (hlt : out.length < 64) : ∃ i, s.blk.Admitted readBlock q i virtioBlkTIn false 0 :=
  admitted_of_free h (by decide) (by decide) rfl hbuf hlt

/-- The client queues one request, and `handle_ring` fetches it. -/
theorem Loaded.fetch {k : ℕ} {s : BlkState} (h : Loaded k s) :
    ∃ t, BlkReach s t ∧ t.phase = .submitting [readBlock] ∧ t.blk.buffer = none ∧
      t.fetched = List.replicate (k + 1) readBlock ∧ t.traffic = s.traffic ∧
      t.answers = s.answers ∧ (∃ completions, t.blk.ringServer = some ⟨[], completions⟩) ∧
      ∃ q out slot userData, t.Inv 512 [] q out [] slot userData ∧ out.length = k := by
  obtain ⟨completions, hserver⟩ := h.server
  obtain ⟨q, out, slot, userData, hinv, hlen⟩ := h.inv
  have h₁ := hinv.client hserver readBlock
  have h₂ := h₁.fetch h.idle rfl
  refine ⟨_, .tail (.single (.client s _ readBlock hserver)) (.fetch _ _ h.idle rfl), rfl,
    h.buffer, ?_, rfl, rfl, ⟨completions, rfl⟩, q, out, slot, userData, h₂, hlen⟩
  show s.fetched ++ [readBlock] = _
  rw [h.fetched, List.replicate_succ']

/-- The queue has room for 42 requests. -/
theorem exists_loaded {k : ℕ} (hk : k ≤ 42) :
    ∃ s, BlkReach (.start (.initial 512)) s ∧ Loaded k s := by
  induction k with
  | zero =>
    exact ⟨_, .refl, rfl, ⟨[], rfl⟩, rfl, rfl, rfl, rfl, rfl, _, [], fun _ => 0, fun _ => 0,
      Inv.start (started_initial 512) _ _, rfl⟩
  | succ k ih =>
    obtain ⟨s, hs, hload⟩ := ih (by omega)
    obtain ⟨t, ht, hp, hbuf, hfetched, htr, hans, hserver, q, out, slot, userData, hinv, hlen⟩ :=
      hload.fetch
    obtain ⟨i, ha⟩ := admitted_readBlock hinv hbuf (by omega)
    have hcons := hinv.blk.conservation
    rw [hinv.blk.someCount_eq, hlen, List.length_nil] at hcons
    obtain ⟨d1, d2, d3, q', hsub, -⟩ :=
      hinv.blk.submit_ok ha (by rw [length_freeIds]; omega)
    obtain ⟨r, slot', userData', h₁⟩ := hinv.accept hp hsub rfl
    have h₂ := h₁.submitted rfl
    have hnone := h₂.blk.pop_none (le_antisymm h₂.blk.traffic.pops_le (by
      show t.traffic.published.length ≤ _
      simp [htr, hload.published]))
    have h₃ := h₂.finish rfl
    have hsteps := (((hs.trans ht).tail
      (.accept t readBlock [] _ q q' hp hsub hinv.blk.queue rfl)).tail
      (.submitted _ rfl)).tail (.popDone _ _ rfl hnone)
    exact ⟨_, hsteps, rfl, hserver, hbuf, hfetched, htr ▸ hload.taken, hans.trans hload.answers,
      htr ▸ hload.published, q', out ++ [r], slot', userData', h₃, by simp [hlen]⟩

end BlkState

end GlendaDrivers
