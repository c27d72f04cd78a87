import GlendaDrivers.Virtio.NetSystem

/-!
# The invariant of the network driver's runs

* `NetState.Inv s held`: both queues, with the descriptors `held` lost;
* `NetState.submit_cases`: what a request does, by the number of free descriptors and the
  outcome of the address check;
* `NetState.Inv.step`, `run`: every step keeps the invariant, and loses descriptors only when a
  request is rejected while descriptors are free.
-/

namespace GlendaDrivers

open VirtQueue VirtIONet

/-- The request is rejected by queue `i` although a descriptor is free: there is only one, or the
request is out of the boundary of the shared buffer. -/
def VirtIONet.Loses (n : VirtIONet) (i : NetDir) (sqe : Sqe) : Prop :=
  ∃ q, n.queue i = some q ∧ q.freeIds ≠ [] ∧
    (q.freeIds.length = 1 ∨ dataPaddr n.buffer sqe = none)

namespace NetState

/-- Both queues and the outstanding requests agree; the descriptors `held` are lost. -/
def Inv (s : NetState) (held : NetDir → List UInt16) : Prop :=
  ∀ i, ∃ q out slot userData, NetInv s.net i q (s.traffic i) out (held i) slot userData

variable {s t : NetState} {n : VirtIONet} {i : NetDir} {sqe : Sqe} {held : NetDir → List UInt16}

/-- The system when `init` has returned. -/
theorem inv_start (hn : n.Started) : Inv (.start n) fun _ => [] := by
  intro i
  obtain ⟨q, h⟩ := NetInv.start hn i (fun _ => 0) (fun _ => 0)
  exact ⟨q, [], _, _, h⟩

/-- What happens to queue `i` does not concern the other queue. -/
theorem Inv.update (h : s.Inv held) {tr : Traffic} {q : VirtQueue} {out : List Request}
    {lost : List UInt16} {slot : ℕ → Fin 128} {userData : ℕ → UInt64}
    (hinv : NetInv n i q tr out lost slot userData)
    (hframe : ∀ j ≠ i, n.queue j = s.net.queue j ∧ n.pending j = s.net.pending j ∧
      n.dmaPaddr = s.net.dmaPaddr)
    (ht : t.net = n) (htr : t.traffic = s.setTraffic i tr) :
    t.Inv (Function.update held i lost) := by
  subst ht
  intro j
  rw [htr, setTraffic]
  by_cases hj : j = i
  · subst hj
    rw [Function.update_self, Function.update_self]
    exact ⟨q, out, slot, userData, hinv⟩
  · rw [Function.update_of_ne hj, Function.update_of_ne hj]
    obtain ⟨q', out', slot', userData', h'⟩ := h j
    exact ⟨q', out', slot', userData', h'.frame (hframe j hj).1 (hframe j hj).2.1 (hframe j hj).2.2⟩

/-- Steps at queue `i` that lose nothing. -/
theorem Inv.keep (h : s.Inv held) {tr : Traffic} {q : VirtQueue} {out : List Request}
    {slot : ℕ → Fin 128} {userData : ℕ → UInt64}
    (hinv : NetInv n i q tr out (held i) slot userData)
    (hframe : ∀ j ≠ i, n.queue j = s.net.queue j ∧ n.pending j = s.net.pending j ∧
      n.dmaPaddr = s.net.dmaPaddr)
    (ht : t.net = n) (htr : t.traffic = s.setTraffic i tr) : t.Inv held := by
  have hnew := h.update hinv hframe ht htr
  rwa [Function.update_eq_self] at hnew

/-- Steps that leave both queues alone. -/
theorem Inv.congr (h : s.Inv held) (hq : t.net.queue = s.net.queue)
    (hp : t.net.pending = s.net.pending) (hd : t.net.dmaPaddr = s.net.dmaPaddr)
    (ht : t.traffic = s.traffic) : t.Inv held := by
  intro j
  obtain ⟨q, out, slot, userData, h'⟩ := h j
  rw [ht]
  exact ⟨q, out, slot, userData, h'.frame (congrFun hq j) (congrFun hp j) hd⟩

end NetState

/-- What `submit` does with a request. -/
theorem NetInv.submit_cases {n : VirtIONet} {i : NetDir} {q : VirtQueue} {t : Traffic}
    {out : List Request} {held : List UInt16} {slot : ℕ → Fin 128} {userData : ℕ → UInt64}
    (h : NetInv n i q t out held slot userData) (sqe : Sqe) :
    (q.freeIds = [] ∧ n.submit i sqe = .ret (.error .oom, n)) ∨
    (∃ e q' lost, q.freeIds ≠ [] ∧ (q.freeIds.length = 1 ∨ dataPaddr n.buffer sqe = none) ∧
      n.submit i sqe = .ret (.error e, n.setQueue i q') ∧ SameRings q q' ∧ lost ≠ [] ∧
      NetInv (n.setQueue i q') i q' t out (lost ++ held) slot userData) ∨
    (∃ d1 d2 rest paddr, q.freeIds = d1 :: d2 :: rest ∧ dataPaddr n.buffer sqe = some paddr) := by
  match hids : q.freeIds with
  | [] => exact Or.inl ⟨rfl, h.submit_none hids sqe⟩
  | [d1] =>
    obtain ⟨q', hsub, hsame, hinv⟩ := h.submit_one hids sqe
    exact Or.inr (Or.inl ⟨_, q', [d1], by simp, Or.inl rfl, hsub, hsame, by simp, hinv⟩)
  | d1 :: d2 :: rest =>
    cases hd : dataPaddr n.buffer sqe with
    | none =>
      obtain ⟨q', hsub, hsame, -, hinv⟩ := h.submit_stray hids hd
      exact Or.inr (Or.inl ⟨_, q', [d2, d1], by simp, Or.inr rfl, hsub, hsame, by simp, hinv⟩)
    | some paddr => exact Or.inr (Or.inr ⟨d1, d2, rest, paddr, rfl, rfl⟩)

namespace NetState

variable {s t : NetState} {held : NetDir → List UInt16}

/-- Every step keeps the invariant.  Descriptors of queue `i` are lost only by a request that is
rejected while the queue has a free descriptor. -/
theorem Inv.step (h : s.Inv held) (hstep : NetStep s t) :
    ∃ held', t.Inv held' ∧ ∀ i, held' i ≠ held i → t.handed ≠ s.handed ∧
      ∃ sqe todo, s.phase = .submitting (sqe :: todo) ∧ netDir sqe.opcode = some i ∧
        s.net.Loses i sqe := by
  -- steps that lose nothing
  have keep : t.Inv held → ∃ held', t.Inv held' ∧ ∀ i, held' i ≠ held i → t.handed ≠ s.handed ∧
      ∃ sqe todo, s.phase = .submitting (sqe :: todo) ∧ netDir sqe.opcode = some i ∧
        s.net.Loses i sqe := fun h => ⟨held, h, fun i hne => absurd rfl hne⟩
  cases hstep with
  | client server sqe hs => exact keep (h.congr rfl rfl rfl rfl)
  | setup vaddr paddr size hp => exact keep (h.congr rfl rfl rfl rfl)
  | fetch server hp hs => exact keep (h.congr rfl rfl rfl rfl)
  | accept sqe todo i n q q' hp hn hi hq hq' =>
    rw [submitSqe_eq hi] at hn
    obtain ⟨q₀, out, slot, userData, h'⟩ := h i
    obtain rfl : q₀ = q := Option.some.inj (h'.queue.symm.trans hq)
    rcases h'.submit_cases sqe with ⟨-, hsub⟩ | ⟨e, q₁, lost, -, -, hsub, -⟩ |
      ⟨d1, d2, rest, paddr, hids, hd⟩
    · simp [hsub] at hn
    · simp [hsub] at hn
    obtain ⟨q₁, idx, hsub, havail, -, -, -, hinv⟩ := h'.submit_ok hids hd
    obtain ⟨-, rfl⟩ := Prod.mk.inj (Outcome.ret.inj (hsub.symm.trans hn))
    obtain rfl : q₁ = q' := Option.some.inj ((entered_queue _ _ _ _ _ _).symm.trans hq')
    exact keep (h.keep hinv (fun j hj => ⟨Function.update_of_ne hj _ _,
      Function.update_of_ne hj _ _, rfl⟩) rfl (by rw [havail]))
  | reject sqe todo e n hp hn =>
    cases hi : netDir sqe.opcode with
    | none =>
      rw [submitSqe_none hi] at hn
      obtain ⟨-, rfl⟩ := Prod.mk.inj (Outcome.ret.inj hn)
      exact keep (h.congr rfl rfl rfl rfl)
    | some i =>
      rw [submitSqe_eq hi] at hn
      obtain ⟨q, out, slot, userData, h'⟩ := h i
      rcases h'.submit_cases sqe with ⟨-, hsub⟩ | ⟨e', q', lost, hne, hwhy, hsub, -, -, hinv⟩ |
        ⟨d1, d2, rest, paddr, hids, hd⟩
      · obtain ⟨-, rfl⟩ := Prod.mk.inj (Outcome.ret.inj (hsub.symm.trans hn))
        exact keep (h.congr rfl rfl rfl rfl)
      · obtain ⟨-, rfl⟩ := Prod.mk.inj (Outcome.ret.inj (hsub.symm.trans hn))
        have hinv : NetInv ((s.net.setQueue i q').complete sqe.userData (-1)) i q' (s.traffic i) out
            (lost ++ held i) slot userData := hinv.frame rfl rfl rfl
        refine ⟨Function.update held i (lost ++ held i), ?_, fun j hj => ?_⟩
        · exact h.update hinv (fun j hj => ⟨Function.update_of_ne hj _ _, rfl, rfl⟩) rfl
            (Function.update_eq_self _ _).symm
        · by_cases hji : j = i
          · subst hji
            exact ⟨Nat.succ_ne_self _, sqe, todo, hp, hi, q, h'.queue, hne, hwhy⟩
          · exact absurd (Function.update_of_ne hji _ _) hj
      · obtain ⟨q', idx, hsub, -⟩ := h'.submit_ok hids hd
        simp [hsub] at hn
  | submitted hp => exact keep (h.congr rfl rfl rfl rfl)
  | irq hp => exact keep (h.congr rfl rfl rfl rfl)
  | pop i n hp hn =>
    obtain ⟨q, out, slot, userData, h'⟩ := h i
    have hlt := h'.pops_lt hn
    obtain ⟨r, -, d1, d2, q', -, -, hpop, -, hinv⟩ := h'.pop_some hlt
    obtain ⟨-, rfl⟩ := Prod.mk.inj (Outcome.ret.inj (hpop.symm.trans hn))
    exact keep (h.keep hinv (fun j hj => ⟨Function.update_of_ne hj _ _,
      Function.update_of_ne hj _ _, rfl⟩) rfl rfl)
  | popDone i n hp hn =>
    obtain ⟨q, out, slot, userData, h'⟩ := h i
    obtain ⟨-, rfl⟩ := h'.pops_eq hn
    exact keep (h.congr rfl rfl rfl rfl)
  | raise v => exact keep (h.congr rfl rfl rfl rfl)
  | write dma => exact keep (h.congr rfl rfl rfl rfl)
  | take i q hq hne =>
    obtain ⟨q₀, out, slot, userData, h'⟩ := h i
    obtain rfl : q₀ = q := Option.some.inj (h'.queue.symm.trans hq)
    exact keep (h.keep (h'.take hne) (fun j hj => ⟨rfl, rfl, rfl⟩) rfl rfl)
  | publish i q pos elem hq hc =>
    obtain ⟨q₀, out, slot, userData, h'⟩ := h i
    obtain rfl : q₀ = q := Option.some.inj (h'.queue.symm.trans hq)
    exact keep (h.keep (h'.publish hc)
      (fun j hj => ⟨Function.update_of_ne hj _ _, rfl, rfl⟩) rfl rfl)

/-- The invariant holds along every run. -/
theorem Inv.run (h : s.Inv held) (hrun : NetReach s t) : ∃ held', t.Inv held' := by
  induction hrun with
  | refl => exact ⟨held, h⟩
  | tail _ hstep ih =>
    obtain ⟨held', h'⟩ := ih
    obtain ⟨held'', h'', -⟩ := h'.step hstep
    exact ⟨held'', h''⟩

end NetState

end GlendaDrivers
