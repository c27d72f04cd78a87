import GlendaDrivers.Virtio.NetCompletion

/-!
# The data of the requests of the network driver

The device finds the data of a request behind the header, in the second descriptor of its chain.

* `Payload`, `VirtQueue.dataAt`, `VirtIONet.asks`: the data that the device finds, and those that
  the driver asks for;
* `NetStep.payload_kept`: the data of a request, as long as it is outstanding, stay where they are;
* `NetStep.adds`: what a step adds to the requests.
-/

namespace GlendaDrivers

open VirtQueue VirtIONet

/-- The data of a request: an address and a length. -/
structure Payload where
  addr : UInt64
  len : UInt32
  deriving DecidableEq

/-- The data of the request in the chain at `head`, behind the header. -/
def VirtQueue.dataAt (q : VirtQueue) (head : UInt16) : Payload :=
  let d := q.mem.desc (q.mem.desc head).next
  ⟨d.addr, d.len⟩

/-- The data of the request that the driver makes of `sqe`. -/
def VirtIONet.asks (n : VirtIONet) (sqe : Sqe) : Option Payload :=
  (dataPaddr n.buffer sqe).map fun paddr => ⟨paddr, sqe.len⟩

/-! ### Requests that are outstanding -/

/-- `alloc_desc` writes nothing. -/
theorem VirtQueue.allocDesc_mem {q q' : VirtQueue} {r : Option UInt16}
    (h : q.allocDesc = .ret (r, q')) : q'.mem = q.mem := by
  unfold allocDesc at h
  split_ifs at h
  · obtain ⟨-, rfl⟩ := Prod.mk.inj (Outcome.ret.inj h)
    rfl
  · obtain ⟨d, -, h⟩ := Outcome.bind_eq_ret.1 h
    obtain ⟨-, rfl⟩ := Prod.mk.inj (Outcome.ret.inj h)
    rfl

/-- A rejected request writes nothing. -/
theorem VirtIONet.submit_error {n n' : VirtIONet} {i : NetDir} {sqe : Sqe} {e : VirtIOError}
    (h : n.submit i sqe = .ret (.error e, n')) :
    n' = n ∨ ∃ q q', n.queue i = some q ∧ n' = n.setQueue i q' ∧ q'.mem = q.mem := by
  unfold submit at h
  cases hq : n.queue i with
  | none =>
    rw [hq] at h
    exact .inl (Prod.mk.inj (Outcome.ret.inj h)).2.symm
  | some q =>
    rw [hq] at h
    obtain ⟨⟨r1, q1⟩, h1, h⟩ := Outcome.bind_eq_ret.1 h
    have hm1 := VirtQueue.allocDesc_mem h1
    cases r1 with
    | none => exact .inr ⟨q, q1, rfl, (Prod.mk.inj (Outcome.ret.inj h)).2.symm, hm1⟩
    | some d1 =>
      obtain ⟨⟨r2, q2⟩, h2, h⟩ := Outcome.bind_eq_ret.1 h
      have hm2 := (VirtQueue.allocDesc_mem h2).trans hm1
      cases r2 with
      | none => exact .inr ⟨q, q2, rfl, (Prod.mk.inj (Outcome.ret.inj h)).2.symm, hm2⟩
      | some d2 =>
        cases hd : dataPaddr n.buffer sqe with
        | none =>
          rw [hd] at h
          exact .inr ⟨q, q2, rfl, (Prod.mk.inj (Outcome.ret.inj h)).2.symm, hm2⟩
        | some paddr =>
          by_cases hlt : d1.toNat < 128
          · simp [hd, hlt] at h
          · simp [hd, hlt] at h

section Frame

variable {s t : NetState} {before : List (UInt64 × Int32)} {i : NetDir} {q q' : VirtQueue}
  {out : List Request} {held : List UInt16} {slot : ℕ → Fin 128} {userData : ℕ → UInt64}
  {r : Request}

/-- A popped entry leaves the descriptors of the requests alone that it does not answer. -/
theorem NetInv.pop_desc {n n' : VirtIONet} {tr : Traffic}
    (h : NetInv n i q tr out held slot userData) (hn : n.popCompletion i = .ret (true, n'))
    (hr : r ∈ out) (hnm : r.pos ∉ tr.pop.popped) :
    ∃ q', n'.queue i = some q' ∧ ∀ x ∈ r.chain, q'.mem.desc x = q.mem.desc x := by
  have hp := h.pops_lt hn
  obtain ⟨r', hr', head, hpos, hhead, hpop, hinv⟩ := h.traffic.pop hp
  obtain ⟨d1, d2, _, _, hc, hval, -⟩ := h.chain r' hr'
  obtain rfl : d1 = head := by simpa [hc] using hhead
  obtain ⟨x, hx, he⟩ := h.pending.entry r' hr'
  obtain rfl := Option.some.inj (hhead.symm.trans hx)
  obtain ⟨q', hq', -, -, -, hdesc⟩ := hinv.freeChain (h.traffic.linked r' hr') hhead
  have hid : d1.toUInt32.toNat = (slot r'.pos).val := by rw [UInt16.toNat_toUInt32, hval]
  have hlt : d1.toUInt32.toNat < 128 := hid ▸ (slot r'.pos).isLt
  have hslot : (⟨d1.toUInt32.toNat, hlt⟩ : Fin 128) = slot r'.pos := Fin.ext hid
  simp only [popCompletion, h.queue, hpop, dif_pos hlt, hslot, he, hq', Outcome.ret_bind] at hn
  obtain ⟨-, rfl⟩ := Prod.mk.inj (Outcome.ret.inj hn)
  rw [tr.popped_pop hp, ← hpos, List.mem_append, not_or, List.mem_singleton] at hnm
  have hne : r ≠ r' := by
    rintro rfl
    exact hnm.2 rfl
  exact ⟨q', setQueue_queue _ _ _, hdesc r ((List.mem_erase_of_ne hne).2 hr)⟩

/-- Every step leaves the descriptors of the requests alone that stay outstanding. -/
theorem NetStep.desc_kept (hs : s.Account before)
    (h : NetInv s.net i q (s.traffic i) out held slot userData) (hstep : NetStep s t) (hr : r ∈ out)
    (hnm : r.pos ∉ (t.traffic i).popped) :
    ∃ q', t.net.queue i = some q' ∧ ∀ x ∈ r.chain, q'.mem.desc x = q.mem.desc x := by
  have same : ∀ {n : VirtIONet}, n.queue = s.net.queue →
      ∃ q', n.queue i = some q' ∧ ∀ x ∈ r.chain, q'.mem.desc x = q.mem.desc x :=
    fun hq => ⟨q, (congrFun hq i).trans h.queue, fun _ _ => rfl⟩
  cases hstep with
  | client server sqe hserver => exact same rfl
  | setup vaddr paddr size hp => exact same rfl
  | fetch server hp hserver => exact same rfl
  | accept sqe todo j n q₀ q₁ hp hn hj hq₀ hq₁ =>
    rw [submitSqe_eq hj] at hn
    obtain ⟨q₂, out', held', slot', userData', h', -⟩ := hs.served j
    rcases h'.submit_cases sqe with ⟨-, hsub⟩ | ⟨e, q₃, lost, -, -, hsub, -⟩ |
      ⟨d1, d2, rest, paddr, hids, hd⟩
    · simp [hsub] at hn
    · simp [hsub] at hn
    obtain ⟨q₃, idx, hsub, -, htraffic, -, -, -, hdesc⟩ := h'.submit_packet hids hd
    obtain ⟨-, rfl⟩ := Prod.mk.inj (Outcome.ret.inj (hsub.symm.trans hn))
    by_cases hij : i = j
    · subst hij
      obtain rfl : q = q₂ := Option.some.inj (h.queue.symm.trans h'.queue)
      refine ⟨_, entered_queue _ _ _ _ _ _, fun x hx => hdesc x fun hx' => ?_⟩
      -- the new descriptors were free
      obtain ⟨h1, hids1, hinv1⟩ := h.traffic.allocDesc hids
      obtain ⟨h2, hids2, hinv2⟩ := hinv1.allocDesc hids1
      refine hinv2.notMem_held hr hx (List.mem_append_left held (?_ : x ∈ [d2, d1]))
      simpa [or_comm] using hx'
    · exact ⟨q, (Function.update_of_ne hij _ _).trans h.queue, fun _ _ => rfl⟩
  | reject sqe todo e n hp hn =>
    cases hj : netDir sqe.opcode with
    | none =>
      rw [submitSqe_none hj] at hn
      obtain ⟨-, rfl⟩ := Prod.mk.inj (Outcome.ret.inj hn)
      exact same rfl
    | some j =>
      rw [submitSqe_eq hj] at hn
      rcases submit_error hn with rfl | ⟨q₀, q₁, hq₀, rfl, hmem⟩
      · exact same rfl
      · by_cases hij : i = j
        · subst hij
          obtain rfl : q = q₀ := Option.some.inj (h.queue.symm.trans hq₀)
          exact ⟨q₁, setQueue_queue _ _ _, fun x _ => by rw [hmem]⟩
        · exact ⟨q, (Function.update_of_ne hij _ _).trans h.queue, fun _ _ => rfl⟩
  | submitted hp => exact same rfl
  | irq hp => exact same rfl
  | pop j n hp hn =>
    by_cases hij : i = j
    · subst hij
      replace hnm : r.pos ∉ (s.setTraffic i (s.traffic i).pop i).popped := hnm
      rw [NetState.setTraffic_self] at hnm
      exact h.pop_desc hn hr hnm
    · obtain ⟨q₂, out', held', slot', userData', h', -⟩ := hs.served j
      have hlt := h'.pops_lt hn
      obtain ⟨r', -, d1, d2, q₃, -, -, hpop, -⟩ := h'.pop_some hlt
      obtain ⟨-, rfl⟩ := Prod.mk.inj (Outcome.ret.inj (hpop.symm.trans hn))
      exact ⟨q, (Function.update_of_ne hij _ _).trans h.queue, fun _ _ => rfl⟩
  | popDone j n hp hn =>
    obtain ⟨q₂, out', held', slot', userData', h', -⟩ := hs.served j
    obtain ⟨-, rfl⟩ := h'.pops_eq hn
    exact same rfl
  | raise v => exact same rfl
  | write dma => exact same rfl
  | take j q₀ hq₀ hne => exact same rfl
  | publish j q₀ pos elem hq₀ hc =>
    by_cases hij : i = j
    · subst hij
      obtain rfl : q = q₀ := Option.some.inj (h.queue.symm.trans hq₀)
      exact ⟨_, setQueue_queue _ _ _, fun _ _ => rfl⟩
    · exact ⟨q, (Function.update_of_ne hij _ _).trans h.queue, fun _ _ => rfl⟩

/-- What was popped stays popped. -/
theorem NetStep.popped_subset (hs : s.Account before) (hstep : NetStep s t) {pos : ℕ}
    (h : pos ∈ (s.traffic i).popped) : pos ∈ (t.traffic i).popped := by
  -- queue `j` sees `tr`, where what was popped is still popped
  have main : ∀ {j : NetDir} {tr : Traffic},
      (pos ∈ (s.traffic j).popped → pos ∈ tr.popped) → pos ∈ (s.setTraffic j tr i).popped := by
    intro j tr htr
    by_cases hij : i = j
    · subst hij
      rw [NetState.setTraffic_self]
      exact htr h
    · rw [NetState.setTraffic_of_ne s hij]
      exact h
  cases hstep with
  | accept sqe todo j n q₀ q₁ hp hn hj hq₀ hq₁ => exact main fun h => h
  | pop j n hp hn =>
    refine main fun h => ?_
    obtain ⟨q₂, out', held', slot', userData', h', -⟩ := hs.served j
    rw [(s.traffic j).popped_pop (h'.pops_lt hn)]
    exact List.mem_append_left _ h
  | take j q₀ hq₀ hne => exact main fun h => h
  | publish j q₀ pos' elem hq₀ hc =>
    refine main fun h => ?_
    obtain ⟨q₂, out', held', slot', userData', h', -⟩ := hs.served j
    rw [(s.traffic j).popped_publish h'.traffic.pops_le]
    exact h
  | _ => exact h

/-- A request that stays outstanding has the same data. -/
theorem NetStep.payload_kept (hs : s.Account before) (hstep : NetStep s t)
    (hq : s.net.queue i = some q) (hq' : t.net.queue i = some q') {pos : ℕ} {head : UInt16}
    (hhead : (s.traffic i).submitted[pos]? = some head) (hnm : pos ∉ (t.traffic i).popped) :
    q'.dataAt head = q.dataAt head := by
  obtain ⟨q₀, out, held, slot, userData, h, -⟩ := hs.served i
  obtain rfl : q = q₀ := Option.some.inj (hq.symm.trans h.queue)
  obtain ⟨r, hr, rfl⟩ := List.mem_map.1 ((h.traffic.mem_out pos).2
    ⟨(List.getElem?_eq_some_iff.1 hhead).1, fun hm => hnm (hstep.popped_subset hs hm)⟩)
  obtain ⟨q₁, hq₁, hdesc⟩ := hstep.desc_kept hs h hr hnm
  obtain rfl : q' = q₁ := Option.some.inj (hq'.symm.trans hq₁)
  obtain ⟨d1, d2, paddr, len, hc, -, hpacket⟩ := h.chain r hr
  have hhead' := (h.traffic.head r hr).trans hhead
  rw [hc] at hhead' hdesc
  obtain rfl := Option.some.inj hhead'
  have hnext : (q.mem.desc d1).next = d2 := by rw [hpacket.header]
  rw [VirtQueue.dataAt, VirtQueue.dataAt, hdesc d1 (by simp), hnext, hdesc d2 (by simp)]

/-- A new request has the data that the driver asks for. -/
theorem NetState.Account.accept_asks (hs : s.Account before) {sqe : Sqe} {n : VirtIONet}
    (hi : netDir sqe.opcode = some i) (hn : s.net.submitSqe sqe = .ret (.ok (), n))
    (hq : s.net.queue i = some q) (hq' : n.queue i = some q') :
    s.net.asks sqe = some (q'.dataAt (q'.readAvail q.mem.availIdx)) := by
  rw [submitSqe_eq hi] at hn
  obtain ⟨q₀, out, held, slot, userData, h, -⟩ := hs.served i
  obtain rfl : q = q₀ := Option.some.inj (hq.symm.trans h.queue)
  rcases h.submit_cases sqe with ⟨-, hsub⟩ | ⟨e, q₃, lost, -, -, hsub, -⟩ |
    ⟨d1, d2, rest, paddr, hids, hd⟩
  · simp [hsub] at hn
  · simp [hsub] at hn
  obtain ⟨q₁, idx, hsub, havail, -, hnext, hpayload, -⟩ := h.submit_ok hids hd
  obtain ⟨-, rfl⟩ := Prod.mk.inj (Outcome.ret.inj (hsub.symm.trans hn))
  obtain rfl : q₁ = q' := Option.some.inj ((entered_queue _ _ _ _ _ _).symm.trans hq')
  rw [VirtIONet.asks, hd, havail, VirtQueue.dataAt, hnext, hpayload]
  rfl

/-- What a step adds to the history of queue `i`: nothing, or one request. -/
inductive NetStep.Adds (s t : NetState) (i : NetDir) : Prop
  | nothing (ha : t.accepted i = s.accepted i)
      (hs : (t.traffic i).submitted = (s.traffic i).submitted)
  | request {sqe : Sqe} {p : Payload} {q : VirtQueue} {head : UInt16}
      (ha : t.accepted i = s.accepted i ++ [s.handed]) (hget : s.fetched[s.handed]? = some sqe)
      (hs : (t.traffic i).submitted = (s.traffic i).submitted ++ [head])
      (hasks : s.net.asks sqe = some p) (hq : t.net.queue i = some q) (hp : q.dataAt head = p)

theorem NetStep.adds (hs : s.Account before) (hstep : NetStep s t) (i : NetDir) :
    NetStep.Adds s t i := by
  -- queue `j` sees `tr`, and no request is submitted
  have same : ∀ {j : NetDir} {tr : Traffic}, tr.submitted = (s.traffic j).submitted →
      (s.setTraffic j tr i).submitted = (s.traffic i).submitted :=
    fun htr => NetState.forall_setTraffic (p := fun i tr => tr.submitted = (s.traffic i).submitted)
      htr (fun _ _ => rfl) i
  cases hstep with
  | accept sqe todo j n q₀ q₁ hp hn hj hq₀ hq₁ =>
    by_cases hij : i = j
    · subst hij
      refine .request (Function.update_self _ _ _) (hs.next hp).1 ?_ (hs.accept_asks hj hn hq₀ hq₁)
        hq₁ rfl
      exact congrArg Traffic.submitted (NetState.setTraffic_self _ _ _)
    · refine .nothing (Function.update_of_ne hij _ _) ?_
      exact congrArg Traffic.submitted (NetState.setTraffic_of_ne _ hij _)
  | pop j n hp hn => exact .nothing rfl (same rfl)
  | take j q₀ hq₀ hne => exact .nothing rfl (same rfl)
  | publish j q₀ pos elem hq₀ hc => exact .nothing rfl (same rfl)
  | _ => exact .nothing rfl rfl

theorem NetStep.fetched_prefix (hstep : NetStep s t) : s.fetched <+: t.fetched := by
  cases hstep with
  | fetch server hp hserver => exact List.prefix_append _ _
  | _ => exact List.prefix_rfl

/-- Completions are only added. -/
theorem NetStep.calls_prefix (hstep : NetStep s t) : s.calls <+: t.calls := by
  cases hstep with
  | accept sqe todo j n q₀ q₁ hp hn hj hq₀ hq₁ => exact List.prefix_append _ _
  | reject sqe todo e n hp hn => exact List.prefix_append _ _
  | pop j n hp hn => exact List.prefix_append _ _
  | _ => exact List.prefix_rfl

end Frame

end GlendaDrivers
