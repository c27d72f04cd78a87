import GlendaDrivers.Virtio.Layout
import GlendaDrivers.Virtio.NetAccount
import GlendaDrivers.Virtio.NetConservation

/-!
# Every request of the network driver is completed once

* `NetDir.result`: the result that a client is owed;
* `VirtIONet.headerSlot`, `VirtQueue.area`: what a request and a queue occupy of the DMA memory;
* `NetState.Fate`: what has become of a fetched request;
* `net_exactly_once`: the fates of all requests in every reachable state.
-/

namespace GlendaDrivers

open VirtQueue VirtIONet

/-- The result of a request whose chain the device used `len` bytes of. -/
def NetDir.result : NetDir → ℕ → Int32
  | .rx, len => (UInt32.ofNat (len - sizeOfVirtioNetHdr)).toInt32
  | .tx, _ => 0

theorem resultLen_eq (i : NetDir) (len : UInt32) : resultLen i len = i.result len.toNat := by
  cases i with
  | tx => rfl
  | rx =>
    show (if len.toNat > 10 then (len - UInt32.ofNat 10).toInt32 else 0) =
      (UInt32.ofNat (len.toNat - 10)).toInt32
    split_ifs with h
    · have hle : UInt32.ofNat 10 ≤ len := UInt32.le_iff_toNat_le.2 (le_of_lt h)
      have hsub : len - UInt32.ofNat 10 = UInt32.ofNat (len.toNat - 10) := by
        rw [← UInt32.toNat_inj, UInt32.toNat_sub_of_le _ _ hle, UInt32.toNat_ofNat']
        have := len.toNat_lt
        exact (Nat.mod_eq_of_lt (show len.toNat - 10 < 2 ^ 32 by omega)).symm
      rw [hsub]
    · rw [Nat.sub_eq_zero_of_le (Nat.not_lt.1 h)]
      rfl

/-! ### The DMA memory -/

/-- The bytes of the DMA memory that the request with head `d1` in queue `i` occupies. -/
def VirtIONet.headerSlot (n : VirtIONet) (i : NetDir) (d1 : UInt16) : Set UInt64 :=
  Bytes.span (n.dmaPaddr + hdrOffset i d1) 16

/-- The areas of a queue, as the device sees them. -/
def VirtQueue.area (q : VirtQueue) : Set UInt64 :=
  q.descArea q.paddr ∪ q.availArea q.paddr ∪ q.usedArea q.paddr

/-- Headers lie in the page of their queue. -/
theorem toNat_hdrOffset (i : NetDir) {d1 : UInt16} (hd : d1.toNat < 128) :
    (hdrOffset i d1).toNat = i.qidx.toNat * 4096 + 16 * d1.toNat := by
  have hq : i.qidx.toNat ≤ 1 := by cases i <;> decide
  rw [hdrOffset, UInt64.toNat_add, UInt64.toNat_mul, UInt64.toNat_mul, UInt32.toNat_toUInt64,
    UInt16.toNat_toUInt64]
  show (i.qidx.toNat * 4096 % 2 ^ 64 + d1.toNat * 16 % 2 ^ 64) % 2 ^ 64 = _
  omega

/-- Different heads or queues have different headers. -/
theorem disjoint_headerSlot (n : VirtIONet) {i j : NetDir} {d1 e1 : UInt16}
    (hd : d1.toNat < 128) (he : e1.toNat < 128) (hne : i = j → d1 ≠ e1) :
    Disjoint (n.headerSlot i d1) (n.headerSlot j e1) := by
  have hdo := toNat_hdrOffset i hd
  have heo := toNat_hdrOffset j he
  have hi : i.qidx.toNat ≤ 1 := by cases i <;> decide
  have hj : j.qidx.toNat ≤ 1 := by cases j <;> decide
  have hoff : i.qidx.toNat ≠ j.qidx.toNat ∨ d1.toNat ≠ e1.toNat := by
    by_cases hij : i = j
    · exact Or.inr fun h => hne hij (UInt16.toNat_inj.1 h)
    · refine Or.inl ?_
      cases i <;> cases j
      · exact absurd rfl hij
      · decide
      · decide
      · exact absurd rfl hij
  rcases Nat.lt_or_gt_of_ne (show (hdrOffset i d1).toNat ≠ (hdrOffset j e1).toNat by omega)
    with hlt | hgt
  · apply Bytes.disjoint_span
    · omega
    · omega
  · apply Disjoint.symm
    apply Bytes.disjoint_span
    · omega
    · omega

/-- Headers lie before the queues. -/
theorem disjoint_area {n : VirtIONet} {q : VirtQueue} {i j : NetDir} {d1 : UInt16}
    (hd : d1.toNat < 128) (hnum : q.num = 128) (hq : q.paddr = n.dmaPaddr + j.queueOffset) :
    Disjoint (n.headerSlot i d1) q.area := by
  have hdo := toNat_hdrOffset i hd
  have hi : i.qidx.toNat ≤ 1 := by cases i <;> decide
  have hj : 8192 ≤ j.queueOffset.toNat ∧ j.queueOffset.toNat ≤ 12288 := by cases j <;> decide
  have hsub : q.area ⊆ Bytes.span (n.dmaPaddr + j.queueOffset) 4096 := by
    rw [← hq]
    apply areas_subset
    rw [hnum]
    decide
  refine Disjoint.mono_right hsub ?_
  apply Bytes.disjoint_span
  · omega
  · omega

/-! ### The fates -/

namespace NetState

/-- Request `n` is in queue `i`: it has the entry of the table of queue `i` at the head of its
chain of two descriptors, of which the first points to the header of that head. -/
structure Pending (s : NetState) (n : ℕ) (sqe : Sqe) (i : NetDir) (d1 d2 : UInt16) : Prop where
  dir : netDir sqe.opcode = some i
  position : ∃ pos, (s.accepted i)[pos]? = some n ∧ pos ∉ (s.traffic i).popped ∧
    (s.traffic i).submitted[pos]? = some d1
  entry : ∃ idx : Fin 128, idx.val = d1.toNat ∧ s.net.pending i idx = some (sqe.userData, d1)
  chain : ∃ q paddr len, s.net.queue i = some q ∧
    IsPacket q.mem.desc s.net.dmaPaddr i paddr len d1 d2

/-- What has become of the fetched request `n`. -/
inductive Fate (s : NetState) (n : ℕ) (sqe : Sqe) : Prop
  /-- It was fetched, and `submit` was not called for it yet. -/
  | waiting (hn : s.handed ≤ n) (hcalls : callsOf s.calls n = [])
  /-- Its submission failed. -/
  | rejected (hn : n < s.handed) (hacc : ∀ i, n ∉ s.accepted i)
      (hcalls : callsOf s.calls n = [(sqe.userData, -1)])
  /-- It is in the queue of its direction. -/
  | pending (i : NetDir) (d1 d2 : UInt16) (h : s.Pending n sqe i d1 d2)
      (hcalls : callsOf s.calls n = [])
  /-- The device published its head with `elem`, and this entry was popped. -/
  | completed (i : NetDir) (pos : ℕ) (elem : UsedElem) (hi : netDir sqe.opcode = some i)
      (hacc : (s.accepted i)[pos]? = some n) (hpos : (pos, elem) ∈ (s.traffic i).answers)
      (hcalls : callsOf s.calls n = [(sqe.userData, i.result elem.len.toNat)])

namespace Account

variable {s : NetState} {before : List (UInt64 × Int32)} {i j : NetDir} {n : VirtIONet}
  {sqe sqe' : Sqe} {m k : ℕ} {d1 d2 e1 e2 : UInt16}

/-- An outstanding request is pending. -/
theorem pending_of_mem (h : s.Account before) {q : VirtQueue} {out : List Request}
    {held : List UInt16} {slot : ℕ → Fin 128} {userData : ℕ → UInt64}
    (hinv : NetInv s.net i q (s.traffic i) out held slot userData)
    (hnamed : ∀ pos n sqe, (s.accepted i)[pos]? = some n → s.fetched[n]? = some sqe →
      userData pos = sqe.userData) {r : Request} (hr : r ∈ out) :
    ∃ m sqe d1 d2, (s.accepted i)[r.pos]? = some m ∧ s.fetched[m]? = some sqe ∧
      r.chain = [d1, d2] ∧ s.Pending m sqe i d1 d2 := by
  obtain ⟨order, done, place, result, hbooks⟩ := h.books
  have hlt : r.pos < (s.accepted i).length := h.length i ▸ hinv.traffic.pos_lt hr
  obtain ⟨m, hacc⟩ : ∃ m, (s.accepted i)[r.pos]? = some m := ⟨_, List.getElem?_eq_getElem hlt⟩
  have hmem := List.mem_of_getElem? hacc
  obtain ⟨sqe, hget⟩ := hbooks.exists_sqe hmem
  obtain ⟨d1, d2, p, len, hc, hval, hpkt⟩ := hinv.chain r hr
  obtain ⟨head, hhead, he⟩ := hinv.pending.entry r hr
  obtain rfl : d1 = head := by simpa [hc] using hhead
  have hsub := hinv.traffic.head r hr
  rw [hhead] at hsub
  have hnp := ((hinv.traffic.mem_out r.pos).1 (List.mem_map_of_mem hr)).2
  rw [hnamed r.pos _ _ hacc hget] at he
  exact ⟨m, sqe, d1, d2, hacc, hget, hc,
    { dir := hbooks.dir i m sqe hmem hget
      position := ⟨r.pos, hacc, hnp, hsub.symm⟩
      entry := ⟨slot r.pos, hval, he⟩
      chain := ⟨q, p, len, hinv.queue, hpkt⟩ }⟩

/-- Two pending requests of one queue have different heads. -/
theorem pending_ne (h : s.Account before) (hp : s.Pending m sqe i d1 d2)
    (hp' : s.Pending k sqe' i e1 e2) (hmk : m ≠ k) : d1 ≠ e1 := by
  rintro rfl
  obtain ⟨q, out, held, slot, userData, hinv, -⟩ := h.served i
  obtain ⟨pos, hacc, hnp, hsub⟩ := hp.position
  obtain ⟨pos', hacc', hnp', hsub'⟩ := hp'.position
  obtain ⟨r, hr, rfl⟩ := List.mem_map.1 ((hinv.traffic.mem_out pos).2
    ⟨(List.getElem?_eq_some_iff.1 hsub).1, hnp⟩)
  obtain ⟨r', hr', rfl⟩ := List.mem_map.1 ((hinv.traffic.mem_out pos').2
    ⟨(List.getElem?_eq_some_iff.1 hsub').1, hnp'⟩)
  have hhead := (hinv.traffic.head r hr).trans hsub
  have hhead' := (hinv.traffic.head r' hr').trans hsub'
  obtain rfl := hinv.traffic.eq_of_mem_chain hr hr'
    (List.mem_of_mem_head? (by rw [hhead]; rfl)) (List.mem_of_mem_head? (by rw [hhead']; rfl))
  exact hmk (Option.some.inj (hacc.symm.trans hacc'))

/-- The head of a pending request is a number of the queue. -/
theorem head_lt (hp : s.Pending m sqe i d1 d2) : d1.toNat < 128 := by
  obtain ⟨idx, hidx, -⟩ := hp.entry
  exact hidx ▸ idx.isLt

/-- Every fetched request has a fate. -/
theorem fate (h : s.Account before) (hm : s.fetched[m]? = some sqe) : s.Fate m sqe := by
  obtain ⟨order, done, place, result, hbooks⟩ := h.books
  rcases Nat.lt_or_ge m s.handed with hlt | hge
  swap
  · exact .waiting hge (hbooks.ledger.waiting hge)
  by_cases hacc : ∃ i, m ∈ s.accepted i
  swap
  · refine .rejected hlt (fun i hi => hacc ⟨i, hi⟩) (hbooks.ledger.rejected m sqe hm hlt ?_)
    exact fun hmem => hacc (hbooks.interleaved.mem m hmem)
  obtain ⟨i, hmem⟩ := hacc
  obtain ⟨pos, hpos⟩ := List.getElem?_of_mem hmem
  have hplace := hbooks.interleaved.getElem?_place hpos
  have hdone := hbooks.interleaved.done i pos (List.getElem?_eq_some_iff.1 hpos).1
  by_cases hpop : pos ∈ (s.traffic i).popped
  · obtain ⟨⟨_, elem⟩, helem, rfl⟩ := List.mem_map.1 hpop
    obtain ⟨v, hv, hcalls⟩ := hbooks.ledger.done _ m sqe hplace hm (hdone.2 hpop)
    obtain rfl := Option.some.inj ((hbooks.result i _ helem).symm.trans hv)
    rw [resultLen_eq] at hcalls
    exact .completed i _ elem (hbooks.dir i m sqe hmem hm) hpos helem hcalls
  · obtain ⟨q, out, held, slot, userData, hinv, hnamed⟩ := h.served i
    have hlt := (List.getElem?_eq_some_iff.1 hpos).1
    rw [h.length i] at hlt
    obtain ⟨r, hr, rfl⟩ := List.mem_map.1 ((hinv.traffic.mem_out pos).2 ⟨hlt, hpop⟩)
    obtain ⟨m', sqe', d1, d2, hacc', hget, -, hp⟩ := h.pending_of_mem hinv hnamed hr
    obtain rfl := Option.some.inj (hpos.symm.trans hacc')
    obtain rfl := Option.some.inj (hm.symm.trans hget)
    exact .pending i d1 d2 hp
      (hbooks.ledger.pending _ m hplace fun hmem => hpop (hdone.1 hmem))

/-- A pop that takes an entry completes the pending request that the entry answers, and frees
its two descriptors. -/
theorem completes (h : s.Account before) (hn : s.net.popCompletion i = .ret (true, n)) :
    ∃ sqe d1 d2 idx q q', s.fetched[s.answered i]? = some sqe ∧
      s.Pending (s.answered i) sqe i d1 d2 ∧ idx.val = d1.toNat ∧
      s.net.queue i = some q ∧ q'.freeIds = [d2, d1] ++ q.freeIds ∧
      n.queue = Function.update s.net.queue i (some q') ∧
      n.pending = Function.update s.net.pending i
        (Function.update (s.net.pending i) idx none) := by
  obtain ⟨q, out, held, slot, userData, hinv, hnamed⟩ := h.served i
  have hlt := hinv.pops_lt hn
  obtain ⟨r, hr, d1, d2, q', hpos, hc, hpop, hids, -⟩ := hinv.pop_some hlt
  obtain ⟨-, rfl⟩ := Prod.mk.inj (Outcome.ret.inj (hpop.symm.trans hn))
  obtain ⟨m, sqe, e1, e2, hacc, hget, hc', hp⟩ := h.pending_of_mem hinv hnamed hr
  obtain ⟨rfl, rfl⟩ : d1 = e1 ∧ d2 = e2 := by simpa [hc] using hc'
  obtain ⟨_, _, _, _, hc'', hval, -⟩ := hinv.chain r hr
  obtain ⟨rfl, rfl⟩ : d1 = _ ∧ d2 = _ := by simpa [hc] using hc''
  have hanswered : s.answered i = m := by
    simp [answered, List.getElem?_eq_getElem hlt, ← hpos, hacc]
  rw [hanswered]
  exact ⟨sqe, d1, d2, slot r.pos, q, q', hget, hp, hval, hinv.queue, hids, rfl, rfl⟩

/-- No call panics. -/
theorem submit_returns (h : s.Account before) (i : NetDir) (sqe : Sqe) :
    (s.net.submit i sqe).Returns := by
  obtain ⟨q, out, held, slot, userData, hinv, -⟩ := h.served i
  rcases hinv.submit_cases sqe with ⟨-, hsub⟩ | ⟨e, q', lost, -, -, hsub, -⟩ |
    ⟨d1, d2, rest, paddr, hids, hd⟩
  · exact ⟨_, hsub⟩
  · exact ⟨_, hsub⟩
  · obtain ⟨q', idx, hsub, -⟩ := hinv.submit_ok hids hd
    exact ⟨_, hsub⟩

theorem pop_returns (h : s.Account before) (i : NetDir) : (s.net.popCompletion i).Returns := by
  obtain ⟨q, out, held, slot, userData, hinv, -⟩ := h.served i
  rcases Nat.lt_or_ge (s.traffic i).pops (s.traffic i).published.length with hlt | hge
  · obtain ⟨r, -, d1, d2, q', -, -, hpop, -⟩ := hinv.pop_some hlt
    exact ⟨_, hpop⟩
  · exact ⟨_, hinv.pop_none (le_antisymm hinv.traffic.pops_le hge)⟩

end Account

end NetState

/-- **Exactly-once completion of the network driver.**  After every run of the driver's two
entry points and a conforming device, in any interleaving: every fetched request waits or is
pending in the table of its direction without a completion, or it has received exactly one, with
its own user data, and with -1 if its submission failed and otherwise the result of its direction
and of the length the device published.  All completions are for fetched requests, the entries of
both tables are the pending requests of their direction, at the heads of their chains, whose
headers lie apart from each other and from both queues, and popping an entry frees the chain of
the request that it answers and nothing else.  No call panics. -/
theorem net_exactly_once {n : VirtIONet} (hn : n.Started) {s : NetState}
    (hs : NetReach (.start n) s) :
    (∀ m sqe, s.fetched[m]? = some sqe → s.Fate m sqe) ∧
    ((∀ c ∈ s.calls, c.1 < s.fetched.length) ∧
      s.net.completions = n.completions ++ s.calls.map Prod.snd) ∧
    (∀ i idx info, s.net.pending i idx = some info → idx.val = info.2.toNat ∧
      ∃ m sqe d2, s.fetched[m]? = some sqe ∧ sqe.userData = info.1 ∧
        s.Pending m sqe i info.2 d2) ∧
    (∀ m sqe i d1 d2, s.Pending m sqe i d1 d2 →
      (∀ k sqe' j e1 e2, s.Pending k sqe' j e1 e2 → m ≠ k →
        Disjoint (s.net.headerSlot i d1) (s.net.headerSlot j e1)) ∧
      ∀ j q, s.net.queue j = some q → Disjoint (s.net.headerSlot i d1) q.area) ∧
    (∀ i n', s.net.popCompletion i = .ret (true, n') → ∃ sqe d1 d2 idx q q',
      s.fetched[s.answered i]? = some sqe ∧ s.Pending (s.answered i) sqe i d1 d2 ∧
      idx.val = d1.toNat ∧ s.net.queue i = some q ∧ q'.freeIds = [d2, d1] ++ q.freeIds ∧
      n'.queue = Function.update s.net.queue i (some q') ∧
      n'.pending = Function.update s.net.pending i
        (Function.update (s.net.pending i) idx none)) ∧
    ∀ i, (∀ sqe, (s.net.submit i sqe).Returns) ∧ (s.net.popCompletion i).Returns := by
  have h := (NetState.Account.start hn).run hs
  obtain ⟨order, done, place, result, hbooks⟩ := h.books
  refine ⟨fun m sqe hm => h.fate hm, ⟨fun c hc => ?_, h.posted⟩, fun i idx info hi => ?_,
    fun m sqe i d1 d2 hp => ⟨fun k sqe' j e1 e2 hp' hmk => ?_, fun j q hq => ?_⟩,
    fun i n' hn' => h.completes hn', fun i => ⟨h.submit_returns i, h.pop_returns i⟩⟩
  · exact (hbooks.ledger.calls_lt c hc).trans_le hbooks.ledger.handed_le
  · obtain ⟨q, out, held, slot, userData, hinv, hnamed⟩ := h.served i
    obtain ⟨r, hr, rfl, hud, hhead⟩ := hinv.pending.eq_some hi
    obtain ⟨m, sqe, d1, d2, hacc, hget, hc, hp⟩ := h.pending_of_mem hinv hnamed hr
    obtain rfl : d1 = info.2 := by simpa [hc] using hhead
    obtain ⟨e1, e2, _, _, hc', hval, -⟩ := hinv.chain r hr
    obtain ⟨rfl, rfl⟩ : e1 = _ ∧ e2 = _ := by simpa [hc] using hc'.symm
    exact ⟨hval, m, sqe, e2, hget, (hnamed _ _ _ hacc hget).symm.trans hud, hp⟩
  · apply disjoint_headerSlot s.net (NetState.Account.head_lt hp) (NetState.Account.head_lt hp')
    rintro rfl
    exact h.pending_ne hp hp' hmk
  · obtain ⟨q', out, held, slot, userData, hinv, -⟩ := h.served j
    obtain rfl : q' = q := Option.some.inj (hinv.queue.symm.trans hq)
    exact disjoint_area (NetState.Account.head_lt hp) hinv.num hinv.paddr

/-! ### One packet -/

/-- A step beside the driver's calls, which leaves the ring and InterruptStatus alone. -/
structure NetState.Beside (s t : NetState) : Prop where
  step : NetStep s t
  phase : t.phase = s.phase
  fetched : t.fetched = s.fetched
  transport : t.net.transport = s.net.transport
  ringServer : t.net.ringServer = s.net.ringServer

/-- The device reads the next head and publishes it. -/
theorem NetState.Account.exists_published {s : NetState} {before : List (UInt64 × Int32)}
    (h : s.Account before) {i : NetDir}
    (hlt : (s.traffic i).taken.length < (s.traffic i).submitted.length) (len : UInt32) :
    ∃ t, Relation.ReflTransGen NetState.Beside s t ∧
      (t.traffic i).taken.length = (s.traffic i).taken.length + 1 ∧
      (t.traffic i).submitted = (s.traffic i).submitted ∧
      (t.traffic i).pops = (s.traffic i).pops ∧
      (t.traffic i).published.length = (s.traffic i).published.length + 1 ∧
      ∀ j ≠ i, t.traffic j = s.traffic j := by
  obtain ⟨q, out, held, slot, userData, hinv, -⟩ := h.served i
  have hne : (s.traffic i).devAvail ≠ q.mem.availIdx := fun he =>
    hlt.ne (congrArg List.length (hinv.traffic.ring.devAvail_eq.1 he))
  set head := q.readAvail (s.traffic i).devAvail with hhead
  let s₁ : NetState := { s with traffic := s.setTraffic i ((s.traffic i).take q) }
  have htr : s₁.traffic i = (s.traffic i).take q := s.setTraffic_self i _
  have hc : (s₁.traffic i).CanPublish (s.traffic i).taken.length ⟨head.toUInt32, len⟩ := by
    rw [htr]
    constructor
    · intro hm
      obtain ⟨p, hp, he⟩ := List.mem_map.1 hm
      obtain ⟨x, hx, -⟩ := hinv.traffic.id p hp
      exact (List.getElem?_eq_some_iff.1 hx).1.ne he
    · refine ⟨head, ?_, rfl⟩
      show ((s.traffic i).taken ++ [_])[(s.traffic i).taken.length]? = _
      simp [hhead]
  have h₁ : NetStep s s₁ := .take s i q hinv.queue hne
  have h₂ := NetStep.publish s₁ i q _ _ hinv.queue hc
  refine ⟨_, (Relation.ReflTransGen.single ⟨h₁, rfl, rfl, rfl, rfl⟩).tail ⟨h₂, rfl, rfl, rfl, rfl⟩,
    ?_, ?_, ?_, ?_, fun j hj => ?_⟩
  · show (s₁.setTraffic i _ i).taken.length = _
    rw [NetState.setTraffic_self, htr]
    exact List.length_append
  · show (s₁.setTraffic i _ i).submitted = _
    rw [NetState.setTraffic_self, htr]
    rfl
  · show (s₁.setTraffic i _ i).pops = _
    rw [NetState.setTraffic_self, htr]
    rfl
  · show (s₁.setTraffic i _ i).published.length = _
    rw [NetState.setTraffic_self, htr]
    exact List.length_append
  · show s₁.setTraffic i _ j = _
    rw [NetState.setTraffic_of_ne s₁ hj]
    exact NetState.setTraffic_of_ne s hj _

/-- Steps beside the driver's calls. -/
theorem NetState.beside_run {s t : NetState} (h : Relation.ReflTransGen NetState.Beside s t) :
    NetReach s t ∧ t.phase = s.phase ∧ t.fetched = s.fetched ∧
      t.net.transport = s.net.transport ∧ t.net.ringServer = s.net.ringServer := by
  induction h with
  | refl => exact ⟨.refl, rfl, rfl, rfl, rfl⟩
  | tail _ hstep ih =>
    obtain ⟨hrun, hp, hf, ht, hr⟩ := ih
    exact ⟨hrun.tail hstep.step, hstep.phase.trans hp, hstep.fetched.trans hf,
      hstep.transport.trans ht, hstep.ringServer.trans hr⟩

/-- A buffer for a packet of 1500 bytes. -/
def packetBuffer : Sqe := ⟨.read, 0, 0x10000, 1500, 7⟩

/-- The buffer is submitted. -/
theorem exists_submitted :
    ∃ s, NetReach (.start (.initial (some sharedPage))) s ∧ s.phase = .idle ∧
      s.fetched = [packetBuffer] ∧ s.net.ringServer = some ⟨[], []⟩ ∧
      s.net.transport.interruptStatus = 0 ∧ ∃ d1, s.traffic .rx = Traffic.init.submit d1 := by
  obtain ⟨q, d1, d2, rest, h, hids⟩ := fetchedOne_free packetBuffer .rx
  have hd : dataPaddr (some sharedPage) packetBuffer = some 0x80000000 := by decide
  obtain ⟨q', idx, hsub, havail, -⟩ := h.submit_ok hids hd
  have hsub := (submitSqe_eq (show netDir packetBuffer.opcode = some .rx from rfl)).trans hsub
  have hreach : NetReach _ (fetchedOne packetBuffer) :=
    Relation.ReflTransGen.mono (show SpareNetStep ≤ NetStep from fun _ _ hstep => hstep.step) _ _
      (fetchedOne_run packetBuffer)
  have h₁ := NetStep.accept (fetchedOne packetBuffer) packetBuffer [] .rx _ q q' rfl hsub rfl
    h.queue (entered_queue _ _ _ _ _ _)
  refine ⟨_, (hreach.tail h₁).tail (.submitted _ rfl), rfl, rfl, rfl, rfl, d1, ?_⟩
  show (fetchedOne packetBuffer).setTraffic .rx _ .rx = _
  rw [NetState.setTraffic_self, havail]
  rfl

/-- One received packet: the device fills the buffer, and an interrupt completes the request. -/
theorem net_exactly_once_read :
    ∃ s, NetReach (.start (.initial (some sharedPage))) s ∧ s.fetched = [packetBuffer] ∧
      (s.traffic .rx).pops = 1 ∧ s.Fate 0 packetBuffer ∧
      s.net.completions = s.calls.map Prod.snd := by
  obtain ⟨s, hs, hidle, hfetched, hserver, -, d1, htr⟩ := exists_submitted
  have hacc := (NetState.Account.start (started_initial (some sharedPage))).run hs
  obtain ⟨t, ht, -, -, hpops, hpub, -⟩ :=
    hacc.exists_published (i := .rx) (by rw [htr]; exact Nat.zero_lt_one) 74
  obtain ⟨ht, htp, htf, -, htr'⟩ := NetState.beside_run ht
  -- the device raises the interrupt, and the driver takes it
  let t₁ : NetState := { t with net := { t.net with transport :=
    { t.net.transport with interruptStatus := t.net.transport.interruptStatus ||| 1 } } }
  have hgo : t₁.net.transport.interruptAck.1 = true ∧ t₁.net.ringServer.isSome = true := by
    constructor
    · simp [t₁, Transport.interruptAck]
    · show t.net.ringServer.isSome = true
      rw [htr', hserver]
      rfl
  have h₂ := NetStep.irq t₁ (htp.trans hidle)
  rw [if_pos hgo] at h₂
  have hrun : NetReach s _ := (ht.tail (.raise t 1)).tail h₂
  obtain ⟨q, out, held, slot, userData, hinv, -⟩ := (hacc.run hrun).served .rx
  obtain ⟨r, -, e1, e2, q', -, -, hpop, -⟩ := hinv.pop_some (by
    show (t.traffic .rx).pops < (t.traffic .rx).published.length
    rw [hpops, hpub, htr]
    exact Nat.zero_lt_one)
  have hrun' := (hs.trans hrun).tail (.pop _ .rx _ rfl hpop)
  have hmain := net_exactly_once (started_initial (some sharedPage)) hrun'
  have hfetched' : t.fetched = [packetBuffer] := htf.trans hfetched
  refine ⟨_, hrun', hfetched', ?_, hmain.1 0 packetBuffer ?_, hmain.2.1.2⟩
  · have hpop : (Function.update t.traffic .rx (t.traffic .rx).pop .rx).pops = 1 := by
      rw [Function.update_self]
      show (t.traffic .rx).pops + 1 = 1
      rw [hpops, htr]
      rfl
    exact hpop
  · show t.fetched[0]? = some packetBuffer
    rw [hfetched']
    rfl

end GlendaDrivers
