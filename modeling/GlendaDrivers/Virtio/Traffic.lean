import GlendaDrivers.Virtio.SplitRing

/-!
# A virtqueue facing a conforming device

A driver takes descriptors from the free list, links them to a chain and submits its head.  A
conforming device reads every submitted head and publishes it exactly once, in any order; the
driver pops the entry and returns the chain to the free list.

* `Traffic`: the device's progress and what has passed through the queue;
* `Request`: a chain between its submission and the pop of its used entry;
* `TrafficInv q t out held`: the requests `out` are outstanding, and the driver has the
  descriptors `held` in hand;
* one lemma for each operation of the driver and each step of the device.

A descriptor is free, in the chain of exactly one outstanding request, or held.
-/

namespace GlendaDrivers

open VirtQueue

/-- The device's progress on a queue, and the history of the queue. -/
structure Traffic where
  devAvail : UInt16
  submitted : List UInt16
  taken : List UInt16
  /-- The used elements, each with the position of its head in `taken`. -/
  published : List (ℕ × UsedElem)
  pops : ℕ

namespace Traffic

def init : Traffic := ⟨0, [], [], [], 0⟩

/-- The driver submits `head`. -/
def submit (t : Traffic) (head : UInt16) : Traffic := { t with submitted := t.submitted ++ [head] }

/-- The device reads the next head. -/
def take (t : Traffic) (q : VirtQueue) : Traffic :=
  { t with devAvail := t.devAvail + 1, taken := t.taken ++ [q.readAvail t.devAvail] }

/-- The device publishes the head it read at position `pos`. -/
def publish (t : Traffic) (pos : ℕ) (elem : UsedElem) : Traffic :=
  { t with published := t.published ++ [(pos, elem)] }

/-- The driver pops an entry. -/
def pop (t : Traffic) : Traffic := { t with pops := t.pops + 1 }

/-- The positions whose used entries the driver popped. -/
def popped (t : Traffic) : List ℕ := (t.published.take t.pops).map Prod.fst

/-- A conforming device publishes a head it read, once, under the head's id. -/
structure CanPublish (t : Traffic) (pos : ℕ) (elem : UsedElem) : Prop where
  once : pos ∉ t.published.map Prod.fst
  id : ∃ head, t.taken[pos]? = some head ∧ elem.id = head.toUInt32

theorem popped_pop (t : Traffic) (hp : t.pops < t.published.length) :
    t.pop.popped = t.popped ++ [t.published[t.pops].1] := by
  show (t.published.take (t.pops + 1)).map Prod.fst = _
  rw [← List.take_append_getElem hp, List.map_append]
  rfl

theorem popped_publish (t : Traffic) (hp : t.pops ≤ t.published.length) (pos : ℕ)
    (elem : UsedElem) : (t.publish pos elem).popped = t.popped := by
  simp [popped, publish, List.take_append_of_le_length hp]

end Traffic

/-- An outstanding request: its position in the submission history and its descriptors. -/
structure Request where
  pos : ℕ
  chain : List UInt16
  deriving DecidableEq

/-- The descriptors of the outstanding requests. -/
def chains (out : List Request) : List UInt16 := out.flatMap Request.chain

@[simp] theorem chains_append (out out' : List Request) :
    chains (out ++ out') = chains out ++ chains out' := List.flatMap_append

theorem chains_singleton (r : Request) : chains [r] = r.chain := by
  simp [chains]

theorem mem_chains {out : List Request} {id : UInt16} :
    id ∈ chains out ↔ ∃ r ∈ out, id ∈ r.chain := List.mem_flatMap

/-- Every descriptor is free, in the chain of one outstanding request, or held by the driver,
and the outstanding requests are those submitted and not popped. -/
structure TrafficInv (q : VirtQueue) (t : Traffic) (out : List Request) (held : List UInt16) :
    Prop where
  ring : RingInv q t.devAvail t.submitted t.taken (t.published.map Prod.snd) t.pops
  free : FreeInv q (held ++ chains out)
  linked : ∀ r ∈ out, Linked q.mem.desc r.chain
  head : ∀ r ∈ out, r.chain.head? = t.submitted[r.pos]?
  nodup : (out.map Request.pos).Nodup
  mem_out : ∀ k, k ∈ out.map Request.pos ↔ k < t.submitted.length ∧ k ∉ t.popped
  length : t.submitted.length = t.pops + out.length
  once : (t.published.map Prod.fst).Nodup
  id : ∀ p ∈ t.published, ∃ head, t.taken[p.1]? = some head ∧ p.2.id = head.toUInt32

namespace TrafficInv

variable {q q' : VirtQueue} {t : Traffic} {out : List Request} {held held' chain : List UInt16}
  {id : UInt16}

theorem ne_nil (h : TrafficInv q t out held) {r : Request} (hr : r ∈ out) : r.chain ≠ [] := by
  intro he
  have := h.linked r hr
  rw [he] at this
  exact this

theorem pops_le (h : TrafficInv q t out held) : t.pops ≤ t.published.length := by
  simpa using h.ring.pops_le

theorem nodup_out (h : TrafficInv q t out held) : out.Nodup := h.nodup.of_map

theorem pos_lt (h : TrafficInv q t out held) {r : Request} (hr : r ∈ out) :
    r.pos < t.submitted.length :=
  ((h.mem_out r.pos).1 (List.mem_map_of_mem hr)).1

/-- A descriptor belongs to at most one outstanding request. -/
theorem eq_of_mem_chain (h : TrafficInv q t out held) {r r' : Request} (hr : r ∈ out)
    (hr' : r' ∈ out) (hid : id ∈ r.chain) (hid' : id ∈ r'.chain) : r = r' := by
  by_contra hne
  have hnd := h.free.nodup_allocated.of_append_right
  obtain ⟨-, hpw⟩ := List.nodup_flatMap.1 hnd
  have hsymm : Std.Symm (Function.onFun List.Disjoint Request.chain) :=
    ⟨fun _ _ hd => List.Disjoint.symm hd⟩
  exact hpw.forall hr hr' hne hid hid'

/-- A descriptor of an outstanding request is not held. -/
theorem notMem_held (h : TrafficInv q t out held) {r : Request} (hr : r ∈ out)
    (hid : id ∈ r.chain) : id ∉ held := fun hh =>
  List.disjoint_of_nodup_append h.free.nodup_allocated hh (mem_chains.2 ⟨r, hr, hid⟩)

/-- Operations on the free list and on held descriptors leave the traffic alone. -/
theorem congr (h : TrafficInv q t out held) (hs : SameRings q q')
    (hfree : FreeInv q' (held' ++ chains out))
    (hdesc : ∀ r ∈ out, ∀ x ∈ r.chain, q'.mem.desc x = q.mem.desc x) :
    TrafficInv q' t out held' :=
  { h with
    ring := h.ring.congr hs
    free := hfree
    linked := fun r hr => (h.linked r hr).congr (hdesc r hr) }

theorem perm (h : TrafficInv q t out held) (hp : held.Perm held') : TrafficInv q t out held' :=
  h.congr (SameRings.refl q) (h.free.perm (hp.append_right _)) fun _ _ _ _ => rfl

/-- A new queue: nothing is outstanding. -/
theorem fresh (index : UInt32) (num : UInt16) (paddr : UInt64) (hnum : num.toNat ∣ 2 ^ 16) :
    TrafficInv (VirtQueue.fresh index num paddr .zeroed) .init [] [] where
  ring := RingInv.fresh index num paddr hnum
  free := FreeInv.fresh index num paddr .zeroed
  linked := by simp
  head := by simp
  nodup := by simp
  mem_out := by simp [Traffic.init, Traffic.popped]
  length := rfl
  once := by simp [Traffic.init]
  id := by simp [Traffic.init]

/-! ### The driver -/

/-- The descriptor handed out by `alloc_desc` is held. -/
theorem allocDesc (h : TrafficInv q t out held) {rest : List UInt16} (hq : q.freeIds = id :: rest) :
    q.allocDesc = .ret (some id, q.popFree) ∧ q.popFree.freeIds = rest ∧
      TrafficInv q.popFree t out (id :: held) := by
  obtain ⟨ha, hids, hinv⟩ := h.free.allocDesc hq
  exact ⟨ha, hids, h.congr (sameRings_popFree q) hinv fun _ _ _ _ => rfl⟩

/-- A held descriptor can be written. -/
theorem writeDesc (h : TrafficInv q t out held) (hid : id ∈ held) (d : Descriptor) :
    (q.writeDesc id d).freeIds = q.freeIds ∧ TrafficInv (q.writeDesc id d) t out held := by
  obtain ⟨hids, hinv⟩ := h.free.writeDesc (List.mem_append_left _ hid) d
  refine ⟨hids, h.congr (sameRings_writeDesc q id d) hinv fun r hr x hx => ?_⟩
  have hne : x ≠ id := by
    rintro rfl
    exact h.notMem_held hr hx hid
  simp [VirtQueue.writeDesc, setDesc, Function.update_of_ne hne]

/-- A held descriptor can be freed. -/
theorem freeDesc (h : TrafficInv q t out held) (hid : id ∈ held) :
    q.freeDesc id = .ret (q.pushFree id) ∧ (q.pushFree id).freeIds = id :: q.freeIds ∧
      TrafficInv (q.pushFree id) t out (held.erase id) := by
  obtain ⟨hf, hids, hinv⟩ := h.free.freeDesc (List.mem_append_left _ hid)
  rw [List.erase_append_left _ hid] at hinv
  refine ⟨hf, hids, h.congr (sameRings_pushFree q id) hinv fun r hr x hx => ?_⟩
  have hne : x ≠ id := by
    rintro rfl
    exact h.notMem_held hr hx hid
  simp [pushFree, setDesc, Function.update_of_ne hne]

/-- Submitting a chain of held descriptors makes it an outstanding request. -/
theorem submit (h : TrafficInv q t out (chain ++ held)) (hl : Linked q.mem.desc chain)
    {head : UInt16} (hhead : chain.head? = some head) :
    TrafficInv (q.submit head) (t.submit head) (out ++ [⟨t.submitted.length, chain⟩]) held := by
  have hbound : t.submitted.length < t.pops + q.num.toNat := by
    have hcount := h.free.count
    have hlen : out.length ≤ (chains out).length := by
      rw [chains, List.length_flatMap, ← List.length_map Request.chain]
      have hpos : ∀ r ∈ out, 1 ≤ r.chain.length := fun r hr =>
        List.length_pos_iff.2 (h.ne_nil hr)
      have := List.sum_le_sum hpos
      simpa using this
    have hc : 1 ≤ chain.length := by
      rw [Nat.one_le_iff_ne_zero, ne_eq, List.length_eq_zero_iff]
      rintro rfl
      simp at hhead
    have := h.length
    simp only [List.length_append] at hcount
    omega
  have hget : ∀ k < t.submitted.length,
      (t.submitted ++ [head])[k]? = t.submitted[k]? := fun k hk =>
    List.getElem?_append_left hk
  have hnew : ∀ k ∈ t.popped, k < t.submitted.length := by
    intro k hk
    obtain ⟨p, hp, rfl⟩ := List.mem_map.1 hk
    obtain ⟨x, hx, -⟩ := h.id p (List.mem_of_mem_take hp)
    have := (List.getElem?_eq_some_iff.1 hx).1
    exact this.trans_le h.ring.taken_prefix.length_le
  refine
    { ring := h.ring.submit hbound head
      free := ?_
      linked := ?_
      head := ?_
      nodup := ?_
      mem_out := ?_
      length := ?_
      once := h.once
      id := h.id }
  · have hp : (chain ++ held ++ chains out).Perm
        (held ++ chains (out ++ [⟨t.submitted.length, chain⟩])) := by
      rw [chains_append, chains_singleton, List.append_assoc]
      exact List.perm_append_comm.trans (by rw [List.append_assoc])
    exact (h.free.perm hp).submit head
  · intro r hr
    rcases List.mem_append.1 hr with hr | hr
    · exact h.linked r hr
    · obtain rfl := List.mem_singleton.1 hr
      exact hl
  · intro r hr
    show r.chain.head? = (t.submitted ++ [head])[r.pos]?
    rcases List.mem_append.1 hr with hr | hr
    · rw [hget _ (h.pos_lt hr), h.head r hr]
    · obtain rfl := List.mem_singleton.1 hr
      simp [hhead]
  · rw [List.map_append, List.nodup_append]
    refine ⟨h.nodup, by simp, fun a ha b hb => ?_⟩
    obtain rfl : b = t.submitted.length := by simpa using hb
    exact (((h.mem_out a).1 ha).1).ne
  · intro k
    show k ∈ (out ++ [_]).map Request.pos ↔ k < (t.submitted ++ [head]).length ∧ k ∉ t.popped
    rw [List.map_append, List.mem_append, h.mem_out k, List.length_append]
    simp only [List.map_cons, List.map_nil, List.mem_singleton, List.length_singleton]
    constructor
    · rintro (⟨hk, hn⟩ | rfl)
      · exact ⟨by omega, hn⟩
      · exact ⟨by omega, fun hm => (hnew _ hm).ne rfl⟩
    · rintro ⟨hk, hn⟩
      rcases Nat.lt_or_ge k t.submitted.length with hlt | hge
      · exact Or.inl ⟨hlt, hn⟩
      · exact Or.inr (by omega)
  · show (t.submitted ++ [head]).length = t.pops + (out ++ [_]).length
    have := h.length
    simp only [List.length_append, List.length_singleton]
    omega

/-- The next entry to be popped is for another position than those before it. -/
theorem notMem_popped (h : TrafficInv q t out held) (hp : t.pops < t.published.length) :
    t.published[t.pops].1 ∉ t.popped := by
  have hnd := h.once.sublist ((List.take_sublist (t.pops + 1) t.published).map Prod.fst)
  rw [← List.take_append_getElem hp, List.map_append, List.nodup_append] at hnd
  exact fun hm => hnd.2.2 _ hm _ (by simp) rfl

/-- With every published entry popped, `pop` returns `None`. -/
theorem pop_none (h : TrafficInv q t out held) (hp : t.pops = t.published.length) :
    q.pop = (none, q) := h.ring.pop_none (by simpa using hp)

/-- A popped entry answers one outstanding request, whose descriptors are then held. -/
theorem pop (h : TrafficInv q t out held) (hp : t.pops < t.published.length) :
    ∃ r ∈ out, ∃ head, r.pos = t.published[t.pops].1 ∧ r.chain.head? = some head ∧
      q.pop = (some (head.toUInt32, t.published[t.pops].2.len), q.popUsed) ∧
      TrafficInv q.popUsed t.pop (out.erase r) (r.chain ++ held) := by
  obtain ⟨hpop, hring⟩ := h.ring.pop_some (by simpa using hp)
  obtain ⟨head, htaken, hid⟩ := h.id _ (List.getElem_mem hp)
  set p := t.published[t.pops] with hpdef
  have hsub : t.submitted[p.1]? = some head := by
    obtain ⟨zs, hzs⟩ := h.ring.taken_prefix
    rw [← hzs, List.getElem?_append_left (List.getElem?_eq_some_iff.1 htaken).1, htaken]
  have htake : t.pop.popped = t.popped ++ [p.1] := t.popped_pop hp
  have hnew : p.1 ∉ t.popped := h.notMem_popped hp
  obtain ⟨r, hr, hpos⟩ := List.mem_map.1
    ((h.mem_out p.1).2 ⟨(List.getElem?_eq_some_iff.1 hsub).1, hnew⟩)
  have hperm : out.Perm (r :: out.erase r) := List.perm_cons_erase hr
  have hmap : (out.map Request.pos).Perm (r.pos :: (out.erase r).map Request.pos) := by
    simpa using hperm.map Request.pos
  have hnd := hmap.nodup_iff.1 h.nodup
  rw [List.nodup_cons] at hnd
  refine ⟨r, hr, head, hpos, by rw [h.head r hr, hpos, hsub], ?_, ?_⟩
  · rw [hpop]
    simp [← hpdef, hid]
  · refine
      { ring := hring
        free := ?_
        linked := fun r' hr' => h.linked r' (List.mem_of_mem_erase hr')
        head := fun r' hr' => h.head r' (List.mem_of_mem_erase hr')
        nodup := hnd.2
        mem_out := ?_
        length := ?_
        once := h.once
        id := h.id }
    · have hc : (chains out).Perm (r.chain ++ chains (out.erase r)) :=
        hperm.flatMap_right Request.chain
      have hp : (held ++ chains out).Perm (r.chain ++ held ++ chains (out.erase r)) :=
        (hc.append_left held).trans (by
          rw [← List.append_assoc]
          exact List.perm_append_comm.append_right _)
      exact (h.free.perm hp).popUsed
    · intro k
      show _ ↔ k < t.submitted.length ∧ k ∉ t.pop.popped
      have hk := h.mem_out k
      rw [hmap.mem_iff, List.mem_cons] at hk
      rw [htake, List.mem_append, List.mem_singleton, ← hpos]
      constructor
      · intro hm
        obtain ⟨hlt, hn⟩ := hk.1 (Or.inr hm)
        exact ⟨hlt, not_or.2 ⟨hn, fun he => hnd.1 (he ▸ hm)⟩⟩
      · rintro ⟨hlt, hn⟩
        rw [not_or] at hn
        exact (hk.2 ⟨hlt, hn.1⟩).resolve_left hn.2
    · have hlen := hperm.length_eq
      have := h.length
      rw [List.length_cons] at hlen
      show t.submitted.length = t.pops + 1 + (out.erase r).length
      omega

/-- Freeing a chain of held descriptors. -/
theorem freeChain (h : TrafficInv q t out (chain ++ held)) (hl : Linked q.mem.desc chain)
    {head : UInt16} (hhead : chain.head? = some head) :
    ∃ q', q.freeChain head = .ret q' ∧ TrafficInv q' t out held ∧ SameRings q q' ∧
      q'.freeIds = chain.reverse ++ q.freeIds ∧
      ∀ r ∈ out, ∀ x ∈ r.chain, q'.mem.desc x = q.mem.desc x := by
  have hfree := h.free
  rw [List.append_assoc] at hfree
  obtain ⟨q', hq', hinv, hsame, hids, hdesc⟩ := hfree.freeChain hl hhead
  have hframe : ∀ r ∈ out, ∀ x ∈ r.chain, q'.mem.desc x = q.mem.desc x := fun r hr x hx =>
    hdesc x fun hc => h.notMem_held hr hx (List.mem_append_left _ hc)
  exact ⟨q', hq', h.congr hsame hinv hframe, hsame, hids, hframe⟩

/-! ### The device -/

/-- The device reads the next head. -/
theorem take (h : TrafficInv q t out held) (hne : t.devAvail ≠ q.mem.availIdx) :
    TrafficInv q (t.take q) out held :=
  { h with
    ring := (h.ring.take hne).2
    id := fun p hp => by
      obtain ⟨head, hget, hid⟩ := h.id p hp
      refine ⟨head, ?_, hid⟩
      rw [← hget]
      exact List.getElem?_append_left (List.getElem?_eq_some_iff.1 hget).1 }

/-- The device publishes a head it read and has not published. -/
theorem publish (h : TrafficInv q t out held) {pos : ℕ} {elem : UsedElem}
    (hc : t.CanPublish pos elem) :
    TrafficInv (q.publishUsed elem) (t.publish pos elem) out held := by
  obtain ⟨head, hget, hid⟩ := hc.id
  have hnd : (pos :: t.published.map Prod.fst).Nodup := List.nodup_cons.2 ⟨hc.once, h.once⟩
  have hlt : t.published.length < t.taken.length := by
    have hsub : pos :: t.published.map Prod.fst ⊆ List.range t.taken.length := by
      intro k hk
      rw [List.mem_range]
      rcases List.mem_cons.1 hk with rfl | hk
      · exact (List.getElem?_eq_some_iff.1 hget).1
      · obtain ⟨p, hp, rfl⟩ := List.mem_map.1 hk
        obtain ⟨x, hx, -⟩ := h.id p hp
        exact (List.getElem?_eq_some_iff.1 hx).1
    have := (List.subperm_of_subset hnd hsub).length_le
    simpa using this
  obtain ⟨hw, he⟩ := h.ring.writeUsed (by simpa using hlt) elem
  have hring := hw.bumpUsed (by simpa using hlt) he
  have hpops := h.pops_le
  refine
    { ring := by simpa [Traffic.publish, publishUsed] using hring
      free := h.free.publishUsed elem
      linked := h.linked
      head := h.head
      nodup := h.nodup
      mem_out := fun k => ?_
      length := h.length
      once := ?_
      id := fun p hp => ?_ }
  · rw [t.popped_publish hpops]
    exact h.mem_out k
  · show ((t.published ++ [(pos, elem)]).map Prod.fst).Nodup
    rw [List.map_append]
    exact (List.perm_append_comm.nodup_iff).2 hnd
  · rcases List.mem_append.1 hp with hp | hp
    · exact h.id p hp
    · obtain rfl := List.mem_singleton.1 hp
      exact ⟨head, hget, hid⟩

/-! ### Conservation of descriptors -/

/-- With `c` descriptors to a request, those not free are in the outstanding requests or held. -/
theorem conservation (h : TrafficInv q t out held) {c : ℕ} (hc : ∀ r ∈ out, r.chain.length = c) :
    q.numFree.toNat + c * out.length + held.length = q.num.toNat := by
  have hcount := h.free.count
  have hlen : (chains out).length = c * out.length := by
    rw [chains, List.length_flatMap, List.map_congr_left hc, List.map_const', List.sum_replicate,
      smul_eq_mul, mul_comm]
  rw [List.length_append, hlen] at hcount
  omega

end TrafficInv

end GlendaDrivers
