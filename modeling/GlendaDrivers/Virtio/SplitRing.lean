import GlendaDrivers.Lib.Window
import GlendaDrivers.Virtio.FreeList

/-!
# The two rings of a virtqueue as lossless FIFOs

The driver publishes heads in the available ring and takes entries from the used ring, the
device does the opposite.  Each ring is a window of a history: the 16-bit indices are the
lengths of the histories modulo `2^16`, and the ring slots are computed from them modulo
`num`, which divides `2^16`.

* `readAvail`, `writeUsed`, `bumpUsed`: what the device does to the memory of a queue;
* `RingInv`: the histories and the memory agree;
* `RingStep`: submissions, pops and the device's steps, in any order;
* `splitRing_fifo`: both directions are lossless FIFOs in every reachable state.
-/

namespace GlendaDrivers

namespace VirtQueue

/-! ### The device's side -/

/-- The head the device reads at its own index `devAvail`. -/
def readAvail (q : VirtQueue) (devAvail : UInt16) : UInt16 :=
  q.mem.availRing (devAvail.toNat % q.num.toNat)

/-- The device writes a used element at `used.idx`. -/
def writeUsed (q : VirtQueue) (elem : UsedElem) : VirtQueue :=
  { q with mem := { q.mem with
      usedRing := Function.update q.mem.usedRing (q.mem.usedIdx.toNat % q.num.toNat) elem } }

/-- The device publishes the element it wrote. -/
def bumpUsed (q : VirtQueue) : VirtQueue :=
  { q with mem := { q.mem with usedIdx := q.mem.usedIdx + 1 } }

/-- The queue after a `pop` that returned an entry. -/
def popUsed (q : VirtQueue) : VirtQueue := { q with lastUsedIdx := q.lastUsedIdx + 1 }

/-- The device publishes a used element: it writes it and increments the index. -/
def publishUsed (q : VirtQueue) (elem : UsedElem) : VirtQueue := (q.writeUsed elem).bumpUsed

theorem FreeInv.popUsed {q : VirtQueue} {allocated : List UInt16} (h : FreeInv q allocated) :
    FreeInv q.popUsed allocated := ⟨h.nodup, h.lt, h.count⟩

theorem FreeInv.publishUsed {q : VirtQueue} {allocated : List UInt16} (h : FreeInv q allocated)
    (elem : UsedElem) : FreeInv (q.publishUsed elem) allocated := ⟨h.nodup, h.lt, h.count⟩

/-- The head that is submitted is the next one that the device reads. -/
theorem SameRings.readAvail_submit {q q' : VirtQueue} (h : SameRings q q') (head : UInt16) :
    (q'.submit head).readAvail q.mem.availIdx = head := by
  rw [readAvail, ← h.availIdx]
  exact Function.update_self _ _ _

/-! ### The invariant -/

/-- The memory of `q` and the histories: `submitted` by the driver, `taken` by the device,
`published` by the device, of which the driver popped the first `pops`. -/
structure RingInv (q : VirtQueue) (devAvail : UInt16) (submitted taken : List UInt16)
    (published : List UsedElem) (pops : ℕ) : Prop where
  num_dvd : q.num.toNat ∣ 2 ^ 16
  availIdx : q.mem.availIdx = UInt16.ofNat submitted.length
  avail : Window.Holds q.mem.availRing q.num.toNat pops submitted
  devAvail : devAvail = UInt16.ofNat taken.length
  taken_prefix : taken <+: submitted
  usedIdx : q.mem.usedIdx = UInt16.ofNat published.length
  used : Window.Holds q.mem.usedRing q.num.toNat pops published
  lastUsedIdx : q.lastUsedIdx = UInt16.ofNat pops
  pops_le : pops ≤ published.length
  published_le : published.length ≤ taken.length
  bound : submitted.length ≤ pops + q.num.toNat

variable {q q' : VirtQueue} {devAvail : UInt16} {submitted taken : List UInt16}
  {published : List UsedElem} {pops : ℕ}

theorem ofNat_succ (n : ℕ) : UInt16.ofNat n + 1 = UInt16.ofNat (n + 1) := by
  rw [UInt16.ofNat_add]
  rfl

theorem prefix_concat {α : Type*} {xs ys : List α} {a : α} (h : xs <+: ys)
    (ha : ys[xs.length]? = some a) : xs ++ [a] <+: ys := by
  obtain ⟨zs, rfl⟩ := h
  cases zs with
  | nil => simp at ha
  | cons z zs =>
    obtain rfl : z = a := by simpa using ha
    exact ⟨zs, by simp⟩

/-- In a window of at most `num` entries the 16-bit index determines the position. -/
theorem ofNat_inj {i j : ℕ} (hij : i ≤ j) (h : j < i + 2 ^ 16) :
    UInt16.ofNat i = UInt16.ofNat j ↔ i = j := by
  refine ⟨fun he => Window.counter_inj hij h ?_, fun he => he ▸ rfl⟩
  rw [← UInt16.toNat_inj, UInt16.toNat_ofNat', UInt16.toNat_ofNat'] at he
  exact he

theorem RingInv.num_lt (_ : RingInv q devAvail submitted taken published pops) :
    q.num.toNat < 2 ^ 16 := q.num.toNat_lt

/-- The slot computed from a 16-bit index is the slot of the position. -/
theorem RingInv.slot (h : RingInv q devAvail submitted taken published pops) (i : ℕ) :
    (UInt16.ofNat i).toNat % q.num.toNat = i % q.num.toNat := by
  rw [UInt16.toNat_ofNat', Window.slot_of_counter h.num_dvd]

/-- The invariant only depends on `num`, `last_used_idx` and the rings. -/
theorem RingInv.congr (h : RingInv q devAvail submitted taken published pops)
    (hs : SameRings q q') : RingInv q' devAvail submitted taken published pops where
  num_dvd := by rw [hs.num]; exact h.num_dvd
  availIdx := by rw [hs.availIdx]; exact h.availIdx
  avail := by rw [hs.availRing, hs.num]; exact h.avail
  devAvail := h.devAvail
  taken_prefix := h.taken_prefix
  usedIdx := by rw [hs.usedIdx]; exact h.usedIdx
  used := by rw [hs.usedRing, hs.num]; exact h.used
  lastUsedIdx := by rw [hs.lastUsedIdx]; exact h.lastUsedIdx
  pops_le := h.pops_le
  published_le := h.published_le
  bound := by rw [hs.num]; exact h.bound

/-- A new queue in zeroed memory has empty histories. -/
theorem RingInv.fresh (index : UInt32) (num : UInt16) (paddr : UInt64)
    (hnum : num.toNat ∣ 2 ^ 16) :
    RingInv (VirtQueue.fresh index num paddr .zeroed) 0 [] [] [] 0 where
  num_dvd := hnum
  availIdx := rfl
  avail := Window.holds_nil _ _ _
  devAvail := rfl
  taken_prefix := List.prefix_rfl
  usedIdx := rfl
  used := Window.holds_nil _ _ _
  lastUsedIdx := rfl
  pops_le := le_rfl
  published_le := le_rfl
  bound := by simp

/-- `submit`, with fewer than `num` heads outstanding. -/
theorem RingInv.submit (h : RingInv q devAvail submitted taken published pops)
    (hb : submitted.length < pops + q.num.toNat) (head : UInt16) :
    RingInv (q.submit head) devAvail (submitted ++ [head]) taken published pops where
  num_dvd := h.num_dvd
  availIdx := by
    show q.mem.availIdx + 1 = _
    rw [h.availIdx, ofNat_succ, List.length_append, List.length_singleton]
  avail := by
    show Window.Holds (Function.update q.mem.availRing (q.mem.availIdx.toNat % q.num.toNat) head)
      q.num.toNat pops (submitted ++ [head])
    rw [h.availIdx, h.slot]
    exact h.avail.push hb head
  devAvail := h.devAvail
  taken_prefix := h.taken_prefix.trans (List.prefix_append _ _)
  usedIdx := h.usedIdx
  used := h.used
  lastUsedIdx := h.lastUsedIdx
  pops_le := h.pops_le
  published_le := h.published_le
  bound := by
    show (submitted ++ [head]).length ≤ pops + q.num.toNat
    rw [List.length_append, List.length_singleton]
    omega

/-- The device sees an unread head exactly when there is one. -/
theorem RingInv.devAvail_eq (h : RingInv q devAvail submitted taken published pops) :
    devAvail = q.mem.availIdx ↔ taken = submitted := by
  have hle := h.taken_prefix.length_le
  have hb := h.bound
  have hn := h.num_lt
  have hp := h.pops_le
  have hpl := h.published_le
  rw [h.devAvail, h.availIdx, ofNat_inj hle (by omega)]
  exact ⟨fun he => h.taken_prefix.eq_of_length he, fun he => he ▸ rfl⟩

/-- The device reads the next submitted head. -/
theorem RingInv.take (h : RingInv q devAvail submitted taken published pops)
    (hne : devAvail ≠ q.mem.availIdx) :
    submitted[taken.length]? = some (q.readAvail devAvail) ∧
      RingInv q (devAvail + 1) submitted (taken ++ [q.readAvail devAvail]) published pops := by
  have hlt : taken.length < submitted.length := by
    refine lt_of_le_of_ne h.taken_prefix.length_le fun he => ?_
    exact hne (h.devAvail_eq.2 (h.taken_prefix.eq_of_length he))
  have hget : submitted[taken.length]? = some (q.readAvail devAvail) := by
    have hp := h.pops_le
    have hpl := h.published_le
    rw [List.getElem?_eq_getElem hlt, readAvail, h.devAvail, h.slot,
      h.avail.get (by omega) hlt]
  refine ⟨hget, { h with devAvail := ?_, taken_prefix := ?_, published_le := ?_ }⟩
  · rw [h.devAvail, ofNat_succ, List.length_append, List.length_singleton]
  · exact prefix_concat h.taken_prefix hget
  · rw [List.length_append, List.length_singleton]
    have := h.published_le
    omega

/-- The device writes the next used element while a head it read is not answered. -/
theorem RingInv.writeUsed (h : RingInv q devAvail submitted taken published pops)
    (hlt : published.length < taken.length) (elem : UsedElem) :
    RingInv (q.writeUsed elem) devAvail submitted taken published pops ∧
      (q.writeUsed elem).mem.usedRing (published.length % q.num.toNat) = elem := by
  have hslot : (q.writeUsed elem).mem.usedRing =
      Function.update q.mem.usedRing (published.length % q.num.toNat) elem := by
    show Function.update q.mem.usedRing (q.mem.usedIdx.toNat % q.num.toNat) elem = _
    rw [h.usedIdx, h.slot]
  have hle := h.taken_prefix.length_le
  have hb := h.bound
  refine ⟨{ h with used := ?_ }, by rw [hslot, Function.update_self]⟩
  rw [hslot]
  exact h.used.write (by omega) elem

/-- The device publishes the element it wrote. -/
theorem RingInv.bumpUsed (h : RingInv q devAvail submitted taken published pops)
    (hlt : published.length < taken.length) {elem : UsedElem}
    (he : q.mem.usedRing (published.length % q.num.toNat) = elem) :
    RingInv q.bumpUsed devAvail submitted taken (published ++ [elem]) pops where
  num_dvd := h.num_dvd
  availIdx := h.availIdx
  avail := h.avail
  devAvail := h.devAvail
  taken_prefix := h.taken_prefix
  usedIdx := by
    show q.mem.usedIdx + 1 = _
    rw [h.usedIdx, ofNat_succ, List.length_append, List.length_singleton]
  used := h.used.snoc he
  lastUsedIdx := h.lastUsedIdx
  pops_le := by
    rw [List.length_append]
    exact h.pops_le.trans (Nat.le_add_right _ _)
  published_le := by
    rw [List.length_append, List.length_singleton]
    omega
  bound := h.bound

/-- `can_pop` holds exactly when a published entry was not popped. -/
theorem RingInv.canPop_iff (h : RingInv q devAvail submitted taken published pops) :
    q.canPop = true ↔ pops < published.length := by
  have hle := h.taken_prefix.length_le
  have hb := h.bound
  have hn := h.num_lt
  have hp := h.pops_le
  have hpl := h.published_le
  rw [canPop, bne_iff_ne, h.lastUsedIdx, h.usedIdx, ne_eq, ofNat_inj hp (by omega)]
  omega

theorem RingInv.pop_none (h : RingInv q devAvail submitted taken published pops)
    (hp : pops = published.length) : q.pop = (none, q) := by
  have hc : q.canPop = false := by
    rw [← Bool.not_eq_true, h.canPop_iff]
    omega
  simp [pop, hc]

/-- `pop` returns the oldest published entry that was not popped. -/
theorem RingInv.pop_some (h : RingInv q devAvail submitted taken published pops)
    (hp : pops < published.length) :
    q.pop = (some (published[pops].id, published[pops].len), q.popUsed) ∧
      RingInv q.popUsed devAvail submitted taken published (pops + 1) := by
  have hc : q.canPop = true := h.canPop_iff.2 hp
  have hget : q.mem.usedRing (q.lastUsedIdx.toNat % q.num.toNat) = published[pops] := by
    rw [h.lastUsedIdx, h.slot, h.used.get le_rfl hp]
  refine ⟨?_, ?_⟩
  · simp [pop, hc, hget, popUsed]
  · exact
      { num_dvd := h.num_dvd
        availIdx := h.availIdx
        avail := h.avail.mono (Nat.le_succ _)
        devAvail := h.devAvail
        taken_prefix := h.taken_prefix
        usedIdx := h.usedIdx
        used := h.used.mono (Nat.le_succ _)
        lastUsedIdx := by
          show q.lastUsedIdx + 1 = _
          rw [h.lastUsedIdx, ofNat_succ]
        pops_le := hp
        published_le := h.published_le
        bound := h.bound.trans (by show pops + q.num.toNat ≤ _ + q.num.toNat; omega) }

end VirtQueue

/-! ### Every interleaving -/

open VirtQueue

/-- A queue, the device's progress on it and what has passed through it. -/
structure RingState where
  q : VirtQueue
  devAvail : UInt16
  /-- The used element the device has written and not yet published. -/
  writing : Option UsedElem
  submitted : List UInt16
  taken : List UInt16
  published : List (UInt32 × UInt32)
  popped : List (UInt32 × UInt32)

/-- No traffic on a queue yet. -/
def RingState.init (q : VirtQueue) : RingState := ⟨q, 0, none, [], [], [], []⟩

/-- One step of the driver or of the device. -/
inductive RingStep : RingState → RingState → Prop
  | submit (s : RingState) (head : UInt16)
      (hb : s.submitted.length - s.popped.length < s.q.num.toNat) :
      RingStep s { s with q := s.q.submit head, submitted := s.submitted ++ [head] }
  | pop (s : RingState) :
      RingStep s { s with q := s.q.pop.2, popped := s.popped ++ s.q.pop.1.toList }
  | take (s : RingState) (h : s.devAvail ≠ s.q.mem.availIdx) :
      RingStep s { s with
        devAvail := s.devAvail + 1
        taken := s.taken ++ [s.q.readAvail s.devAvail] }
  | write (s : RingState) (elem : UsedElem) (hw : s.writing = none)
      (hlt : s.published.length < s.taken.length) :
      RingStep s { s with q := s.q.writeUsed elem, writing := some elem }
  | publish (s : RingState) (elem : UsedElem) (hw : s.writing = some elem) :
      RingStep s { s with
        q := s.q.bumpUsed
        writing := none
        published := s.published ++ [(elem.id, elem.len)] }

/-- The invariant of all interleavings. -/
structure RingState.Inv (s : RingState) : Prop where
  ring : ∃ elems : List UsedElem, s.published = elems.map (fun e => (e.id, e.len)) ∧
    RingInv s.q s.devAvail s.submitted s.taken elems s.popped.length
  popped : s.popped <+: s.published
  writing : ∀ elem, s.writing = some elem → s.published.length < s.taken.length ∧
    s.q.mem.usedRing (s.published.length % s.q.num.toNat) = elem

theorem RingState.Inv.step {s t : RingState} (h : s.Inv) (hstep : RingStep s t) : t.Inv := by
  obtain ⟨elems, helems, hr⟩ := h.ring
  have hlen : s.published.length = elems.length := by rw [helems, List.length_map]
  cases hstep with
  | submit head hb =>
    exact ⟨⟨elems, helems, hr.submit (by omega) head⟩, h.popped, h.writing⟩
  | pop =>
    rcases Nat.lt_or_ge s.popped.length elems.length with hlt | hge
    · obtain ⟨hp, hr'⟩ := hr.pop_some hlt
      rw [hp]
      refine ⟨⟨elems, helems, by simpa using hr'⟩, ?_, h.writing⟩
      exact prefix_concat h.popped (by simp [helems, hlt])
    · rw [hr.pop_none (by have := hr.pops_le; omega)]
      exact ⟨⟨elems, helems, by simpa using hr⟩, by simpa using h.popped, h.writing⟩
  | take hne =>
    refine ⟨⟨elems, helems, (hr.take hne).2⟩, h.popped, fun elem hw => ?_⟩
    obtain ⟨hlt, he⟩ := h.writing elem hw
    refine ⟨?_, he⟩
    show s.published.length < (s.taken ++ _).length
    rw [List.length_append]
    omega
  | write elem hw hlt =>
    obtain ⟨hr', he⟩ := hr.writeUsed (by omega) elem
    refine ⟨⟨elems, helems, hr'⟩, h.popped, fun elem' hw' => ⟨hlt, ?_⟩⟩
    obtain rfl : elem = elem' := by simpa using hw'
    rw [hlen]
    exact he
  | publish elem hw =>
    obtain ⟨hlt, he⟩ := h.writing elem hw
    rw [hlen] at he
    refine ⟨⟨elems ++ [elem], by simp [helems], hr.bumpUsed (by omega) he⟩, ?_, by simp⟩
    exact h.popped.trans (List.prefix_append _ _)

/-- The invariant holds along every run. -/
theorem RingState.Inv.run {s t : RingState} (h : s.Inv)
    (hrun : Relation.ReflTransGen RingStep s t) : t.Inv := by
  induction hrun with
  | refl => exact h
  | tail _ hstep ih => exact ih.step hstep

/-- **The rings are lossless FIFOs.**  For a queue of a power of two entries in zeroed memory,
and in every interleaving of submissions and pops of the driver, with at most `num` heads
outstanding, and reads and publications of the device, one for each head it read: the device
reads the submitted heads in order and sees a new one as long as there is one, and `pop`
returns the published entries in order, and `None` exactly when all were returned. -/
theorem splitRing_fifo (index : UInt32) (num : UInt16) (paddr : UInt64)
    (hnum : ∃ k, num.toNat = 2 ^ k) :
    ∃ q, VirtQueue.new index num paddr .zeroed = .ret q ∧
    ∀ s : RingState, Relation.ReflTransGen RingStep (.init q) s →
      s.taken <+: s.submitted ∧ (s.devAvail = s.q.mem.availIdx ↔ s.taken = s.submitted) ∧
      s.popped <+: s.published ∧ (s.q.pop.1 = none ↔ s.popped = s.published) := by
  obtain ⟨k, hk⟩ := hnum
  have hne : num ≠ 0 := by
    rintro rfl
    exact absurd hk (Nat.two_pow_pos k).ne
  have hdvd : num.toNat ∣ 2 ^ 16 := by
    have hlt := num.toNat_lt
    rw [hk] at hlt ⊢
    exact pow_dvd_pow 2 ((Nat.pow_lt_pow_iff_right (by norm_num)).1 hlt).le
  refine ⟨fresh index num paddr .zeroed, by simp [VirtQueue.new, hne], fun s hs => ?_⟩
  have hinit : (RingState.init (fresh index num paddr .zeroed)).Inv :=
    ⟨⟨[], rfl, RingInv.fresh index num paddr hdvd⟩, List.prefix_rfl, by simp [RingState.init]⟩
  obtain ⟨⟨elems, helems, hr⟩, hpopped, -⟩ := hinit.run hs
  refine ⟨hr.taken_prefix, hr.devAvail_eq, hpopped, ?_⟩
  have hlen : s.published.length = elems.length := by rw [helems, List.length_map]
  rcases Nat.lt_or_ge s.popped.length elems.length with hlt | hge
  · rw [(hr.pop_some hlt).1]
    refine ⟨fun h => by simp at h, fun h => ?_⟩
    have := congrArg List.length h
    omega
  · have hle := hr.pops_le
    rw [hr.pop_none (by omega)]
    exact ⟨fun _ => hpopped.eq_of_length (by omega), fun _ => rfl⟩

/-- A queue of two: one head submitted, read and answered, and its answer popped. -/
theorem splitRing_fifo_two :
    ∃ q s, VirtQueue.new 0 2 0 .zeroed = .ret q ∧
      Relation.ReflTransGen RingStep (.init q) s ∧ s.submitted = [1] ∧ s.popped = [(1, 7)] ∧
      s.taken <+: s.submitted ∧ s.popped <+: s.published := by
  obtain ⟨q, hq, h⟩ := splitRing_fifo 0 2 0 ⟨1, rfl⟩
  obtain rfl : fresh 0 2 0 .zeroed = q := Outcome.ret.inj hq
  have hrun : Relation.ReflTransGen RingStep (.init (fresh 0 2 0 .zeroed)) _ :=
    ((((Relation.ReflTransGen.single (RingStep.submit _ 1 (by decide))).tail
      (RingStep.take _ (by decide))).tail (RingStep.write _ ⟨1, 7⟩ rfl (by decide))).tail
      (RingStep.publish _ _ rfl)).tail (RingStep.pop _)
  exact ⟨_, _, hq, hrun, rfl, rfl, (h _ hrun).1, (h _ hrun).2.2.1⟩

end GlendaDrivers
