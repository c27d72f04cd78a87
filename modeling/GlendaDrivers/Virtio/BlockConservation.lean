import GlendaDrivers.Virtio.BlockRuns

/-!
# Descriptors of the block driver

The table of 128 descriptors has room for 42 requests and two descriptors more, and there are
64 entries of `pending_info`, so a 43rd request passes all checks, takes the last two
descriptors and fails at the third allocation without returning them.

* `SameTables`: the free list, `num_free`, the available ring and `pending_info` are the same;
* `sameTables_iff`: a rejected request leaves them alone unless it runs out of descriptors;
* `block_conservation`: without such a request the number of descriptors is conserved;
* `block_descriptors_lost`: the run of 43 requests.
-/

namespace GlendaDrivers

open VirtQueue VirtIOBlk

/-- The free list, `num_free`, the available ring and the table of pending requests are those
of `b`. -/
def VirtIOBlk.SameTables (b b' : VirtIOBlk) : Prop :=
  ∃ q q', b.queue = some q ∧ b'.queue = some q' ∧ q'.freeIds = q.freeIds ∧
    q'.numFree = q.numFree ∧ q'.mem.availIdx = q.mem.availIdx ∧
    q'.mem.availRing = q.mem.availRing ∧ b'.pendingInfo = b.pendingInfo

/-- Descriptors are conserved: 128 is the number of free ones and of those of the pending
requests. -/
def VirtIOBlk.Conserved (b : VirtIOBlk) : Prop :=
  ∃ q, b.queue = some q ∧ q.numFree.toNat + 3 * someCount b.pendingInfo = 128

/-- A step that does not submit a request while one or two descriptors are free, if the request
passes all checks. -/
structure SpareStep (s t : BlkState) : Prop where
  step : BlkStep s t
  spare : t.handed ≠ s.handed → ∀ sqe todo, s.phase = .submitting (sqe :: todo) →
    ¬ s.blk.RunsOut sqe

variable {b b' : VirtIOBlk} {q : VirtQueue} {t : Traffic} {answers : ℕ → Option UInt8}
  {out : List Request} {held : List UInt16} {slot : ℕ → Fin 64} {userData : ℕ → UInt64}

/-- A rejected request that runs out of descriptors has taken them; every other rejected
request leaves the tables alone. -/
theorem BlkInv.sameTables_iff (h : BlkInv b q t answers out held slot userData) (sqe : Sqe) :
    (∀ e b', b.submitVirtioRequest sqe = .ret (.error e, b') → b.SameTables b') ↔
      ¬ b.RunsOut sqe := by
  constructor
  · rintro hsame ⟨q₀, i, type, w, p, ha, hfree⟩
    obtain rfl : q = q₀ := Option.some.inj (h.queue.symm.trans ha.queue)
    rw [← UInt16.toNat_inj, ← UInt16.toNat_inj] at hfree
    have hfree : q.numFree.toNat = 1 ∨ q.numFree.toNat = 2 := hfree
    obtain ⟨q', hsub, hids, -⟩ := h.submit_short ha (by rw [length_freeIds]; omega)
    obtain ⟨q₀, q₁, hq₀, hq₁, he, -⟩ := hsame _ _ hsub
    obtain rfl : q = q₀ := Option.some.inj (h.queue.symm.trans hq₀)
    obtain rfl : q' = q₁ := Option.some.inj hq₁
    have hlen := congrArg List.length he
    rw [hids, length_freeIds, List.length_nil] at hlen
    omega
  · intro hspare e b' hb
    rcases submit_cases b sqe with ⟨-, hpan⟩ | ⟨r, c, hr, href⟩ | ⟨q₀, i, type, w, p, ha⟩
    · simp [hpan] at hb
    · obtain ⟨-, rfl⟩ := Prod.mk.inj (Outcome.ret.inj (hr.symm.trans hb))
      have hq : c.queue = b.queue ∧ c.pendingInfo = b.pendingInfo := by
        rcases href.state with rfl | ⟨i, type, -, rfl⟩
        · exact ⟨rfl, rfl⟩
        · exact ⟨rfl, rfl⟩
      exact ⟨q, q, h.queue, hq.1.trans h.queue, rfl, rfl, rfl, rfl, hq.2⟩
    · obtain rfl : q = q₀ := Option.some.inj (h.queue.symm.trans ha.queue)
      rcases Nat.lt_or_ge q.freeIds.length 3 with hlt | hge
      · -- the first allocation fails
        have hzero : q.numFree.toNat = 0 := by
          rw [length_freeIds] at hlt
          have hno : ¬ (q.numFree.toNat = 1 ∨ q.numFree.toNat = 2) := fun hf =>
            hspare ⟨q, i, type, w, p, ha, by rwa [← UInt16.toNat_inj, ← UInt16.toNat_inj]⟩
          omega
        obtain ⟨q', hsub, hids, hsame, -⟩ := h.submit_short ha hlt
        obtain ⟨-, rfl⟩ := Prod.mk.inj (Outcome.ret.inj (hsub.symm.trans hb))
        have hnil : q.freeIds = [] := List.eq_nil_of_length_eq_zero ((length_freeIds q).trans hzero)
        refine ⟨q, q', h.queue, rfl, hids.trans hnil.symm, ?_, hsame.availIdx, hsame.availRing, rfl⟩
        rw [← UInt16.toNat_inj, hzero, ← length_freeIds, hids]
        rfl
      · obtain ⟨d1, d2, d3, q₁, hsub, -⟩ := h.submit_ok ha hge
        simp [hsub] at hb

/-- No descriptor is lost in a run of such steps. -/
theorem SpareStep.run {s t : BlkState} {blkSize : UInt32} {before : List (UInt64 × Int32)}
    (h : s.Inv blkSize before q out [] slot userData)
    (hrun : Relation.ReflTransGen SpareStep s t) :
    ∃ q' out' slot' userData', t.Inv blkSize before q' out' [] slot' userData' := by
  induction hrun with
  | refl => exact ⟨q, out, slot, userData, h⟩
  | tail _ hstep ih =>
    obtain ⟨q', out', slot', userData', h'⟩ := ih
    obtain ⟨q'', out'', held, slot'', userData'', h'', hlost⟩ := h'.step hstep.step
    obtain rfl : held = [] := by
      by_contra hne
      obtain ⟨hhanded, sqe, todo, hp, hruns⟩ := hlost hne
      exact hstep.spare hhanded sqe todo hp hruns
    exact ⟨q'', out'', slot'', userData'', h''⟩

/-- **Conservation of the block driver's descriptors.**  In every run in which no request that
passes all checks is submitted while one or two descriptors are free, every state reached has
as many free descriptors as the pending requests leave.  In such a state a rejected request
leaves the free list, the available ring and the pending requests alone iff it is not a request
of that kind. -/
theorem block_conservation (hb : b.Started) {s : BlkState}
    (hs : Relation.ReflTransGen SpareStep (.start b) s) :
    s.blk.Conserved ∧ ∀ sqe,
      (∀ e b', s.blk.submitVirtioRequest sqe = .ret (.error e, b') → s.blk.SameTables b') ↔
        ¬ s.blk.RunsOut sqe := by
  obtain ⟨q, out, slot, userData, h⟩ :=
    SpareStep.run (BlkState.Inv.start hb (fun _ => 0) (fun _ => 0)) hs
  exact ⟨⟨q, h.blk.queue, by simpa using h.blk.conservation⟩, h.blk.sameTables_iff⟩

/-- A new driver with one request submitted. -/
theorem block_conservation_read :
    ∃ s, Relation.ReflTransGen SpareStep (.start (.initial 512)) s ∧ s.handed = 1 ∧
      s.blk.Conserved := by
  have hserver : (BlkState.start (.initial 512)).blk.ringServer = some ⟨[], []⟩ := rfl
  have h₀ := BlkState.Inv.start (started_initial 512) (fun _ => 0) (fun _ => 0)
  have h₁ := h₀.client hserver readBlock
  have h₂ := h₁.fetch rfl rfl
  obtain ⟨i, ha⟩ := BlkState.admitted_readBlock h₂ rfl (by decide)
  have hfree : 3 ≤ (fresh 0 128 ((initial 512).dmaPaddr + 8192) .zeroed).freeIds.length := by
    rw [length_freeIds]
    show 3 ≤ (128 : UInt16).toNat
    decide
  obtain ⟨d1, d2, d3, q', hsub, -⟩ := h₂.blk.submit_ok ha hfree
  have hrun : Relation.ReflTransGen SpareStep (.start (.initial 512)) _ :=
    ((Relation.ReflTransGen.single
      ⟨.client _ _ readBlock hserver, fun hne => absurd rfl hne⟩).tail
      ⟨.fetch _ _ rfl rfl, fun hne => absurd rfl hne⟩).tail
      ⟨.accept _ readBlock [] _ _ q' rfl hsub h₂.blk.queue rfl, fun _ sqe todo hp => by
        obtain ⟨rfl, -⟩ := List.cons.inj (BlkPhase.submitting.inj hp)
        exact ha.not_runsOut hfree⟩
  exact ⟨_, hrun, rfl, (block_conservation (started_initial 512) hrun).1⟩

/-- The 43rd request of one block, with the other 42 in the queue, fails and leaves the tables
changed; two descriptors are lost. -/
theorem block_descriptors_lost :
    ∃ s t b', BlkReach (.start (.initial 512)) s ∧ s.fetched = List.replicate 43 readBlock ∧
      s.blk.submitVirtioRequest readBlock = .ret (.error .outOfMemory, b') ∧
      ¬ s.blk.SameTables b' ∧ BlkStep s t ∧ ¬ t.blk.Conserved := by
  obtain ⟨s, hs, hload⟩ := BlkState.exists_loaded le_rfl
  obtain ⟨t, ht, hp, hbuf, hfetched, -, -, -, q, out, slot, userData, hinv, hlen⟩ := hload.fetch
  obtain ⟨i, ha⟩ := BlkState.admitted_readBlock hinv hbuf (by omega)
  have hcons := hinv.blk.conservation
  rw [hinv.blk.someCount_eq, hlen, List.length_nil] at hcons
  obtain ⟨q', hsub, hids, -, hinv'⟩ :=
    hinv.blk.submit_short ha (by rw [length_freeIds]; omega)
  refine ⟨t, _, _, hs.trans ht, hfetched, hsub, ?_, .reject t readBlock [] _ _ hp hsub, ?_⟩
  · rintro ⟨q₀, q₁, hq₀, hq₁, he, -⟩
    obtain rfl : q = q₀ := Option.some.inj (hinv.blk.queue.symm.trans hq₀)
    obtain rfl : q' = q₁ := Option.some.inj hq₁
    have hlen := congrArg List.length he
    rw [hids, length_freeIds, List.length_nil] at hlen
    omega
  · rintro ⟨q₁, hq₁, he⟩
    obtain rfl : q' = q₁ := Option.some.inj hq₁
    have hcons' := hinv'.conservation
    rw [List.append_nil, List.length_reverse, length_freeIds] at hcons'
    have he : q'.numFree.toNat + 3 * someCount t.blk.pendingInfo = 128 := he
    have hcons' : q'.numFree.toNat + 3 * someCount t.blk.pendingInfo + q.numFree.toNat = 128 :=
      hcons'
    omega

end GlendaDrivers
