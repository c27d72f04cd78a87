import GlendaDrivers.Virtio.NetRuns

/-!
# Descriptors of the network driver

`submit` takes its two descriptors before it checks the address against the shared buffer, and
a request that fails the check does not return them.

* `Conserved`, `SameTables`: the number of descriptors is right; both queues are unchanged;
* `Strays`: the request fails the address check while its queue has a free descriptor;
* `NetState.sameTables_iff`: a rejected request leaves the queues alone iff it does not stray;
* `net_conservation`: without such a request the number of descriptors is conserved;
* `net_descriptors_lost`: one request out of the boundary of the buffer.
-/

namespace GlendaDrivers

open VirtQueue VirtIONet

namespace VirtIONet

/-- Descriptors are conserved: 128 is the number of free ones of queue `i` and of those of its
pending requests. -/
def Conserved (n : VirtIONet) (i : NetDir) : Prop :=
  ∃ q, n.queue i = some q ∧ q.numFree.toNat + 2 * someCount (n.pending i) = 128

/-- The free list, `num_free`, the available index and the table of pending requests of both
queues are those of `n`. -/
def SameTables (n n' : VirtIONet) : Prop :=
  ∀ i, ∃ q q', n.queue i = some q ∧ n'.queue i = some q' ∧ q'.freeIds = q.freeIds ∧
    q'.numFree = q.numFree ∧ q'.mem.availIdx = q.mem.availIdx ∧ n'.pending i = n.pending i

/-- The request is out of the boundary of the shared buffer, and queue `i` has a free
descriptor. -/
def Strays (n : VirtIONet) (i : NetDir) (sqe : Sqe) : Prop :=
  ∃ q, n.queue i = some q ∧ q.numFree ≠ 0 ∧ dataPaddr n.buffer sqe = none

end VirtIONet

/-- A step that does not submit a request that strays. -/
structure SpareNetStep (s t : NetState) : Prop where
  step : NetStep s t
  spare : t.handed ≠ s.handed → ∀ sqe todo i, s.phase = .submitting (sqe :: todo) →
    netDir sqe.opcode = some i → ¬ s.net.Strays i sqe

namespace NetState

variable {s t : NetState} {n : VirtIONet} {i : NetDir} {sqe : Sqe}

/-- With no descriptor lost, the number of free descriptors is even. -/
theorem length_ne_one {q : VirtQueue} {tr : Traffic} {out : List Request} {slot : ℕ → Fin 128}
    {userData : ℕ → UInt64} (h : NetInv n i q tr out [] slot userData) :
    q.freeIds.length ≠ 1 := by
  have hcons := h.conservation
  rw [List.length_nil, ← length_freeIds] at hcons
  omega

/-- With no descriptor lost, the requests that lose some are those that stray. -/
theorem loses_iff (h : s.Inv fun _ => []) : s.net.Loses i sqe ↔ s.net.Strays i sqe := by
  obtain ⟨q, out, slot, userData, h'⟩ := h i
  constructor
  · rintro ⟨q', hq', hne, hwhy⟩
    obtain rfl : q = q' := Option.some.inj (h'.queue.symm.trans hq')
    exact ⟨q, hq', fun hz => hne (freeIds_eq_nil.2 hz), hwhy.resolve_left (length_ne_one h')⟩
  · rintro ⟨q', hq', hne, hd⟩
    exact ⟨q', hq', fun hnil => hne (freeIds_eq_nil.1 hnil), Or.inr hd⟩

/-- With no descriptor lost, a rejected request leaves the queues alone iff it does not stray. -/
theorem sameTables_iff (h : s.Inv fun _ => []) (i : NetDir) (sqe : Sqe) :
    (∀ e n, s.net.submit i sqe = .ret (.error e, n) → s.net.SameTables n) ↔
      ¬ s.net.Strays i sqe := by
  rw [← loses_iff h]
  obtain ⟨q, out, slot, userData, h'⟩ := h i
  rcases h'.submit_cases sqe with ⟨hnil, hsub⟩ | ⟨e, q', lost, hne, hwhy, hsub, -, hlost, hinv⟩ |
    ⟨d1, d2, rest, paddr, hids, hd⟩
  · constructor
    · rintro - ⟨q', hq', hne, -⟩
      obtain rfl : q = q' := Option.some.inj (h'.queue.symm.trans hq')
      exact hne hnil
    · intro _ e n hn j
      obtain ⟨-, rfl⟩ := Prod.mk.inj (Outcome.ret.inj (hsub.symm.trans hn))
      obtain ⟨qj, _, _, _, hj⟩ := h j
      exact ⟨qj, qj, hj.queue, hj.queue, rfl, rfl, rfl, rfl⟩
  · constructor
    · intro hsame
      obtain ⟨q₀, q₁, hq₀, hq₁, -, hnum, -, hpend⟩ := hsame _ _ hsub i
      obtain rfl : q = q₀ := Option.some.inj (h'.queue.symm.trans hq₀)
      obtain rfl : q' = q₁ := Option.some.inj (hinv.queue.symm.trans hq₁)
      have hcons := h'.conservation
      have hcons' := hinv.conservation
      have hpos := List.length_pos_iff.2 hlost
      rw [hnum, hpend, List.length_append] at hcons'
      rw [List.length_nil] at hcons
      omega
    · intro hno
      exact absurd ⟨q, h'.queue, hne, hwhy⟩ hno
  · constructor
    · rintro - ⟨q', hq', -, hwhy⟩
      obtain rfl : q = q' := Option.some.inj (h'.queue.symm.trans hq')
      rcases hwhy with hlen | hd'
      · exact length_ne_one h' hlen
      · rw [hd] at hd'
        exact absurd hd' (by simp)
    · intro _ e n hn
      obtain ⟨q', idx, hsub, -⟩ := h'.submit_ok hids hd
      simp [hsub] at hn

/-- A run of such steps loses no descriptor. -/
theorem spare_run (h : s.Inv fun _ => []) (hrun : Relation.ReflTransGen SpareNetStep s t) :
    t.Inv fun _ => [] := by
  induction hrun with
  | refl => exact h
  | tail _ hstep ih =>
    obtain ⟨held, h', hlost⟩ := ih.step hstep.step
    obtain rfl : held = fun _ => [] := by
      funext i
      by_contra hne
      obtain ⟨hhanded, sqe, todo, hp, hi, hloses⟩ := hlost i hne
      exact hstep.spare hhanded sqe todo i hp hi ((loses_iff ih).1 hloses)
    exact h'

end NetState

/-- **Conservation of the network driver's descriptors.**  In every run in which no request out
of the boundary of the shared buffer is submitted to a queue with a free descriptor, in every
state reached both queues have as many free descriptors as the pending requests leave.  In such
a state a rejected request leaves both queues and tables alone iff it is not a request of that
kind. -/
theorem net_conservation {n : VirtIONet} (hn : n.Started) {s : NetState}
    (hs : Relation.ReflTransGen SpareNetStep (.start n) s) :
    (∀ i, s.net.Conserved i) ∧ ∀ i sqe,
      (∀ e n', s.net.submit i sqe = .ret (.error e, n') → s.net.SameTables n') ↔
        ¬ s.net.Strays i sqe := by
  have h := NetState.spare_run (NetState.inv_start hn) hs
  refine ⟨fun i => ?_, NetState.sameTables_iff h⟩
  obtain ⟨q, out, slot, userData, h'⟩ := h i
  exact ⟨q, h'.queue, by simpa using h'.conservation⟩

/-- The driver has fetched the request `sqe`, its first. -/
def fetchedOne (sqe : Sqe) : NetState :=
  { NetState.start (.initial (some sharedPage)) with
    phase := .submitting [sqe]
    fetched := [sqe] }

theorem fetchedOne_run (sqe : Sqe) :
    Relation.ReflTransGen SpareNetStep (.start (.initial (some sharedPage))) (fetchedOne sqe) := by
  let s₀ : NetState := .start (.initial (some sharedPage))
  let s₁ : NetState := { s₀ with net := { s₀.net with ringServer := some ⟨[sqe], []⟩ } }
  have h₁ : SpareNetStep s₀ s₁ := ⟨.client s₀ ⟨[], []⟩ sqe rfl, fun hne => absurd rfl hne⟩
  have h₂ : SpareNetStep s₁ (fetchedOne sqe) :=
    ⟨.fetch s₁ ⟨[sqe], []⟩ rfl rfl, fun hne => absurd rfl hne⟩
  exact (Relation.ReflTransGen.single h₁).tail h₂

/-- Both descriptors for it are free. -/
theorem fetchedOne_free (sqe : Sqe) (i : NetDir) : ∃ q d1 d2 rest,
    NetInv (fetchedOne sqe).net i q .init [] [] (fun _ => 0) (fun _ => 0) ∧
      q.freeIds = d1 :: d2 :: rest := by
  obtain ⟨q, h⟩ := NetInv.start (started_initial (some sharedPage)) i (fun _ => 0) (fun _ => 0)
  obtain ⟨d1, d2, rest, hids⟩ := h.two_free
  exact ⟨q, d1, d2, rest, h, hids⟩

/-- The buffer for a packet is submitted. -/
theorem net_conservation_read :
    ∃ s, Relation.ReflTransGen SpareNetStep (.start (.initial (some sharedPage))) s ∧
      s.handed = 1 ∧ ∀ i, s.net.Conserved i := by
  let sqe : Sqe := ⟨.read, 0, 0x10000, 1500, 0⟩
  obtain ⟨q, d1, d2, rest, h, hids⟩ := fetchedOne_free sqe .rx
  have hd : dataPaddr (some sharedPage) sqe = some 0x80000000 := by decide
  obtain ⟨q', idx, hsub, -⟩ := h.submit_ok hids hd
  have hno : ∀ i, ¬ (fetchedOne sqe).net.Strays i sqe := by
    rintro i ⟨-, -, -, hd'⟩
    exact absurd (hd.symm.trans hd') (by simp)
  have hsub' := (submitSqe_eq (show netDir sqe.opcode = some .rx from rfl)).trans hsub
  have hrun := (fetchedOne_run sqe).tail
    ⟨.accept (fetchedOne sqe) sqe [] .rx _ q q' rfl hsub' rfl h.queue (entered_queue _ _ _ _ _ _),
      fun _ sqe' todo i hp _ => by
        obtain ⟨rfl, -⟩ := List.cons.inj (NetPhase.submitting.inj hp)
        exact hno i⟩
  exact ⟨_, hrun, rfl, (net_conservation (started_initial (some sharedPage)) hrun).1⟩

/-- A single READ below the shared buffer is rejected and leaves the tables changed; two
descriptors are lost. -/
theorem net_descriptors_lost :
    ∃ s t n', NetReach (.start (.initial (some sharedPage))) s ∧
      s.net.submit .rx ⟨.read, 0, 0, 64, 0⟩ = .ret (.error .invalidHeader, n') ∧
      ¬ s.net.SameTables n' ∧ NetStep s t ∧ ¬ t.net.Conserved .rx := by
  let sqe : Sqe := ⟨.read, 0, 0, 64, 0⟩
  obtain ⟨q, d1, d2, rest, h, hids⟩ := fetchedOne_free sqe .rx
  have hd : dataPaddr (some sharedPage) sqe = none := by decide
  have hreach : NetReach _ (fetchedOne sqe) :=
    Relation.ReflTransGen.mono (show SpareNetStep ≤ NetStep from fun _ _ hstep => hstep.step) _ _
      (fetchedOne_run sqe)
  obtain ⟨q', hsub, -, hids', hinv⟩ := h.submit_stray hids hd
  have hsub' := (submitSqe_eq (show netDir sqe.opcode = some .rx from rfl)).trans hsub
  refine ⟨fetchedOne sqe, _, _, hreach, hsub, ?_, .reject _ sqe [] _ _ rfl hsub', ?_⟩
  · intro hsame
    obtain ⟨q₀, q₁, hq₀, hq₁, he, -⟩ := hsame .rx
    obtain rfl := Option.some.inj (h.queue.symm.trans hq₀)
    obtain rfl := Option.some.inj ((setQueue_queue _ _ q').symm.trans hq₁)
    have hlen := congrArg List.length he
    rw [hids', hids, List.length_cons, List.length_cons] at hlen
    omega
  · rintro ⟨q₁, hq₁, he⟩
    have hq' := setQueue_queue (fetchedOne sqe).net .rx q'
    obtain rfl : q' = q₁ := Option.some.inj (hq'.symm.trans hq₁)
    have hcons := hinv.conservation
    have he : q'.numFree.toNat + 2 * someCount ((fetchedOne sqe).net.pending .rx) = 128 := he
    have hcons : q'.numFree.toNat + 2 * someCount ((fetchedOne sqe).net.pending .rx) + 2 = 128 :=
      hcons
    omega

end GlendaDrivers
