import GlendaDrivers.Uart.Requests
import GlendaDrivers.Uart.TransmitFifo

/-!
# The results of WRITE requests

* `Service`: a request that was served, with the machine before and after;
* `Service.Truthful`, `Service.Backed`: the posted result counts the bytes sent, and the request
  claims no more and no less than there was to send;
* `handleSqe_write`: what serving a WRITE request sends and posts;
* `Moment`: the moments of a run at which no request is being served;
* `uart_write_results`: results are truthful exactly for backed requests.
-/

namespace GlendaDrivers.Uart

open Prog (Triple Keeps)

/-- The completions posted so far. -/
def Machine.completions (m : Machine) : List (UInt64 × Int32) :=
  match m.uart.ring with
  | none => []
  | some ring => ring.completions

/-! ### Served requests -/

/-- A request that was served. -/
structure Service where
  sqe : Sqe
  before : Machine
  after : Machine

namespace Service

/-- The result of the completion that was posted last. -/
def result (s : Service) : Int32 := (s.after.completions.getLast?.map Prod.snd).getD 0

/-- The bytes written to THR meanwhile. -/
def written (s : Service) : List UInt8 := s.after.log.thr.drop s.before.log.thr.length

/-- The bytes that the client pushed meanwhile. -/
def pushed (s : Service) : List UInt8 := s.after.log.txPushed.drop s.before.log.txPushed.length

/-- A result that is not negative is the number of bytes sent. -/
def Truthful (s : Service) : Prop := 0 ≤ s.result → s.result.toInt = s.written.length

/-- The request has no address, is too long for a result that is not negative, or is as long as
the bytes at hand: those in the TX ring and those pushed meanwhile, up to the budget. -/
def Backed (s : Service) : Prop :=
  s.sqe.addr = 0 ∨ 2 ^ 31 ≤ s.sqe.len.toNat ∨
    s.sqe.len.toNat = min txSqBudgetBytes (s.before.txData.length + s.pushed.length)

end Service

theorem keeps_hasRing : KeptBySteps (OnRing fun v => v.ring.isSome) :=
  kept_ring (fun v sqes h => by
      unfold RingView.moved
      rwa [Option.isSome_map])
    fun v userData result h => by
      unfold RingView.complete
      rwa [Option.isSome_map]

theorem completions_complete {m : Machine} {ring : IoUringServer} (hring : m.uart.ring = some ring)
    (userData : UInt64) (result : Int32) :
    (complete userData result m).2.completions = ring.completions ++ [(userData, result)] := by
  show Machine.completions { m with uart := { m.uart with
    ring := m.uart.ring.map (·.complete userData result) } } = _
  unfold Machine.completions
  rw [hring]
  rfl

/-- A WRITE request sends what is at hand, up to its budget, and posts the number of these bytes
or the length in the request. -/
theorem handleSqe_write {fuel : ℕ} {sqe : Sqe} {m m' : Machine} (hop : sqe.opcode = .write)
    (hdlab : m.chip.lcr &&& lcrDlab = 0) (hring : m.uart.ring.isSome)
    (hret : handleSqe fuel sqe m = (.ret ⟨⟩, m')) :
    ∃ w posted, m'.log.thr = m.log.thr ++ w ∧
      w.length = min txSqBudgetBytes
        (m.txData.length + (Service.mk sqe m m').pushed.length) ∧
      m'.completions = posted ++
        [(sqe.userData, if sqe.addr = 0 then Int32.ofNat w.length else sqe.len.toInt32)] := by
  unfold handleSqe at hret
  rw [hop] at hret
  obtain ⟨n, m₁, hsend, hpost⟩ := Prog.bind_eq_ret.mp hret
  obtain ⟨hle, ⟨w, hw, hsent⟩, hempty⟩ := processTxRing_ret hdlab hsend
  have hring₁ : m₁.uart.ring.isSome :=
    (keeps_hasRing.processTxRing fuel txSqBudgetBytes).of_run hring hsend
  obtain ⟨ring, hring₁⟩ := Option.isSome_iff_exists.mp hring₁
  -- the completion changes nothing else
  obtain rfl : _ = m' := (Prod.mk.inj hpost).2
  rw [← hw] at hle hempty
  obtain ⟨pushed, hpushed, hfifo⟩ := hsent.fifo
  have hnew : m₁.log.txPushed.drop m.log.txPushed.length = pushed :=
    (congrArg (List.drop m.log.txPushed.length) hpushed).trans List.drop_left
  have hcount := congrArg List.length hfifo
  simp only [List.append_nil, List.length_append] at hcount
  refine ⟨w, ring.completions, hsent.thr, ?_, ?_⟩
  · unfold Service.pushed
    dsimp only
    rw [hnew]
    have hdata : w.length < txSqBudgetBytes → m₁.txView.data.length = 0 := fun hlt =>
      List.length_eq_zero_iff.mpr (hempty hlt)
    unfold Machine.txData
    omega
  · rw [hw]
    exact completions_complete hring₁ _ _

theorem toInt_toInt32 (x : UInt32) :
    x.toInt32.toInt = if x.toNat < 2 ^ 31 then (x.toNat : ℤ) else x.toNat - 2 ^ 32 := by
  have h := BitVec.toInt_eq_toNat_cond x.toBitVec
  show x.toBitVec.toInt = _
  rw [h, UInt32.toNat_toBitVec]
  split_ifs <;> first | rfl | omega

theorem Service.truthful_iff {fuel : ℕ} {s : Service} (hop : s.sqe.opcode = .write)
    (hdlab : s.before.chip.lcr &&& lcrDlab = 0) (hring : s.before.uart.ring.isSome)
    (hret : handleSqe fuel s.sqe s.before = (.ret ⟨⟩, s.after)) : s.Truthful ↔ s.Backed := by
  obtain ⟨w, posted, hthr, hlen, hposted⟩ := handleSqe_write hop hdlab hring hret
  have hlen : w.length = min txSqBudgetBytes (s.before.txData.length + s.pushed.length) := hlen
  have hwritten : s.written = w := by
    unfold Service.written
    rw [hthr, List.drop_left]
  have hresult : s.result =
      if s.sqe.addr = 0 then Int32.ofNat w.length else s.sqe.len.toInt32 := by
    unfold Service.result
    rw [hposted, List.getLast?_append]
    rfl
  unfold Service.Truthful Service.Backed
  rw [hwritten, hresult]
  by_cases haddr : s.sqe.addr = 0
  · have hsmall : w.length < 2 ^ 31 := by
      rw [hlen]
      exact lt_of_le_of_lt (min_le_left _ _) (by decide)
    rw [if_pos haddr, Int32.toInt_ofNat_of_lt hsmall]
    exact ⟨fun _ => Or.inl haddr, fun _ _ => rfl⟩
  · rw [if_neg haddr, Int32.le_iff_toInt_le, Int32.toInt_zero, toInt_toInt32, hlen]
    have hlt := s.sqe.len.toNat_lt
    split_ifs with hlow
    · constructor
      · intro h
        exact Or.inr (Or.inr (by have := h (by omega); omega))
      · rintro (h | h | h) -
        · exact absurd h haddr
        · omega
        · exact congrArg Nat.cast h
    · constructor
      · exact fun _ => Or.inr (Or.inl (by omega))
      · intro _ h
        omega

/-! ### Runs -/

/-- The moments of a run that began at `m₀` at which no request is being served, with the
requests served so far: between two notifications, or inside a `handle_sq` with the given bound
on its loops. -/
inductive Moment (m₀ : Machine) : Option ℕ → List Service → Machine → Prop
  | start : Moment m₀ none [] m₀
  | call {served : List Service} {m m' : Machine} {op : UartOp} (fuel : ℕ)
      (h : Moment m₀ none served m) (hop : op.IsNotification) (hsq : op ≠ .sq)
      (hret : exec fuel op m = (.ret ⟨⟩, m')) : Moment m₀ none served m'
  | enter {served : List Service} {m : Machine} (fuel : ℕ) (h : Moment m₀ none served m) :
      Moment m₀ (some fuel) served m
  | request {served : List Service} {m m₁ m₂ : Machine} {fuel : ℕ} {sqe : Sqe}
      (h : Moment m₀ (some fuel) served m) (hnext : nextSqe m = (.ret (some sqe), m₁))
      (hret : handleSqe fuel sqe m₁ = (.ret ⟨⟩, m₂)) :
      Moment m₀ (some fuel) (served ++ [⟨sqe, m₁, m₂⟩]) m₂
  | finish {served : List Service} {m m₁ m₂ : Machine} {fuel : ℕ}
      (h : Moment m₀ (some fuel) served m) (hnext : nextSqe m = (.ret none, m₁))
      (hret : flushIfBuffered false m₁ = (.ret ⟨⟩, m₂)) : Moment m₀ none served m₂

/-- A `handle_sq` that returns passes from request to request. -/
theorem Moment.handleSq {m₀ m m' : Machine} {fuel : ℕ} {served : List Service}
    (h : Moment m₀ none served m) (hret : handleSq fuel m = (.ret ⟨⟩, m')) :
    ∃ more, Moment m₀ none (served ++ more) m' := by
  have hloop : Triple (fun m => ∃ more, Moment m₀ (some fuel) (served ++ more) m)
      (Prog.loop (sqStep fuel) fuel ())
      (fun _ m => ∃ more m', Moment m₀ (some fuel) (served ++ more) m' ∧
        nextSqe m' = (.ret none, m)) fun _ => True := by
    refine Triple.loop (I := fun _ m => ∃ more, Moment m₀ (some fuel) (served ++ more) m)
      (fun _ => ?_) (fun _ _ _ => trivial) fuel ()
    rintro m ⟨more, hm⟩
    rcases hstep : sqStep fuel () m with ⟨(_ | _) | _ | _, m₂⟩
    · obtain ⟨sqe, m₁, hnext, hrest⟩ := Prog.bind_eq_ret.mp hstep
      cases sqe with
      | none => cases hrest
      | some sqe =>
        obtain ⟨_, m₃, hserve, hlast⟩ := Prog.bind_eq_ret.mp hrest
        obtain rfl : m₃ = m₂ := (Prod.mk.inj hlast).2
        refine ⟨more ++ [⟨sqe, m₁, m₃⟩], ?_⟩
        rw [← List.append_assoc]
        exact hm.request hnext hserve
    · obtain ⟨sqe, m₁, hnext, hrest⟩ := Prog.bind_eq_ret.mp hstep
      cases sqe with
      | none =>
        obtain rfl : m₁ = m₂ := (Prod.mk.inj hrest).2
        exact ⟨more, m, hm, hnext⟩
      | some sqe =>
        obtain ⟨_, m₃, -, hlast⟩ := Prog.bind_eq_ret.mp hrest
        cases hlast
    · trivial
    · trivial
  obtain ⟨_, m₁, hserve, hflush⟩ := Prog.bind_eq_ret.mp hret
  have hdone := hloop m ⟨[], by rw [List.append_nil]; exact h.enter fuel⟩
  rw [hserve] at hdone
  obtain ⟨more, m₂, hm₂, hnext⟩ := hdone
  exact ⟨more, hm₂.finish hnext hflush⟩

/-- The WRITE requests among the served ones. -/
def writes (served : List Service) : List Service :=
  served.filter fun s => s.sqe.opcode = .write

/-- The sum of the results of the WRITE requests, as far as they are not negative. -/
def credited (served : List Service) : ℕ :=
  ((writes served).map fun s => s.result.toNatClampNeg).sum

/-- What holds of a served request. -/
structure Service.Valid (s : Service) : Prop where
  dlab : s.before.chip.lcr &&& lcrDlab = 0
  ring : s.before.uart.ring.isSome
  ret : ∃ fuel, handleSqe fuel s.sqe s.before = (.ret ⟨⟩, s.after)

theorem Settled.length_thr_le {start v : TxView} (h : Settled start v) :
    start.thr.length ≤ v.thr.length := by
  obtain ⟨sent, h⟩ := h
  rw [h.thr, List.length_append]
  exact Nat.le_add_right _ _

theorem Settled.trans {start mid v : TxView} (h : Settled start mid) (h' : Settled mid v) :
    Settled start v := by
  obtain ⟨sent, h⟩ := h
  obtain ⟨more, h'⟩ := h'
  exact ⟨sent ++ more, h.trans h'⟩

theorem Settled.refl {v : TxView} (h : v.lcr &&& lcrDlab = 0) : Settled v v := ⟨[], Sent.refl h⟩

theorem Settled.dlab {start v : TxView} (h : Settled start v) : v.lcr &&& lcrDlab = 0 := by
  obtain ⟨sent, h⟩ := h
  exact h.dlab

/-- A call that keeps what was sent and what waits in order. -/
theorem Settled.of_run {α : Type} {p : Prog Machine α} {F : Machine → Prop} {a : α}
    {m m' : Machine}
    (hp : Triple (OnTx (Settled m.txView)) p (fun _ => OnTx (Settled m.txView)) F)
    (hdlab : m.chip.lcr &&& lcrDlab = 0) (hret : p m = (.ret a, m')) :
    Settled m.txView m'.txView := by
  have hp := hp m (Settled.refl hdlab)
  rw [hret] at hp
  exact hp

/-- `next_request` yields a request only from a ring. -/
theorem nextSqe_ring {m m₁ : Machine} {sqe : Sqe} (h : nextSqe m = (.ret (some sqe), m₁)) :
    m₁.uart.ring.isSome := by
  unfold nextSqe Prog.ofFn at h
  cases hring : m.moved.uart.ring with
  | none =>
    simp only [hring] at h
    cases h
  | some ring =>
    simp only [hring] at h
    obtain rfl := (Prod.mk.inj h).2
    rfl

/-- In a run the bytes sent for WRITE requests are among those written to THR. -/
theorem Moment.written_le {m₀ m : Machine} {phase : Option ℕ} {served : List Service}
    (hdlab : m₀.chip.lcr &&& lcrDlab = 0) (h : Moment m₀ phase served m) :
    Settled m₀.txView m.txView ∧ (∀ s ∈ served, s.Valid) ∧
      m₀.log.thr.length + ((writes served).map fun s => s.written.length).sum
        ≤ m.log.thr.length := by
  induction h with
  | start => exact ⟨Settled.refl hdlab, fun s hs => absurd hs List.not_mem_nil, le_rfl⟩
  | call fuel _ hop _ hret ih =>
    obtain ⟨hm, hvalid, hle⟩ := ih
    have hcall := Settled.of_run (settled_notification fuel hop) hm.dlab hret
    exact ⟨hm.trans hcall, hvalid, hle.trans hcall.length_thr_le⟩
  | enter fuel _ ih => exact ih
  | @request served m m₁ m₂ fuel sqe _ hnext hret ih =>
    obtain ⟨hm, hvalid, hle⟩ := ih
    have hfetch := Settled.of_run settled_nextSqe hm.dlab hnext
    have hserve := Settled.of_run (settled_serve fuel sqe) hfetch.dlab hret
    refine ⟨(hm.trans hfetch).trans hserve, ?_, ?_⟩
    · intro s hs
      obtain hs | hs := List.mem_append.mp hs
      · exact hvalid s hs
      · obtain rfl := List.mem_singleton.mp hs
        exact ⟨hfetch.dlab, nextSqe_ring hnext, fuel, hret⟩
    · have hlen₁ : m.log.thr.length ≤ m₁.log.thr.length := hfetch.length_thr_le
      have hlen₂ : m₁.log.thr.length ≤ m₂.log.thr.length := hserve.length_thr_le
      have hlast : ((writes [⟨sqe, m₁, m₂⟩]).map fun s => s.written.length).sum ≤
          m₂.log.thr.length - m₁.log.thr.length := by
        by_cases hop : sqe.opcode = .write <;> simp [writes, Service.written, hop]
      unfold writes at hle hlast ⊢
      rw [List.filter_append, List.map_append, List.sum_append]
      omega
  | finish _ hnext hret ih =>
    obtain ⟨hm, hvalid, hle⟩ := ih
    have hfetch := Settled.of_run settled_nextSqe hm.dlab hnext
    have hflush := Settled.of_run (settled_receive.flushIfBuffered false) hfetch.dlab hret
    exact ⟨(hm.trans hfetch).trans hflush, hvalid,
      (hle.trans hfetch.length_thr_le).trans hflush.length_thr_le⟩

/-- **The results of WRITE requests.**  The result of a WRITE request, unless it is negative, is
the number of bytes sent for it iff the request has no address or is as long as the bytes at hand.
A `handle_sq` that returns is part of a run of moments; in a run whose WRITE requests are all such,
the results add up to no more than the bytes written to THR. -/
theorem uart_write_results (m₀ : Machine) (hdlab : m₀.chip.lcr &&& lcrDlab = 0) :
    (∀ fuel sqe m, sqe.opcode = .write → m₀.uart.ring.isSome →
      handleSqe fuel sqe m₀ = (.ret ⟨⟩, m) →
        (m.completions.getLast?.map Prod.fst = some sqe.userData ∧
          ((Service.mk sqe m₀ m).Truthful ↔ (Service.mk sqe m₀ m).Backed))) ∧
    (∀ fuel served m m', Moment m₀ none served m → handleSq fuel m = (.ret ⟨⟩, m') →
      ∃ more, Moment m₀ none (served ++ more) m') ∧
    ∀ phase served m, Moment m₀ phase served m → (∀ s ∈ writes served, s.Backed) →
      (∀ s ∈ writes served, s.Truthful) ∧
        m₀.log.thr.length + credited served ≤ m.log.thr.length := by
  refine ⟨?_, fun _ _ _ _ hm hret => hm.handleSq hret, ?_⟩
  · intro fuel sqe m hop hring hret
    refine ⟨?_, Service.truthful_iff (s := ⟨sqe, m₀, m⟩) hop hdlab hring hret⟩
    obtain ⟨w, posted, -, -, hposted⟩ := handleSqe_write hop hdlab hring hret
    rw [hposted, List.getLast?_append]
    rfl
  · intro phase served m hm hbacked
    obtain ⟨-, hvalid, hle⟩ := hm.written_le hdlab
    have htruth : ∀ s ∈ writes served, s.Truthful := by
      intro s hs
      obtain ⟨hmem, hop⟩ := List.mem_filter.mp hs
      obtain ⟨hd, hring, fuel, hret⟩ := hvalid s hmem
      exact (Service.truthful_iff (of_decide_eq_true hop) hd hring hret).mpr (hbacked s hs)
    refine ⟨htruth, le_trans (Nat.add_le_add_left ?_ _) hle⟩
    refine List.sum_le_sum fun s hs => ?_
    have hs := htruth s hs
    unfold Service.Truthful at hs
    rw [Int32.le_iff_toInt_le, Int32.toInt_zero] at hs
    show s.result.toInt.toNat ≤ _
    omega

/-- Two bytes wait in the TX ring, and a WRITE request for five is queued. -/
def writer (addr : UInt64) : Machine :=
  { Machine.initial fun _ => .quiet with
    uart :=
      { Ns16550a.new with
        txRing := some ⟨2032, [7, 8]⟩
        ring := some ⟨[⟨.write, 0, addr, 5, 9⟩], []⟩ } }

/-- The request of `writer`, as it is served. -/
def writer.service (addr : UInt64) : Service where
  sqe := ⟨.write, 0, addr, 5, 9⟩
  before := (nextSqe (writer addr)).2
  after := (handleSqe 4 ⟨.write, 0, addr, 5, 9⟩ (nextSqe (writer addr)).2).2

theorem moment_writer (addr : UInt64)
    (hnext : (nextSqe (writer addr)).1 = .ret (some ⟨.write, 0, addr, 5, 9⟩))
    (hret : (handleSqe 4 ⟨.write, 0, addr, 5, 9⟩ (nextSqe (writer addr)).2).1 = .ret ⟨⟩) :
    Moment (writer addr) (some 4) [writer.service addr] (writer.service addr).after :=
  Moment.request (Moment.start.enter 4) (Prod.ext hnext rfl) (Prod.ext hret rfl)

/-- With the address zero the result is the number of bytes sent. -/
theorem uart_write_results_two : (writer.service 0).result = 2 ∧ (writer.service 0).Truthful ∧
    credited [writer.service 0] ≤ (writer.service 0).after.log.thr.length := by
  have hm := moment_writer 0 (by decide) (by decide)
  have h := (uart_write_results (writer 0) (by decide)).2.2 _ _ _ hm
    fun s hs => Or.inl (by
      obtain rfl := List.mem_singleton.mp (List.mem_filter.mp hs).1
      rfl)
  refine ⟨by decide, h.1 _ (by exact List.mem_filter.mpr ⟨List.mem_singleton_self _, rfl⟩), ?_⟩
  exact le_trans (Nat.le_add_left _ _) h.2

/-- With another address the result is the length in the request. -/
theorem write_overstated : ∃ served m, Moment (writer 0x1000) (some 4) served m ∧
    m.completions = [(9, 5)] ∧ m.log.thr = [7, 8] ∧ (∃ s ∈ writes served, ¬s.Truthful) ∧
      m.log.thr.length < (writer 0x1000).log.thr.length + credited served := by
  have hm := moment_writer 0x1000 (by decide) (by decide)
  refine ⟨_, _, hm, by decide, by decide, ⟨writer.service 0x1000, ?_, fun h => ?_⟩, by decide⟩
  · exact List.mem_filter.mpr ⟨List.mem_singleton_self _, rfl⟩
  · revert h
    unfold Service.Truthful
    decide

end GlendaDrivers.Uart
