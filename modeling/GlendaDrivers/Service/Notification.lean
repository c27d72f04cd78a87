import GlendaDrivers.Sys.RamdiskRing
import GlendaDrivers.Uart.Requests
import GlendaDrivers.Virtio.BlockRuns
import GlendaDrivers.Virtio.GpuRing
import GlendaDrivers.Virtio.NetAccount

/-!
# What one notification achieves

The block and the network driver fetch a batch of requests per notification, the other drivers
loop until the queue is empty.

* `BlkRingCall.handled_iff`, `NetRingCall.handled_iff`: a batch covers the queue iff it has at
  most 16 requests;
* `one_notification`: the same for all drivers with a ring;
* `exists_blkRingCall`, `exists_netRingCall`: calls with a queue of any length.
-/

namespace GlendaDrivers

/-! ### The block driver -/

section Block

variable {s t : BlkState} {server : IoUringServer}

/-- Only a call that begins fetches requests. -/
theorem BlkStep.fetched_eq (h : BlkStep s t) (hp : s.phase ≠ .idle) : t.fetched = s.fetched := by
  cases h with
  | fetch server hidle hs => exact absurd hidle hp
  | _ => rfl

theorem BlkBusy.fetched_eq (h : BlkBusy s t) : t.fetched = s.fetched := by
  induction h with
  | refl => rfl
  | tail _ hstep ih => exact (hstep.1.fetched_eq hstep.2).trans ih

/-- Between two calls all fetched requests were submitted or rejected. -/
theorem BlkState.Inv.answered_of_idle {blkSize : UInt32} {before : List (UInt64 × Int32)}
    {q : VirtQueue} {out : List Request} {held : List UInt16} {slot : ℕ → Fin 64}
    {userData : ℕ → UInt64}
    (h : s.Inv blkSize before q out held slot userData) (hp : s.phase = .idle) (n : ℕ) (sqe : Sqe)
    (hn : s.fetched[n]? = some sqe) :
    n ∈ s.accepted ∨ callsOf s.calls n = [(sqe.userData, -1)] := by
  have htodo := h.todo
  rw [hp] at htodo
  have htodo : s.handed = s.fetched.length := htodo
  have hlt : n < s.handed := htodo ▸ (List.getElem?_eq_some_iff.1 hn).1
  by_cases hacc : n ∈ s.accepted
  · exact .inl hacc
  · exact .inr (h.ledger.rejected n sqe hn hlt hacc)

theorem BlkRingCall.handled_iff {b : VirtIOBlk} (hb : b.Started) (hs : BlkReach (.start b) s)
    (h : BlkRingCall s server t) :
    Handled t.fetched (· ∈ t.accepted) t.calls s.fetched.length server.sq ↔
      server.sq.length ≤ 16 := by
  obtain ⟨q, out, held, slot, userData, hinv⟩ :=
    (BlkState.Inv.start hb (fun _ => 0) (fun _ => 0)).run (hs.trans h.reach)
  have hfetched : t.fetched = s.fetched ++ (server.fetch 16).1 := h.busy.fetched_eq
  rw [IoUringServer.fetch_eq] at hfetched
  exact GlendaDrivers.handled_iff hfetched (hinv.answered_of_idle h.returned)

end Block

/-! ### The network driver -/

section Net

variable {s t : NetState} {server : IoUringServer}

theorem NetStep.fetched_eq (h : NetStep s t) (hp : s.phase ≠ .idle) : t.fetched = s.fetched := by
  cases h with
  | fetch server hidle hs => exact absurd hidle hp
  | _ => rfl

theorem NetBusy.fetched_eq (h : NetBusy s t) : t.fetched = s.fetched := by
  induction h with
  | refl => rfl
  | tail _ hstep ih => exact (hstep.1.fetched_eq hstep.2).trans ih

/-- Between two calls all fetched requests were submitted or rejected. -/
theorem NetState.Account.answered_of_idle {before : List (UInt64 × Int32)} (h : s.Account before)
    (hp : s.phase = .idle) (n : ℕ) (sqe : Sqe) (hn : s.fetched[n]? = some sqe) :
    (∃ i, n ∈ s.accepted i) ∨ callsOf s.calls n = [(sqe.userData, -1)] := by
  have htodo := h.todo
  rw [hp] at htodo
  have htodo : s.handed = s.fetched.length := htodo
  have hlt : n < s.handed := htodo ▸ (List.getElem?_eq_some_iff.1 hn).1
  obtain ⟨order, done, place, result, hbooks⟩ := h.books
  by_cases hacc : n ∈ order
  · exact .inl (hbooks.interleaved.mem n hacc)
  · exact .inr (hbooks.ledger.rejected n sqe hn hlt hacc)

theorem NetRingCall.handled_iff {n : VirtIONet} (hn : n.Started) (hs : NetReach (.start n) s)
    (h : NetRingCall s server t) :
    Handled t.fetched (fun k => ∃ i, k ∈ t.accepted i) t.calls s.fetched.length server.sq ↔
      server.sq.length ≤ 16 := by
  have hacc := (NetState.Account.start hn).run (hs.trans h.reach)
  have hfetched : t.fetched = s.fetched ++ (server.fetch 16).1 := h.busy.fetched_eq
  rw [IoUringServer.fetch_eq] at hfetched
  exact GlendaDrivers.handled_iff hfetched (hacc.answered_of_idle h.returned)

end Net

/-! ### All drivers -/

/-- **What one notification achieves.**  When `handle_ring` of the block or the network driver
returns, after any run and with any moves of the client and the device during the call, the
requests that were queued when it was entered are all handled iff there were at most 16.  The
RAM disk and the GPU driver serve the whole queue when they return without an error, which is the
case iff none of the completions fails, and the UART driver serves it whenever it returns. -/
theorem one_notification (server : IoUringServer) :
    (∀ {b : VirtIOBlk} {s t : BlkState}, b.Started → BlkReach (.start b) s →
      BlkRingCall s server t →
        (Handled t.fetched (· ∈ t.accepted) t.calls s.fetched.length server.sq ↔
          server.sq.length ≤ 16)) ∧
    (∀ {n : VirtIONet} {s t : NetState}, n.Started → NetReach (.start n) s →
      NetRingCall s server t →
        (Handled t.fetched (fun k => ∃ i, k ∈ t.accepted i) t.calls s.fetched.length server.sq ↔
          server.sq.length ≤ 16)) ∧
    (∀ {code : Error → Int32} {fuel : ℕ} {answer : ℕ → Except Error Unit} {s s' : Ramdisk.State}
      {r : Except Error Unit}, s.disk.ring = some server →
      Ramdisk.handleIo code fuel answer s = (.ret r, s') →
        (r = .ok () ↔ ∀ k < server.sq.length, answer k = .ok ()) ∧
          (r = .ok () → ∃ after, s'.disk.ring = some after ∧ server.Served after [])) ∧
    (∀ {fuel : ℕ} {opFlush : Opcode} {answer : ℕ → Except Error Unit} {s s' : GpuState}
      {r : Except Error Unit}, s.gpu.ringServer = some server →
      VirtIOGpu.handleRing fuel opFlush answer s = (.ret r, s') →
        (r = .ok () ↔ ∀ k < server.sq.length, answer k = .ok ()) ∧
          (r = .ok () → ∃ after, s'.gpu.ringServer = some after ∧ server.Served after [])) ∧
    (∀ {fuel : ℕ} {m m' : Uart.Machine}, m.uart.ring = some server →
      Uart.handleSq fuel m = (.ret ⟨⟩, m') →
        ∃ after more, m'.uart.ring = some after ∧ m'.queued = m.queued ++ more ∧
          server.Served after more) := by
  refine ⟨fun hb hs h => h.handled_iff hb hs, fun hn hs h => h.handled_iff hn hs, ?_, ?_,
    Uart.handleSq_ret⟩
  · intro code fuel answer s s' r hserver h
    obtain ⟨r', hend, rfl, hafter⟩ := Ramdisk.handleIo_ret hserver h
    cases r' with
    | ok after =>
      refine ⟨iff_of_true rfl (hend.isOk_iff.1 rfl), fun _ => ⟨after, hafter after rfl, ?_⟩⟩
      exact hend.served
    | error e =>
      exact ⟨iff_of_false nofun (mt hend.isOk_iff.2 Bool.false_ne_true), nofun⟩
  · intro fuel opFlush answer s s' r hserver h
    obtain ⟨after, rfl, hafter, hend⟩ | ⟨e, rfl, -, hend⟩ := VirtIOGpu.handleRing_ret hserver h
    · exact ⟨iff_of_true rfl (hend.isOk_iff.1 rfl), fun _ => ⟨after, hafter, hend.served⟩⟩
    · exact ⟨iff_of_false nofun (mt hend.isOk_iff.2 Bool.false_ne_true), nofun⟩

/-! ### Queues of any length -/

/-- A server with `k` copies of a request in its queue. -/
def queueOf (k : ℕ) (sqe : Sqe) : IoUringServer := ⟨List.replicate k sqe, []⟩

/-- A request whose length is not a multiple of the block size. -/
def misaligned : Sqe := ⟨.read, 0, 0, 1, 7⟩

/-- A block driver with `k` misaligned requests in its queue. -/
def VirtIOBlk.queued (k : ℕ) : VirtIOBlk :=
  { initial 512 with ringServer := some (queueOf k misaligned) }

/-- Misaligned requests are rejected one by one. -/
theorem VirtIOBlk.submitAll_misaligned (k : ℕ) (b : VirtIOBlk) (hz : b.blkSize = 512) :
    ∃ b', submitAll (List.replicate k misaligned) b = .ret b' ∧ b'.queue = b.queue := by
  induction k generalizing b with
  | zero => exact ⟨b, rfl, rfl⟩
  | succ k ih =>
    have hsub : b.submitVirtioRequest misaligned = .ret (.error .invalidArgs, b) := by
      unfold submitVirtioRequest
      rw [hz, if_neg (by decide), if_pos (by decide)]
      rfl
    obtain ⟨b', hall, hq⟩ := ih (b.complete misaligned.userData (-1)) hz
    refine ⟨b', ?_, hq⟩
    rw [List.replicate_succ]
    unfold submitAll
    rw [hsub]
    exact hall

/-- A call with `k` requests in the queue. -/
theorem exists_blkRingCall (k : ℕ) :
    ∃ t, BlkRingCall (.start (.queued k)) (queueOf k misaligned) t := by
  have hfetch : ((queueOf k misaligned).fetch 16).1 = List.replicate (min 16 k) misaligned := by
    rw [IoUringServer.fetch_eq]
    exact List.take_replicate
  -- the driver after the fetch loop
  let b : VirtIOBlk :=
    { VirtIOBlk.queued k with ringServer := some ((queueOf k misaligned).fetch 16).2 }
  obtain ⟨b', hall, hq⟩ := VirtIOBlk.submitAll_misaligned (min 16 k) b rfl
  have hq : b'.queue = some (.fresh 0 128 8192 .zeroed) := hq
  have hpop : b'.popCompletion = .ret (false, b') := by
    have hsame : ({ b' with queue := some (.fresh 0 128 8192 .zeroed) } : VirtIOBlk) = b' := by
      rw [← hq]
    unfold VirtIOBlk.popCompletion
    rw [hq]
    show Outcome.ret (false, ({ b' with queue := some (.fresh 0 128 8192 .zeroed) } : VirtIOBlk)) =
      _
    rw [hsame]
  have hring : (VirtIOBlk.queued k).handleRing = .ret b' := by
    have hunfold : (VirtIOBlk.queued k).handleRing =
        VirtIOBlk.submitAll ((queueOf k misaligned).fetch 16).1 b >>= fun b =>
          if ((queueOf k misaligned).fetch 16).1 ≠ [] then b.popCompletions else .ret b := rfl
    rw [hunfold, hfetch, hall, Outcome.ret_bind]
    split_ifs
    · show (b'.popCompletion >>= _) = _
      rw [hpop]
      rfl
    · rfl
  obtain ⟨t, ht, -⟩ := handleRing_call (s := .start (.queued k)) rfl rfl hring
  exact ⟨t, ht⟩

/-- A network driver with `k` requests in its queue that are for neither of its queues. -/
def VirtIONet.queued (k : ℕ) : VirtIONet :=
  { initial none with ringServer := some (queueOf k ⟨.sync, 0, 0, 0, 7⟩) }

/-- Requests for no queue are rejected one by one. -/
theorem VirtIONet.submitAll_none (k : ℕ) {sqe : Sqe} (h : netDir sqe.opcode = none)
    (n : VirtIONet) : ∃ n', submitAll (List.replicate k sqe) n = .ret n' := by
  induction k generalizing n with
  | zero => exact ⟨n, rfl⟩
  | succ k ih =>
    obtain ⟨n', hall⟩ := ih (n.complete sqe.userData (-1))
    refine ⟨n', ?_⟩
    rw [List.replicate_succ]
    unfold submitAll
    rw [submitSqe_none h]
    exact hall

/-- A call with `k` requests in the queue. -/
theorem exists_netRingCall (k : ℕ) :
    ∃ t, NetRingCall (.start (.queued k)) (queueOf k ⟨.sync, 0, 0, 0, 7⟩) t := by
  have hfetch : ((queueOf k ⟨.sync, 0, 0, 0, 7⟩).fetch 16).1 =
      List.replicate (min 16 k) ⟨.sync, 0, 0, 0, 7⟩ := by
    rw [IoUringServer.fetch_eq]
    exact List.take_replicate
  obtain ⟨n', hall⟩ := VirtIONet.submitAll_none (min 16 k)
    (show netDir (⟨.sync, 0, 0, 0, 7⟩ : Sqe).opcode = none from rfl)
    { VirtIONet.queued k with
      ringServer := some ((queueOf k ⟨.sync, 0, 0, 0, 7⟩).fetch 16).2 }
  rw [← hfetch] at hall
  obtain ⟨t, ht, -⟩ := NetState.handleRing_call (s := .start (.queued k)) rfl rfl hall
  exact ⟨t, ht⟩

theorem started_queued (k : ℕ) : (VirtIOBlk.queued k).Started ∧ (VirtIONet.queued k).Started :=
  ⟨{ VirtIOBlk.started_initial 512 with }, { VirtIONet.started_initial none with }⟩

/-- Sixteen requests are handled. -/
theorem one_notification_sixteen :
    (∃ t, BlkRingCall (.start (.queued 16)) (queueOf 16 misaligned) t ∧
      Handled t.fetched (· ∈ t.accepted) t.calls 0 (List.replicate 16 misaligned)) ∧
    ∃ t, NetRingCall (.start (.queued 16)) (queueOf 16 ⟨.sync, 0, 0, 0, 7⟩) t ∧
      Handled t.fetched (fun k => ∃ i, k ∈ t.accepted i) t.calls 0
        (List.replicate 16 ⟨.sync, 0, 0, 0, 7⟩) := by
  obtain ⟨t, ht⟩ := exists_blkRingCall 16
  obtain ⟨u, hu⟩ := exists_netRingCall 16
  exact ⟨⟨t, ht, ((one_notification _).1 (started_queued 16).1 .refl ht).2 le_rfl⟩,
    u, hu, ((one_notification _).2.1 (started_queued 16).2 .refl hu).2 le_rfl⟩

/-- Of seventeen requests one is left behind. -/
theorem not_handled_seventeen :
    ((VirtIOBlk.queued 17).Started ∧ (VirtIONet.queued 17).Started) ∧
    (∃ t, BlkRingCall (.start (.queued 17)) (queueOf 17 misaligned) t ∧
      ¬ Handled t.fetched (· ∈ t.accepted) t.calls 0 (List.replicate 17 misaligned)) ∧
    ∃ t, NetRingCall (.start (.queued 17)) (queueOf 17 ⟨.sync, 0, 0, 0, 7⟩) t ∧
      ¬ Handled t.fetched (fun k => ∃ i, k ∈ t.accepted i) t.calls 0
        (List.replicate 17 ⟨.sync, 0, 0, 0, 7⟩) := by
  obtain ⟨t, ht⟩ := exists_blkRingCall 17
  obtain ⟨u, hu⟩ := exists_netRingCall 17
  refine ⟨started_queued 17, ⟨t, ht, fun hall => ?_⟩, u, hu, fun hall => ?_⟩
  · exact absurd ((ht.handled_iff (started_queued 17).1 .refl).1 hall) (by decide)
  · exact absurd ((hu.handled_iff (started_queued 17).2 .refl).1 hall) (by decide)

end GlendaDrivers
