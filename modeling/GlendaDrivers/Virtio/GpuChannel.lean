import GlendaDrivers.Virtio.Gpu
import GlendaDrivers.Virtio.Traffic

/-!
# The command channel of the GPU driver

* `GpuState.Idle`: no command is under way; all descriptors of the control queue are free;
* `GpuState.Sent`, `GpuState.Answered`: a command is in the queue, and its answer is published;
* `sendCmd_ret`, `sendCmd_running`: one command, answered or not within the bound of the loop;
* `GpuReach`: runs of commands, and the calls of the service as such runs;
* `gpu_channel`: the channel after any number of commands.
-/

namespace GlendaDrivers

open Prog VirtQueue VirtIOGpu

/-! ### Steps of the driver -/

section Steps

variable {s s' : GpuState} {q : VirtQueue} {α β : Type}

theorem bind_get (f : GpuState → Prog GpuState α) (s : GpuState) :
    (Prog.get >>= f) s = f s s := rfl

theorem bind_modify (g : GpuState → GpuState) (f : Unit → Prog GpuState α) (s : GpuState) :
    (Prog.modify g >>= f) s = f () (g s) := rfl

theorem bind_onMmio {m : Prog Mmio α} {f : α → Prog GpuState β} {a : α} {mmio : Mmio}
    (hm : m s.mmio = (.ret a, mmio)) : (onMmio m >>= f) s = f a { s with mmio := mmio } := by
  refine bind_of_ret ?_
  rw [onMmio, zoom, hm]

theorem bind_onQueue {g : VirtQueue → Outcome (α × VirtQueue)} {f : α → Prog GpuState β} {a : α}
    {q' : VirtQueue} (hq : s.gpu.controlVq = some q) (hg : g q = .ret (a, q')) :
    (onQueue g >>= f) s = f a (s.setQueue q') := by
  refine bind_of_ret ?_
  simp only [onQueue, hq, hg]

end Steps

/-! ### The states of the channel -/

namespace GpuState

/-- No command is under way: the history of the control queue is `t`, and every command was
answered. -/
structure Idle (s : GpuState) (q : VirtQueue) (t : Traffic) : Prop where
  queue : s.gpu.controlVq = some q
  num : q.num = 16
  traffic : TrafficInv q t [] []
  devAvail : s.devAvail = t.devAvail
  sent : t.submitted.length = s.notified
  answered : s.answered.length = s.notified
  waited : s.waited = 0

/-- The command `cmd`, with room for a response of `respLen` bytes, is in the queue. -/
structure Sent (s : GpuState) (q : VirtQueue) (t : Traffic) (cmd : List UInt8) (respLen : ℕ)
    (d1 d2 : UInt16) : Prop where
  queue : s.gpu.controlVq = some q
  num : q.num = 16
  traffic : TrafficInv q (t.submit d1) [⟨t.submitted.length, [d1, d2]⟩] []
  done : t.taken.length = t.submitted.length ∧ t.published.length = t.submitted.length ∧
    t.pops = t.submitted.length
  devAvail : s.devAvail = t.devAvail
  sent : t.submitted.length + 1 = s.notified
  answered : s.answered.length + 1 = s.notified
  head : q.mem.desc d1 = ⟨s.gpu.cmdBufPa + cmdOffset, UInt32.ofNat cmd.length, descFNext, d2⟩
  resp : q.mem.desc d2 = ⟨s.gpu.cmdBufPa + respOffset, UInt32.ofNat respLen, descFWrite, 0⟩
  cmd : Bytes.read s.gpu.cmdBuf cmdOffset cmd.length = cmd
  zero : Bytes.read s.gpu.cmdBuf respOffset respLen = List.replicate respLen 0

/-- The command was answered, and its used entry waits. -/
structure Answered (s : GpuState) (q : VirtQueue) (t : Traffic) (resp : List UInt8)
    (d1 d2 : UInt16) : Prop where
  queue : s.gpu.controlVq = some q
  num : q.num = 16
  traffic : TrafficInv q t [⟨t.pops, [d1, d2]⟩] []
  published : t.published.length = t.pops + 1
  devAvail : s.devAvail = t.devAvail
  sent : t.submitted.length = s.notified
  answered : s.answered.length = s.notified
  waited : s.waited = 0
  resp : Bytes.read s.gpu.cmdBuf respOffset resp.length = resp

end GpuState

/-- The response that the driver reads: what the device wrote, and zeros. -/
def GpuDevice.reply (d : GpuDevice) (n : ℕ) (cmd : List UInt8) (respLen : ℕ) : List UInt8 :=
  (d.response n cmd).take respLen ++
    (List.replicate respLen 0).drop ((d.response n cmd).take respLen).length

theorem GpuDevice.length_reply (d : GpuDevice) (n : ℕ) (cmd : List UInt8) (respLen : ℕ) :
    (d.reply n cmd respLen).length = respLen := by
  have hle : ((d.response n cmd).take respLen).length ≤ respLen := List.length_take_le _ _
  rw [GpuDevice.reply, List.length_append, List.length_drop, List.length_replicate]
  omega

/-- Without outstanding requests everything submitted was popped. -/
theorem TrafficInv.done {q : VirtQueue} {t : Traffic} {held : List UInt16}
    (h : TrafficInv q t [] held) : t.taken.length = t.submitted.length ∧
      t.published.length = t.submitted.length ∧ t.pops = t.submitted.length := by
  have hlen := h.length
  have hle := h.ring.taken_prefix.length_le
  have hpub := h.ring.published_le
  have hpops := h.pops_le
  simp only [List.length_nil, List.length_map] at hlen hpub
  omega

/-! ### One command -/

section Command

variable {s : GpuState} {q : VirtQueue} {t : Traffic} {cmd : List UInt8} {respLen fuel : ℕ}
  {d1 d2 : UInt16}

/-- The two buffers are apart. -/
theorem disjoint_buffers {n m : ℕ} (hn : n ≤ 4096) (hm : m ≤ 4096) :
    Disjoint (Bytes.span cmdOffset n) (Bytes.span respOffset m) := by
  rw [← UInt64.zero_add cmdOffset, ← UInt64.zero_add respOffset]
  refine Bytes.disjoint_span ?_ ?_
  · show 8192 + n ≤ 12288
    omega
  · show 12288 + m ≤ 2 ^ 64
    omega

/-- The buffers when the driver has written the command. -/
theorem read_buffers (s : GpuState) (hcmd : cmd.length ≤ 4096) (hresp : respLen ≤ 4096) :
    Bytes.read ((s.writeBuf cmdOffset cmd).writeBuf respOffset
      (List.replicate respLen 0)).gpu.cmdBuf cmdOffset cmd.length = cmd ∧
    Bytes.read ((s.writeBuf cmdOffset cmd).writeBuf respOffset
      (List.replicate respLen 0)).gpu.cmdBuf respOffset respLen = List.replicate respLen 0 := by
  have hlen : (List.replicate respLen (0 : UInt8)).length = respLen := List.length_replicate
  constructor
  · refine (Bytes.read_write_of_disjoint ?_).trans (Bytes.read_write _ _ (by omega))
    rw [hlen]
    exact disjoint_buffers hcmd hresp
  · have h := Bytes.read_write (s.writeBuf cmdOffset cmd).gpu.cmdBuf respOffset
      (l := List.replicate respLen 0) (by omega)
    rwa [hlen] at h

/-- The driver takes two descriptors and submits the command. -/
theorem TrafficInv.writeChain (h : TrafficInv q t [] []) (hnum : q.num = 16) (pa : UInt64)
    (cmdLen respLen : ℕ) :
    ∃ d1 d2, q.allocDesc = .ret (some d1, q.popFree) ∧
      q.popFree.allocDesc = .ret (some d2, q.popFree.popFree) ∧
      (VirtIOGpu.writeChain pa cmdLen respLen d1 d2 q.popFree.popFree).num = 16 ∧
      TrafficInv (VirtIOGpu.writeChain pa cmdLen respLen d1 d2 q.popFree.popFree) (t.submit d1)
        [⟨t.submitted.length, [d1, d2]⟩] [] ∧
      (VirtIOGpu.writeChain pa cmdLen respLen d1 d2 q.popFree.popFree).mem.desc d1 =
        ⟨pa + cmdOffset, UInt32.ofNat cmdLen, descFNext, d2⟩ ∧
      (VirtIOGpu.writeChain pa cmdLen respLen d1 d2 q.popFree.popFree).mem.desc d2 =
        ⟨pa + respOffset, UInt32.ofNat respLen, descFWrite, 0⟩ := by
  -- there are sixteen free descriptors
  have hlen : q.freeIds.length = 16 := by
    have hcount := h.free.count
    rw [hnum] at hcount
    rw [length_freeIds]
    exact hcount
  obtain ⟨d1, d2, rest, hids⟩ : ∃ d1 d2 rest, q.freeIds = d1 :: d2 :: rest := by
    match hq : q.freeIds with
    | [] => simp [hq] at hlen
    | [d1] => simp [hq] at hlen
    | d1 :: d2 :: rest => exact ⟨d1, d2, rest, rfl⟩
  obtain ⟨h1, hids1, hinv1⟩ := h.allocDesc hids
  obtain ⟨h2, -, hinv2⟩ := hinv1.allocDesc hids1
  have hheld := hinv2.perm (List.Perm.swap d1 d2 [])
  have hne : d1 ≠ d2 := by
    have hnd := hheld.free.nodup_allocated.of_append_left
    simpa using hnd
  obtain ⟨-, hw1⟩ := hheld.writeDesc (show d1 ∈ _ by simp)
    ⟨pa + cmdOffset, UInt32.ofNat cmdLen, descFNext, d2⟩
  obtain ⟨-, hw2⟩ := hw1.writeDesc (show d2 ∈ _ by simp)
    ⟨pa + respOffset, UInt32.ofNat respLen, descFWrite, 0⟩
  have hdesc1 : (VirtIOGpu.writeChain pa cmdLen respLen d1 d2 q.popFree.popFree).mem.desc d1 =
      ⟨pa + cmdOffset, UInt32.ofNat cmdLen, descFNext, d2⟩ := by
    simp [VirtIOGpu.writeChain, VirtQueue.submit, VirtQueue.writeDesc, setDesc,
      Function.update_of_ne hne]
  have hdesc2 : (VirtIOGpu.writeChain pa cmdLen respLen d1 d2 q.popFree.popFree).mem.desc d2 =
      ⟨pa + respOffset, UInt32.ofNat respLen, descFWrite, 0⟩ := by
    simp [VirtIOGpu.writeChain, VirtQueue.submit, VirtQueue.writeDesc, setDesc]
  have hlinked : Linked (VirtIOGpu.writeChain pa cmdLen respLen d1 d2 q.popFree.popFree).mem.desc
      [d1, d2] := by
    refine ⟨?_, ?_, ?_⟩
    · rw [hdesc1]
      show descFNext &&& descFNext ≠ 0
      decide
    · rw [hdesc1]
    · show (_ : Descriptor).flags &&& descFNext = 0
      rw [hdesc2]
      show descFWrite &&& descFNext = 0
      decide
  have hw : TrafficInv _ t [] ([d1, d2] ++ []) := hw2
  exact ⟨d1, d2, h1, h2, hnum, hw.submit hlinked rfl, hdesc1, hdesc2⟩

/-- The command waits in the available ring. -/
theorem GpuState.Sent.unread (h : s.Sent q t cmd respLen d1 d2) :
    t.devAvail ≠ q.mem.availIdx := by
  intro he
  have htaken := congrArg List.length (h.traffic.ring.devAvail_eq.1 he)
  have hlen : t.taken.length = (t.submitted ++ [d1]).length := htaken
  rw [List.length_append, h.done.1, List.length_singleton] at hlen
  omega

/-- The device was notified of a command that it has not answered. -/
theorem GpuState.Sent.behind (h : s.Sent q t cmd respLen d1 d2) :
    s.answered.length < s.notified := by
  rw [← h.answered]
  exact Nat.lt_succ_self _

/-- The device finds the head of the command. -/
theorem GpuState.Sent.readAvail (h : s.Sent q t cmd respLen d1 d2) :
    q.readAvail t.devAvail = d1 := by
  have hget := (h.traffic.ring.take h.unread).1
  have hget : (t.submitted ++ [d1])[t.taken.length]? = some (q.readAvail t.devAvail) := hget
  rw [h.done.1, List.getElem?_concat_length] at hget
  exact (Option.some.inj hget).symm

/-- The device can publish the head of the command once it has read it. -/
theorem GpuState.Sent.canPublish (h : s.Sent q t cmd respLen d1 d2) (len : UInt32) :
    ((t.submit d1).take q).CanPublish t.taken.length ⟨d1.toUInt32, len⟩ := by
  constructor
  · intro hm
    obtain ⟨p, hp, he⟩ := List.mem_map.1 hm
    obtain ⟨x, hx, -⟩ := h.traffic.id p hp
    exact (List.getElem?_eq_some_iff.1 hx).1.ne he
  · refine ⟨d1, ?_, rfl⟩
    show (t.taken ++ [q.readAvail t.devAvail])[t.taken.length]? = some d1
    rw [List.getElem?_concat_length, h.readAvail]

/-- The device lets a turn pass. -/
theorem GpuState.Sent.turn_wait (h : s.Sent q t cmd respLen d1 d2)
    (hw : s.waited < s.device.delay s.answered.length) :
    s.turn = { s with waited := s.waited + 1 } := by
  simp only [GpuState.turn, h.queue]
  rw [if_pos ⟨h.behind, h.devAvail ▸ h.unread⟩, if_neg (Nat.not_le.2 hw)]

/-- The answer of the device to a command that it finds in the queue. -/
theorem GpuState.Sent.answer_eq (h : s.Sent q t cmd respLen d1 d2) (hcmd : cmd.length ≤ 4096)
    (hresp : respLen ≤ 4096) {written : List UInt8}
    (hwritten : (s.device.response s.answered.length cmd).take respLen = written) :
    s.answer q = { (s.writeBuf respOffset written).setQueue
        (q.publishUsed ⟨d1.toUInt32, s.device.usedLen s.answered.length⟩) with
      devAvail := s.devAvail + 1
      waited := 0
      answered := s.answered ++ [(cmd, written)] } := by
  have hhead : q.readAvail s.devAvail = d1 := by
    rw [h.devAvail]
    exact h.readAvail
  have hsize : ∀ n ≤ 4096, (UInt32.ofNat n).toNat = n := fun n hn => by
    rw [UInt32.toNat_ofNat']
    omega
  have hoff : ∀ o, s.gpu.cmdBufPa + o - s.gpu.cmdBufPa = o := fun o => by
    rw [UInt64.add_comm, UInt64.add_sub_cancel]
  simp only [GpuState.answer, hhead, h.head, h.resp, hsize _ hcmd, hsize _ hresp, hoff, h.cmd,
    hwritten]
  rfl

/-- The device answers. -/
theorem GpuState.Sent.turn_answer (h : s.Sent q t cmd respLen d1 d2) (hcmd : cmd.length ≤ 4096)
    (hresp : respLen ≤ 4096) (hw : s.device.delay s.answered.length ≤ s.waited) :
    ∃ q' t', s.turn.Answered q' t' (s.device.reply s.answered.length cmd respLen) d1 d2 ∧
      s.turn.device = s.device ∧ s.turn.notified = s.notified ∧
      s.turn.answered =
        s.answered ++ [(cmd, (s.device.response s.answered.length cmd).take respLen)] := by
  have hturn : s.turn = s.answer q := by
    simp only [GpuState.turn, h.queue]
    rw [if_pos ⟨h.behind, h.devAvail ▸ h.unread⟩, if_pos hw]
  set n := s.answered.length with hn
  set written := (s.device.response n cmd).take respLen with hwritten
  have hanswer := h.answer_eq hcmd hresp hwritten.symm
  -- what it publishes
  have hpub := (h.traffic.take h.unread).publish (h.canPublish (s.device.usedLen n))
  obtain ⟨htaken, hpublished, hpops⟩ := h.done
  have hreq : (⟨t.submitted.length, [d1, d2]⟩ : Request) = ⟨t.pops, [d1, d2]⟩ := by
    rw [hpops]
  rw [hreq] at hpub
  have hlen : written.length ≤ respLen := List.length_take_le _ _
  rw [hturn, hanswer]
  refine ⟨_, _, ⟨rfl, h.num, hpub, ?_, ?_, ?_, ?_, rfl, ?_⟩, rfl, rfl, rfl⟩
  · show (t.published ++ [_]).length = t.pops + 1
    rw [List.length_append, hpublished, hpops]
    rfl
  · show s.devAvail + 1 = t.devAvail + 1
    rw [h.devAvail]
  · show (t.submitted ++ [d1]).length = s.notified
    rw [List.length_append]
    exact h.sent
  · show (s.answered ++ [_]).length = s.notified
    rw [List.length_append]
    exact h.answered
  · show Bytes.read (Bytes.write s.gpu.cmdBuf respOffset written) respOffset _ = _
    rw [GpuDevice.length_reply, Bytes.read_write_append _ _ hlen (by omega), h.zero]
    rfl

/-- One iteration of the polling loop. -/
theorem pollStep_eq {s' : GpuState} (hturn : s.turn = s') (hq : s'.gpu.controlVq = some q) :
    pollStep () s = (.ret (if q.canPop then .inr () else .inl ()), s') := by
  have hself : s'.setQueue q = s' := by
    rw [GpuState.setQueue, ← hq]
  unfold pollStep
  rw [bind_modify, hturn, bind_onQueue hq rfl, hself]
  cases q.canPop <;> rfl

/-- An iteration in which the device lets its turn pass. -/
theorem GpuState.Sent.pollStep_wait (h : s.Sent q t cmd respLen d1 d2)
    (hw : s.waited < s.device.delay s.answered.length) :
    pollStep () s = (.ret (.inl ()), { s with waited := s.waited + 1 }) := by
  have hcan : q.canPop = false := by
    rw [← Bool.not_eq_true, h.traffic.ring.canPop_iff, List.length_map]
    show ¬ t.pops < t.published.length
    rw [h.done.2.1, h.done.2.2]
    exact lt_irrefl _
  rw [pollStep_eq (h.turn_wait hw) h.queue, hcan]
  rfl

/-- The polling loop goes on while the device lets its turns pass. -/
theorem GpuState.Sent.poll_running (h : s.Sent q t cmd respLen d1 d2)
    (hf : fuel + s.waited ≤ s.device.delay s.answered.length) :
    ∃ s', poll fuel s = (.running, s') ∧ s'.answered = s.answered := by
  induction fuel generalizing s with
  | zero => exact ⟨s, rfl, rfl⟩
  | succ fuel ih =>
    have hstep := h.pollStep_wait (by omega)
    have hle : fuel + (s.waited + 1) ≤ s.device.delay s.answered.length := by omega
    obtain ⟨s', hs', ha⟩ := ih (s := { s with waited := s.waited + 1 }) { h with } hle
    exact ⟨s', (bind_of_ret hstep).trans hs', ha⟩

/-- The polling loop ends when the device has answered. -/
theorem GpuState.Sent.poll_ret (h : s.Sent q t cmd respLen d1 d2) (hcmd : cmd.length ≤ 4096)
    (hresp : respLen ≤ 4096) (hw : s.waited ≤ s.device.delay s.answered.length)
    (hf : s.device.delay s.answered.length < fuel + s.waited) :
    ∃ s' q' t', poll fuel s = (.ret (), s') ∧
      s'.Answered q' t' (s.device.reply s.answered.length cmd respLen) d1 d2 ∧
      s'.device = s.device ∧ s'.notified = s.notified ∧
      s'.answered =
        s.answered ++ [(cmd, (s.device.response s.answered.length cmd).take respLen)] := by
  induction fuel generalizing s with
  | zero => omega
  | succ fuel ih =>
    by_cases hnow : s.device.delay s.answered.length ≤ s.waited
    · obtain ⟨q', t', ha, hd, hn, hans⟩ := h.turn_answer hcmd hresp hnow
      have hcan : q'.canPop = true := by
        rw [ha.traffic.ring.canPop_iff, List.length_map, ha.published]
        exact Nat.lt_succ_self _
      have hstep := pollStep_eq rfl ha.queue
      rw [hcan] at hstep
      exact ⟨s.turn, q', t', bind_of_ret hstep, ha, hd, hn, hans⟩
    · have hstep := h.pollStep_wait (by omega)
      have hle : s.waited + 1 ≤ s.device.delay s.answered.length := by omega
      have hlt : s.device.delay s.answered.length < fuel + (s.waited + 1) := by omega
      obtain ⟨s', q', t', hs', ha⟩ := ih (s := { s with waited := s.waited + 1 }) { h with } hle hlt
      exact ⟨s', q', t', (bind_of_ret hstep).trans hs', ha⟩

/-- The driver pops the used entry and holds the two descriptors again. -/
theorem GpuState.Answered.pop {resp : List UInt8} (h : s.Answered q t resp d1 d2) :
    ∃ elem, q.pop = (some elem, q.popUsed) ∧ TrafficInv q.popUsed t.pop [] [d1, d2] := by
  obtain ⟨r, hr, head, -, -, hpop, hinv⟩ := h.traffic.pop (by
    rw [h.published]
    exact Nat.lt_succ_self _)
  obtain rfl := List.mem_singleton.1 hr
  rw [List.erase_cons_head] at hinv
  exact ⟨_, hpop, hinv⟩

/-- The part of `send_cmd` after the loop. -/
theorem GpuState.Answered.finish {resp : List UInt8} (h : s.Answered q t resp d1 d2) :
    ∃ s' q' t', (do
        let _ ← onQueue fun q => .ret q.pop
        onQueue fun q => do return ((), ← q.freeDesc d1)
        onQueue fun q => do return ((), ← q.freeDesc d2)
        let s ← Prog.get
        return Except.ok (Bytes.read s.gpu.cmdBuf respOffset resp.length) :
          Prog GpuState (Except Error (List UInt8))) s = (.ret (.ok resp), s') ∧
      s'.Idle q' t' ∧ s'.device = s.device ∧ s'.notified = s.notified ∧
      s'.answered = s.answered := by
  obtain ⟨elem, hpop, hinv⟩ := h.pop
  obtain ⟨hf1, -, hinv1⟩ := hinv.freeDesc (show d1 ∈ [d1, d2] by simp)
  rw [List.erase_cons_head] at hinv1
  obtain ⟨hf2, -, hinv2⟩ := hinv1.freeDesc (show d2 ∈ [d2] by simp)
  rw [List.erase_cons_head] at hinv2
  refine ⟨s.setQueue ((q.popUsed.pushFree d1).pushFree d2), _, _, ?_,
    ⟨rfl, h.num, hinv2, h.devAvail, h.sent, h.answered, h.waited⟩, rfl, rfl, rfl⟩
  rw [bind_onQueue h.queue (by rw [hpop]), bind_onQueue rfl (by rw [hf1]; rfl),
    bind_onQueue rfl (by rw [hf2]; rfl), bind_get]
  show (Outcome.ret (Except.ok (Bytes.read s.gpu.cmdBuf respOffset resp.length)), _) = _
  rw [h.resp]
  rfl

/-- The part of `send_cmd` before the loop. -/
theorem GpuState.Idle.begin (h : s.Idle q t) (fuel : ℕ) (hcmd : cmd.length ≤ 4096)
    (hresp : respLen ≤ 4096) :
    ∃ s' q' d1 d2, s'.Sent q' t cmd respLen d1 d2 ∧ s'.waited = 0 ∧ s'.device = s.device ∧
      s'.answered = s.answered ∧ s'.notified = s.notified + 1 ∧
      sendCmd fuel cmd respLen s = (do
        poll fuel
        let _ ← onQueue fun q => .ret q.pop
        onQueue fun q => do return ((), ← q.freeDesc d1)
        onQueue fun q => do return ((), ← q.freeDesc d2)
        let s ← Prog.get
        return Except.ok (Bytes.read s.gpu.cmdBuf respOffset respLen) :
          Prog GpuState (Except Error (List UInt8))) s' := by
  obtain ⟨d1, d2, h1, h2, hnum, hinv, hdesc1, hdesc2⟩ :=
    h.traffic.writeChain h.num s.gpu.cmdBufPa cmd.length respLen
  obtain ⟨hread, hzero⟩ := read_buffers s hcmd hresp
  set s₁ := (s.writeBuf cmdOffset cmd).writeBuf respOffset (List.replicate respLen 0) with hs₁
  set q' := VirtIOGpu.writeChain s.gpu.cmdBufPa cmd.length respLen d1 d2 q.popFree.popFree
  have hq : s₁.gpu.controlVq = some q := h.queue
  refine ⟨{ s₁.setQueue q' with notified := s.notified + 1 }, q', d1, d2,
    ⟨rfl, hnum, hinv, h.traffic.done, h.devAvail, congrArg Nat.succ h.sent,
      congrArg Nat.succ h.answered, hdesc1, hdesc2, hread, hzero⟩, h.waited, rfl, rfl, rfl, ?_⟩
  have hsome : ¬ s.gpu.controlVq.isNone = true := by simp [h.queue]
  unfold sendCmd
  rw [bind_get, if_neg hsome, bind_modify, bind_modify, ← hs₁, bind_onQueue hq h1]
  dsimp only
  rw [bind_onQueue (q := q.popFree) rfl h2]
  dsimp only
  rw [bind_onQueue (q := q.popFree.popFree) rfl rfl]
  rfl

/-- A command that the device answers within the bound of the loop. -/
theorem GpuState.Idle.sendCmd_ret (h : s.Idle q t) (hcmd : cmd.length ≤ 4096)
    (hresp : respLen ≤ 4096) (hf : s.device.delay s.notified < fuel) :
    ∃ s' q' t', sendCmd fuel cmd respLen s =
        (.ret (.ok (s.device.reply s.notified cmd respLen)), s') ∧
      s'.Idle q' t' ∧ s'.device = s.device ∧ s'.notified = s.notified + 1 ∧
      s'.answered =
        s.answered ++ [(cmd, (s.device.response s.notified cmd).take respLen)] := by
  obtain ⟨s₁, q₁, d1, d2, hsent, hw, hd, ha, hn, hrun⟩ := h.begin fuel hcmd hresp
  have hlen : s₁.answered.length = s.notified := by rw [ha, h.answered]
  have hle : s₁.waited ≤ s₁.device.delay s₁.answered.length := by
    rw [hw]
    exact Nat.zero_le _
  have hlt : s₁.device.delay s₁.answered.length < fuel + s₁.waited := by
    rw [hw, hd, hlen]
    exact hf
  obtain ⟨s₂, q₂, t₂, hpoll, hans, hd₂, hn₂, ha₂⟩ := hsent.poll_ret hcmd hresp hle hlt
  rw [hlen, hd] at hans
  rw [hlen, hd, ha] at ha₂
  obtain ⟨s₃, q₃, t₃, hfin, hidle, hd₃, hn₃, ha₃⟩ := hans.finish
  rw [GpuDevice.length_reply] at hfin
  refine ⟨s₃, q₃, t₃, ?_, hidle, hd₃.trans (hd₂.trans hd), hn₃.trans (hn₂.trans hn),
    ha₃.trans ha₂⟩
  rw [hrun, bind_of_ret hpoll, hfin]

/-- A command that the device does not answer within the bound of the loop. -/
theorem GpuState.Idle.sendCmd_running (h : s.Idle q t) (hcmd : cmd.length ≤ 4096)
    (hresp : respLen ≤ 4096) (hf : fuel ≤ s.device.delay s.notified) :
    ∃ s', sendCmd fuel cmd respLen s = (.running, s') ∧ s'.answered = s.answered := by
  obtain ⟨s₁, q₁, d1, d2, hsent, hw, hd, ha, hn, hrun⟩ := h.begin fuel hcmd hresp
  have hlen : s₁.answered.length = s.notified := by rw [ha, h.answered]
  have hle : fuel + s₁.waited ≤ s₁.device.delay s₁.answered.length := by
    rw [hw, hd, hlen]
    exact hf
  obtain ⟨s₂, hpoll, ha₂⟩ := hsent.poll_running hle
  exact ⟨s₂, hrun.trans (bind_of_running hpoll), ha₂.trans ha⟩

end Command

/-! ### Runs -/

/-- A device that has not been used, with a driver that has sent nothing. -/
structure GpuState.Unused (s : GpuState) : Prop where
  notified : s.notified = 0
  devAvail : s.devAvail = 0
  waited : s.waited = 0
  answered : s.answered = []

/-- The states between the commands of a run that starts with zeroed queue memory.  A command and
the place for its response fit in their pages. -/
inductive GpuReach (mem₁ : QueueMem) : GpuState → Prop
  | setup {u s : GpuState} (hu : u.Unused) (h : setupQueues .zeroed mem₁ u = (.ret (), s)) :
      GpuReach mem₁ s
  | send {s s' : GpuState} {fuel : ℕ} {cmd : List UInt8} {respLen : ℕ}
      {r : Except Error (List UInt8)} (hs : GpuReach mem₁ s) (hcmd : cmd.length ≤ 4096)
      (hresp : respLen ≤ 4096) (h : sendCmd fuel cmd respLen s = (.ret r, s')) :
      GpuReach mem₁ s'
  | size {s : GpuState} (hs : GpuReach mem₁ s) (width height : UInt64) :
      GpuReach mem₁ { s with gpu := { s.gpu with width := width, height := height } }
  | ring {s : GpuState} (hs : GpuReach mem₁ s) (server : Option IoUringServer) :
      GpuReach mem₁ { s with gpu := { s.gpu with ringServer := server } }
  | regs {s : GpuState} (hs : GpuReach mem₁ s) (mmio : Mmio) :
      GpuReach mem₁ { s with mmio := mmio }

section Runs

variable {mem₁ : QueueMem} {s : GpuState}

/-- What `setupQueues` changes. -/
theorem setupQueues_run (mem₀ mem₁ : QueueMem) (u : GpuState) :
    setupQueues mem₀ mem₁ u = (.ret (), { u with
      mmio := (u.mmio.withQueue (.fresh 0 16 u.gpu.cmdBufPa mem₀)).withQueue
        (.fresh 1 16 (u.gpu.cmdBufPa + 4096) mem₁)
      gpu := { u.gpu with
        controlVq := some (.fresh 0 16 u.gpu.cmdBufPa mem₀)
        cursorVq := some (.fresh 1 16 (u.gpu.cmdBufPa + 4096) mem₁) } }) := by
  have hnew : ∀ index pa mem, VirtQueue.new index 16 pa mem = .ret (.fresh index 16 pa mem) :=
    fun _ _ _ => if_neg (by decide)
  unfold setupQueues
  rw [bind_get, hnew, hnew, bind_of_ret (m := ofOutcome (.ret _)) rfl,
    bind_onMmio (setupQueue_run _ _), bind_modify, bind_of_ret (m := ofOutcome (.ret _)) rfl,
    bind_onMmio (setupQueue_run _ _)]
  rfl

/-- Two new queues, the first one in zeroed memory. -/
theorem GpuState.Unused.setupQueues {u : GpuState} (hu : u.Unused)
    (h : VirtIOGpu.setupQueues .zeroed mem₁ u = (.ret (), s)) :
    s.Idle (.fresh 0 16 u.gpu.cmdBufPa .zeroed) .init := by
  rw [setupQueues_run] at h
  obtain rfl := (Prod.mk.inj h).2
  refine ⟨rfl, rfl, TrafficInv.fresh 0 16 _ (show 16 ∣ 2 ^ 16 by decide), hu.devAvail,
    hu.notified.symm, ?_, hu.waited⟩
  show u.answered.length = u.notified
  rw [hu.answered, hu.notified]
  rfl

/-- Between commands the channel is idle. -/
theorem GpuReach.idle (hs : GpuReach mem₁ s) : ∃ q t, s.Idle q t := by
  induction hs with
  | setup hu h => exact ⟨_, _, hu.setupQueues h⟩
  | @send s s' fuel cmd respLen r hs hcmd hresp h ih =>
    obtain ⟨q, t, hi⟩ := ih
    by_cases hf : s.device.delay s.notified < fuel
    · obtain ⟨s₁, q₁, t₁, hrun, hi₁, -⟩ := hi.sendCmd_ret hcmd hresp hf
      rw [hrun] at h
      obtain rfl := (Prod.mk.inj h).2
      exact ⟨q₁, t₁, hi₁⟩
    · obtain ⟨s₁, hrun, -⟩ := hi.sendCmd_running hcmd hresp (Nat.le_of_not_lt hf)
      rw [hrun] at h
      exact nomatch (Prod.mk.inj h).1
  | size hs width height ih =>
    obtain ⟨q, t, hi⟩ := ih
    exact ⟨q, t, { hi with }⟩
  | ring hs server ih =>
    obtain ⟨q, t, hi⟩ := ih
    exact ⟨q, t, { hi with }⟩
  | regs hs mmio ih =>
    obtain ⟨q, t, hi⟩ := ih
    exact ⟨q, t, { hi with }⟩

/-- A call that, started between commands, returns between commands. -/
def Channelled {α : Type} (mem₁ : QueueMem) (m : Prog GpuState α) : Prop :=
  Triple (GpuReach mem₁) m (fun _ => GpuReach mem₁) fun _ => True

variable {α β : Type} {fuel : ℕ}

theorem Channelled.pure (a : α) : Channelled mem₁ (Pure.pure a) := Triple.pure a fun _ h => h

theorem Channelled.bind {m : Prog GpuState α} {f : α → Prog GpuState β} (hm : Channelled mem₁ m)
    (hf : ∀ a, Channelled mem₁ (f a)) : Channelled mem₁ (m >>= f) := Triple.bind hm hf

theorem Channelled.attempt {ε : Type} {r : Except ε α} {k : α → Prog GpuState (Except ε β)}
    (hk : ∀ a, Channelled mem₁ (k a)) : Channelled mem₁ (Prog.attempt r k) := by
  cases r with
  | error e => exact Channelled.pure _
  | ok a => exact hk a

/-- A call that returned. -/
theorem Channelled.ret {m : Prog GpuState α} (hm : Channelled mem₁ m) (hs : GpuReach mem₁ s)
    {a : α} {s' : GpuState} (h : m s = (.ret a, s')) : GpuReach mem₁ s' := by
  have hr := hm s hs
  rw [h] at hr
  exact hr

theorem Channelled.get : Channelled mem₁ Prog.get := Triple.get fun _ h => h

theorem sendCmd_channelled {cmd : List UInt8} {respLen : ℕ} (hcmd : cmd.length ≤ 4096)
    (hresp : respLen ≤ 4096) : Channelled mem₁ (sendCmd fuel cmd respLen) := by
  intro s hs
  rcases hrun : sendCmd fuel cmd respLen s with ⟨r | _ | _, s'⟩
  · exact hs.send hcmd hresp hrun
  · trivial
  · trivial

theorem sendCmd'_channelled {cmd : List UInt8} (hcmd : cmd.length ≤ 4096) :
    Channelled mem₁ (sendCmd' fuel cmd) := sendCmd_channelled hcmd (by decide)

theorem flush_channelled (x y w h : UInt64) : Channelled mem₁ (flush fuel x y w h) := by
  unfold flush
  refine Channelled.bind Channelled.get fun s => ?_
  refine Channelled.bind (sendCmd'_channelled ?_) fun _ => Channelled.attempt fun _ => ?_
  · simp [gpuTransferToHost2d, gpuHeader, gpuRect, u32Bytes, u64Bytes]
  refine Channelled.bind (sendCmd'_channelled ?_) fun _ => Channelled.attempt fun _ => ?_
  · simp [gpuResourceFlush, gpuHeader, gpuRect, u32Bytes]
  exact Channelled.pure _

theorem expectOk_channelled {cmd : List UInt8} {k : Prog GpuState (Except Error Unit)}
    (hcmd : cmd.length ≤ 4096) (hk : Channelled mem₁ k) :
    Channelled mem₁ (expectOk fuel cmd k) := by
  unfold expectOk
  refine Channelled.bind (sendCmd'_channelled hcmd) fun _ => Channelled.attempt fun resp => ?_
  exact Triple.ite (fun _ => Channelled.pure _) fun _ => hk

theorem setScanout_channelled (paddr : UInt64) : Channelled mem₁ (setScanout fuel paddr) := by
  unfold setScanout
  refine Channelled.bind Channelled.get fun s => ?_
  refine expectOk_channelled ?_ (expectOk_channelled ?_ (expectOk_channelled ?_ ?_))
  · simp [gpuResourceCreate2d, gpuHeader, u32Bytes]
  · simp [attachWithEntry, gpuHeader, u32Bytes, u64Bytes]
  · simp [gpuSetScanout, gpuHeader, gpuRect, u32Bytes]
  refine Channelled.bind (sendCmd'_channelled ?_) fun _ => Channelled.attempt fun _ => ?_
  · simp [gpuTransferToHost2d, gpuHeader, gpuRect, u32Bytes, u64Bytes]
  refine Channelled.bind (sendCmd'_channelled ?_) fun _ => Channelled.attempt fun _ => ?_
  · simp [gpuResourceFlush, gpuHeader, gpuRect, u32Bytes]
  exact Channelled.pure _

theorem setRingServer_channelled (server : Option IoUringServer) :
    Channelled mem₁ (setRingServer server) := Triple.modify fun _ h => h.ring server

theorem ringStep_channelled (opFlush : Opcode) (answer : ℕ → Except Error Unit)
    (st : IoUringServer × ℕ) : Channelled mem₁ (ringStep fuel opFlush answer st) := by
  unfold ringStep
  rcases st.1.nextRequest with ⟨_ | sqe, server⟩
  · exact Channelled.pure _
  · exact Triple.ite (fun _ => Channelled.bind (flush_channelled _ _ _ _) fun _ =>
      Channelled.pure _) fun _ => Channelled.pure _

theorem handleRing_channelled (opFlush : Opcode) (answer : ℕ → Except Error Unit) :
    Channelled mem₁ (handleRing fuel opFlush answer) := by
  unfold handleRing
  refine Channelled.bind Channelled.get fun s => ?_
  cases s.gpu.ringServer with
  | none => exact Channelled.pure _
  | some server =>
    refine Channelled.bind (setRingServer_channelled none) fun _ => ?_
    refine Channelled.bind ?_ fun r => Channelled.attempt fun server =>
      Channelled.bind (setRingServer_channelled (some server)) fun _ => Channelled.pure _
    refine Triple.loop (I := fun _ => GpuReach mem₁) (fun st => ?_) (fun _ _ _ => trivial) fuel
      (server, 0)
    refine Triple.mono (ringStep_channelled opFlush answer st) (fun _ hs => hs)
      (fun r s hs => ?_) fun _ hs => hs
    cases r <;> exact hs

/-- `init` sets the queues up and goes on between commands. -/
theorem init_reach {u s : GpuState} (hu : u.Unused)
    (h : init fuel .zeroed mem₁ u = (.ret (.ok ()), s)) : GpuReach mem₁ s := by
  unfold init at h
  obtain ⟨ok, u₁, hneg, h⟩ := bind_eq_ret.1 h
  have hu₁ : u₁.Unused := by
    obtain rfl := (Prod.mk.inj hneg).2
    exact { hu with }
  by_cases hok : ¬ ok = true
  · rw [if_pos hok] at h
    exact nomatch (Prod.mk.inj h).1
  · rw [if_neg hok] at h
    obtain ⟨_, s₁, hset, h⟩ := bind_eq_ret.1 h
    have hrest : Channelled mem₁ (do
        onMmio (addStatus statusDriverOk)
        let r ← sendCmd fuel (gpuHeader .getDisplayInfo) sizeOfGpuDisplayInfo
        attempt r fun info => do
          if field32 info 0 = GpuCmdType.respOkDisplayInfo.code then
            setSize (field32 info 32).toUInt64 (field32 info 36).toUInt64
          else
            setSize 1280 720
          return Except.ok () : Prog GpuState (Except Error Unit)) := by
      refine Channelled.bind (fun s hs => hs.regs _) fun _ => ?_
      refine Channelled.bind (sendCmd_channelled ?_ ?_) fun r => Channelled.attempt fun info => ?_
      · simp [gpuHeader, u32Bytes]
      · decide
      refine Triple.ite (fun _ => ?_) fun _ => ?_
      · exact Channelled.bind (Triple.modify fun _ h => h.size _ _) fun _ => Channelled.pure _
      · exact Channelled.bind (Triple.modify fun _ h => h.size _ _) fun _ => Channelled.pure _
    exact hrest.ret (.setup hu₁ hset) h

/-- All sixteen descriptors are free, every used entry was popped, and the available index counts
the commands. -/
structure GpuState.AtRest (s : GpuState) (q : VirtQueue) : Prop where
  queue : s.gpu.controlVq = some q
  free : (q.freeIds.map UInt16.toNat).Perm (List.range 16)
  used : q.lastUsedIdx = q.mem.usedIdx
  avail : q.mem.availIdx = UInt16.ofNat s.notified
  answered : s.answered.length = s.notified

theorem GpuState.Idle.atRest {q : VirtQueue} {t : Traffic} (h : s.Idle q t) : s.AtRest q := by
  obtain ⟨-, hpub, hpops⟩ := h.traffic.done
  constructor
  · exact h.queue
  · have hp := h.traffic.free.perm_range
    rwa [h.num] at hp
  · rw [h.traffic.ring.lastUsedIdx, h.traffic.ring.usedIdx, List.length_map, hpub, hpops]
  · rw [h.traffic.ring.availIdx, h.sent]
  · exact h.answered

/-- A call of the service. -/
inductive GpuCall
  | flush (x y w h : UInt64)
  | setScanout (paddr : UInt64)
  | handleRing (answer : ℕ → Except Error Unit)
  | setRingServer (server : IoUringServer)

/-- The call, whatever it returns. -/
def GpuCall.run (fuel : ℕ) (opFlush : Opcode) : GpuCall → Prog GpuState Unit
  | flush x y w h => do let _ ← VirtIOGpu.flush fuel x y w h
  | setScanout paddr => do let _ ← VirtIOGpu.setScanout fuel paddr
  | handleRing answer => do let _ ← VirtIOGpu.handleRing fuel opFlush answer
  | setRingServer server => VirtIOGpu.setRingServer (some server)

theorem GpuCall.channelled (opFlush : Opcode) (call : GpuCall) :
    Channelled mem₁ (call.run fuel opFlush) := by
  cases call with
  | flush x y w h => exact (flush_channelled x y w h).bind fun _ => Channelled.pure _
  | setScanout paddr => exact (setScanout_channelled paddr).bind fun _ => Channelled.pure _
  | handleRing answer =>
    exact (handleRing_channelled opFlush answer).bind fun _ => Channelled.pure _
  | setRingServer server => exact setRingServer_channelled _

/-- **The command channel.**  Before and after every command of every run the channel is at rest;
a command never fails, does not return before the device has answered it, and returns the
response to itself.  `init` and the calls of the service are such runs. -/
theorem gpu_channel {mem₁ : QueueMem} {s : GpuState} (hs : GpuReach mem₁ s) :
    (∃ q, s.AtRest q) ∧
    (∀ (fuel : ℕ) (cmd : List UInt8) (respLen : ℕ), cmd.length ≤ 4096 → respLen ≤ 4096 →
      (fuel ≤ s.device.delay s.notified →
        ∃ s', sendCmd fuel cmd respLen s = (.running, s') ∧ s'.answered = s.answered) ∧
      (s.device.delay s.notified < fuel →
        ∃ s', sendCmd fuel cmd respLen s =
            (.ret (.ok (s.device.reply s.notified cmd respLen)), s') ∧
          GpuReach mem₁ s' ∧ s'.notified = s.notified + 1 ∧
          s'.answered =
            s.answered ++ [(cmd, (s.device.response s.notified cmd).take respLen)])) ∧
    (∀ (fuel : ℕ) (u s' : GpuState), u.Unused →
      init fuel .zeroed mem₁ u = (.ret (.ok ()), s') → GpuReach mem₁ s') ∧
    ∀ (fuel : ℕ) (opFlush : Opcode) (call : GpuCall) (s' : GpuState),
      call.run fuel opFlush s = (.ret (), s') → GpuReach mem₁ s' := by
  obtain ⟨q, t, hi⟩ := hs.idle
  refine ⟨⟨q, hi.atRest⟩, fun fuel cmd respLen hcmd hresp => ⟨fun hf => ?_, fun hf => ?_⟩,
    fun fuel u s' hu h => init_reach hu h,
    fun fuel opFlush call s' h => (call.channelled opFlush).ret hs h⟩
  · exact hi.sendCmd_running hcmd hresp hf
  · obtain ⟨s', q', t', hrun, -, -, hn, ha⟩ := hi.sendCmd_ret hcmd hresp hf
    exact ⟨s', hrun, hs.send hcmd hresp hrun, hn, ha⟩

/-- A device that answers after two turns. -/
theorem gpu_channel_first :
    ∃ s s', GpuReach .zeroed s ∧ (∃ q, s.AtRest q) ∧
      sendCmd 3 [5] 2 s = (.ret (.ok [7, 0]), s') ∧ s'.answered = [([5], [7])] := by
  let u : GpuState := {
    mmio := .initial default
    gpu := ⟨0, 0, none, none, none, 0, fun _ => 0⟩
    device := ⟨fun _ _ => [7], fun _ => 0, fun _ => 2⟩
    notified := 0
    devAvail := 0
    waited := 0
    answered := [] }
  have hs := GpuReach.setup (u := u) ⟨rfl, rfl, rfl, rfl⟩ (setupQueues_run .zeroed .zeroed u)
  obtain ⟨hrest, hsend, -⟩ := gpu_channel hs
  obtain ⟨s', hrun, -, -, hans⟩ := (hsend 3 [5] 2 (by decide) (by decide)).2 (by decide)
  exact ⟨_, s', hs, hrest, hrun, hans⟩

end Runs

end GlendaDrivers
