import GlendaDrivers.Virtio.GpuChannel
import GlendaDrivers.Virtio.GpuRing

/-!
# The commands of the GPU calls

What the calls of the GPU driver send to the device, and what they make of the responses.

* `GpuDevice.answers`: commands with what the device writes as their responses;
* `flushCmds`, `scanoutCmds`: the commands of `flush` and `set_scanout`;
* `GpuState.Sends`: what sending commands changes;
* `sendBoth_ret`, `expectOk_ret`: commands whose responses are ignored, and checked;
* `flush_ret`, `flush_returns`: one `flush`;
* `RingIter`: the moments between the requests of `handle_ring`.
-/

namespace GlendaDrivers

open Prog VirtIOGpu

/-! ### Commands and answers -/

/-- The commands `cmds`, the first of which is command number `n`, with what the device writes as
responses. -/
def GpuDevice.answers (d : GpuDevice) : ℕ → List (List UInt8) → List (List UInt8 × List UInt8)
  | _, [] => []
  | n, cmd :: cmds => (cmd, (d.response n cmd).take sizeOfGpuHeader) :: d.answers (n + 1) cmds

/-- The driver reads `RespOkNoData` as the type of the response to a command; what the device
does not write of the response is zero. -/
def Accepted (a : List UInt8 × List UInt8) : Prop :=
  field32 (a.2 ++ (List.replicate sizeOfGpuHeader 0).drop a.2.length) 0 =
    GpuCmdType.respOkNoData.code

instance : DecidablePred Accepted := fun _ =>
  inferInstanceAs (Decidable (field32 _ 0 = GpuCmdType.respOkNoData.code))

/-- The device accepts the commands `cmds`, from command number `n` on. -/
def GpuDevice.Accepts (d : GpuDevice) (n : ℕ) (cmds : List (List UInt8)) : Prop :=
  ∀ a ∈ d.answers n cmds, Accepted a

/-- The commands of `flush`, for a framebuffer of the given width. -/
def flushCmds (width x y w h : UInt64) : List (List UInt8) :=
  let rect := gpuRect x.toUInt32 y.toUInt32 w.toUInt32 h.toUInt32
  [gpuTransferToHost2d rect ((y * width + x) * 4) 1, gpuResourceFlush rect 1]

/-- The commands of `set_scanout` whose responses it looks at. -/
def checkedCmds (width height paddr : UInt64) : List (List UInt8) :=
  let rect := gpuRect 0 0 width.toUInt32 height.toUInt32
  [gpuResourceCreate2d 1 b8g8r8a8Unorm width.toUInt32 height.toUInt32,
    attachWithEntry 1 1 paddr (width * height * 4).toUInt32, gpuSetScanout rect 0 1]

/-- The last commands of `set_scanout`. -/
def showCmds (width height : UInt64) : List (List UInt8) :=
  let rect := gpuRect 0 0 width.toUInt32 height.toUInt32
  [gpuTransferToHost2d rect 0 1, gpuResourceFlush rect 1]

/-- The commands of `set_scanout`. -/
def scanoutCmds (width height paddr : UInt64) : List (List UInt8) :=
  checkedCmds width height paddr ++ showCmds width height

namespace GpuDevice

theorem answers_append (d : GpuDevice) (n : ℕ) (cmds cmds' : List (List UInt8)) :
    d.answers n (cmds ++ cmds') = d.answers n cmds ++ d.answers (n + cmds.length) cmds' := by
  induction cmds generalizing n with
  | nil => rfl
  | cons cmd cmds ih =>
    rw [List.cons_append, answers, answers, ih, List.length_cons, List.cons_append,
      Nat.add_right_comm n 1, Nat.add_assoc n cmds.length 1]

theorem map_answers (d : GpuDevice) (n : ℕ) (cmds : List (List UInt8)) :
    (d.answers n cmds).map Prod.fst = cmds := by
  induction cmds generalizing n with
  | nil => rfl
  | cons cmd cmds ih => rw [answers, List.map_cons, ih]

theorem accepts_cons {d : GpuDevice} {n : ℕ} {cmd : List UInt8} {cmds : List (List UInt8)} :
    d.Accepts n (cmd :: cmds) ↔ d.Accepts n [cmd] ∧ d.Accepts (n + 1) cmds := by
  simp [Accepts, answers]

/-- The type that the driver reads. -/
theorem accepts_singleton {d : GpuDevice} {n : ℕ} {cmd : List UInt8} :
    d.Accepts n [cmd] ↔
      field32 (d.reply n cmd sizeOfGpuHeader) 0 = GpuCmdType.respOkNoData.code := by
  simp [Accepts, answers, Accepted, reply]

end GpuDevice

/-! ### Sending -/

/-- Between `s` and `s'` exactly the commands `cmds` were sent, and all were answered. -/
structure GpuState.Sends (mem₁ : QueueMem) (s : GpuState) (cmds : List (List UInt8))
    (s' : GpuState) : Prop where
  reach : GpuReach mem₁ s'
  setup : setupOf s' = setupOf s
  notified : s'.notified = s.notified + cmds.length
  answered : s'.answered = s.answered ++ s.device.answers s.notified cmds

namespace GpuState.Sends

variable {mem₁ : QueueMem} {s s₁ s' : GpuState} {cmds cmds' : List (List UInt8)}

theorem device (h : s.Sends mem₁ cmds s') : s'.device = s.device :=
  congrArg VirtIOGpu.Setup.device h.setup

theorem refl (hs : GpuReach mem₁ s) : s.Sends mem₁ [] s where
  reach := hs
  setup := rfl
  notified := rfl
  answered := (List.append_nil _).symm

theorem trans (h : s.Sends mem₁ cmds s₁) (h' : s₁.Sends mem₁ cmds' s') :
    s.Sends mem₁ (cmds ++ cmds') s' where
  reach := h'.reach
  setup := h'.setup.trans h.setup
  notified := by rw [h'.notified, h.notified, List.length_append, Nat.add_assoc]
  answered := by
    rw [h'.answered, h.answered, h.device, h.notified, GpuDevice.answers_append,
      List.append_assoc]

end GpuState.Sends

namespace VirtIOGpu

section Commands

variable {mem₁ : QueueMem} {s s' : GpuState} {fuel : ℕ} {cmd : List UInt8}

/-- `flush`, and the end of `set_scanout`. -/
def sendBoth (fuel : ℕ) (cmd₁ cmd₂ : List UInt8) : Prog GpuState (Except Error Unit) := do
  let r ← sendCmd' fuel cmd₁
  attempt r fun _ => do
    let r ← sendCmd' fuel cmd₂
    attempt r fun _ => return .ok ()

/-- A command that returns has been answered. -/
theorem sendCmd'_ret {r : Except Error (List UInt8)} (hs : GpuReach mem₁ s)
    (hcmd : cmd.length ≤ 4096) (h : sendCmd' fuel cmd s = (.ret r, s')) :
    r = .ok (s.device.reply s.notified cmd sizeOfGpuHeader) ∧ s.Sends mem₁ [cmd] s' := by
  obtain ⟨q, t, hi⟩ := hs.idle
  have hresp : sizeOfGpuHeader ≤ 4096 := by decide
  unfold sendCmd' at h
  by_cases hf : s.device.delay s.notified < fuel
  · obtain ⟨s₁, q₁, t₁, hrun, -, -, hn, ha⟩ := hi.sendCmd_ret hcmd hresp hf
    have hreach := hs.send hcmd hresp hrun
    have hsetup : setupOf s₁ = setupOf s :=
      Keeps.of_run (sendCmd_setup fuel cmd sizeOfGpuHeader) rfl hrun
    rw [hrun] at h
    obtain ⟨hr, rfl⟩ := Prod.mk.inj h
    exact ⟨(Outcome.ret.inj hr).symm, hreach, hsetup, hn, ha⟩
  · obtain ⟨s₁, hrun, -⟩ := hi.sendCmd_running hcmd hresp (Nat.le_of_not_lt hf)
    rw [hrun] at h
    exact nomatch (Prod.mk.inj h).1

/-- A command returns when the device answers it soon enough. -/
theorem sendCmd'_returns (hs : GpuReach mem₁ s) (hcmd : cmd.length ≤ 4096)
    (hf : s.device.delay s.notified < fuel) :
    ∃ s', sendCmd' fuel cmd s =
      (.ret (.ok (s.device.reply s.notified cmd sizeOfGpuHeader)), s') := by
  obtain ⟨q, t, hi⟩ := hs.idle
  obtain ⟨s', q', t', hrun, -⟩ := hi.sendCmd_ret hcmd (show sizeOfGpuHeader ≤ 4096 by decide) hf
  exact ⟨s', hrun⟩

theorem length_gpuTransferToHost2d (x y w h : UInt32) (offset : UInt64) (resId : UInt32) :
    (gpuTransferToHost2d (gpuRect x y w h) offset resId).length ≤ 4096 := by
  simp [gpuTransferToHost2d, gpuHeader, gpuRect, u32Bytes, u64Bytes]

theorem length_gpuResourceFlush (x y w h resId : UInt32) :
    (gpuResourceFlush (gpuRect x y w h) resId).length ≤ 4096 := by
  simp [gpuResourceFlush, gpuHeader, gpuRect, u32Bytes]

/-- Two commands whose responses are not looked at. -/
theorem sendBoth_ret {cmd₁ cmd₂ : List UInt8} {r : Except Error Unit} (hs : GpuReach mem₁ s)
    (hcmd₁ : cmd₁.length ≤ 4096) (hcmd₂ : cmd₂.length ≤ 4096)
    (hrun : sendBoth fuel cmd₁ cmd₂ s = (.ret r, s')) :
    r = .ok () ∧ s.Sends mem₁ [cmd₁, cmd₂] s' := by
  obtain ⟨r₁, s₁, hrun₁, hrun⟩ := bind_eq_ret.1 hrun
  obtain ⟨rfl, hsent₁⟩ := sendCmd'_ret hs hcmd₁ hrun₁
  obtain ⟨r₂, s₂, hrun₂, hrun⟩ := bind_eq_ret.1 hrun
  obtain ⟨rfl, hsent₂⟩ := sendCmd'_ret hsent₁.reach hcmd₂ hrun₂
  obtain ⟨hr, rfl⟩ := Prod.mk.inj hrun
  exact ⟨(Outcome.ret.inj hr).symm, hsent₁.trans hsent₂⟩

theorem sendBoth_returns {cmd₁ cmd₂ : List UInt8} (hs : GpuReach mem₁ s)
    (hcmd₁ : cmd₁.length ≤ 4096) (hcmd₂ : cmd₂.length ≤ 4096)
    (hf : ∀ i < 2, s.device.delay (s.notified + i) < fuel) :
    ∃ s', sendBoth fuel cmd₁ cmd₂ s = (.ret (.ok ()), s') := by
  obtain ⟨s₁, hrun₁⟩ := sendCmd'_returns hs hcmd₁ (hf 0 Nat.zero_lt_two)
  obtain ⟨-, hsent₁⟩ := sendCmd'_ret hs hcmd₁ hrun₁
  have hf₁ : s₁.device.delay s₁.notified < fuel := by
    rw [hsent₁.device, hsent₁.notified]
    exact hf 1 Nat.one_lt_two
  obtain ⟨s₂, hrun₂⟩ := sendCmd'_returns hsent₁.reach hcmd₂ hf₁
  exact ⟨s₂, (bind_of_ret hrun₁).trans (bind_of_ret hrun₂)⟩

theorem flush_ret {x y w h : UInt64} {r : Except Error Unit} (hs : GpuReach mem₁ s)
    (hrun : flush fuel x y w h s = (.ret r, s')) :
    r = .ok () ∧ s.Sends mem₁ (flushCmds s.gpu.width x y w h) s' :=
  sendBoth_ret hs (length_gpuTransferToHost2d ..) (length_gpuResourceFlush ..) hrun

/-- `flush` returns when the device answers both commands soon enough. -/
theorem flush_returns (x y w h : UInt64) (hs : GpuReach mem₁ s)
    (hf : ∀ i < 2, s.device.delay (s.notified + i) < fuel) :
    ∃ s', flush fuel x y w h s = (.ret (.ok ()), s') := by
  have hflush : flush fuel x y w h s = sendBoth fuel _ _ s := rfl
  rw [hflush]
  exact sendBoth_returns hs (length_gpuTransferToHost2d ..) (length_gpuResourceFlush ..) hf

/-- A command whose response must be `RespOkNoData`. -/
theorem expectOk_ret {k : Prog GpuState (Except Error Unit)} {r : Except Error Unit}
    (hs : GpuReach mem₁ s) (hcmd : cmd.length ≤ 4096)
    (h : expectOk fuel cmd k s = (.ret r, s')) :
    ∃ s₁, s.Sends mem₁ [cmd] s₁ ∧
      (s.device.Accepts s.notified [cmd] ∧ k s₁ = (.ret r, s') ∨
        ¬ s.device.Accepts s.notified [cmd] ∧ r = .error .ioError ∧ s' = s₁) := by
  unfold expectOk at h
  obtain ⟨r₁, s₁, hrun₁, h⟩ := bind_eq_ret.1 h
  obtain ⟨rfl, hsent⟩ := sendCmd'_ret hs hcmd hrun₁
  refine ⟨s₁, hsent, ?_⟩
  rw [attempt_ok] at h
  rw [GpuDevice.accepts_singleton]
  split_ifs at h with hne
  · obtain ⟨hr, rfl⟩ := Prod.mk.inj h
    exact .inr ⟨hne, (Outcome.ret.inj hr).symm, rfl⟩
  · exact .inl ⟨of_not_not hne, h⟩

end Commands

/-! ### The ring -/

/-- The FLUSH call of the service, with its message registers. -/
def fbFlush (fuel : ℕ) (mr : ℕ → UInt64) : Prog GpuState (Except Error UInt64) := do
  let x := mr 0
  let y := mr 1
  let w := mr 2
  let h := mr 3
  let r ← flush fuel x y w h
  attempt r fun _ => return .ok 0

/-- The commands of a flush request, whose rectangle is packed in `off` and `addr`. -/
def sqeCmds (width : UInt64) (sqe : Sqe) : List (List UInt8) :=
  flushCmds width (sqe.off >>> 32) (sqe.off &&& 0xFFFFFFFF) (sqe.addr >>> 32)
    (sqe.addr &&& 0xFFFFFFFF)

/-- The moments between the requests that the loop of `handle_ring` answers. -/
inductive RingIter (fuel : ℕ) (opFlush : Opcode) (answer : ℕ → Except Error Unit) :
    IoUringServer × ℕ → GpuState → IoUringServer × ℕ → GpuState → Prop
  | refl (b : IoUringServer × ℕ) (s : GpuState) : RingIter fuel opFlush answer b s b s
  | head {b b' b'' : IoUringServer × ℕ} {s s' s'' : GpuState}
      (h : ringStep fuel opFlush answer b s = (.ret (.inl b'), s'))
      (hrest : RingIter fuel opFlush answer b' s' b'' s'') :
      RingIter fuel opFlush answer b s b'' s''

section Ring

variable {mem₁ : QueueMem} {fuel : ℕ} {opFlush : Opcode} {answer : ℕ → Except Error Unit}
  {s s' : GpuState}

/-- An iteration with a request. -/
theorem ringStep_request {sv : IoUringServer} {k : ℕ} {sqe : Sqe} {rest : List Sqe}
    {r : (IoUringServer × ℕ) ⊕ Except Error IoUringServer} (hs : GpuReach mem₁ s)
    (hsq : sv.sq = sqe :: rest) (h : ringStep fuel opFlush answer (sv, k) s = (.ret r, s')) :
    sqe.opcode = opFlush ∧ s.Sends mem₁ (sqeCmds s.gpu.width sqe) s' ∧
        r = completeRing (answer k) { sv with sq := rest } k sqe.userData 0 ∨
      sqe.opcode ≠ opFlush ∧ s' = s ∧
        r = completeRing (answer k) { sv with sq := rest } k sqe.userData (-1) := by
  unfold ringStep IoUringServer.nextRequest at h
  rw [hsq] at h
  dsimp only at h
  split_ifs at h with hop
  · obtain ⟨res, s₁, hflush, h⟩ := bind_eq_ret.1 h
    obtain ⟨rfl, hsent⟩ := flush_ret hs hflush
    obtain ⟨hr, rfl⟩ := Prod.mk.inj h
    exact .inl ⟨hop, hsent, (Outcome.ret.inj hr).symm⟩
  · obtain ⟨hr, rfl⟩ := Prod.mk.inj h
    exact .inr ⟨hop, rfl, (Outcome.ret.inj hr).symm⟩

theorem completeRing_inl {sv : IoUringServer} {k : ℕ} {r : Except Error Unit} {userData : UInt64}
    {ret : Int32} {b' : IoUringServer × ℕ} (h : .inl b' = completeRing r sv k userData ret) :
    b' = (sv.complete userData ret, k + 1) := by
  unfold completeRing at h
  cases r with
  | error e => exact nomatch h
  | ok u => exact Sum.inl.inj h

/-- An iteration after which the loop goes on. -/
theorem ringStep_inl {sv : IoUringServer} {k : ℕ} {b' : IoUringServer × ℕ}
    (hs : GpuReach mem₁ s)
    (h : ringStep fuel opFlush answer (sv, k) s = (.ret (.inl b'), s')) :
    ∃ sqe rest, sv.sq = sqe :: rest ∧
      (sqe.opcode = opFlush ∧ s.Sends mem₁ (sqeCmds s.gpu.width sqe) s' ∧
          b' = (({ sv with sq := rest } : IoUringServer).complete sqe.userData 0, k + 1) ∨
        sqe.opcode ≠ opFlush ∧ s' = s ∧
          b' = (({ sv with sq := rest } : IoUringServer).complete sqe.userData (-1), k + 1)) := by
  cases hsq : sv.sq with
  | nil =>
    rw [ringStep_nil hsq] at h
    exact nomatch Outcome.ret.inj (Prod.mk.inj h).1
  | cons sqe rest =>
    refine ⟨sqe, rest, rfl, ?_⟩
    obtain ⟨hop, hsent, hr⟩ | ⟨hop, hs', hr⟩ := ringStep_request hs hsq h
    · exact .inl ⟨hop, hsent, completeRing_inl hr⟩
    · exact .inr ⟨hop, hs', completeRing_inl hr⟩

/-- A loop that ends has gone through such moments. -/
theorem RingIter.of_loop {n : ℕ} {b : IoUringServer × ℕ} {r : Except Error IoUringServer}
    (h : loop (ringStep fuel opFlush answer) n b s = (.ret r, s')) :
    ∃ b₁ s₁, RingIter fuel opFlush answer b s b₁ s₁ ∧
      ringStep fuel opFlush answer b₁ s₁ = (.ret (.inr r), s') := by
  induction n generalizing b s with
  | zero => exact nomatch (Prod.mk.inj h).1
  | succ n ih =>
    obtain ⟨m, r₁, s₁, hm, hstep, hrest⟩ := loop_eq_ret h
    obtain rfl := Nat.succ.inj hm
    obtain ⟨b', rfl, hloop⟩ | ⟨rfl, rfl⟩ := hrest
    · obtain ⟨b₁, s₂, hiter, hlast⟩ := ih hloop
      exact ⟨b₁, s₂, .head hstep hiter, hlast⟩
    · exact ⟨b, s, .refl b s, hstep⟩

/-- When `handle_ring` returns `Ok`, the server at the last of these moments is installed. -/
theorem handleRing_moments {sv : IoUringServer} (hserver : s.gpu.ringServer = some sv)
    (h : handleRing fuel opFlush answer s = (.ret (.ok ()), s')) :
    ∃ after k s₁, RingIter fuel opFlush answer (sv, 0)
        { s with gpu := { s.gpu with ringServer := none } } (after, k) s₁ ∧
      after.sq = [] ∧ s' = { s₁ with gpu := { s₁.gpu with ringServer := some after } } := by
  unfold handleRing at h
  rw [bind_get, hserver] at h
  obtain ⟨_, s₁, hset, h⟩ := bind_eq_ret.1 h
  obtain rfl := (Prod.mk.inj hset).2
  obtain ⟨r, s₂, hloop, h⟩ := bind_eq_ret.1 h
  obtain ⟨⟨sv₁, k⟩, s₃, hiter, hlast⟩ := RingIter.of_loop hloop
  cases r with
  | error e => exact nomatch (Prod.mk.inj h).1
  | ok after =>
    obtain ⟨_, s₄, hset, h⟩ := bind_eq_ret.1 h
    obtain rfl := (Prod.mk.inj hset).2
    obtain rfl := (Prod.mk.inj h).2
    cases hsq : sv₁.sq with
    | nil =>
      rw [ringStep_nil hsq] at hlast
      obtain ⟨hr, rfl⟩ := Prod.mk.inj hlast
      obtain rfl := Except.ok.inj (Sum.inr.inj (Outcome.ret.inj hr))
      exact ⟨sv₁, k, s₃, hiter, hsq, rfl⟩
    | cons sqe rest =>
      obtain ⟨-, ret, hr⟩ := ringStep_cons hsq hlast
      unfold completeRing at hr
      cases ha : answer k with
      | error e =>
        rw [ha] at hr
        exact nomatch Sum.inr.inj hr
      | ok u =>
        rw [ha] at hr
        exact nomatch hr

end Ring

end VirtIOGpu

end GlendaDrivers
