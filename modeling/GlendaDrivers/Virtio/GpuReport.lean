import GlendaDrivers.Virtio.GpuCalls

/-!
# What the GPU calls report

* `Reports`: a call that goes on while its commands are accepted, and says so;
* `Honest`, `RingReports`: the same for a call between two states, and for the requests of a ring;
* `flush_tells`, `setScanout_tells`, `ring_tells`: when the calls do so;
* `gpu_success`: the three together.
-/

namespace GlendaDrivers

open Prog VirtIOGpu

/-- A call that sends the commands `cmds` one after the other, with the answers it got: it succeeds
when all are accepted, and fails at the first one that is not. -/
inductive Reports :
    List (List UInt8) → List (List UInt8 × List UInt8) → Except Error Unit → Prop
  | done : Reports [] [] (.ok ())
  | next {cmd resp : List UInt8} {cmds : List (List UInt8)}
      {new : List (List UInt8 × List UInt8)} {r : Except Error Unit}
      (ha : Accepted (cmd, resp)) (h : Reports cmds new r) :
      Reports (cmd :: cmds) ((cmd, resp) :: new) r
  | stop {cmd resp : List UInt8} {cmds : List (List UInt8)} {e : Error}
      (ha : ¬ Accepted (cmd, resp)) : Reports (cmd :: cmds) [(cmd, resp)] (.error e)

/-- A call from `s` to `s'` with the commands `cmds` that has the result `r`. -/
def Honest (cmds : List (List UInt8)) (s s' : GpuState) (r : Except Error Unit) : Prop :=
  ∃ new, s'.answered = s.answered ++ new ∧ Reports cmds new r

/-- Requests of a ring with the completions posted for them, and the answers to their commands: a
flush request has the result 0 iff its commands report success. -/
inductive RingReports (opFlush : Opcode) (width : UInt64) :
    List Sqe → List (UInt64 × Int32) → List (List UInt8 × List UInt8) → Prop
  | nil : RingReports opFlush width [] [] []
  | flush {sqe : Sqe} {sqes : List Sqe} {v : Int32} {posted : List (UInt64 × Int32)}
      {new log : List (List UInt8 × List UInt8)} {r : Except Error Unit}
      (hop : sqe.opcode = opFlush) (h : Reports (sqeCmds width sqe) new r)
      (hv : v = 0 ↔ r = .ok ()) (hrest : RingReports opFlush width sqes posted log) :
      RingReports opFlush width (sqe :: sqes) ((sqe.userData, v) :: posted) (new ++ log)
  | other {sqe : Sqe} {sqes : List Sqe} {v : Int32} {posted : List (UInt64 × Int32)}
      {log : List (List UInt8 × List UInt8)} (hop : sqe.opcode ≠ opFlush) (hv : v ≠ 0)
      (hrest : RingReports opFlush width sqes posted log) :
      RingReports opFlush width (sqe :: sqes) ((sqe.userData, v) :: posted) log

/-- The device accepts the commands of all flush requests among `sqes`, from command number `n`
on. -/
def GpuDevice.RingAccepts (d : GpuDevice) (opFlush : Opcode) (width : UInt64) :
    ℕ → List Sqe → Prop
  | _, [] => True
  | n, sqe :: sqes =>
      if sqe.opcode = opFlush then
        d.Accepts n (sqeCmds width sqe) ∧ d.RingAccepts opFlush width (n + 2) sqes
      else d.RingAccepts opFlush width n sqes

/-! ### Reports -/

section Reports

variable {cmd resp : List UInt8} {cmds : List (List UInt8)}
  {new : List (List UInt8 × List UInt8)} {r : Except Error Unit}

theorem reports_next (ha : Accepted (cmd, resp)) :
    Reports (cmd :: cmds) ((cmd, resp) :: new) r ↔ Reports cmds new r := by
  constructor
  · intro h
    cases h with
    | next _ h => exact h
    | stop hno => exact absurd ha hno
  · exact .next ha

theorem Reports.of_ok (h : Reports cmds new (.ok ())) :
    new.map Prod.fst = cmds ∧ ∀ a ∈ new, Accepted a := by
  generalize hr : (Except.ok () : Except Error Unit) = r at h
  induction h with
  | done => exact ⟨rfl, List.forall_mem_nil _⟩
  | next ha _ ih =>
    obtain ⟨hmap, hall⟩ := ih hr
    exact ⟨by rw [List.map_cons, hmap], List.forall_mem_cons.2 ⟨ha, hall⟩⟩
  | stop => exact nomatch hr

theorem Reports.of_accepted (h : ∀ a ∈ new, Accepted a) :
    Reports (new.map Prod.fst) new (.ok ()) := by
  induction new with
  | nil => exact .done
  | cons a new ih =>
    obtain ⟨ha, hnew⟩ := List.forall_mem_cons.1 h
    exact .next ha (ih hnew)

/-- A call that succeeds after sending all its commands tells the truth iff all are accepted. -/
theorem reports_answers {d : GpuDevice} {n : ℕ} :
    Reports cmds (d.answers n cmds) (.ok ()) ↔ d.Accepts n cmds := by
  constructor
  · exact fun h => h.of_ok.2
  · intro h
    have hr := Reports.of_accepted h
    rwa [GpuDevice.map_answers] at hr

end Reports

/-! ### Calls -/

/-- The call is honest iff `P`. -/
def Tells (cmds : List (List UInt8)) (s s' : GpuState) (r : Except Error Unit) (P : Prop) : Prop :=
  ∃ new, s'.answered = s.answered ++ new ∧ (Reports cmds new r ↔ P)

theorem Tells.honest {cmds : List (List UInt8)} {s s' : GpuState} {r : Except Error Unit}
    {P : Prop} (h : Tells cmds s s' r P) : Honest cmds s s' r ↔ P := by
  obtain ⟨new, hnew, hiff⟩ := h
  rw [← hiff]
  constructor
  · rintro ⟨new', hnew', hr⟩
    rwa [← List.append_cancel_left (hnew.symm.trans hnew')] at hr
  · exact fun hr => ⟨new, hnew, hr⟩

section Calls

variable {mem₁ : QueueMem} {s s' : GpuState} {fuel : ℕ} {r : Except Error Unit}

theorem flush_tells {x y w h : UInt64} (hs : GpuReach mem₁ s)
    (hrun : flush fuel x y w h s = (.ret r, s')) :
    Tells (flushCmds s.gpu.width x y w h) s s' r
      (s.device.Accepts s.notified (flushCmds s.gpu.width x y w h)) := by
  obtain ⟨rfl, hsent⟩ := flush_ret hs hrun
  exact ⟨_, hsent.answered, reports_answers⟩

/-- Checked commands, after which the call goes on with `k`. -/
theorem expectAll_tells {cmds cmds' : List (List UInt8)} {P : Prop}
    {k : Prog GpuState (Except Error Unit)} (hs : GpuReach mem₁ s)
    (hcmds : ∀ cmd ∈ cmds, cmd.length ≤ 4096)
    (hk : ∀ s₁, s.Sends mem₁ cmds s₁ → k s₁ = (.ret r, s') → Tells cmds' s₁ s' r P)
    (h : cmds.foldr (expectOk fuel) k s = (.ret r, s')) :
    Tells (cmds ++ cmds') s s' r (s.device.Accepts s.notified cmds → P) := by
  induction cmds generalizing s with
  | nil =>
    obtain ⟨new, hnew, hiff⟩ := hk s (.refl hs) h
    exact ⟨new, hnew, hiff.trans ⟨fun hP _ => hP, fun hP => hP (List.forall_mem_nil _)⟩⟩
  | cons cmd cmds ih =>
    have hone : s.device.Accepts s.notified [cmd] ↔
        Accepted (cmd, (s.device.response s.notified cmd).take sizeOfGpuHeader) :=
      List.forall_mem_singleton
    obtain ⟨hcmd, hcmds⟩ := List.forall_mem_cons.1 hcmds
    obtain ⟨s₁, hsent, ⟨hacc, hrun⟩ | ⟨hno, rfl, rfl⟩⟩ := expectOk_ret hs hcmd h
    · obtain ⟨new, hnew, hiff⟩ := ih hsent.reach hcmds
        (fun s₂ hsent₂ => hk s₂ (hsent.trans hsent₂)) hrun
      refine ⟨s.device.answers s.notified [cmd] ++ new, ?_, ?_⟩
      · rw [hnew, hsent.answered, List.append_assoc]
      · rw [GpuDevice.accepts_cons]
        rw [hsent.device, hsent.notified] at hiff
        refine (reports_next (hone.1 hacc)).trans (hiff.trans ?_)
        exact ⟨fun h hacc => h hacc.2, fun h hacc' => h ⟨hacc, hacc'⟩⟩
    · refine ⟨_, hsent.answered, iff_of_true (.stop fun ha => hno (hone.2 ha)) fun hacc => ?_⟩
      exact absurd (GpuDevice.accepts_cons.1 hacc).1 hno

/-- The last two responses of `set_scanout` are not looked at. -/
theorem setScanout_tells {paddr : UInt64} (hs : GpuReach mem₁ s)
    (hrun : setScanout fuel paddr s = (.ret r, s')) :
    Tells (scanoutCmds s.gpu.width s.gpu.height paddr) s s' r
      (s.device.Accepts s.notified (checkedCmds s.gpu.width s.gpu.height paddr) →
        s.device.Accepts (s.notified + 3) (showCmds s.gpu.width s.gpu.height)) := by
  refine expectAll_tells hs ?_ (fun s₃ hsent hrun => ?_) hrun
  · simp [checkedCmds, gpuResourceCreate2d, attachWithEntry, gpuSetScanout, gpuHeader, gpuRect,
      u32Bytes, u64Bytes]
  · obtain ⟨rfl, hsent'⟩ := sendBoth_ret hsent.reach (length_gpuTransferToHost2d ..)
      (length_gpuResourceFlush ..) hrun
    have hnew := hsent'.answered
    rw [hsent.device, hsent.notified] at hnew
    exact ⟨_, hnew, reports_answers⟩

end Calls

/-! ### The ring -/

section Ring

variable {mem₁ : QueueMem} {s s' : GpuState} {opFlush : Opcode} {width : UInt64} {sqe : Sqe}
  {sqes : List Sqe} {posted : List (UInt64 × Int32)} {log : List (List UInt8 × List UInt8)}

/-- A flush request with the result 0. -/
theorem ringReports_flush {new : List (List UInt8 × List UInt8)} (hop : sqe.opcode = opFlush)
    (hnew : new.map Prod.fst = sqeCmds width sqe) :
    RingReports opFlush width (sqe :: sqes) ((sqe.userData, 0) :: posted) (new ++ log) ↔
      Reports (sqeCmds width sqe) new (.ok ()) ∧ RingReports opFlush width sqes posted log := by
  constructor
  · intro h
    generalize hlog : new ++ log = log₁ at h
    cases h with
    | @flush _ _ _ _ new' log' r _ h hv hrest =>
      obtain rfl := hv.1 rfl
      have hlen : new.length = new'.length := by
        rw [← List.length_map (f := Prod.fst), hnew, ← h.of_ok.1, List.length_map]
      obtain ⟨rfl, rfl⟩ := List.append_inj hlog hlen
      exact ⟨h, hrest⟩
    | other hop' => exact absurd hop hop'
  · rintro ⟨h, hrest⟩
    exact .flush hop h (iff_of_true rfl rfl) hrest

theorem ringReports_other (hop : sqe.opcode ≠ opFlush) :
    RingReports opFlush width (sqe :: sqes) ((sqe.userData, -1) :: posted) log ↔
      RingReports opFlush width sqes posted log := by
  constructor
  · intro h
    generalize hv : (-1 : Int32) = v at h
    cases h with
    | flush hop' => exact absurd hop' hop
    | other _ _ hrest => exact hrest
  · exact .other hop (by decide)

/-- At every moment between two requests of `handle_ring`. -/
theorem ring_tells {fuel : ℕ} {answer : ℕ → Except Error Unit} {b b' : IoUringServer × ℕ}
    (hs : GpuReach mem₁ s) (h : RingIter fuel opFlush answer b s b' s') :
    ∃ served posted log, b.1.sq = served ++ b'.1.sq ∧
      b'.1.completions = b.1.completions ++ posted ∧ s'.answered = s.answered ++ log ∧
        (RingReports opFlush s.gpu.width served posted log ↔
          s.device.RingAccepts opFlush s.gpu.width s.notified served) := by
  induction h with
  | refl b s =>
    refine ⟨[], [], [], rfl, (List.append_nil _).symm, (List.append_nil _).symm, ?_⟩
    exact iff_of_true .nil trivial
  | @head b b₁ b' s s₁ s' hstep _ ih =>
    obtain ⟨sv, k⟩ := b
    obtain ⟨sqe, rest, hsq, ⟨hop, hsent, rfl⟩ | ⟨hop, rfl, rfl⟩⟩ := ringStep_inl hs hstep
    · obtain ⟨served, posted, log, hrest, hposted, hlog, hiff⟩ := ih hsent.reach
      have hwidth : s₁.gpu.width = s.gpu.width := congrArg Setup.width hsent.setup
      refine ⟨sqe :: served, (sqe.userData, 0) :: posted,
        s.device.answers s.notified (sqeCmds s.gpu.width sqe) ++ log, ?_, ?_, ?_, ?_⟩
      · rw [hsq, List.cons_append, ← hrest]
        rfl
      · rw [hposted]
        simp [IoUringServer.complete]
      · rw [hlog, hsent.answered, List.append_assoc]
      · rw [ringReports_flush hop (GpuDevice.map_answers ..), reports_answers,
          GpuDevice.RingAccepts, if_pos hop]
        rw [hwidth, hsent.device, hsent.notified] at hiff
        exact and_congr_right fun _ => hiff
    · obtain ⟨served, posted, log, hrest, hposted, hlog, hiff⟩ := ih hs
      refine ⟨sqe :: served, (sqe.userData, -1) :: posted, log, ?_, ?_, hlog, ?_⟩
      · rw [hsq, List.cons_append, ← hrest]
        rfl
      · rw [hposted]
        simp [IoUringServer.complete]
      · rw [ringReports_other hop, GpuDevice.RingAccepts, if_neg hop]
        exact hiff

end Ring

/-- **Success is reported for accepted commands only**, and the first command that is not accepted
ends the call with an error, iff the device accepts both commands of a `flush`, and the last two
of a `set_scanout` the first three of which it accepts.  In `handle_ring` this holds of the
requests answered up to any moment iff it accepts the commands of every flush request. -/
theorem gpu_success {mem₁ : QueueMem} {s : GpuState} (hs : GpuReach mem₁ s) :
    (∀ (fuel : ℕ) (x y w h : UInt64) (r : Except Error Unit) (s' : GpuState),
      flush fuel x y w h s = (.ret r, s') →
        (Honest (flushCmds s.gpu.width x y w h) s s' r ↔
          s.device.Accepts s.notified (flushCmds s.gpu.width x y w h))) ∧
    (∀ (fuel : ℕ) (mr : ℕ → UInt64) (r : Except Error UInt64) (s' : GpuState),
      fbFlush fuel mr s = (.ret r, s') →
        (Honest (flushCmds s.gpu.width (mr 0) (mr 1) (mr 2) (mr 3)) s s' (r.map fun _ => ()) ↔
          s.device.Accepts s.notified (flushCmds s.gpu.width (mr 0) (mr 1) (mr 2) (mr 3)))) ∧
    (∀ (fuel : ℕ) (paddr : UInt64) (r : Except Error Unit) (s' : GpuState),
      setScanout fuel paddr s = (.ret r, s') →
        (Honest (scanoutCmds s.gpu.width s.gpu.height paddr) s s' r ↔
          (s.device.Accepts s.notified (checkedCmds s.gpu.width s.gpu.height paddr) →
            s.device.Accepts (s.notified + 3) (showCmds s.gpu.width s.gpu.height)))) ∧
    ∀ (fuel : ℕ) (opFlush : Opcode) (answer : ℕ → Except Error Unit) (sv sv' : IoUringServer)
      (k : ℕ) (s' : GpuState),
      RingIter fuel opFlush answer (sv, 0)
          { s with gpu := { s.gpu with ringServer := none } } (sv', k) s' →
        ∃ served posted log, sv.sq = served ++ sv'.sq ∧
          sv'.completions = sv.completions ++ posted ∧ s'.answered = s.answered ++ log ∧
            (RingReports opFlush s.gpu.width served posted log ↔
              s.device.RingAccepts opFlush s.gpu.width s.notified served) := by
  refine ⟨fun fuel x y w h r s' hrun => (flush_tells hs hrun).honest,
    fun fuel mr r s' hrun => ?_, fun fuel paddr r s' hrun => (setScanout_tells hs hrun).honest,
    fun fuel opFlush answer sv sv' k s' hiter => ring_tells (hs.ring none) hiter⟩
  obtain ⟨r₁, s₁, hflush, hrun⟩ := bind_eq_ret.1 hrun
  have hr : r.map (fun _ => ()) = r₁ ∧ s₁ = s' := by
    cases r₁ with
    | error e =>
      obtain ⟨hr, rfl⟩ := Prod.mk.inj hrun
      obtain rfl := Outcome.ret.inj hr
      exact ⟨rfl, rfl⟩
    | ok u =>
      obtain ⟨hr, rfl⟩ := Prod.mk.inj hrun
      obtain rfl := Outcome.ret.inj hr
      exact ⟨rfl, rfl⟩
  obtain ⟨rfl, rfl⟩ := hr
  exact (flush_tells hs hflush).honest

/-- A driver without queues, with a device that answers every command with the type `ty`. -/
def answering (ty : UInt32) : GpuState where
  mmio := .initial default
  gpu := ⟨1280, 720, none, none, none, 0, fun _ => 0⟩
  device := ⟨fun _ _ => u32Bytes ty, fun _ => 0, fun _ => 0⟩
  notified := 0
  devAvail := 0
  waited := 0
  answered := []

/-- The driver with its queues flushes a rectangle. -/
theorem answering_flush (ty : UInt32) (x y w h : UInt64) :
    ∃ s s', GpuReach .zeroed s ∧ s.device = (answering ty).device ∧ s.notified = 0 ∧
      s.gpu.width = 1280 ∧ s.gpu.height = 720 ∧ flush 1 x y w h s = (.ret (.ok ()), s') := by
  have hs := GpuReach.setup (u := answering ty) ⟨rfl, rfl, rfl, rfl⟩
    (setupQueues_run .zeroed .zeroed (answering ty))
  have hret : ∃ s', flush 1 x y w h _ = (.ret (.ok ()), s') :=
    flush_returns x y w h hs fun _ _ => Nat.zero_lt_one
  obtain ⟨s', hrun⟩ := hret
  exact ⟨_, s', hs, rfl, rfl, rfl, rfl, hrun⟩

theorem gpu_success_accepted :
    ∃ s s', GpuReach .zeroed s ∧ flush 1 0 0 1280 720 s = (.ret (.ok ()), s') ∧
      Honest (flushCmds s.gpu.width 0 0 1280 720) s s' (.ok ()) := by
  obtain ⟨s, s', hs, hd, hn, hw, -, hrun⟩ :=
    answering_flush GpuCmdType.respOkNoData.code 0 0 1280 720
  refine ⟨s, s', hs, hrun, ((gpu_success hs).1 1 0 0 1280 720 _ s' hrun).2 ?_⟩
  rw [hd, hn, hw]
  unfold GpuDevice.Accepts
  decide

/-- The device answers both commands with an error (0x1200, unspecified). -/
theorem flush_rejected :
    ∃ s s', GpuReach .zeroed s ∧ flush 1 0 0 1280 720 s = (.ret (.ok ()), s') ∧
      ¬ Honest (flushCmds s.gpu.width 0 0 1280 720) s s' (.ok ()) := by
  obtain ⟨s, s', hs, hd, hn, hw, -, hrun⟩ := answering_flush 0x1200 0 0 1280 720
  refine ⟨s, s', hs, hrun, fun h => ?_⟩
  have hacc := (flush_tells hs hrun).honest.1 h
  rw [hd, hn, hw] at hacc
  revert hacc
  unfold GpuDevice.Accepts
  decide

end GlendaDrivers
