import GlendaDrivers.Lib.Align
import GlendaDrivers.Virtio.Bringup
import GlendaDrivers.Virtio.GpuScreen

/-!
# The GPU service (`virtio/gpu/src/server.rs`)

The service answers the messages of its clients and the notifications of the kernel, and changes
the screen by its driver.

* `GpuService.dispatch`: one message;
* `GpuService.init`: what `init` does after the mappings;
* `GpuServiceRun`: a run, with what it asks of the display;
* `setScanout_shows`, `ringLoop_shows`: what the calls of the driver show;
* `gpu_screen`: every pixel shows what the frame buffer held when it was last flushed.
-/

namespace GlendaDrivers

open Prog VirtIOGpu
open Display (regionOf Fits32 ShownBy)

/-! ### The service -/

/-- `fb::FbInfo`. -/
structure FbInfo where
  width : UInt64
  height : UInt64
  pitch : UInt64
  bpp : UInt64
  size : UInt64
  format : UInt64
  paddr : UInt64
  deriving DecidableEq

/-- `GpuService`.  The driver is there once `init` has set it up. -/
structure GpuService where
  dev : GpuState
  ready : Bool
  fbInfo : FbInfo

/-- The results of the calls outside the repository, and its constants, for one message. -/
structure GpuExt where
  /-- `NOTIFY_IO_URING_CQ | NOTIFY_IO_URING_SQ`. -/
  ringBadge : UInt64
  /-- `IOURING_OP_FB_FLUSH`. -/
  opFlush : Opcode
  /-- `FB_FORMAT_XRGB8888`. -/
  format : UInt64
  /-- The mappings of `init`, and the registration at its end. -/
  mapped : Except Error Unit
  registered : Except Error Unit
  writeObj : Except Error Unit
  alloc : Except Error UInt64
  /-- `dma_alloc` of so many pages: an address and a frame. -/
  dmaAlloc : UInt64 → Except Error (UInt64 × UInt64)
  transferSelf : Except Error Unit
  allocRing : Except Error UInt64
  mapRing : Except Error Unit
  /-- The results of `complete`, in a call of `handle_ring`. -/
  complete : ℕ → Except Error Unit

/-- A message. -/
inductive GpuMessage
  | notify (badge : UInt64)
  | getInfo
  | flush (x y w h : UInt64)
  | setScanout (paddr : UInt64)
  | setupBuffer
  | setupRing (sqEntries cqEntries : UInt64)
  deriving DecidableEq

/-- What the service returns to the client. -/
inductive GpuReply
  | none
  | value (v : UInt64)
  | info (i : FbInfo)
  | buffer (frame paddr size : UInt64)
  | ring (frame : UInt64)
  deriving DecidableEq

namespace GpuService

/-- A call of the driver, if it is there. -/
def onGpu (m : Prog GpuState (Except Error Unit)) : Prog GpuService (Except Error Unit) := fun s =>
  if s.ready then zoom GpuService.dev (fun d s => { s with dev := d }) m s else (.ret (.ok ()), s)

/-- `setup_ring`. -/
def setupRing (x : GpuExt) : Prog GpuService (Except Error GpuReply) :=
  attempt x.allocRing fun frame =>
  attempt x.mapRing fun _ => do
    let _ ← onGpu do
      setRingServer (some .new)
      return .ok ()
    return .ok (.ring frame)

/-- `dispatch`.  A notification of the interrupt is acknowledged, which is all that the driver makes
of it. -/
def dispatch (fuel : ℕ) (x : GpuExt) : GpuMessage → Prog GpuService (Except Error GpuReply)
  | .notify badge => do
      if badge &&& x.ringBadge ≠ 0 then
        let _ ← onGpu (handleRing fuel x.opFlush x.complete)
      return .ok .none
  | .getInfo => attempt x.writeObj fun _ => do
      let s ← get
      return .ok (.info s.fbInfo)
  | .flush x y w h => do
      let r ← onGpu (flush fuel x y w h)
      attempt r fun _ => return .ok (.value 0)
  | .setScanout paddr => do
      let r ← onGpu (setScanout fuel paddr)
      attempt r fun _ => return .ok (.value 0)
  | .setupBuffer => do
      let s ← get
      let size := s.fbInfo.size
      let pages := Align.alignUp pgSize size / pgSize
      attempt x.alloc fun _ =>
        attempt (x.dmaAlloc pages) fun (paddr, frame) => do
          modify fun s => { s with fbInfo := { s.fbInfo with paddr := paddr } }
          return .ok (.buffer frame paddr size)
  | .setupRing _ _ =>
      attempt x.alloc fun _ =>
      attempt x.transferSelf fun _ => setupRing x

/-- `init`, with the mappings at its beginning in one. -/
def init (fuel : ℕ) (x : GpuExt) (mem₀ mem₁ : QueueMem) : Prog GpuService (Except Error Unit) :=
  attempt x.mapped fun _ => do
    let r ← zoom GpuService.dev (fun d s => { s with dev := d }) (VirtIOGpu.init fuel mem₀ mem₁)
    attempt r fun _ => do
      modify fun s => { s with
        fbInfo := { s.fbInfo with
          width := s.dev.gpu.width
          height := s.dev.gpu.height
          pitch := s.dev.gpu.width * 4
          bpp := 32
          size := s.dev.gpu.width * s.dev.gpu.height * 4
          format := x.format }
        ready := true }
      attempt x.registered fun _ => return .ok ()

end GpuService

/-! ### What the driver shows -/

/-- A change of the display; the pixels are transferred by command number `n`. -/
inductive DisplayOp
  | setScanout (base : UInt64) (n : ℕ)
  | flush (r : Rect) (n : ℕ)
  deriving DecidableEq

/-- The display after a change, with the memory `mem n` at command number `n`. -/
def Display.apply (width height : ℕ) (mem : ℕ → UInt64 → UInt8) (d : Display) :
    DisplayOp → Display
  | .setScanout base n => d.setScanout width height base (mem n)
  | .flush r n => d.flush width height r (mem n)

/-- The region of a flush request. -/
def sqeRegion (sqe : Sqe) : Rect :=
  regionOf (sqe.off >>> 32) (sqe.off &&& 0xFFFFFFFF) (sqe.addr >>> 32) (sqe.addr &&& 0xFFFFFFFF)

theorem fits32_sqe (sqe : Sqe) : Fits32 (sqe.off >>> 32) (sqe.off &&& 0xFFFFFFFF)
    (sqe.addr >>> 32) (sqe.addr &&& 0xFFFFFFFF) := by
  have hhigh : ∀ v : UInt64, (v >>> 32).toNat < 2 ^ 32 := fun v => by
    rw [UInt64.toNat_shiftRight, Nat.shiftRight_eq_div_pow]
    have := v.toNat_lt
    exact Nat.div_lt_of_lt_mul this
  have hlow : ∀ v : UInt64, (v &&& 0xFFFFFFFF).toNat < 2 ^ 32 := fun v => by
    rw [UInt64.toNat_and]
    exact Nat.and_lt_two_pow _ (by decide)
  exact ⟨hhigh _, hlow _, hhigh _, hlow _⟩

/-- The requests that `handle_ring` answers, after `k` completions: it ends when `complete`
fails. -/
def servedBy (answer : ℕ → Except Error Unit) : ℕ → List Sqe → List Sqe
  | _, [] => []
  | k, sqe :: rest => sqe :: if (answer k).isOk then servedBy answer (k + 1) rest else []

/-- The changes that these requests ask for, from command number `n` on. -/
def ringOps (opFlush : Opcode) : ℕ → List Sqe → List DisplayOp
  | _, [] => []
  | n, sqe :: rest =>
      if sqe.opcode = opFlush then .flush (sqeRegion sqe) n :: ringOps opFlush (n + 2) rest
      else ringOps opFlush n rest

namespace Display

variable {width height : ℕ} {mem : ℕ → UInt64 → UInt8} {d : Display} {ops : List DisplayOp}

/-- The frame buffer that the changes `ops` show, if there was none before: the first one. -/
def frameBase : List DisplayOp → Option UInt64
  | [] => none
  | .setScanout base _ :: _ => some base
  | .flush _ _ :: ops => frameBase ops

/-- The regions that `ops` flush, each with the number of its command. -/
def regions (width height : ℕ) (ops : List DisplayOp) : List (Rect × ℕ) :=
  ops.filterMap fun
    | .setScanout _ _ => none
    | .flush r n => if r.Within width height then some (r, n) else none

/-- Without a frame buffer nothing is flushed. -/
theorem foldl_of_none (hd : d.base = none) (h : frameBase ops = none) :
    ops.foldl (Display.apply width height mem) d = d := by
  induction ops with
  | nil => rfl
  | cons op ops ih =>
    cases op with
    | setScanout base n => exact absurd h (by simp [frameBase])
    | flush r n =>
      have hflush : d.apply width height mem (.flush r n) = d := by rw [apply, flush, hd]
      rw [List.foldl_cons, hflush]
      exact ih h

/-- With a frame buffer the regions are shown, one after the other. -/
theorem foldl_of_some (base : UInt64) (hd : d.base = some base) :
    ops.foldl (Display.apply width height mem) d =
      ⟨some base, paintAll (fun n => frame width base (mem n)) (regions width height ops)
        d.shown⟩ := by
  induction ops generalizing d with
  | nil =>
    cases d
    subst hd
    rfl
  | cons op ops ih =>
    rw [List.foldl_cons]
    cases op with
    | setScanout base' n =>
      have hsame : d.apply width height mem (.setScanout base' n) = d :=
        setScanout_of_ne (by simp [hd]) _ _ _ _
      rw [hsame, ih hd]
      rfl
    | flush r n =>
      by_cases hin : r.Within width height
      · have hflush : d.apply width height mem (.flush r n) =
            ⟨some base, r.paint (frame width base (mem n)) d.shown⟩ := by
          rw [apply, flush, hd]
          exact if_pos hin
        have hregions : regions width height (.flush r n :: ops) =
            (r, n) :: regions width height ops := by simp [regions, hin]
        rw [hflush, ih rfl, hregions]
        rfl
      · have hflush : d.apply width height mem (.flush r n) = d := by
          rw [apply, flush, hd]
          exact if_neg hin
        have hregions : regions width height (.flush r n :: ops) =
            regions width height ops := by simp [regions, hin]
        rw [hflush, ih hd, hregions]

theorem base_foldl : (ops.foldl (Display.apply width height mem) blank).base = frameBase ops := by
  suffices h : ∀ d : Display, d.base = none →
      (ops.foldl (Display.apply width height mem) d).base = frameBase ops from h blank rfl
  induction ops with
  | nil => exact fun d hd => hd
  | cons op ops ih =>
    intro d hd
    rw [List.foldl_cons]
    cases op with
    | setScanout base n =>
      rw [apply, setScanout_of_none hd, foldl_of_some base]
      · rfl
      · rw [flush]
        exact congrArg Display.base (if_pos (Rect.within_whole width height))
    | flush r n =>
      have hflush : d.apply width height mem (.flush r n) = d := by rw [apply, flush, hd]
      rw [hflush]
      exact ih d hd

/-- Every pixel shows what the frame buffer held when it was last flushed. -/
theorem shown_foldl {pre rest : List DisplayOp} {base : UInt64} {n i j : ℕ}
    (hpre : frameBase pre = none) (hi : i < width) (hj : j < height) :
    ((pre ++ .setScanout base n :: rest).foldl (Display.apply width height mem) blank).shown i j =
      frame width base (mem ((lastCover (regions width height rest) i j).getD n)) i j := by
  have hfirst : blank.apply width height mem (.setScanout base n) =
      ⟨some base, (Rect.whole width height).paint (frame width base (mem n)) fun _ _ => none⟩ := rfl
  have hcov : (Rect.whole width height).Covers i j := Rect.covers_whole.2 ⟨hi, hj⟩
  rw [List.foldl_append, foldl_of_none rfl hpre, List.foldl_cons, hfirst, foldl_of_some base rfl]
  dsimp only
  rw [paintAll_apply]
  cases lastCover (regions width height rest) i j with
  | none =>
    show (Rect.whole width height).paint (frame width base (mem n)) (fun _ _ => none) i j = _
    exact Rect.paint_of_covers hcov
  | some k => rfl

end Display

/-- What the commands answered so far have made of the screen. -/
def GpuState.screen (s : GpuState) (mem : ℕ → UInt64 → UInt8) : Screen :=
  Screen.blank.after mem 0 (s.answered.map Prod.fst)

/-- A frame buffer whose size in bytes fits in 32 bits, as its width and its height do. -/
structure Sized (width height : UInt64) : Prop where
  width_lt : width.toNat < 2 ^ 32
  height_lt : height.toNat < 2 ^ 32
  bytes_lt : 4 * (width.toNat * height.toNat) < 2 ^ 32

/-- Between commands, the device shows what the display shows. -/
structure Showing (mem₁ : QueueMem) (mem : ℕ → UInt64 → UInt8) (width height : UInt64)
    (s : GpuState) (d : Display) : Prop where
  reach : GpuReach mem₁ s
  width_eq : s.gpu.width = width
  height_eq : s.gpu.height = height
  shows : ShownBy width.toNat height.toNat (s.screen mem) d

section Driver

variable {mem₁ : QueueMem} {mem : ℕ → UInt64 → UInt8} {s s' : GpuState} {d : Display} {fuel : ℕ}
  {width height : UInt64}

theorem GpuReach.length_answered (hs : GpuReach mem₁ s) : s.answered.length = s.notified := by
  obtain ⟨q, t, hi⟩ := hs.idle
  exact hi.answered

/-- The screen after more commands. -/
theorem GpuState.Sends.screen_eq {cmds : List (List UInt8)} (hs : GpuReach mem₁ s)
    (h : s.Sends mem₁ cmds s') : s'.screen mem = (s.screen mem).after mem s.notified cmds := by
  rw [screen, h.answered, List.map_append, GpuDevice.map_answers, Screen.after_append,
    List.length_map, hs.length_answered, Nat.zero_add]
  rfl

/-- What the commands of a call show. -/
theorem Showing.sends {cmds : List (List UInt8)} {d' : Display}
    (h : Showing mem₁ mem width height s d) (hsent : s.Sends mem₁ cmds s')
    (hshows : ShownBy width.toNat height.toNat ((s.screen mem).after mem s.notified cmds) d') :
    Showing mem₁ mem width height s' d' where
  reach := hsent.reach
  width_eq := (congrArg VirtIOGpu.Setup.width hsent.setup).trans h.width_eq
  height_eq := (congrArg VirtIOGpu.Setup.height hsent.setup).trans h.height_eq
  shows := hsent.screen_eq h.reach ▸ hshows

/-- The ring server does not matter. -/
theorem Showing.ring (h : Showing mem₁ mem width height s d) (server : Option IoUringServer) :
    Showing mem₁ mem width height { s with gpu := { s.gpu with ringServer := server } } d :=
  ⟨h.reach.ring server, h.width_eq, h.height_eq, h.shows⟩

/-- `flush` shows its region. -/
theorem Showing.flushCmds (h : Showing mem₁ mem width height s d) (hsize : Sized width height)
    {x y w h' : UInt64} (hfit : Fits32 x y w h')
    (hsent : s.Sends mem₁ (flushCmds s.gpu.width x y w h') s') :
    Showing mem₁ mem width height s' (d.apply width.toNat height.toNat mem
      (.flush (regionOf x y w h') s.notified)) := by
  rw [h.width_eq] at hsent
  exact h.sends hsent (h.shows.flushCmds hfit hsize.bytes_lt hsize.width_lt)

/-- The loop of `handle_ring` shows the regions of the requests that it answers. -/
theorem ringLoop_shows {opFlush : Opcode} {answer : ℕ → Except Error Unit} {sv : IoUringServer}
    {n k : ℕ} {r : Except Error IoUringServer} (h : Showing mem₁ mem width height s d)
    (hsize : Sized width height)
    (hrun : loop (ringStep fuel opFlush answer) n (sv, k) s = (.ret r, s')) :
    Showing mem₁ mem width height s' ((ringOps opFlush s.notified (servedBy answer k sv.sq)).foldl
      (Display.apply width.toNat height.toNat mem) d) := by
  induction n generalizing sv k s d with
  | zero => exact absurd (Prod.mk.inj hrun).1 (by simp)
  | succ n ih =>
    obtain ⟨m, r₁, s₁, hm, hstep, hrest⟩ := loop_eq_ret hrun
    obtain rfl := Nat.succ.inj hm
    cases hsq : sv.sq with
    | nil =>
      rw [ringStep_nil hsq] at hstep
      obtain ⟨hr, rfl⟩ := Prod.mk.inj hstep
      obtain ⟨b', hb', -⟩ | ⟨-, rfl⟩ := hrest
      · rw [← Outcome.ret.inj hr] at hb'
        exact absurd hb' (by simp)
      · exact h
    | cons sqe rest =>
      -- after the completion the loop goes on, or it ends
      have hgo : ∀ {d₁ : Display} {ret : Int32}, Showing mem₁ mem width height s₁ d₁ →
          r₁ = completeRing (answer k) { sv with sq := rest } k sqe.userData ret →
          Showing mem₁ mem width height s' ((ringOps opFlush s₁.notified
            (if (answer k).isOk then servedBy answer (k + 1) rest else [])).foldl
              (Display.apply width.toNat height.toNat mem) d₁) := by
        intro d₁ ret h₁ hr
        unfold completeRing at hr
        cases ha : answer k with
        | error e =>
          rw [ha] at hr
          obtain ⟨b', hb', -⟩ | ⟨-, rfl⟩ := hrest
          · exact absurd (hr.symm.trans hb') (by simp)
          · exact h₁
        | ok u =>
          rw [ha] at hr
          obtain ⟨b', hb', hloop⟩ | ⟨hinr, -⟩ := hrest
          · obtain rfl := Sum.inl.inj (hr.symm.trans hb')
            exact ih h₁ hloop
          · exact absurd (hr.symm.trans hinr) (by simp)
      obtain ⟨hop, hsent, hr⟩ | ⟨hop, rfl, hr⟩ := ringStep_request h.reach hsq hstep
      · have hnext := hgo (h.flushCmds hsize (fits32_sqe sqe) hsent) hr
        rw [hsent.notified] at hnext
        rw [servedBy, ringOps, if_pos hop]
        exact hnext
      · rw [servedBy, ringOps, if_neg hop]
        exact hgo h hr

/-- The requests that wait in the ring. -/
def GpuState.queued (s : GpuState) : List Sqe := (s.gpu.ringServer.map IoUringServer.sq).getD []

/-- `handle_ring` shows the regions of the requests that it answers. -/
theorem handleRing_shows {opFlush : Opcode} {answer : ℕ → Except Error Unit}
    {r : Except Error Unit} (h : Showing mem₁ mem width height s d) (hsize : Sized width height)
    (hrun : handleRing fuel opFlush answer s = (.ret r, s')) :
    Showing mem₁ mem width height s'
      ((ringOps opFlush s.notified (servedBy answer 0 s.queued)).foldl
        (Display.apply width.toNat height.toNat mem) d) := by
  unfold handleRing at hrun
  rw [bind_get] at hrun
  unfold GpuState.queued
  cases hserver : s.gpu.ringServer with
  | none =>
    rw [hserver] at hrun
    obtain rfl := (Prod.mk.inj hrun).2
    exact h
  | some sv =>
    rw [hserver] at hrun
    obtain ⟨_, s₁, hset, hrun⟩ := bind_eq_ret.1 hrun
    obtain rfl := (Prod.mk.inj hset).2
    obtain ⟨r', s₂, hloop, hrun⟩ := bind_eq_ret.1 hrun
    have h₂ := ringLoop_shows (h.ring none) hsize hloop
    cases r' with
    | error e =>
      obtain rfl := (Prod.mk.inj hrun).2
      exact h₂
    | ok after =>
      obtain ⟨_, s₃, hset, hrun⟩ := bind_eq_ret.1 hrun
      obtain rfl := (Prod.mk.inj hset).2
      obtain rfl := (Prod.mk.inj hrun).2
      exact h₂.ring (some after)

theorem length_checkedCmds (width height base : UInt64) :
    ∀ cmd ∈ checkedCmds width height base, cmd.length ≤ 4096 := by
  simp [checkedCmds, gpuResourceCreate2d, attachWithEntry, gpuSetScanout, gpuHeader, gpuRect,
    u32Bytes, u64Bytes]

/-- Commands that must be accepted, after which the call goes on with `k`. -/
theorem expectAll_ret {cmds : List (List UInt8)} {k : Prog GpuState (Except Error Unit)}
    {r : Except Error Unit} (hs : GpuReach mem₁ s) (hcmds : ∀ cmd ∈ cmds, cmd.length ≤ 4096)
    (hrun : cmds.foldr (expectOk fuel) k s = (.ret r, s')) :
    (∃ s₁, s.Sends mem₁ cmds s₁ ∧ s.device.Accepts s.notified cmds ∧ k s₁ = (.ret r, s')) ∨
    ∃ pre cmd, pre ++ [cmd] <+: cmds ∧ s.Sends mem₁ (pre ++ [cmd]) s' ∧
      s.device.Accepts s.notified pre ∧ ¬ s.device.Accepts s.notified (pre ++ [cmd]) ∧
      r = .error .ioError := by
  induction cmds generalizing s with
  | nil => exact .inl ⟨s, .refl hs, List.forall_mem_nil _, hrun⟩
  | cons cmd cmds ih =>
    obtain ⟨hcmd, hcmds⟩ := List.forall_mem_cons.1 hcmds
    obtain ⟨s₁, hsent, ⟨hacc, hrun⟩ | ⟨hno, rfl, rfl⟩⟩ := expectOk_ret hs hcmd hrun
    · have hdev := hsent.device
      have hnot := hsent.notified
      obtain ⟨s₂, hsent₂, hacc₂, hk⟩ | ⟨pre, cmd', hpre, hsent₂, hyes, hno, rfl⟩ :=
        ih hsent.reach hcmds hrun
      · rw [hdev, hnot] at hacc₂
        exact .inl ⟨s₂, hsent.trans hsent₂, GpuDevice.accepts_cons.2 ⟨hacc, hacc₂⟩, hk⟩
      · rw [hdev, hnot] at hyes hno
        refine .inr ⟨cmd :: pre, cmd', List.cons_prefix_cons.2 ⟨rfl, hpre⟩, hsent.trans hsent₂,
          GpuDevice.accepts_cons.2 ⟨hacc, hyes⟩, fun h => hno (GpuDevice.accepts_cons.1 h).2, rfl⟩
    · exact .inr ⟨[], cmd, List.cons_prefix_cons.2 ⟨rfl, List.nil_prefix⟩, hsent,
        List.forall_mem_nil _, hno, rfl⟩

/-- Commands that are accepted soon enough, after which the call goes on with `k`. -/
theorem expectAll_returns {cmds : List (List UInt8)} (k : Prog GpuState (Except Error Unit))
    (hs : GpuReach mem₁ s) (hcmds : ∀ cmd ∈ cmds, cmd.length ≤ 4096)
    (hf : ∀ n, s.device.delay n < fuel) (hacc : s.device.Accepts s.notified cmds) :
    ∃ s₁, s.Sends mem₁ cmds s₁ ∧ cmds.foldr (expectOk fuel) k s = k s₁ := by
  induction cmds generalizing s with
  | nil => exact ⟨s, .refl hs, rfl⟩
  | cons cmd cmds ih =>
    obtain ⟨hcmd, hcmds⟩ := List.forall_mem_cons.1 hcmds
    obtain ⟨hfirst, hacc⟩ := GpuDevice.accepts_cons.1 hacc
    obtain ⟨s₁, hrun₁⟩ := sendCmd'_returns hs hcmd (hf _)
    obtain ⟨-, hsent⟩ := sendCmd'_ret hs hcmd hrun₁
    rw [← hsent.device] at hf
    obtain ⟨s₂, hsent₂, hrun₂⟩ := ih hsent.reach hcmds hf (by rwa [hsent.device, hsent.notified])
    refine ⟨s₂, hsent.trans hsent₂, ?_⟩
    rw [List.foldr_cons, expectOk, bind_of_ret hrun₁, attempt_ok,
      if_neg (not_not_intro (GpuDevice.accepts_singleton.1 hfirst)), hrun₂]

/-- `set_scanout` succeeds when the device accepts its first three commands, and answers soon
enough. -/
theorem setScanout_returns (base : UInt64) (hs : GpuReach mem₁ s)
    (hf : ∀ n, s.device.delay n < fuel)
    (hacc : s.device.Accepts s.notified (checkedCmds s.gpu.width s.gpu.height base)) :
    ∃ s', setScanout fuel base s = (.ret (.ok ()), s') ∧
      s.Sends mem₁ (scanoutCmds s.gpu.width s.gpu.height base) s' := by
  obtain ⟨s₁, hsent, hrun⟩ := expectAll_returns (sendBoth fuel _ _) hs
    (length_checkedCmds _ _ _) hf hacc
  have hf₁ : ∀ i < 2, s₁.device.delay (s₁.notified + i) < fuel := fun i _ => by
    rw [hsent.device]
    exact hf _
  obtain ⟨s₂, hrun₂⟩ := sendBoth_returns hsent.reach (length_gpuTransferToHost2d ..)
    (length_gpuResourceFlush ..) hf₁
  have hsent₂ := (sendBoth_ret hsent.reach (length_gpuTransferToHost2d ..)
    (length_gpuResourceFlush ..) hrun₂).2
  exact ⟨s₂, hrun.trans hrun₂, hsent.trans hsent₂⟩

/-- A device that conforms does so in what it answers to a call. -/
theorem GpuState.Sends.conforms {cmds : List (List UInt8)} (hs : GpuReach mem₁ s)
    (h : s.Sends mem₁ cmds s') (hconf : Screen.blank.Conforms mem 0 s'.answered) :
    (s.screen mem).Conforms mem s.notified (s.device.answers s.notified cmds) := by
  rw [h.answered, Screen.conforms_append, hs.length_answered, Nat.zero_add] at hconf
  exact hconf.2

/-- A command that fails is not accepted. -/
theorem not_accepts_of_none {sc : Screen} {dev : GpuDevice} {n : ℕ} {cmd : List UInt8}
    {cmds : List (List UInt8)} (hne : GpuRequest.ofBytes cmd ≠ .other)
    (hconf : sc.Conforms mem n (dev.answers n (cmd :: cmds)))
    (hnone : sc.exec (mem n) (.ofBytes cmd) = none) : ¬ dev.Accepts n [cmd] := by
  intro hacc
  have hacc := hacc _ (List.mem_singleton_self _)
  have hiff := hconf.1.resolve_left hne
  rw [hnone] at hiff
  exact absurd (hiff.1 hacc) (by simp)

/-- `set_scanout` shows the frame buffer, if it is the first one, and fails otherwise. -/
theorem setScanout_shows (h : Showing mem₁ mem width height s d) (hsize : Sized width height)
    {base : UInt64} {r : Except Error Unit} (hrun : setScanout fuel base s = (.ret r, s'))
    (hconf : Screen.blank.Conforms mem 0 s'.answered) :
    Showing mem₁ mem width height s' (d.apply width.toNat height.toNat mem
      (.setScanout base (s.notified + 3))) ∧
      r = if d.base = none then .ok () else .error .ioError := by
  have hrun : (checkedCmds s.gpu.width s.gpu.height base).foldr (expectOk fuel)
      (sendBoth fuel _ _) s = (.ret r, s') := hrun
  rw [h.width_eq, h.height_eq] at hrun
  have hlen := length_checkedCmds width height base
  have hne : GpuRequest.ofBytes (gpuResourceCreate2d 1 b8g8r8a8Unorm width.toUInt32
      height.toUInt32) ≠ .other := by
    rw [ofBytes_gpuResourceCreate2d]
    simp
  rw [Display.apply]
  by_cases hb : d.base = none
  · obtain ⟨sc', hexec, hshows⟩ := h.shows.executes_checkedCmds (n := s.notified) hb
      hsize.bytes_lt hsize.width_lt hsize.height_lt base
    rw [if_pos hb, Display.setScanout_of_none hb]
    rcases expectAll_ret h.reach hlen hrun with ⟨s₁, hsent, -, hk⟩ |
      ⟨pre, cmd, hpre, hsent, -, hno, -⟩
    · obtain ⟨rfl, hsent'⟩ := sendBoth_ret hsent.reach (length_gpuTransferToHost2d ..)
        (length_gpuResourceFlush ..) hk
      refine ⟨(h.sends hsent (hexec.after_eq ▸ hshows)).sends hsent' ?_, rfl⟩
      rw [hsent.screen_eq h.reach, hexec.after_eq, hsent.notified]
      exact hshows.showCmds hsize.bytes_lt hsize.width_lt hsize.height_lt
    · obtain ⟨sc₁, hexec₁⟩ := hexec.of_prefix hpre
      exact absurd (hexec₁.accepts (hsent.conforms h.reach hconf)) hno
  · -- the resource exists, so the first command fails
    have hnone := h.shows.create_eq_none hb (mem s.notified) b8g8r8a8Unorm width.toUInt32
      height.toUInt32
    rw [if_neg hb, Display.setScanout_of_ne hb]
    rcases expectAll_ret h.reach hlen hrun with ⟨s₁, hsent, hacc, hk⟩ |
      ⟨pre, cmd, hpre, hsent, hacc, -, rfl⟩
    · obtain ⟨-, hsent'⟩ := sendBoth_ret hsent.reach (length_gpuTransferToHost2d ..)
        (length_gpuResourceFlush ..) hk
      have hconf' := (hsent.trans hsent').conforms h.reach hconf
      exact absurd (GpuDevice.accepts_cons.1 hacc).1 (not_accepts_of_none hne hconf' hnone)
    · cases pre with
      | nil =>
        obtain ⟨rfl, -⟩ := List.cons_prefix_cons.1 hpre
        refine ⟨h.sends hsent ?_, rfl⟩
        rw [List.nil_append, Screen.after, Screen.run, hnone]
        exact h.shows
      | cons cmd' pre =>
        obtain ⟨rfl, -⟩ := List.cons_prefix_cons.1 hpre
        have hconf' := hsent.conforms h.reach hconf
        exact absurd (GpuDevice.accepts_cons.1 hacc).1 (not_accepts_of_none hne hconf' hnone)

end Driver

/-! ### Runs -/

/-- The coordinates of a FLUSH call fit in 32 bits.  The service does not check it: it takes 64-bit
values and puts their low halves into the commands. -/
def GpuMessage.Fits : GpuMessage → Prop
  | .flush x y w h => Fits32 x y w h
  | _ => True

/-- What a message asks of the display. -/
def GpuService.ops (x : GpuExt) (s : GpuService) : GpuMessage → List DisplayOp
  | .notify badge =>
      if badge &&& x.ringBadge ≠ 0 then
        ringOps x.opFlush s.dev.notified (servedBy x.complete 0 s.dev.queued)
      else []
  | .flush x y w h => [.flush (regionOf x y w h) s.dev.notified]
  | .setScanout base => [.setScanout base (s.dev.notified + 3)]
  | _ => []

/-- A run of the service, with a device that conforms and calls whose coordinates fit; the changes
that its messages ask of the display are `ops`. -/
inductive GpuServiceRun (mem : ℕ → UInt64 → UInt8) (fuel : ℕ) :
    GpuService → List DisplayOp → GpuService → Prop
  | refl (s : GpuService) : GpuServiceRun mem fuel s [] s
  /-- A client queues a request. -/
  | push {s t : GpuService} {ops : List DisplayOp} (h : GpuServiceRun mem fuel s ops t)
      (server : IoUringServer) (sqe : Sqe) (hserver : t.dev.gpu.ringServer = some server) :
      GpuServiceRun mem fuel s ops
        { t with dev := { t.dev with gpu := { t.dev.gpu with ringServer := server.push sqe } } }
  /-- The service handles a message. -/
  | message {s t u : GpuService} {ops : List DisplayOp} {x : GpuExt} {msg : GpuMessage}
      {r : Except Error GpuReply} (h : GpuServiceRun mem fuel s ops t) (hfit : msg.Fits)
      (hrun : GpuService.dispatch fuel x msg t = (.ret r, u))
      (hconf : Screen.blank.Conforms mem 0 u.dev.answered) :
      GpuServiceRun mem fuel s (ops ++ t.ops x msg) u

/-! ### The invariant -/

/-- The size that a response to `GetDisplayInfo` tells the driver. -/
def displaySize (info : List UInt8) : UInt64 × UInt64 :=
  if field32 info 0 = GpuCmdType.respOkDisplayInfo.code then
    ((field32 info 32).toUInt64, (field32 info 36).toUInt64)
  else (1280, 720)

/-- What a device answers to the first command, `GetDisplayInfo`. -/
def GpuDevice.displayInfo (d : GpuDevice) : List UInt8 :=
  d.reply 0 (gpuHeader .getDisplayInfo) sizeOfGpuDisplayInfo

section Init

variable {mem₁ : QueueMem} {mem : ℕ → UInt64 → UInt8} {s s' : GpuState} {fuel : ℕ}

/-- What `init` has sent, and the size that it was told. -/
theorem init_answered (hs : s.Unused)
    (h : VirtIOGpu.init fuel .zeroed mem₁ s = (.ret (.ok ()), s')) :
    s'.device = s.device ∧
      s'.answered = [(gpuHeader .getDisplayInfo,
        (s.device.response 0 (gpuHeader .getDisplayInfo)).take sizeOfGpuDisplayInfo)] ∧
      (s'.gpu.width, s'.gpu.height) = displaySize s.device.displayInfo := by
  have hlen : (gpuHeader .getDisplayInfo).length ≤ 4096 := by simp [gpuHeader, u32Bytes]
  have hinfo : sizeOfGpuDisplayInfo ≤ 4096 := by decide
  rw [init_ok (init_mmio h).1, readSize] at h
  obtain ⟨r₁, s₁, hsend, h⟩ := bind_eq_ret.1 h
  have hidle : (configured s .zeroed mem₁).Idle (.fresh 0 16 s.gpu.cmdBufPa .zeroed) .init :=
    { hs.setupQueues (setupQueues_run .zeroed mem₁ s) with }
  have hnot : (configured s .zeroed mem₁).notified = 0 := hs.notified
  have hans : (configured s .zeroed mem₁).answered = [] := hs.answered
  by_cases hf : (configured s .zeroed mem₁).device.delay (configured s .zeroed mem₁).notified < fuel
  · obtain ⟨s₂, q, t, hrun, -, hd, -, ha⟩ := hidle.sendCmd_ret hlen hinfo hf
    rw [hrun] at hsend
    obtain ⟨hr, rfl⟩ := Prod.mk.inj hsend
    rw [← Outcome.ret.inj hr, attempt_ok, hnot] at h
    rw [hans, hnot] at ha
    unfold displaySize GpuDevice.displayInfo
    split_ifs at h with hok
    · obtain rfl := (Prod.mk.inj h).2
      exact ⟨hd, ha, (if_pos hok).symm⟩
    · obtain rfl := (Prod.mk.inj h).2
      exact ⟨hd, ha, (if_neg hok).symm⟩
  · obtain ⟨s₂, hrun, -⟩ := hidle.sendCmd_running hlen hinfo (Nat.le_of_not_lt hf)
    rw [hrun] at hsend
    exact absurd (Prod.mk.inj hsend).1 (by simp)

/-- After `init` nothing is shown. -/
theorem init_showing (hs : s.Unused)
    (h : VirtIOGpu.init fuel .zeroed mem₁ s = (.ret (.ok ()), s')) :
    Showing mem₁ mem s'.gpu.width s'.gpu.height s' .blank where
  reach := init_reach hs h
  width_eq := rfl
  height_eq := rfl
  shows := by
    have hother : GpuRequest.ofBytes (gpuHeader .getDisplayInfo) = .other := by decide
    rw [GpuState.screen, (init_answered hs h).2.1, List.map_singleton, Screen.after, Screen.run,
      hother]
    exact Display.shownBy_blank _ _

end Init

namespace GpuService

section Service

variable {mem₁ : QueueMem} {mem : ℕ → UInt64 → UInt8} {s s₀ t u : GpuService} {d : Display}
  {fuel : ℕ} {width height : UInt64} {x : GpuExt} {ops : List DisplayOp}

/-- A call of the driver that is there. -/
theorem onGpu_ret {m : Prog GpuState (Except Error Unit)} {r : Except Error Unit}
    (hready : s.ready = true) (h : onGpu m s = (.ret r, t)) :
    m s.dev = (.ret r, t.dev) ∧ t.ready = true ∧ t.fbInfo = s.fbInfo := by
  unfold onGpu zoom at h
  rw [if_pos hready] at h
  obtain ⟨hr, rfl⟩ := Prod.mk.inj h
  exact ⟨Prod.ext hr rfl, hready, rfl⟩

/-- The service is ready, and the device shows what the display shows; `i` is what `init` has left
for the clients, but for the address of their last buffer. -/
structure Serving (mem₁ : QueueMem) (mem : ℕ → UInt64 → UInt8) (i : FbInfo) (s : GpuService)
    (d : Display) : Prop where
  ready : s.ready = true
  showing : Showing mem₁ mem i.width i.height s.dev d
  info : s.fbInfo = { i with paddr := s.fbInfo.paddr }

variable {i : FbInfo}

/-- A message that leaves the driver alone. -/
theorem Serving.of_dev (h : Serving mem₁ mem i s d) (hready : t.ready = s.ready)
    (hdev : t.dev = s.dev) (hinfo : t.fbInfo = { s.fbInfo with paddr := t.fbInfo.paddr }) :
    Serving mem₁ mem i t d where
  ready := hready.trans h.ready
  showing := hdev ▸ h.showing
  info := by rw [hinfo, h.info]

/-- After a call of the driver. -/
theorem Serving.of_call {m : Prog GpuState (Except Error Unit)} {r : Except Error Unit}
    {d' : Display} (h : Serving mem₁ mem i s d) (hrun : onGpu m s = (.ret r, t))
    (hcall : m s.dev = (.ret r, t.dev) → Showing mem₁ mem i.width i.height t.dev d') :
    Serving mem₁ mem i t d' := by
  obtain ⟨hdev, hready, hinfo⟩ := onGpu_ret h.ready hrun
  exact ⟨hready, hcall hdev, hinfo ▸ h.info⟩

/-- The end of a message. -/
theorem attempt_reply {r : Except Error Unit} {v : GpuReply} {r' : Except Error GpuReply}
    (h : (attempt r fun _ => return .ok v : Prog GpuService (Except Error GpuReply)) s =
      (.ret r', t)) : r' = r.map (fun _ => v) ∧ t = s := by
  cases r with
  | error e =>
    obtain ⟨hr, rfl⟩ := Prod.mk.inj h
    exact ⟨(Outcome.ret.inj hr).symm, rfl⟩
  | ok u =>
    obtain ⟨hr, rfl⟩ := Prod.mk.inj h
    exact ⟨(Outcome.ret.inj hr).symm, rfl⟩

/-- The ring of a client. -/
theorem Serving.setupRing {r : Except Error GpuReply} (h : Serving mem₁ mem i s d)
    (hrun : GpuService.setupRing x s = (.ret r, t)) : Serving mem₁ mem i t d := by
  unfold GpuService.setupRing at hrun
  cases hframe : x.allocRing with
  | error e =>
    rw [hframe] at hrun
    obtain rfl := (Prod.mk.inj hrun).2
    exact h
  | ok frame =>
    rw [hframe, attempt_ok] at hrun
    cases hmap : x.mapRing with
    | error e =>
      rw [hmap] at hrun
      obtain rfl := (Prod.mk.inj hrun).2
      exact h
    | ok u =>
      rw [hmap, attempt_ok] at hrun
      obtain ⟨r₁, s₁, hset, hrun⟩ := bind_eq_ret.1 hrun
      obtain rfl := (Prod.mk.inj hrun).2
      refine h.of_call hset fun hdev => ?_
      rw [← (Prod.mk.inj hdev).2]
      exact h.showing.ring _

/-- What a message changes is what it asks of the display. -/
theorem Serving.dispatch {msg : GpuMessage} {r : Except Error GpuReply}
    (h : Serving mem₁ mem i s d) (hsize : Sized i.width i.height) (hfit : msg.Fits)
    (hrun : GpuService.dispatch fuel x msg s = (.ret r, t))
    (hconf : Screen.blank.Conforms mem 0 t.dev.answered) :
    Serving mem₁ mem i t
      ((s.ops x msg).foldl (Display.apply i.width.toNat i.height.toNat mem) d) := by
  cases msg with
  | notify badge =>
    by_cases hb : badge &&& x.ringBadge ≠ 0
    · rw [GpuService.ops, if_pos hb]
      rw [GpuService.dispatch, if_pos hb] at hrun
      obtain ⟨r₁, s₁, hcall, hrun⟩ := bind_eq_ret.1 hrun
      obtain rfl := (Prod.mk.inj hrun).2
      exact h.of_call hcall fun hdev => handleRing_shows h.showing hsize hdev
    · rw [GpuService.ops, if_neg hb]
      rw [GpuService.dispatch, if_neg hb] at hrun
      obtain rfl := (Prod.mk.inj hrun).2
      exact h
  | getInfo =>
    rw [GpuService.dispatch] at hrun
    cases hobj : x.writeObj with
    | error e =>
      rw [hobj] at hrun
      obtain rfl := (Prod.mk.inj hrun).2
      exact h
    | ok u =>
      rw [hobj] at hrun
      obtain rfl := (Prod.mk.inj hrun).2
      exact h
  | flush x₀ y w h' =>
    rw [GpuService.dispatch] at hrun
    obtain ⟨r₁, s₁, hcall, hrun⟩ := bind_eq_ret.1 hrun
    obtain rfl := (attempt_reply hrun).2
    exact h.of_call hcall fun hdev =>
      h.showing.flushCmds hsize hfit (flush_ret h.showing.reach hdev).2
  | setScanout base =>
    rw [GpuService.dispatch] at hrun
    obtain ⟨r₁, s₁, hcall, hrun⟩ := bind_eq_ret.1 hrun
    obtain rfl := (attempt_reply hrun).2
    exact h.of_call hcall fun hdev => (setScanout_shows h.showing hsize hdev hconf).1
  | setupBuffer =>
    rw [GpuService.dispatch, bind_of_ret (show Prog.get s = (.ret s, s) from rfl)] at hrun
    cases hslot : x.alloc with
    | error e =>
      rw [hslot] at hrun
      obtain rfl := (Prod.mk.inj hrun).2
      exact h
    | ok slot =>
      rw [hslot, attempt_ok] at hrun
      cases hdma : x.dmaAlloc (Align.alignUp pgSize s.fbInfo.size / pgSize) with
      | error e =>
        rw [hdma] at hrun
        obtain rfl := (Prod.mk.inj hrun).2
        exact h
      | ok p =>
        rw [hdma] at hrun
        obtain rfl := (Prod.mk.inj hrun).2
        exact h.of_dev rfl rfl rfl
  | setupRing sq cq =>
    rw [GpuService.dispatch] at hrun
    cases hslot : x.alloc with
    | error e =>
      rw [hslot] at hrun
      obtain rfl := (Prod.mk.inj hrun).2
      exact h
    | ok slot =>
      rw [hslot, attempt_ok] at hrun
      cases htransfer : x.transferSelf with
      | error e =>
        rw [htransfer] at hrun
        obtain rfl := (Prod.mk.inj hrun).2
        exact h
      | ok u =>
        rw [htransfer, attempt_ok] at hrun
        exact h.setupRing hrun

/-- What a run has changed is what its messages have asked of the display. -/
theorem Serving.run (hs : Serving mem₁ mem i s d) (hsize : Sized i.width i.height)
    (h : GpuServiceRun mem fuel s ops t) :
    Serving mem₁ mem i t (ops.foldl (Display.apply i.width.toNat i.height.toNat mem) d) := by
  induction h with
  | refl => exact hs
  | push _ server sqe _ ih => exact ⟨ih.ready, ih.showing.ring _, ih.info⟩
  | message _ hfit hrun hconf ih =>
    rw [List.foldl_append]
    exact ih.dispatch hsize hfit hrun hconf

/-- What `init` leaves, when the driver has come up. -/
theorem init_serving {x : GpuExt} {u : GpuState} {i₀ : FbInfo} {r : Except Error Unit}
    (hu : u.Unused) (h : GpuService.init fuel x .zeroed mem₁ ⟨u, false, i₀⟩ = (.ret r, s))
    (hready : s.ready = true) :
    Serving mem₁ mem s.fbInfo s .blank ∧
      s.fbInfo = ⟨s.fbInfo.width, s.fbInfo.height, s.fbInfo.width * 4, 32,
        s.fbInfo.width * s.fbInfo.height * 4, x.format, i₀.paddr⟩ ∧
      (s.fbInfo.width, s.fbInfo.height) = displaySize u.device.displayInfo := by
  have hnot : ∀ {r' : Except Error Unit} {d : GpuState},
      (Outcome.ret r', (⟨d, false, i₀⟩ : GpuService)) = (.ret r, s) → False := by
    intro r' d h
    rw [← (Prod.mk.inj h).2] at hready
    exact absurd hready (by simp)
  unfold GpuService.init at h
  cases hmap : x.mapped with
  | error e =>
    rw [hmap] at h
    exact (hnot h).elim
  | ok _ =>
    rw [hmap, attempt_ok] at h
    obtain ⟨r₁, s₁, hinit, h⟩ := bind_eq_ret.1 h
    obtain ⟨hr₁, rfl⟩ := Prod.mk.inj hinit
    have hinit : VirtIOGpu.init fuel .zeroed mem₁ u =
        (.ret r₁, (VirtIOGpu.init fuel .zeroed mem₁ u).2) := Prod.ext hr₁ rfl
    cases r₁ with
    | error e => exact (hnot h).elim
    | ok _ =>
      rw [attempt_ok] at h
      have hserving : Showing mem₁ mem _ _ _ _ := init_showing hu hinit
      have hsize := (init_answered hu hinit).2.2
      cases hreg : x.registered with
      | error e =>
        rw [hreg] at h
        obtain rfl := (Prod.mk.inj h).2
        exact ⟨⟨rfl, hserving, rfl⟩, rfl, hsize⟩
      | ok _ =>
        rw [hreg] at h
        obtain rfl := (Prod.mk.inj h).2
        exact ⟨⟨rfl, hserving, rfl⟩, rfl, hsize⟩

end Service

end GpuService

/-- A pixel of a frame buffer, in rows of `width * 4` bytes. -/
theorem Display.frame_eq (width base : UInt64) (mem : UInt64 → UInt8) (i j : ℕ) :
    Display.frame width.toNat base mem i j =
      some (Bytes.read mem (base + UInt64.ofNat j * (width * 4) + UInt64.ofNat i * 4) 4) := by
  have haddr : UInt64.ofNat (4 * (j * width.toNat + i)) =
      UInt64.ofNat j * (width * 4) + UInt64.ofNat i * 4 := by
    rw [UInt64.ofNat_mul, UInt64.ofNat_add, UInt64.ofNat_mul, UInt64.ofNat_toNat, UInt64.mul_comm,
      UInt64.add_mul, UInt64.mul_assoc]
    rfl
  rw [Display.frame, haddr, UInt64.add_assoc]

open Display (frameBase regions)

/-- **The screen.**  In every run of the service in which the coordinates of the FLUSH calls fit in
32 bits, the screen shows the first frame buffer that a client has set: each pixel as the memory
held it when the last region that covers it was flushed, or else when the frame buffer was set.
Only the first SET_SCANOUT succeeds, and the information for the clients does not change but for the
address of the last buffer. -/
theorem gpu_screen {mem : ℕ → UInt64 → UInt8} {mem₁ : QueueMem} {fuel fuel' : ℕ} {x : GpuExt}
    {u : GpuState} {i₀ : FbInfo} {r : Except Error Unit} {s t : GpuService}
    {ops : List DisplayOp} (hu : u.Unused)
    (hinit : GpuService.init fuel x .zeroed mem₁ ⟨u, false, i₀⟩ = (.ret r, s))
    (hready : s.ready = true) (hsize : Sized s.fbInfo.width s.fbInfo.height)
    (hrun : GpuServiceRun mem fuel' s ops t) :
    (s.fbInfo.width, s.fbInfo.height) = displaySize u.device.displayInfo ∧
    t.fbInfo = ⟨s.fbInfo.width, s.fbInfo.height, s.fbInfo.width * 4, 32,
      s.fbInfo.width * s.fbInfo.height * 4, x.format, t.fbInfo.paddr⟩ ∧
    (frameBase ops = none → ∀ i j, (t.dev.screen mem).shown i j = none) ∧
    (∀ pre base n rest, ops = pre ++ .setScanout base n :: rest → frameBase pre = none →
      ∀ i j, i < t.fbInfo.width.toNat → j < t.fbInfo.height.toNat →
        (t.dev.screen mem).shown i j = some (Bytes.read
          (mem ((lastCover (regions t.fbInfo.width.toNat t.fbInfo.height.toNat rest) i j).getD n))
          (base + UInt64.ofNat j * t.fbInfo.pitch + UInt64.ofNat i * 4) 4)) ∧
    ∀ (x' : GpuExt) (base : UInt64) (r' : Except Error GpuReply) (t' : GpuService),
      GpuService.dispatch fuel' x' (.setScanout base) t = (.ret r', t') →
      Screen.blank.Conforms mem 0 t'.dev.answered →
      r' = if frameBase ops = none then .ok (.value 0) else .error .ioError := by
  obtain ⟨hs, hinfo, hdisplay⟩ := GpuService.init_serving hu hinit hready
  have ht : GpuService.Serving mem₁ mem _ _ _ := hs.run hsize hrun
  have hinfo' : t.fbInfo = ⟨s.fbInfo.width, s.fbInfo.height, s.fbInfo.width * 4, 32,
      s.fbInfo.width * s.fbInfo.height * 4, x.format, t.fbInfo.paddr⟩ := by
    rw [ht.info, hinfo]
  have hw : t.fbInfo.width = s.fbInfo.width := by rw [hinfo']
  have hh : t.fbInfo.height = s.fbInfo.height := by rw [hinfo']
  have hp : t.fbInfo.pitch = s.fbInfo.width * 4 := by rw [hinfo']
  rw [hw, hh, hp]
  refine ⟨hdisplay, hinfo', fun hnone i j => ?_, fun pre base n rest hops hpre i j hi hj => ?_,
    fun x' base r' t' hcall hconf => ?_⟩
  · rw [ht.showing.shows.shown, Display.foldl_of_none rfl hnone]
    rfl
  · rw [ht.showing.shows.shown, hops, Display.shown_foldl hpre hi hj, Display.frame_eq]
  · obtain ⟨r₁, t₁, hset, hcall⟩ := bind_eq_ret.1 hcall
    obtain ⟨rfl, rfl⟩ := GpuService.attempt_reply hcall
    have hset := (GpuService.onGpu_ret ht.ready hset).1
    obtain ⟨-, rfl⟩ := setScanout_shows ht.showing hsize hset hconf
    rw [Display.base_foldl]
    split_ifs <;> rfl

/-- A device with two pixels in one row, that accepts every command at once, and the response to
`GetDisplayInfo`. -/
def twoPixels : GpuState where
  mmio := .initial { (default : VirtIODevice) with accepts := fun _ => true }
  gpu := ⟨0, 0, none, none, none, 0, fun _ => 0⟩
  device :=
    { response := fun n _ =>
        if n = 0 then u32Bytes GpuCmdType.respOkDisplayInfo.code ++ List.replicate 28 0 ++
          u32Bytes 2 ++ u32Bytes 1
        else u32Bytes GpuCmdType.respOkNoData.code
      usedLen := fun _ => 0
      delay := fun _ => 0 }
  notified := 0
  devAvail := 0
  waited := 0
  answered := []

/-- Calls outside of the repository that succeed. -/
def willing : GpuExt where
  ringBadge := 6
  opFlush := .other 16
  format := 1
  mapped := .ok ()
  registered := .ok ()
  writeObj := .ok ()
  alloc := .ok 1
  dmaAlloc := fun _ => .ok (0x1000, 2)
  transferSelf := .ok ()
  allocRing := .ok 3
  mapRing := .ok ()
  complete := fun _ => .ok ()

/-- Two pixels in a memory whose bytes count the commands: the first one is as SET_SCANOUT showed
it, by command number 4, and the second one as it was flushed by command number 6. -/
theorem gpu_screen_twoPixels :
    ∃ s t, GpuServiceRun (fun n _ => UInt8.ofNat n) 1 s
        [.setScanout 0x1000 4, .flush ⟨1, 0, 1, 1⟩ 6] t ∧
      (t.dev.screen fun n _ => UInt8.ofNat n).shown 0 0 = some [4, 4, 4, 4] ∧
      (t.dev.screen fun n _ => UInt8.ofNat n).shown 1 0 = some [6, 6, 6, 6] := by
  have hu : twoPixels.Unused := ⟨rfl, rfl, rfl, rfl⟩
  obtain ⟨d, hd⟩ : ∃ d, VirtIOGpu.init 1 .zeroed .zeroed twoPixels = (.ret (.ok ()), d) :=
    VirtIOGpu.init_returns .zeroed hu rfl Nat.zero_lt_one
  obtain ⟨hdev, hans, hgeom⟩ := init_answered hu hd
  have hreach := init_reach hu hd
  have hnot := hreach.length_answered
  rw [hans] at hnot
  have hsize : displaySize twoPixels.device.displayInfo = (2, 1) := by decide
  obtain ⟨hw, hh⟩ := Prod.mk.inj (hgeom.trans hsize)
  -- the service comes up
  let i₀ : FbInfo := ⟨0, 0, 0, 0, 0, 0, 0⟩
  let s : GpuService := ⟨d, true, ⟨d.gpu.width, d.gpu.height, d.gpu.width * 4, 32,
    d.gpu.width * d.gpu.height * 4, 1, 0⟩⟩
  have hzoom : zoom GpuService.dev (fun d s => { s with dev := d })
      (VirtIOGpu.init 1 .zeroed .zeroed) ⟨twoPixels, false, i₀⟩ =
      (.ret (.ok ()), ⟨d, false, i₀⟩) := by
    show ((VirtIOGpu.init 1 .zeroed .zeroed twoPixels).1, _) = _
    rw [hd]
  have hinit : GpuService.init 1 willing .zeroed .zeroed ⟨twoPixels, false, i₀⟩ =
      (.ret (.ok ()), s) := by
    show (zoom _ _ _ >>= _) _ = _
    rw [bind_of_ret hzoom]
    rfl
  -- SET_SCANOUT
  have hone : twoPixels.device.Accepts 1 (checkedCmds 2 1 0x1000) := by
    unfold GpuDevice.Accepts
    decide
  have hfast : ∀ n, d.device.delay n < 1 := fun n => by
    rw [hdev]
    exact Nat.zero_lt_one
  obtain ⟨d₁, hd₁, hsent₁⟩ := setScanout_returns 0x1000 hreach hfast (by
    rw [hdev, ← hnot, hw, hh]
    exact hone)
  have hans₁ : d₁.answered = d.answered ++ twoPixels.device.answers 1 (scanoutCmds 2 1 0x1000) := by
    rw [hsent₁.answered, hdev, ← hnot, hw, hh]
    rfl
  have hcall₁ : GpuService.dispatch 1 willing (.setScanout 0x1000) s =
      (.ret (.ok (.value 0)), { s with dev := d₁ }) := by
    have hgpu : GpuService.onGpu (setScanout 1 0x1000) s =
        (.ret (.ok ()), { s with dev := d₁ }) := by
      show ((setScanout 1 0x1000 d).1, _) = _
      rw [hd₁]
    rw [GpuService.dispatch, bind_of_ret hgpu]
    rfl
  -- FLUSH
  have hnot₁ : d₁.notified = 6 := by
    rw [hsent₁.notified, ← hnot]
    rfl
  obtain ⟨d₂, hd₂⟩ : ∃ d₂, flush 1 1 0 1 1 d₁ = (.ret (.ok ()), d₂) :=
    flush_returns 1 0 1 1 hsent₁.reach fun i _ => by
      rw [hsent₁.device]
      exact hfast _
  have hsent₂ := (flush_ret hsent₁.reach hd₂).2
  have hw₁ : d₁.gpu.width = 2 := (congrArg Setup.width hsent₁.setup).trans hw
  have hans₂ : d₂.answered = d₁.answered ++ twoPixels.device.answers 6 (flushCmds 2 1 0 1 1) := by
    rw [hsent₂.answered, hsent₁.device, hdev, hnot₁, hw₁]
  have hcall₂ : GpuService.dispatch 1 willing (.flush 1 0 1 1) { s with dev := d₁ } =
      (.ret (.ok (.value 0)), { s with dev := d₂ }) := by
    have hgpu : GpuService.onGpu (flush 1 1 0 1 1) { s with dev := d₁ } =
        (.ret (.ok ()), { s with dev := d₂ }) := by
      show ((flush 1 1 0 1 1 d₁).1, _) = _
      rw [hd₂]
    rw [GpuService.dispatch, bind_of_ret hgpu]
    rfl
  let clock : ℕ → UInt64 → UInt8 := fun n _ => UInt8.ofNat n
  have hconf₁ : Screen.blank.Conforms clock 0 d₁.answered := by
    rw [hans₁, hans]
    decide +kernel
  have hconf₂ : Screen.blank.Conforms clock 0 d₂.answered := by
    rw [hans₂, hans₁, hans]
    decide +kernel
  have hrun₁ := GpuServiceRun.message (.refl s)
    (show (GpuMessage.setScanout 0x1000).Fits from trivial) hcall₁ hconf₁
  have hrun₂ := GpuServiceRun.message hrun₁
    (show (GpuMessage.flush 1 0 1 1).Fits from ⟨by decide, by decide, by decide, by decide⟩)
    hcall₂ hconf₂
  have hops : [] ++ s.ops willing (.setScanout 0x1000) ++
      ({ s with dev := d₁ } : GpuService).ops willing (.flush 1 0 1 1) =
      [.setScanout 0x1000 4, .flush ⟨1, 0, 1, 1⟩ 6] := by
    show [DisplayOp.setScanout 0x1000 (d.notified + 3), .flush (regionOf 1 0 1 1) d₁.notified] = _
    rw [← hnot, hnot₁]
    rfl
  rw [hops] at hrun₂
  have hsized : Sized d.gpu.width d.gpu.height := by
    rw [hw, hh]
    exact ⟨by decide, by decide, by decide⟩
  obtain ⟨-, -, -, hpixels, -⟩ := gpu_screen hu hinit rfl hsized hrun₂
  have hpixel := hpixels [] 0x1000 4 [.flush ⟨1, 0, 1, 1⟩ 6] rfl rfl
  rw [show ({ s with dev := d₂ } : GpuService).fbInfo.width = 2 from hw,
    show ({ s with dev := d₂ } : GpuService).fbInfo.height = 1 from hh] at hpixel
  exact ⟨s, _, hrun₂, hpixel 0 0 (by decide) (by decide), hpixel 1 0 (by decide) (by decide)⟩

end GlendaDrivers
