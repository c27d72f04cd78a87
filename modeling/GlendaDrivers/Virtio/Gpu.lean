import GlendaDrivers.Glenda
import GlendaDrivers.Lib.Bytes
import GlendaDrivers.Virtio.Registers
import GlendaDrivers.Virtio.SplitRing

/-!
# The GPU driver (`virtio/gpu/src/gpu.rs`, `protocol.rs`)

The command buffer is given by its bytes, addressed by the offset from `cmd_buf_va`; the device
sees offset `o` at physical address `cmd_buf_pa + o`.  The queues are in the first two pages and
appear as `controlVq` and `cursorVq`, the command is at offset 8192 and the response at 12288.
Commands and responses are the bytes of their structures.

* `GpuDevice`, `GpuState.turn`: a device that answers each notified command once;
* `sendCmd`: one command and its response;
* `init`, `flush`, `setScanout`, `handleRing`: what the service calls;
* `sendCmd_setup`, `sendCmd_keeps`: what commands leave alone.

While the driver polls, the device has a turn before each look at the used ring.
-/

namespace GlendaDrivers

open Prog

/-! ### Commands -/

/-- The command and response types that the driver uses. -/
inductive GpuCmdType
  | getDisplayInfo
  | resourceCreate2d
  | setScanout
  | resourceFlush
  | transferToHost2d
  | resourceAttachBacking
  | respOkNoData
  | respOkDisplayInfo

def GpuCmdType.code : GpuCmdType → UInt32
  | getDisplayInfo => 0x0100
  | resourceCreate2d => 0x0101
  | setScanout => 0x0103
  | resourceFlush => 0x0104
  | transferToHost2d => 0x0105
  | resourceAttachBacking => 0x0106
  | respOkNoData => 0x1100
  | respOkDisplayInfo => 0x1101

/-- `GpuFormats::B8G8R8A8Unorm`. -/
def b8g8r8a8Unorm : UInt32 := 1

def u32Bytes (v : UInt32) : List UInt8 := Bytes.little 4 v.toNat
def u64Bytes (v : UInt64) : List UInt8 := Bytes.little 8 v.toNat

/-- `GpuHeader` with the type `ty`; the other fields are zero. -/
def gpuHeader (ty : GpuCmdType) : List UInt8 := u32Bytes ty.code ++ List.replicate 20 0

/-- `size_of::<GpuHeader>()`. -/
def sizeOfGpuHeader : ℕ := 24

/-- `size_of::<GpuDisplayInfo>()`: the header and 16 modes of 24 bytes. -/
def sizeOfGpuDisplayInfo : ℕ := 24 + 16 * 24

/-- `GpuRect`. -/
def gpuRect (x y width height : UInt32) : List UInt8 :=
  u32Bytes x ++ u32Bytes y ++ u32Bytes width ++ u32Bytes height

/-- `GpuResourceCreate2d`. -/
def gpuResourceCreate2d (resourceId format width height : UInt32) : List UInt8 :=
  gpuHeader .resourceCreate2d ++ u32Bytes resourceId ++ u32Bytes format ++ u32Bytes width ++
    u32Bytes height

/-- `GpuResourceAttachBacking` and one `GpuMemEntry`. -/
def attachWithEntry (resourceId nrEntries : UInt32) (addr : UInt64) (length : UInt32) :
    List UInt8 :=
  gpuHeader .resourceAttachBacking ++ u32Bytes resourceId ++ u32Bytes nrEntries ++
    u64Bytes addr ++ u32Bytes length ++ u32Bytes 0

/-- `GpuSetScanout`. -/
def gpuSetScanout (rect : List UInt8) (scanoutId resourceId : UInt32) : List UInt8 :=
  gpuHeader .setScanout ++ rect ++ u32Bytes scanoutId ++ u32Bytes resourceId

/-- `GpuTransferToHost2d`. -/
def gpuTransferToHost2d (rect : List UInt8) (offset : UInt64) (resourceId : UInt32) :
    List UInt8 :=
  gpuHeader .transferToHost2d ++ rect ++ u64Bytes offset ++ u32Bytes resourceId ++ u32Bytes 0

/-- `GpuResourceFlush`. -/
def gpuResourceFlush (rect : List UInt8) (resourceId : UInt32) : List UInt8 :=
  gpuHeader .resourceFlush ++ rect ++ u32Bytes resourceId ++ u32Bytes 0

/-- The 32-bit field at offset `o` of a response. -/
def field32 (resp : List UInt8) (o : ℕ) : UInt32 :=
  UInt32.ofNat (Bytes.ofLittle ((resp.drop o).take 4))

/-! ### The driver and its device -/

/-- `VirtIOGpu`. -/
structure VirtIOGpu where
  width : UInt64
  height : UInt64
  ringServer : Option IoUringServer
  controlVq : Option VirtQueue
  cursorVq : Option VirtQueue
  cmdBufPa : UInt64
  /-- The bytes from `cmd_buf_va` on. -/
  cmdBuf : UInt64 → UInt8

/-- What a device answers, and when. -/
structure GpuDevice where
  /-- The response to command number `n`, which consists of these bytes. -/
  response : ℕ → List UInt8 → List UInt8
  /-- The length that it reports in the used entry. -/
  usedLen : ℕ → UInt32
  /-- How many turns it lets pass before it answers command number `n`. -/
  delay : ℕ → ℕ

/-- The driver with its device. -/
structure GpuState where
  mmio : Mmio
  gpu : VirtIOGpu
  device : GpuDevice
  /-- How often the control queue was notified. -/
  notified : ℕ
  /-- The next entry of the available ring that the device reads. -/
  devAvail : UInt16
  /-- The turns that the device has let pass since its last answer. -/
  waited : ℕ
  /-- The commands the device has answered, each with what it wrote in the response buffer. -/
  answered : List (List UInt8 × List UInt8)

namespace GpuState

/-- Change the control queue. -/
def setQueue (s : GpuState) (q : VirtQueue) : GpuState :=
  { s with gpu := { s.gpu with controlVq := some q } }

/-- Write bytes of the command buffer. -/
def writeBuf (s : GpuState) (o : UInt64) (l : List UInt8) : GpuState :=
  { s with gpu := { s.gpu with cmdBuf := Bytes.write s.gpu.cmdBuf o l } }

/-- The device reads the next chain, writes its response to the buffer of the second descriptor,
and publishes the chain. -/
def answer (s : GpuState) (q : VirtQueue) : GpuState :=
  let head := q.readAvail s.devAvail
  let cmd := q.mem.desc head
  let resp := q.mem.desc cmd.next
  let bytes := Bytes.read s.gpu.cmdBuf (cmd.addr - s.gpu.cmdBufPa) cmd.len.toNat
  let n := s.answered.length
  let written := (s.device.response n bytes).take resp.len.toNat
  let s := s.writeBuf (resp.addr - s.gpu.cmdBufPa) written
  { s.setQueue (q.publishUsed ⟨head.toUInt32, s.device.usedLen n⟩) with
    devAvail := s.devAvail + 1
    waited := 0
    answered := s.answered ++ [(bytes, written)] }

/-- A turn of the device: if a notified command waits, the device answers it, or lets the turn
pass. -/
def turn (s : GpuState) : GpuState :=
  match s.gpu.controlVq with
  | none => s
  | some q =>
      if s.answered.length < s.notified ∧ s.devAvail ≠ q.mem.availIdx then
        if s.device.delay s.answered.length ≤ s.waited then s.answer q
        else { s with waited := s.waited + 1 }
      else s

end GpuState

namespace VirtIOGpu

/-! ### Commands -/

def cmdOffset : UInt64 := 8192
def respOffset : UInt64 := 12288

/-- An operation on `vq`, the control queue that `send_cmd` has borrowed. -/
def onQueue {α : Type} (f : VirtQueue → Outcome (α × VirtQueue)) : Prog GpuState α := fun s =>
  match s.gpu.controlVq with
  | none => (.panic, s)
  | some q =>
      match f q with
      | .ret (a, q') => (.ret a, s.setQueue q')
      | .panic => (.panic, s)
      | .running => (.running, s)

/-- `notify(0)`. -/
def notify : Prog GpuState Unit := modify fun s => { s with notified := s.notified + 1 }

/-- One iteration of the polling loop. -/
def pollStep (_ : Unit) : Prog GpuState (Unit ⊕ Unit) := do
  modify GpuState.turn
  let done ← onQueue fun q => .ret (q.canPop, q)
  if done then return .inr () else return .inl ()

/-- `while !vq.can_pop()`, for at most `fuel` iterations. -/
def poll (fuel : ℕ) : Prog GpuState Unit := loop pollStep fuel ()

/-- The descriptors of a command, with the two buffers. -/
def writeChain (pa : UInt64) (cmdLen respLen : ℕ) (head respDescId : UInt16) (q : VirtQueue) :
    VirtQueue :=
  let q := q.writeDesc head ⟨pa + cmdOffset, UInt32.ofNat cmdLen, descFNext, respDescId⟩
  let q := q.writeDesc respDescId ⟨pa + respOffset, UInt32.ofNat respLen, descFWrite, 0⟩
  q.submit head

/-- `send_cmd` with the bytes of the command and the size of the response. -/
def sendCmd (fuel : ℕ) (cmd : List UInt8) (respLen : ℕ) :
    Prog GpuState (Except Error (List UInt8)) := do
  let s ← get
  if s.gpu.controlVq.isNone then return .error .notInitialized
  else
    modify fun s => s.writeBuf cmdOffset cmd
    modify fun s => s.writeBuf respOffset (List.replicate respLen 0)
    let r1 ← onQueue VirtQueue.allocDesc
    let some head := r1 | return .error .outOfMemory
    let r2 ← onQueue VirtQueue.allocDesc
    let some respDescId := r2 | return .error .outOfMemory
    onQueue fun q => .ret ((), writeChain s.gpu.cmdBufPa cmd.length respLen head respDescId q)
    notify
    poll fuel
    let _ ← onQueue fun q => .ret q.pop
    onQueue fun q => do return ((), ← q.freeDesc head)
    onQueue fun q => do return ((), ← q.freeDesc respDescId)
    let s ← get
    return .ok (Bytes.read s.gpu.cmdBuf respOffset respLen)

/-- A command whose response is a header. -/
def sendCmd' (fuel : ℕ) (cmd : List UInt8) : Prog GpuState (Except Error (List UInt8)) :=
  sendCmd fuel cmd sizeOfGpuHeader

/-! ### The calls of the service -/

/-- The feature word that the driver asks for. -/
def virtioFVersion1 : UInt64 := 0x100000000

/-- The first part of `init`: reset, feature negotiation, and whether FEATURES_OK is kept. -/
def negotiate : Prog Mmio Bool := do
  setStatus 0
  addStatus statusAcknowledge
  addStatus statusDriver
  let features ← getDeviceFeatures
  setDriverFeatures (features &&& virtioFVersion1)
  addStatus statusFeaturesOk
  let status ← getStatus
  return status &&& statusFeaturesOk ≠ 0

/-- A program over the registers. -/
def onMmio {α : Type} (m : Prog Mmio α) : Prog GpuState α :=
  zoom GpuState.mmio (fun mmio s => { s with mmio := mmio }) m

/-- The two queues of `init`, with the memory `mem₀` and `mem₁`. -/
def setupQueues (mem₀ mem₁ : QueueMem) : Prog GpuState Unit := do
  let s ← get
  let vq0 ← ofOutcome (VirtQueue.new 0 16 s.gpu.cmdBufPa mem₀)
  onMmio (setupQueue vq0)
  modify fun s => s.setQueue vq0
  let vq1 ← ofOutcome (VirtQueue.new 1 16 (s.gpu.cmdBufPa + 4096) mem₁)
  onMmio (setupQueue vq1)
  modify fun s => { s with gpu := { s.gpu with cursorVq := some vq1 } }

/-- Set `width` and `height`. -/
def setSize (width height : UInt64) : Prog GpuState Unit :=
  modify fun s => { s with gpu := { s.gpu with width := width, height := height } }

/-- `init`. -/
def init (fuel : ℕ) (mem₀ mem₁ : QueueMem) : Prog GpuState (Except Error Unit) := do
  let ok ← onMmio negotiate
  if ¬ ok then return .error .notSupported
  else
    setupQueues mem₀ mem₁
    onMmio (addStatus statusDriverOk)
    let r ← sendCmd fuel (gpuHeader .getDisplayInfo) sizeOfGpuDisplayInfo
    attempt r fun info => do
      -- the first mode follows the header, its size at offset 8
      if field32 info 0 = GpuCmdType.respOkDisplayInfo.code then
        setSize (field32 info 32).toUInt64 (field32 info 36).toUInt64
      else
        setSize 1280 720
      return .ok ()

/-- `flush`. -/
def flush (fuel : ℕ) (x y w h : UInt64) : Prog GpuState (Except Error Unit) := do
  let s ← get
  let resId : UInt32 := 1
  let rect := gpuRect x.toUInt32 y.toUInt32 w.toUInt32 h.toUInt32
  let r ← sendCmd' fuel (gpuTransferToHost2d rect ((y * s.gpu.width + x) * 4) resId)
  attempt r fun _ => do
    let r ← sendCmd' fuel (gpuResourceFlush rect resId)
    attempt r fun _ => return .ok ()

/-- A command of `set_scanout` whose response must be `RespOkNoData`. -/
def expectOk (fuel : ℕ) (cmd : List UInt8) (k : Prog GpuState (Except Error Unit)) :
    Prog GpuState (Except Error Unit) := do
  let r ← sendCmd' fuel cmd
  attempt r fun resp =>
    if field32 resp 0 ≠ GpuCmdType.respOkNoData.code then return .error .ioError else k

/-- `set_scanout`. -/
def setScanout (fuel : ℕ) (paddr : UInt64) : Prog GpuState (Except Error Unit) := do
  let s ← get
  let resId : UInt32 := 1
  let width := s.gpu.width.toUInt32
  let height := s.gpu.height.toUInt32
  let rect := gpuRect 0 0 width height
  let size := (s.gpu.width * s.gpu.height * 4).toUInt32
  expectOk fuel (gpuResourceCreate2d resId b8g8r8a8Unorm width height) <|
    expectOk fuel (attachWithEntry resId 1 paddr size) <|
      expectOk fuel (gpuSetScanout rect 0 resId) do
        let r ← sendCmd' fuel (gpuTransferToHost2d rect 0 resId)
        attempt r fun _ => do
          let r ← sendCmd' fuel (gpuResourceFlush rect resId)
          attempt r fun _ => return .ok ()

/-- Change the ring server. -/
def setRingServer (server : Option IoUringServer) : Prog GpuState Unit :=
  modify fun s => { s with gpu := { s.gpu with ringServer := server } }

/-- `server.complete(user_data, ret)?`, when `complete` answers `answer`; `k` completions came
before. -/
def completeRing (answer : Except Error Unit) (server : IoUringServer) (k : ℕ) (userData : UInt64)
    (ret : Int32) : (IoUringServer × ℕ) ⊕ Except Error IoUringServer :=
  match answer with
  | .ok () => .inl (server.complete userData ret, k + 1)
  | .error e => .inr (.error e)

/-- One iteration of the loop of `handle_ring`, after `k` completions; `opFlush` is
`IOURING_OP_FB_FLUSH`, and completion number `k` of the call is answered by `answer k`. -/
def ringStep (fuel : ℕ) (opFlush : Opcode) (answer : ℕ → Except Error Unit)
    (st : IoUringServer × ℕ) :
    Prog GpuState ((IoUringServer × ℕ) ⊕ Except Error IoUringServer) :=
  let k := st.2
  match st.1.nextRequest with
  | (none, server) => return .inr (.ok server)
  | (some sqe, server) =>
      if sqe.opcode = opFlush then do
        let x := sqe.off >>> 32
        let y := sqe.off &&& 0xFFFFFFFF
        let w := sqe.addr >>> 32
        let h := sqe.addr &&& 0xFFFFFFFF
        let res ← flush fuel x y w h
        let ret : Int32 := if res.isOk then 0 else -1
        return completeRing (answer k) server k sqe.userData ret
      else return completeRing (answer k) server k sqe.userData (-1)

/-- `handle_ring`.  The server is taken out of the driver, and put back after the loop. -/
def handleRing (fuel : ℕ) (opFlush : Opcode) (answer : ℕ → Except Error Unit) :
    Prog GpuState (Except Error Unit) := do
  let s ← get
  match s.gpu.ringServer with
  | none => return .ok ()
  | some server => do
      setRingServer none
      let r ← loop (ringStep fuel opFlush answer) fuel (server, 0)
      attempt r fun server => do
        setRingServer (some server)
        return .ok ()

/-! ### What commands leave alone -/

/-- The registers that `init` programs, and the ring server. -/
def Untouched (mmio : Mmio) (server : Option IoUringServer) (s : GpuState) : Prop :=
  s.mmio = mmio ∧ s.gpu.ringServer = server

/-- What commands do not change. -/
structure Setup where
  mmio : Mmio
  ringServer : Option IoUringServer
  width : UInt64
  height : UInt64
  cmdBufPa : UInt64
  device : GpuDevice

def setupOf (s : GpuState) : Setup :=
  ⟨s.mmio, s.gpu.ringServer, s.gpu.width, s.gpu.height, s.gpu.cmdBufPa, s.device⟩

section Keeps

variable {c : Setup}

/-- The device answers without an access to them. -/
theorem setupOf_turn (s : GpuState) : setupOf s.turn = setupOf s := by
  unfold GpuState.turn
  cases s.gpu.controlVq with
  | none => rfl
  | some q =>
    dsimp only
    split_ifs <;> rfl

theorem onQueue_keeps {α : Type} (f : VirtQueue → Outcome (α × VirtQueue)) :
    Keeps (setupOf · = c) (onQueue f) := by
  intro s hs
  unfold onQueue
  cases s.gpu.controlVq with
  | none => exact hs
  | some q =>
    dsimp only
    rcases f q with ⟨a, q'⟩ | _ | _ <;> exact hs

theorem poll_keeps (fuel : ℕ) : Keeps (setupOf · = c) (poll fuel) := by
  refine Keeps.loop (fun _ => ?_) fuel ()
  refine Keeps.bind (Keeps.modify fun s hs => (setupOf_turn s).trans hs) fun _ => ?_
  refine Keeps.bind (onQueue_keeps _) fun done => ?_
  exact Keeps.ite (Keeps.pure _) (Keeps.pure _)

theorem sendCmd_setup (fuel : ℕ) (cmd : List UInt8) (respLen : ℕ) :
    Keeps (setupOf · = c) (sendCmd fuel cmd respLen) := by
  unfold sendCmd
  refine Keeps.bind Keeps.get fun s => Keeps.ite (Keeps.pure _) ?_
  refine Keeps.bind (Keeps.modify fun _ h => h) fun _ => ?_
  refine Keeps.bind (Keeps.modify fun _ h => h) fun _ => ?_
  refine Keeps.bind (onQueue_keeps _) fun r1 => ?_
  cases r1 with
  | none => exact Keeps.pure _
  | some head =>
    refine Keeps.bind (onQueue_keeps _) fun r2 => ?_
    cases r2 with
    | none => exact Keeps.pure _
    | some respDescId =>
      refine Keeps.bind (onQueue_keeps _) fun _ => ?_
      refine Keeps.bind (Keeps.modify fun _ h => h) fun _ => ?_
      refine Keeps.bind (poll_keeps fuel) fun _ => ?_
      refine Keeps.bind (onQueue_keeps _) fun _ => ?_
      refine Keeps.bind (onQueue_keeps _) fun _ => ?_
      refine Keeps.bind (onQueue_keeps _) fun _ => ?_
      exact Keeps.bind Keeps.get fun _ => Keeps.pure _

theorem sendCmd_keeps {mmio : Mmio} {server : Option IoUringServer} (fuel : ℕ)
    (cmd : List UInt8) (respLen : ℕ) :
    Keeps (Untouched mmio server) (sendCmd fuel cmd respLen) :=
  Keeps.of_part (fun _ => sendCmd_setup fuel cmd respLen)
    fun c => c.mmio = mmio ∧ c.ringServer = server

end Keeps

end VirtIOGpu

end GlendaDrivers
