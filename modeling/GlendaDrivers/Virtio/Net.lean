import GlendaDrivers.Glenda
import GlendaDrivers.Lib.Bytes
import GlendaDrivers.Virtio.Queue
import GlendaDrivers.Virtio.Transport

/-!
# The network driver (`virtio/net/src/net.rs`)

The driver has two queues, with a table of pending requests each.  The fields `rx_queue` and
`tx_queue` are `queue .rx` and `queue .tx`, the fields `pending_rx` and `pending_tx` are
`pending .rx` and `pending .tx`.  The DMA memory is given by its bytes from `dma_vaddr` on; its
first two pages hold the headers, the queues follow and appear as `queue`.

* `submit`: one request;
* `popCompletion`, `popCompletions`: one iteration of a loop of `handle_irq`, and the loop;
* `handleRing`, `handleIrq`: the two entry points.
-/

namespace GlendaDrivers

/-- The variants of `VirtIOError` that the driver returns. -/
inductive VirtIOError
  | deviceNotFound
  | invalidHeader
  | oom
  deriving DecidableEq

/-- The two queues. -/
inductive NetDir
  | rx
  | tx
  deriving DecidableEq

/-- The index of a queue. -/
def NetDir.qidx : NetDir → UInt32
  | .rx => 0
  | .tx => 1

/-- `size_of::<VirtioNetHdr>()`. -/
def sizeOfVirtioNetHdr : ℕ := 10

/-- `VirtioNetHdr::default()` in memory. -/
def virtioNetHdrDefault : List UInt8 := List.replicate sizeOfVirtioNetHdr 0

/-- `VirtIONet`. -/
structure VirtIONet where
  transport : Transport
  mac : List UInt8
  queue : NetDir → Option VirtQueue
  dmaPaddr : UInt64
  /-- The bytes from `dma_vaddr` on. -/
  dma : UInt64 → UInt8
  pending : NetDir → Fin 128 → Option (UInt64 × UInt16)
  ringServer : Option IoUringServer
  buffer : Option SharedMemory

namespace VirtIONet

def setQueue (n : VirtIONet) (i : NetDir) (q : VirtQueue) : VirtIONet :=
  { n with queue := Function.update n.queue i (some q) }

def setPending (n : VirtIONet) (i : NetDir) (idx : Fin 128) (info : Option (UInt64 × UInt16)) :
    VirtIONet :=
  { n with pending := Function.update n.pending i (Function.update (n.pending i) idx info) }

/-- `server.complete(user_data, result)`, if there is a ring server. -/
def complete (n : VirtIONet) (userData : UInt64) (result : Int32) : VirtIONet :=
  { n with ringServer := n.ringServer.map (·.complete userData result) }

/-- `set_ring_server`. -/
def setRingServer (n : VirtIONet) (server : IoUringServer) : VirtIONet :=
  { n with ringServer := some server }

/-- `setup_shm`. -/
def setupShm (n : VirtIONet) (vaddr paddr size : UInt64) : VirtIONet :=
  { n with buffer := some ⟨vaddr, paddr, size⟩ }

/-- The offset of the header of the chain with head `d1`. -/
def hdrOffset (i : NetDir) (d1 : UInt16) : UInt64 :=
  i.qidx.toUInt64 * 4096 + d1.toUInt64 * 16

/-- `submit`. -/
def submit (n : VirtIONet) (i : NetDir) (sqe : Sqe) :
    Outcome (Except VirtIOError Unit × VirtIONet) :=
  match n.queue i with
  | none => return (.error .deviceNotFound, n)
  | some q => do
    let (r1, q) ← q.allocDesc
    let some d1 := r1 | return (.error .oom, n.setQueue i q)
    let (r2, q) ← q.allocDesc
    let some d2 := r2 | return (.error .oom, n.setQueue i q)
    match dataPaddr n.buffer sqe with
    | none => return (.error .invalidHeader, n.setQueue i q)
    | some dataPaddr =>
      let hdrPaddr := n.dmaPaddr + hdrOffset i d1
      let n := { n with dma := Bytes.write n.dma (hdrOffset i d1) virtioNetHdrDefault }
      let flags := if i = .rx then descFNext ||| descFWrite else descFNext
      let q := q.writeDesc d1 ⟨hdrPaddr, UInt32.ofNat sizeOfVirtioNetHdr, flags, d2⟩
      let q := q.writeDesc d2 ⟨dataPaddr, sqe.len, if i = .rx then descFWrite else 0, 0⟩
      if h : d1.toNat < 128 then
        let n := n.setPending i ⟨d1.toNat, h⟩ (some (sqe.userData, d1))
        let n := n.setQueue i (q.submit d1)
        return (.ok (), { n with transport := n.transport.notifyQueue i.qidx })
      else .panic

/-- The request of `handle_ring` for a queue entry: READ goes to the RX queue, WRITE to the TX
queue. -/
def submitSqe (n : VirtIONet) (sqe : Sqe) : Outcome (Except VirtIOError Unit × VirtIONet) :=
  match sqe.opcode with
  | .read => n.submit .rx sqe
  | .write => n.submit .tx sqe
  | _ => return (.error .deviceNotFound, n)

/-- The loop of `handle_ring` over the fetched requests. -/
def submitAll : List Sqe → VirtIONet → Outcome VirtIONet
  | [], n => return n
  | sqe :: sqes, n => do
      let (r, n) ← n.submitSqe sqe
      match r with
      | .ok () => submitAll sqes n
      | .error _ => submitAll sqes (n.complete sqe.userData (-1))

/-- `handle_ring`. -/
def handleRing (n : VirtIONet) : Outcome VirtIONet :=
  match n.ringServer with
  | none => return n
  | some server =>
      let (sqes, server) := server.fetch 16
      submitAll sqes { n with ringServer := some server }

/-- The result of a completed request: the length of a received packet without its header. -/
def resultLen : NetDir → UInt32 → Int32
  | .rx, len =>
      if len.toNat > sizeOfVirtioNetHdr then (len - UInt32.ofNat sizeOfVirtioNetHdr).toInt32 else 0
  | .tx, _ => 0

/-- One iteration of a loop of `handle_irq`; `false` when `pop` returned `None`. -/
def popCompletion (n : VirtIONet) (i : NetDir) : Outcome (Bool × VirtIONet) :=
  match n.queue i with
  | none => return (false, n)
  | some q =>
    match q.pop with
    | (none, q) => return (false, n.setQueue i q)
    | (some (idx, len), q) =>
      if h : idx.toNat < 128 then
        match n.pending i ⟨idx.toNat, h⟩ with
        | none => return (true, n.setQueue i q)
        | some (data, head) => do
          let n := n.setPending i ⟨idx.toNat, h⟩ none
          let n := n.complete data (resultLen i len)
          let q ← q.freeChain head
          return (true, n.setQueue i q)
      else .panic

/-- A loop of `handle_irq`, for at most `k` iterations. -/
def popCompletionsLoop (i : NetDir) : ℕ → VirtIONet → Outcome VirtIONet
  | 0, _ => .running
  | k + 1, n => do
      let (more, n) ← n.popCompletion i
      if more then popCompletionsLoop i k n else return n

/-- A loop of `handle_irq`.  While the device does not move at most `2 ^ 16 - 1` entries wait. -/
def popCompletions (n : VirtIONet) (i : NetDir) : Outcome VirtIONet :=
  popCompletionsLoop i (2 ^ 16) n

/-- `handle_irq`. -/
def handleIrq (n : VirtIONet) : Outcome VirtIONet :=
  let (pending, transport) := n.transport.interruptAck
  let n := { n with transport := transport }
  if pending then
    match n.ringServer with
    | none => return n
    | some _ => do
      let n ← n.popCompletions .rx
      n.popCompletions .tx
  else return n

/-- The driver when `init` has returned and no request was made. -/
structure Started (n : VirtIONet) : Prop where
  rx : n.queue .rx = some (.fresh 0 128 (n.dmaPaddr + 8192) .zeroed)
  tx : n.queue .tx = some (.fresh 1 128 (n.dmaPaddr + 8192 + 4096) .zeroed)
  pending : n.pending = fun _ _ => none

/-- A driver after `init`, with a new ring server and the given shared buffer. -/
def initial (buffer : Option SharedMemory) : VirtIONet where
  transport := ⟨0, []⟩
  mac := List.replicate 6 0
  queue
    | .rx => some (.fresh 0 128 8192 .zeroed)
    | .tx => some (.fresh 1 128 12288 .zeroed)
  dmaPaddr := 0
  dma _ := 0
  pending _ _ := none
  ringServer := some ⟨[], []⟩
  buffer := buffer

theorem started_initial (buffer : Option SharedMemory) : (initial buffer).Started where
  rx := by
    show some (VirtQueue.fresh 0 128 8192 .zeroed) = some (VirtQueue.fresh 0 128 (0 + 8192) .zeroed)
    rw [UInt64.zero_add]
  tx := by
    have h : (0 : UInt64) + 8192 + 4096 = 12288 := by decide
    show some (VirtQueue.fresh 1 128 12288 .zeroed) =
      some (VirtQueue.fresh 1 128 (0 + 8192 + 4096) .zeroed)
    rw [h]
  pending := rfl

end VirtIONet

end GlendaDrivers
