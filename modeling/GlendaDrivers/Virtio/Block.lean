import GlendaDrivers.Glenda
import GlendaDrivers.Lib.Bytes
import GlendaDrivers.Virtio.Queue
import GlendaDrivers.Virtio.Transport

/-!
# The block driver (`virtio/block/src/blk.rs`)

The DMA memory of the driver is given by its bytes, addressed by the offset from `dma_vaddr`;
the device sees offset `o` at physical address `dma_paddr + o`.  The first page holds the 64
request headers and, after them, the 64 status bytes; the queue is in the third page and
appears as `queue`.

* `submitVirtioRequest`: one request;
* `popCompletion`, `popCompletions`: one iteration of the loop of `pop_completions`, and the
  loop;
* `handleRing`, `handleIrq`: the two entry points.
-/

namespace GlendaDrivers

/-- `size_of::<VirtIOBlkReq>()`. -/
def sizeOfVirtIOBlkReq : ℕ := 16

/-- The fields of a request header in memory: type, reserved, sector. -/
def virtIOBlkReq (type : UInt32) (sector : UInt64) : List UInt8 :=
  Bytes.little 4 type.toNat ++ Bytes.little 4 0 ++ Bytes.little 8 sector.toNat

def virtioBlkTIn : UInt32 := 0
def virtioBlkTOut : UInt32 := 1
def virtioBlkSOk : UInt8 := 0

/-- `VirtIOBlk`. -/
structure VirtIOBlk where
  transport : Transport
  queue : Option VirtQueue
  dmaVaddr : UInt64
  dmaPaddr : UInt64
  /-- The bytes from `dma_vaddr` on. -/
  dma : UInt64 → UInt8
  pendingInfo : Fin 64 → Option (UInt64 × UInt16)
  ringServer : Option IoUringServer
  buffer : Option SharedMemory
  blkSize : UInt32

namespace VirtIOBlk

/-- The offset of request header `i`. -/
def reqOffset (i : Fin 64) : UInt64 := UInt64.ofNat (i * sizeOfVirtIOBlkReq)

/-- The offset of status byte `i`. -/
def statusOffset (i : Fin 64) : UInt64 := UInt64.ofNat (64 * sizeOfVirtIOBlkReq + i)

/-- Write request header `i` and reset its status byte. -/
def writeHeader (b : VirtIOBlk) (i : Fin 64) (type : UInt32) (sector : UInt64) : VirtIOBlk :=
  let dma := Bytes.write b.dma (reqOffset i) (virtIOBlkReq type sector)
  { b with dma := Bytes.write dma (statusOffset i) [0xFF] }

/-- `server.complete(user_data, result)`, if there is a ring server. -/
def complete (b : VirtIOBlk) (userData : UInt64) (result : Int32) : VirtIOBlk :=
  { b with ringServer := b.ringServer.map (·.complete userData result) }

/-- `set_ring_server`. -/
def setRingServer (b : VirtIOBlk) (server : IoUringServer) : VirtIOBlk :=
  { b with ringServer := some server }

/-- `setup_shm`. -/
def setupShm (b : VirtIOBlk) (vaddr paddr size : UInt64) : VirtIOBlk :=
  { b with buffer := some ⟨vaddr, paddr, size⟩ }

/-- The first free entry of `pending_info`. -/
def freeSlot (b : VirtIOBlk) : Option (Fin 64) := Fin.find? fun i => (b.pendingInfo i).isNone

/-- The first entry of `pending_info` with head `id as u16`. -/
def slotOf (b : VirtIOBlk) (id : UInt32) : Option (Fin 64) :=
  Fin.find? fun i => (b.pendingInfo i).any fun info => info.2 == id.toUInt16

/-- The VirtIO request type, and whether the request writes to the disk. -/
def requestType : Opcode → Option (UInt32 × Bool)
  | .read => some (virtioBlkTIn, false)
  | .write => some (virtioBlkTOut, true)
  | _ => none

/-- The last part of `submit_virtio_request`: build the chain of header, data and status byte,
submit it and enter it in `pending_info`. -/
def submitChain (b : VirtIOBlk) (q : VirtQueue) (reqIdx : Fin 64) (isWrite : Bool)
    (dataPaddr : UInt64) (sqe : Sqe) : Outcome (Except Error Unit × VirtIOBlk) := do
  let (r1, q) ← q.allocDesc
  let some d1 := r1 | return (.error .outOfMemory, { b with queue := some q })
  let (r2, q) ← q.allocDesc
  let some d2 := r2 | return (.error .outOfMemory, { b with queue := some q })
  let (r3, q) ← q.allocDesc
  let some d3 := r3 | return (.error .outOfMemory, { b with queue := some q })
  let reqPaddr := b.dmaPaddr + reqOffset reqIdx
  let statusPaddr := b.dmaPaddr + statusOffset reqIdx
  let q := q.writeDesc d1 ⟨reqPaddr, UInt32.ofNat sizeOfVirtIOBlkReq, descFNext, d2⟩
  let flags := if isWrite then descFNext else descFNext ||| descFWrite
  let q := q.writeDesc d2 ⟨dataPaddr, sqe.len, flags, d3⟩
  let q := q.writeDesc d3 ⟨statusPaddr, 1, descFWrite, 0⟩
  return (.ok (), { b with
    queue := some (q.submit d1)
    pendingInfo := Function.update b.pendingInfo reqIdx (some (sqe.userData, d1))
    transport := b.transport.notifyQueue 0 })

/-- `submit_virtio_request`. -/
def submitVirtioRequest (b : VirtIOBlk) (sqe : Sqe) : Outcome (Except Error Unit × VirtIOBlk) :=
  -- the remainder by a block size of zero
  if b.blkSize = 0 then .panic
  else if sqe.len % b.blkSize ≠ 0 then return (.error .invalidArgs, b)
  else
    match b.queue with
    | none => return (.error .notInitialized, b)
    | some q =>
      match b.freeSlot with
      | none => return (.error .outOfMemory, b)
      | some reqIdx =>
        if b.dmaVaddr = 0 then return (.error .notInitialized, b)
        else
          match requestType sqe.opcode with
          | none => return (.error .notSupported, b)
          | some (type, isWrite) =>
            let b := b.writeHeader reqIdx type sqe.off
            match dataPaddr b.buffer sqe with
            | none => return (.error .invalidArgs, b)
            | some dataPaddr => b.submitChain q reqIdx isWrite dataPaddr sqe

/-- One iteration of the loop of `pop_completions`; `false` when `pop` returned `None`. -/
def popCompletion (b : VirtIOBlk) : Outcome (Bool × VirtIOBlk) :=
  match b.queue with
  | none => return (false, b)
  | some q =>
    match q.pop with
    | (none, q) => return (false, { b with queue := some q })
    | (some (id, _), q) =>
      match b.slotOf id with
      | none => return (true, { b with queue := some q })
      | some pos =>
        match b.pendingInfo pos with
        | none => .panic
        | some (userData, head) => do
          let q ← q.freeChain head
          let status := b.dma (statusOffset pos)
          let result : Int32 := if status = virtioBlkSOk then 0 else -1
          let b := { b with
            queue := some q
            pendingInfo := Function.update b.pendingInfo pos none }
          return (true, b.complete userData result)

/-- The loop of `pop_completions`, for at most `n` iterations. -/
def popCompletionsLoop : ℕ → VirtIOBlk → Outcome VirtIOBlk
  | 0, _ => .running
  | n + 1, b => do
      let (more, b) ← b.popCompletion
      if more then popCompletionsLoop n b else return b

/-- `pop_completions`.  While the device does not move at most `2 ^ 16 - 1` entries wait. -/
def popCompletions (b : VirtIOBlk) : Outcome VirtIOBlk := popCompletionsLoop (2 ^ 16) b

/-- The loop of `handle_ring` over the fetched requests. -/
def submitAll : List Sqe → VirtIOBlk → Outcome VirtIOBlk
  | [], b => return b
  | sqe :: sqes, b => do
      let (r, b) ← b.submitVirtioRequest sqe
      match r with
      | .ok () => submitAll sqes b
      | .error _ => submitAll sqes (b.complete sqe.userData (-1))

/-- `handle_ring`. -/
def handleRing (b : VirtIOBlk) : Outcome VirtIOBlk :=
  match b.ringServer with
  | none => return b
  | some server => do
      let (sqes, server) := server.fetch 16
      let b ← submitAll sqes { b with ringServer := some server }
      if sqes ≠ [] then b.popCompletions else return b

/-- `handle_irq`. -/
def handleIrq (b : VirtIOBlk) : Outcome VirtIOBlk :=
  let (pending, transport) := b.transport.interruptAck
  let b := { b with transport := transport }
  if pending then b.popCompletions else return b

/-- `capacity`: the first eight bytes of the configuration space. -/
def capacity (config : ℕ → UInt8) : UInt64 :=
  UInt64.ofNat (Bytes.ofLittle ((List.range 8).map config))

/-- The driver when `init` has returned and no request was made. -/
structure Started (b : VirtIOBlk) : Prop where
  queue : b.queue = some (.fresh 0 128 (b.dmaPaddr + 8192) .zeroed)
  dmaVaddr : b.dmaVaddr ≠ 0
  pendingInfo : b.pendingInfo = fun _ => none

/-- A driver after `init`, with a new ring server and no shared buffer. -/
def initial (blkSize : UInt32) : VirtIOBlk where
  transport := ⟨0, []⟩
  queue := some (.fresh 0 128 8192 .zeroed)
  dmaVaddr := 4096
  dmaPaddr := 0
  dma _ := 0
  pendingInfo _ := none
  ringServer := some ⟨[], []⟩
  buffer := none
  blkSize := blkSize

theorem started_initial (blkSize : UInt32) : (initial blkSize).Started where
  queue := by
    show some (VirtQueue.fresh 0 128 8192 .zeroed) = some (VirtQueue.fresh 0 128 (0 + 8192) .zeroed)
    rw [UInt64.zero_add]
  dmaVaddr := show (4096 : UInt64) ≠ 0 by decide
  pendingInfo := rfl

end VirtIOBlk

end GlendaDrivers
