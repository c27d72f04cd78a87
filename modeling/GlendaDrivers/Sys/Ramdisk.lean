import GlendaDrivers.Glenda
import GlendaDrivers.Lib.BlockDisk
import GlendaDrivers.Lib.Bytes
import GlendaDrivers.Lib.Outcome

/-!
# The RAM disk (`sys/ramdisk/src/driver.rs`)

* `capacity`, `setupBuffer`, `setupRing`: what the service's calls use;
* `processSqe`: the checks of one request and the copy it makes;
* `Copy.run`: what the copy does to the disk and to the memory of the driver.
-/

namespace GlendaDrivers

/-- `Ramdisk`. -/
structure Ramdisk where
  data : List UInt8
  blockSize : UInt32
  ring : Option IoUringServer
  buffer : Option SharedMemory
  deriving DecidableEq

namespace Ramdisk

/-- `new`. -/
def new (data : List UInt8) : Ramdisk := ⟨data, 512, none, none⟩

/-- `capacity`; a division by zero panics. -/
def capacity (r : Ramdisk) : Outcome UInt64 :=
  if r.blockSize = 0 then .panic
  else .ret (UInt64.ofNat r.data.length / r.blockSize.toUInt64)

/-- The buffer that `setup_buffer` installs: the client's pages. -/
def setupBuffer (r : Ramdisk) (clientVaddr size paddr : UInt64) : Ramdisk :=
  let pages := (size + pgSize - 1) / pgSize
  { r with buffer := some ⟨clientVaddr, paddr, pages * pgSize⟩ }

/-- The ring that `setup_ring` installs. -/
def setupRing (r : Ramdisk) (ring : IoUringServer) : Ramdisk := { r with ring := some ring }

/-- `BUFFER_VA`, where the shared buffer is mapped. -/
def bufferVa : UInt64 := 0x40000000

/-- `RING_VA`, where the ring is mapped. -/
def ringVa : UInt64 := 0x50000000

/-- `MMIO_VA`, where the disk is mapped. -/
def mmioVa : UInt64 := 0x60000000

/-- `copy_nonoverlapping` of `len` bytes between `data + offset` and `addr`. -/
structure Copy where
  offset : UInt64
  addr : UInt64
  len : UInt32
  toDisk : Bool
  deriving DecidableEq

/-- The address at which the driver finds the client's data, or `none` when the request is out of
the boundary of the shared buffer. -/
def localAddr (r : Ramdisk) (sqe : Sqe) : Option UInt64 :=
  match r.buffer with
  | some shm =>
      if sqe.addr < shm.clientVaddr ∨
          sqe.addr + sqe.len.toUInt64 > shm.clientVaddr + shm.size then
        none
      else
        some (bufferVa + (sqe.addr - shm.clientVaddr))
  | none => some sqe.addr

/-- `process_sqe`: the result and the copy, if any.  An error `e` is returned as `-(e as i32)`. -/
def processSqe (r : Ramdisk) (sqe : Sqe) : Outcome (Except Error (Int32 × Option Copy)) :=
  -- the remainder by a block size of zero
  if r.blockSize = 0 then .panic
  else if sqe.len % r.blockSize ≠ 0 then return .error .invalidArgs
  else
    match r.localAddr sqe with
    | none => return .error .invalidArgs
    | some addr =>
      let byteOffset := sqe.off * r.blockSize.toUInt64
      if byteOffset + sqe.len.toUInt64 > UInt64.ofNat r.data.length then
        return .error .invalidArgs
      else
        match sqe.opcode with
        | .read => return .ok (sqe.len.toInt32, some ⟨byteOffset, addr, sqe.len, false⟩)
        | .write => return .ok (sqe.len.toInt32, some ⟨byteOffset, addr, sqe.len, true⟩)
        | .sync => return .ok (0, none)
        | .other _ => return .error .notSupported

namespace Copy

/-- The copy as a transfer of the disk. -/
def transfer (c : Copy) : BlockDisk.Transfer := ⟨c.offset.toNat, c.len.toNat, c.toDisk⟩

/-- The disk and the memory after the copy; `none` when it leaves the slice `data`, for which the
language promises nothing. -/
def run (c : Copy) (data : List UInt8) (mem : UInt64 → UInt8) :
    Option (List UInt8 × (UInt64 → UInt8)) :=
  if c.offset.toNat + c.len.toNat ≤ data.length then
    let after := c.transfer.serve data (Bytes.read mem c.addr c.len.toNat)
    some (after.1, if c.toDisk then mem else Bytes.write mem c.addr after.2)
  else
    none

end Copy

end Ramdisk

end GlendaDrivers
