import GlendaDrivers.Lib.Session
import GlendaDrivers.Sys.Ramdisk
import GlendaDrivers.Uart.Driver
import GlendaDrivers.Virtio.Block
import GlendaDrivers.Virtio.Net

/-!
# The services' calls

The `dispatch` functions of `virtio/block/src/server.rs`, `virtio/net/src/server.rs`,
`sys/ramdisk/src/server.rs` and `uart/ns16550a/src/driver/server.rs`.  Each driver is wrapped in
a service that answers the calls of clients, which are told apart by their badges.  The calls of
the kernel and of the resource managers may fail; their results are those of an `Ext`.  Kernel
notifications, which the entry test lets pass, are left to the drivers' own models.

* `Service δ`: the state of a service with a driver of type `δ`, with the clients that installed
  the driver's ring server and its shared buffer;
* `guarded`, `claim`, `install`: what the `dispatch` functions have in common;
* `BlockService.dispatch`, `NetService.dispatch`, `RamdiskService.dispatch`,
  `UartService.dispatch`.
-/

namespace GlendaDrivers

/-! ### Services -/

/-- What a client installs in a driver. -/
inductive Resource
  | ring
  | buffer
  deriving DecidableEq

/-- A driver in which clients install a ring server and a shared buffer. -/
class Driver (δ : Type) where
  /-- The resource is installed. -/
  has : Resource → δ → Bool

instance : Driver VirtIOBlk where
  has
    | .ring, b => b.ringServer.isSome
    | .buffer, b => b.buffer.isSome

instance : Driver VirtIONet where
  has
    | .ring, n => n.ringServer.isSome
    | .buffer, n => n.buffer.isSome

instance : Driver Ramdisk where
  has
    | .ring, r => r.ring.isSome
    | .buffer, r => r.buffer.isSome

instance : Driver Uart.Machine where
  has
    | .ring, m => m.uart.ring.isSome
    | .buffer, m => m.uart.shm.isSome

/-- A service. -/
structure Service (δ : Type) where
  driver : Option δ
  connectedClient : Option UInt64
  /-- The client whose call installed the resource in the driver. -/
  installedBy : Resource → Option UInt64

/-- The calls to the kernel and to the resource managers that only succeed or fail. -/
inductive ExtCall
  | alloc
  | transferSelf
  | allocRing
  | dmaAlloc
  | mapRing
  | mapBuffer
  deriving DecidableEq

/-- The results of the calls outside the repository, and its constants. -/
structure Ext where
  /-- The result of a call, a capability slot. -/
  call : ExtCall → Except Error UInt64
  /-- `dev.get_mmio`: frame, address and size. -/
  getMmio : UInt64 → Except Error (UInt64 × UInt64 × UInt64)
  /-- `dev.get_irq`. -/
  getIrq : UInt64 → Except Error UInt64
  /-- The capacity in the configuration space of the block device. -/
  capacity : UInt64
  /-- `IPC_BUFFER_SIZE`. -/
  ipcBufferSize : UInt64
  /-- The capacity of a `ShmRingBuffer` initialised in 2048 bytes. -/
  shmRingCapacity : ℕ

/-- What a call returns to the client. -/
inductive Reply
  | unit
  | value (v : UInt64)
  | cap (slot : UInt64)
  | mmio (frame addr size : UInt64)
  | mac (octets : List UInt8)
  | bytes (data : List UInt8)
  deriving DecidableEq

namespace Service

variable {δ : Type}

/-- The entry test of `dispatch`: another client is connected. -/
def Refuses (s : Service δ) (badge : UInt64) : Prop :=
  badge ≠ 0 ∧ s.connectedClient.isSome ∧ s.connectedClient ≠ some badge

instance (s : Service δ) (badge : UInt64) : Decidable (s.Refuses badge) :=
  inferInstanceAs
    (Decidable (badge ≠ 0 ∧ s.connectedClient.isSome ∧ s.connectedClient ≠ some badge))

/-- The client becomes the connected one if there is none. -/
def claimed (s : Service δ) (badge : UInt64) : Service δ :=
  if badge ≠ 0 ∧ s.connectedClient = none then { s with connectedClient := some badge } else s

/-- The driver, if there is one, is changed by `f`, which installs `r`. -/
def installed (s : Service δ) (badge : UInt64) (r : Resource) (f : δ → δ) : Service δ :=
  match s.driver with
  | none => s
  | some d =>
      { s with
        driver := some (f d)
        installedBy := Function.update s.installedBy r (some badge) }

/-- `handler`, if no other client is connected. -/
def guarded (badge : UInt64) (handler : Prog (Service δ) (Except Error Reply)) :
    Prog (Service δ) (Except Error Reply) := do
  let s ← Prog.get
  if s.Refuses badge then pure (.error .permissionDenied) else handler

def claim (badge : UInt64) : Prog (Service δ) PUnit := .modify (·.claimed badge)

def install (badge : UInt64) (r : Resource) (f : δ → δ) : Prog (Service δ) PUnit :=
  .modify (·.installed badge r f)

/-- Run a program of the driver; without a driver the result is `absent`. -/
def onDriver (absent : Except Error Reply) (p : Prog δ (Except Error Reply)) :
    Prog (Service δ) (Except Error Reply) := fun s =>
  match s.driver with
  | none => (.ret absent, s)
  | some d => ((p d).1, { s with driver := some (p d).2 })

/-- `unwrap` of the driver. -/
def unwrapDriver (p : Prog (Service δ) (Except Error Reply)) :
    Prog (Service δ) (Except Error Reply) := do
  let s ← Prog.get
  if s.driver.isSome then p else .panic

end Service

open Service
open Prog (attempt)

/-- The calls of `DEVICE_PROTO`. -/
inductive DeviceCall
  | getMmio (id : UInt64)
  | getIrq (id : UInt64)
  | other
  deriving DecidableEq

/-- The answer to a call of `DEVICE_PROTO`. -/
def DeviceCall.reply (x : Ext) : DeviceCall → Except Error Reply
  | .getMmio id => (x.getMmio id).map fun (frame, addr, size) => .mmio frame addr size
  | .getIrq id => (x.getIrq id).map .cap
  | .other => .error .notSupported

/-! ### The block service -/

/-- The calls of `BLOCK_PROTO` and `DEVICE_PROTO`. -/
inductive BlockCall
  | device (call : DeviceCall)
  | getCapacity
  | getBlockSize
  | setupBuffer (vaddr size paddr : UInt64)
  | setupRing
  | other
  deriving DecidableEq

/-- Which part of the session the call is about. -/
def BlockCall.action : BlockCall → Session.Action Resource
  | .getCapacity => .claim
  | .setupBuffer _ _ _ => .install .buffer
  | .setupRing => .install .ring
  | _ => .other

abbrev BlockService := Service VirtIOBlk

namespace BlockService

/-- `setup_ring`. -/
def setupRing (x : Ext) (badge : UInt64) : Prog BlockService (Except Error Reply) :=
  attempt (x.call .allocRing) fun _ =>
  attempt (x.call .dmaAlloc) fun frame =>
  attempt (x.call .mapRing) fun _ => do
    install badge .ring (·.setRingServer .new)
    pure (.ok (.cap frame))

/-- `setup_shm`. -/
def setupShm (badge vaddr paddr size : UInt64) : Prog BlockService (Except Error Reply) := do
  let s ← Prog.get
  if s.driver.isSome then do
    install badge .buffer (·.setupShm vaddr paddr size)
    pure (.ok .unit)
  else pure (.error .notInitialized)

/-- `dispatch`. -/
def dispatch (x : Ext) (badge : UInt64) (call : BlockCall) :
    Prog BlockService (Except Error Reply) :=
  guarded badge <|
    match call with
    | .device call => pure (call.reply x)
    | .getCapacity => do
        claim badge
        onDriver (.ok (.value 0)) (pure (.ok (.value x.capacity)))
    | .getBlockSize => onDriver (.ok (.value 0)) do
        let b ← Prog.get
        pure (.ok (.value b.blkSize.toUInt64))
    | .setupBuffer vaddr size paddr =>
        attempt (x.call .alloc) fun _ =>
        attempt (x.call .transferSelf) fun _ =>
        setupShm badge vaddr paddr size
    | .setupRing =>
        attempt (x.call .alloc) fun _ =>
        attempt (x.call .transferSelf) fun _ =>
        setupRing x badge
    | .other => pure (.error .notSupported)

end BlockService

/-! ### The network service -/

/-- The calls of `NET_PROTO` and `DEVICE_PROTO`. -/
inductive NetCall
  | device (call : DeviceCall)
  | getMac
  | setupBuffer (vaddr size paddr : UInt64)
  | setupRing
  | other
  deriving DecidableEq

/-- Which part of the session the call is about. -/
def NetCall.action : NetCall → Session.Action Resource
  | .getMac => .claim
  | .setupBuffer _ _ _ => .install .buffer
  | .setupRing => .install .ring
  | _ => .other

abbrev NetService := Service VirtIONet

namespace NetService

/-- `SHM_VA`. -/
def shmVa : UInt64 := 0x70000000

/-- `setup_ring`. -/
def setupRing (x : Ext) (badge : UInt64) : Prog NetService (Except Error Reply) :=
  attempt (x.call .allocRing) fun _ =>
  attempt (x.call .dmaAlloc) fun frame =>
  attempt (x.call .mapRing) fun _ => do
    install badge .ring (·.setRingServer .new)
    pure (.ok (.cap frame))

/-- The driver's `setup_shm`, and the correction of the client's address after it. -/
def installShm (vaddr paddr size : UInt64) (n : VirtIONet) : VirtIONet :=
  let n := n.setupShm shmVa paddr size
  { n with buffer := n.buffer.map fun shm => { shm with clientVaddr := vaddr } }

/-- `setup_shm`. -/
def setupShm (x : Ext) (badge vaddr paddr size : UInt64) :
    Prog NetService (Except Error Reply) :=
  attempt (x.call .mapBuffer) fun _ => do
    let s ← Prog.get
    if s.driver.isSome then do
      install badge .buffer (installShm vaddr paddr size)
      pure (.ok .unit)
    else pure (.error .notInitialized)

/-- `dispatch`. -/
def dispatch (x : Ext) (badge : UInt64) (call : NetCall) :
    Prog NetService (Except Error Reply) :=
  guarded badge <|
    match call with
    | .device call => pure (call.reply x)
    | .getMac => do
        claim badge
        onDriver (.ok (.mac (List.replicate 6 0))) do
          let n ← Prog.get
          pure (.ok (.mac n.mac))
    | .setupBuffer vaddr size paddr =>
        attempt (x.call .alloc) fun _ =>
        attempt (x.call .transferSelf) fun _ =>
        setupShm x badge vaddr paddr size
    | .setupRing =>
        attempt (x.call .alloc) fun _ =>
        attempt (x.call .transferSelf) fun _ =>
        setupRing x badge
    | .other => pure (.error .notSupported)

end NetService

/-! ### The RAM disk's service -/

abbrev RamdiskService := Service Ramdisk

namespace RamdiskService

/-- The driver's `setup_buffer`. -/
def setupBuffer (x : Ext) (badge clientVaddr size paddr : UInt64) :
    Prog RamdiskService (Except Error Reply) :=
  attempt (x.call .mapBuffer) fun _ => do
    install badge .buffer (·.setupBuffer clientVaddr size paddr)
    pure (.ok (.value 0))

/-- The driver's `setup_ring`. -/
def setupRing (x : Ext) (badge : UInt64) : Prog RamdiskService (Except Error Reply) :=
  attempt (x.call .allocRing) fun frame =>
  attempt (x.call .mapRing) fun _ => do
    install badge .ring (·.setupRing .new)
    pure (.ok (.cap frame))

/-- `capacity` of the driver. -/
def capacity : Prog Ramdisk (Except Error Reply) := fun r =>
  match r.capacity with
  | .ret capacity => (.ret (.ok (.value capacity)), r)
  | .panic => (.panic, r)
  | .running => (.running, r)

/-- `dispatch`. -/
def dispatch (x : Ext) (badge : UInt64) (call : BlockCall) :
    Prog RamdiskService (Except Error Reply) :=
  guarded badge <|
    match call with
    | .device call => pure (call.reply x)
    | .getCapacity => do
        claim badge
        unwrapDriver (onDriver (.ok .unit) capacity)
    | .getBlockSize => unwrapDriver <| onDriver (.ok .unit) do
        let r ← Prog.get
        pure (.ok (.value r.blockSize.toUInt64))
    | .setupBuffer clientVaddr size paddr =>
        attempt (x.call .transferSelf) fun _ =>
        unwrapDriver (setupBuffer x badge clientVaddr size paddr)
    | .setupRing =>
        attempt (x.call .transferSelf) fun _ =>
        unwrapDriver (setupRing x badge)
    | .other => pure (.error .notSupported)

end RamdiskService

/-! ### The UART's service -/

/-- The calls of `UART_PROTO`. -/
inductive UartCall
  | write (buf : List UInt8)
  | read (maxLen : UInt64)
  | setBaudRate (baud : UInt64)
  | setupRing
  | setupBuffer (vaddr size paddr : UInt64)
  deriving DecidableEq

/-- Which part of the session the call is about. -/
def UartCall.action : UartCall → Session.Action Resource
  | .write _ => .claim
  | .setupBuffer _ _ _ => .install .buffer
  | .setupRing => .install .ring
  | _ => .other

abbrev UartService := Service Uart.Machine

namespace UartService

/-- `setup_ring`. -/
def setupRing (x : Ext) (badge : UInt64) : Prog UartService (Except Error Reply) :=
  attempt (x.call .allocRing) fun _ =>
  attempt (x.call .dmaAlloc) fun frame =>
  attempt (x.call .mapRing) fun _ => do
    install badge .ring fun m => { m with uart := { m.uart with ring := some .new } }
    pure (.ok (.cap frame))

/-- `setup_shm`. -/
def setupShm (x : Ext) (badge vaddr paddr size : UInt64) :
    Prog UartService (Except Error Reply) :=
  attempt (x.call .mapBuffer) fun _ => do
    install badge .buffer fun m =>
      { m with uart := m.uart.setupShm x.shmRingCapacity vaddr paddr size }
    pure (.ok .unit)

/-- `dispatch`. -/
def dispatch (fuel : ℕ) (x : Ext) (badge : UInt64) (call : UartCall) :
    Prog UartService (Except Error Reply) :=
  guarded badge <|
    match call with
    | .write buf => do
        claim badge
        onDriver (.ok .unit) do
          let count ← Uart.write fuel buf
          pure (.ok (.value (UInt64.ofNat count)))
    | .read maxLen => onDriver (.error .notInitialized) do
        let bytes ← Uart.read (min maxLen x.ipcBufferSize).toNat
        Uart.deliver bytes
        pure (.ok (.bytes bytes))
    | .setBaudRate baud => onDriver (.ok .unit) do
        Uart.setBaudRate baud.toUInt32
        pure (.ok .unit)
    | .setupRing =>
        attempt (x.call .transferSelf) fun _ =>
        setupRing x badge
    | .setupBuffer vaddr size paddr =>
        attempt (x.call .transferSelf) fun _ =>
        setupShm x badge vaddr paddr size

end UartService

end GlendaDrivers
