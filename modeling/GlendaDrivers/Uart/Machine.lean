import GlendaDrivers.Glenda
import GlendaDrivers.Lib.Outcome
import GlendaDrivers.Lib.VecDeque

/-!
# The UART and its surroundings (`uart/ns16550a/src/ns16550a/consts.rs`, `config.rs`)

The driver shares the chip's registers with the line, and the shared-memory rings with its
client.  Before each access of the driver to a register or to a ring the environment moves: bytes
arrive, and the client pops received bytes, pushes bytes to send and queues requests.  The moves
are given by a sequence, so that every order of events is that of some sequence.

* `ShmRingBuffer`: the FIFO of the `glenda` crate; `push_slice` appends the longest prefix that
  fits, `pop_slice` removes the longest prefix available;
* `Ns16550a`: the driver;
* `Chip`: the register file, banked by `LCR.DLAB`, and the receive FIFO;
* `EnvMove`, `Machine.moved`: the environment;
* `History`: what happened, in the order in which it happened;
* `readReg`, `writeReg`, `popTx`, `nextSqe`, `Machine.moved`: the accesses.
-/

namespace GlendaDrivers.Uart

/-! ### Constants -/

namespace Reg

def thr : ℕ := 0
def rbr : ℕ := 0
def dll : ℕ := 0
def dlm : ℕ := 1
def ier : ℕ := 1
def iir : ℕ := 2
def fcr : ℕ := 2
def lcr : ℕ := 3
def mcr : ℕ := 4
def lsr : ℕ := 5

end Reg

def ierRxEnable : UInt8 := (1 : UInt8) <<< 0
def ierRlsEnable : UInt8 := (1 : UInt8) <<< 2

def fcrFifoEnable : UInt8 := (1 : UInt8) <<< 0
def fcrFifoRxReset : UInt8 := (1 : UInt8) <<< 1
def fcrFifoTxReset : UInt8 := (1 : UInt8) <<< 2
def fcrFifoTrigger14 : UInt8 := (0b11 : UInt8) <<< 6

def lcrDataBits8 : UInt8 := 3
def lcrStopBits1 : UInt8 := 0
def lcrParityNone : UInt8 := 0
def lcrDlab : UInt8 := (1 : UInt8) <<< 7

def mcrDtr : UInt8 := (1 : UInt8) <<< 0
def mcrRts : UInt8 := (1 : UInt8) <<< 1
def mcrOut2 : UInt8 := (1 : UInt8) <<< 3

def lsrDataReady : UInt8 := (1 : UInt8) <<< 0
def lsrOverrunError : UInt8 := (1 : UInt8) <<< 1
def lsrThrEmpty : UInt8 := (1 : UInt8) <<< 5

def iirNoInterrupt : UInt8 := (1 : UInt8) <<< 0
def iirIdMask : UInt8 := 0x0E
def iirRxDataReady : UInt8 := 0x04
def iirTimeout : UInt8 := 0x0C
def iirRls : UInt8 := 0x06
def iirThrEmpty : UInt8 := 0x02

def uartClock : UInt32 := 1843200
def defaultBaudRate : UInt32 := 38400
def rxBufferSoftLimit : ℕ := 4096
def txRingChunk : ℕ := 128
def rxIrqBudgetBytes : ℕ := 512
def rxTxInterleaveBudgetBytes : ℕ := 64
def txIrqBudgetBytes : ℕ := 512
def txSqBudgetBytes : ℕ := 1024
def irqEventBudget : ℕ := 64

/-! ### The driver's data -/

/-- `ShmRingBuffer`. -/
structure ShmRingBuffer where
  capacity : ℕ
  data : List UInt8
  deriving DecidableEq

namespace ShmRingBuffer

/-- `push_slice`. -/
def pushSlice (r : ShmRingBuffer) (s : List UInt8) : ℕ × ShmRingBuffer :=
  let n := min s.length (r.capacity - r.data.length)
  (n, { r with data := r.data ++ s.take n })

/-- `pop_slice` into a buffer of `n` bytes. -/
def popSlice (r : ShmRingBuffer) (n : ℕ) : List UInt8 × ShmRingBuffer :=
  (r.data.take n, { r with data := r.data.drop n })

end ShmRingBuffer

/-- `UartStats`. -/
structure UartStats where
  rxHwLsrOverrun : ℕ
  rxSwDrop : ℕ
  rxRingFullBreak : ℕ
  rxBudgetHit : ℕ
  txBudgetHit : ℕ
  irqEventBudgetHit : ℕ
  irqRxBytes : ℕ
  irqTxBytes : ℕ
  irqRxBatches : ℕ
  deriving DecidableEq

/-- `Ns16550a`. -/
structure Ns16550a where
  ring : Option IoUringServer
  shm : Option SharedMemory
  rxRing : Option ShmRingBuffer
  txRing : Option ShmRingBuffer
  rxBuffer : VecDeque UInt8
  pendingRead : Option UInt64
  stats : UartStats
  deriving DecidableEq

/-- `Ns16550a::new`. -/
def Ns16550a.new : Ns16550a where
  ring := none
  shm := none
  rxRing := none
  txRing := none
  rxBuffer := .withCapacity rxBufferSoftLimit (by decide)
  pendingRead := none
  stats := ⟨0, 0, 0, 0, 0, 0, 0, 0, 0⟩

/-- `setup_shm`: the two halves of the shared page become the TX ring and the RX ring;
`capacity` is that of a ring initialised in 2048 bytes. -/
def Ns16550a.setupShm (u : Ns16550a) (capacity : ℕ) (clientVaddr paddr size : UInt64) :
    Ns16550a :=
  { u with
    txRing := some ⟨capacity, []⟩
    rxRing := some ⟨capacity, []⟩
    shm := some ⟨clientVaddr, paddr, size⟩ }

/-- The bytes in the shared RX ring. -/
def Ns16550a.rxData (u : Ns16550a) : List UInt8 :=
  match u.rxRing with
  | none => []
  | some ring => ring.data

/-! ### The chip -/

/-- The registers that can be written, and the bytes that wait in the receive FIFO. -/
structure Chip where
  ier : UInt8
  fcr : UInt8
  lcr : UInt8
  mcr : UInt8
  dll : UInt8
  dlm : UInt8
  rxFifo : List UInt8
  deriving DecidableEq

/-- The divisor latch is selected at the offsets 0 and 1. -/
def Chip.dlab (c : Chip) : Bool := c.lcr &&& lcrDlab != 0

/-! ### The environment -/

/-- What happens between two accesses of the driver, and what it reads in the second one. -/
structure EnvMove where
  /-- The bytes that arrive in the receive FIFO. -/
  arrive : List UInt8
  /-- The number of bytes that the client pops from the RX ring, if there are so many. -/
  popRx : ℕ
  /-- The bytes that the client pushes into the TX ring, as far as they fit. -/
  pushTx : List UInt8
  /-- The requests that the client queues. -/
  sqes : List Sqe
  /-- The value of IIR. -/
  iir : UInt8
  /-- The value of LSR for given contents of the receive FIFO. -/
  lsr : List UInt8 → UInt8
  /-- The value of RBR when the receive FIFO is empty. -/
  rbr : UInt8

/-- The value of LSR of a chip that is always ready to send. -/
def EnvMove.readyLsr (fifo : List UInt8) : UInt8 :=
  if fifo = [] then lsrThrEmpty else lsrThrEmpty ||| lsrDataReady

/-- Nothing happens. -/
def EnvMove.quiet : EnvMove := ⟨[], 0, [], [], iirNoInterrupt, readyLsr, 0⟩

/-- The bytes `arrive k` arrive in the `k`-th move, and `irq k` tells whether an interrupt for
received data is pending then. -/
def EnvMove.line (arrive : ℕ → List UInt8) (irq : ℕ → Bool) (k : ℕ) : EnvMove :=
  { quiet with
    arrive := arrive k
    iir := if irq k then iirRxDataReady else iirNoInterrupt }

/-- The history of a run. -/
structure History where
  /-- The bytes that arrived in the receive FIFO. -/
  received : List UInt8
  /-- The bytes read from RBR, each with the length of `rx_buffer` at that time. -/
  rbrReads : List (UInt8 × ℕ)
  /-- The bytes that the client popped from the RX ring. -/
  popped : List UInt8
  /-- The bytes that the client pushed into the TX ring. -/
  txPushed : List UInt8
  /-- The bytes written to THR. -/
  thr : List UInt8
  /-- The results of the READ requests. -/
  returned : List (List UInt8)
  deriving DecidableEq

/-- No event yet. -/
def History.empty : History := ⟨[], [], [], [], [], []⟩

/-- The driver, the chip, the environment's moves and the history. -/
structure Machine where
  uart : Ns16550a
  chip : Chip
  env : ℕ → EnvMove
  /-- The number of moves made. -/
  clock : ℕ
  /-- `Error::NotSupported as i32`. -/
  notSupported : Int32
  log : History

namespace Machine

/-- The move at hand. -/
def move (m : Machine) : EnvMove := m.env m.clock

/-- The environment moves. -/
def moved (m : Machine) : Machine :=
  let e := m.move
  { m with
    clock := m.clock + 1
    chip := { m.chip with rxFifo := m.chip.rxFifo ++ e.arrive }
    uart :=
      { m.uart with
        ring := m.uart.ring.map fun ring => { ring with sq := ring.sq ++ e.sqes }
        rxRing := m.uart.rxRing.map fun ring => (ring.popSlice e.popRx).2
        txRing := m.uart.txRing.map fun ring => (ring.pushSlice e.pushTx).2 }
    log :=
      { m.log with
        received := m.log.received ++ e.arrive
        popped := m.log.popped ++ m.uart.rxData.take e.popRx
        txPushed := m.log.txPushed ++
          match m.uart.txRing with
          | none => []
          | some ring => e.pushTx.take (ring.pushSlice e.pushTx).1 } }

/-- The machine before the first move, with the given environment. -/
def initial (env : ℕ → EnvMove) : Machine where
  uart := .new
  chip := ⟨0, 0, 0, 0, 0, 0, []⟩
  env := env
  clock := 0
  notSupported := 0
  log := .empty

/-! ### Registers -/

/-- A read of RBR. -/
def readRbr (m : Machine) (e : EnvMove) : UInt8 × Machine :=
  let c := m.chip.rxFifo.headD e.rbr
  (c,
    { m with
      chip := { m.chip with rxFifo := m.chip.rxFifo.tail }
      log := { m.log with rbrReads := m.log.rbrReads ++ [(c, m.uart.rxBuffer.len)] } })

/-- A read of the register at `offset`.  The driver does not use MSR and SCR. -/
def readAt (m : Machine) (e : EnvMove) : ℕ → UInt8 × Machine
  | 0 => if m.chip.dlab then (m.chip.dll, m) else m.readRbr e
  | 1 => (if m.chip.dlab then m.chip.dlm else m.chip.ier, m)
  | 2 => (e.iir, m)
  | 3 => (m.chip.lcr, m)
  | 4 => (m.chip.mcr, m)
  | 5 => (e.lsr m.chip.rxFifo, m)
  | _ => (0, m)

/-- A write of THR. -/
def writeThr (m : Machine) (val : UInt8) : Machine :=
  { m with log := { m.log with thr := m.log.thr ++ [val] } }

/-- A write of FCR. -/
def writeFcr (m : Machine) (val : UInt8) : Machine :=
  { m with
    chip :=
      { m.chip with
        fcr := val
        rxFifo := if val &&& fcrFifoRxReset ≠ 0 then [] else m.chip.rxFifo } }

/-- A write of the register at `offset`. -/
def writeAt (m : Machine) (val : UInt8) : ℕ → Machine
  | 0 =>
      if m.chip.dlab then { m with chip := { m.chip with dll := val } } else m.writeThr val
  | 1 =>
      if m.chip.dlab then { m with chip := { m.chip with dlm := val } }
      else { m with chip := { m.chip with ier := val } }
  | 2 => m.writeFcr val
  | 3 => { m with chip := { m.chip with lcr := val } }
  | 4 => { m with chip := { m.chip with mcr := val } }
  | _ => m

end Machine

/-- `read_reg`. -/
def readReg (offset : ℕ) : Prog Machine UInt8 := .ofFn fun m => m.moved.readAt m.move offset

/-- `write_reg`. -/
def writeReg (offset : ℕ) (val : UInt8) : Prog Machine PUnit :=
  .modify fun m => m.moved.writeAt val offset

/-! ### Rings -/

/-- `tx_ring.pop_slice` into a buffer of `n` bytes; nothing without a ring. -/
def popTx (n : ℕ) : Prog Machine (List UInt8) := .ofFn fun m =>
  let m := m.moved
  match m.uart.txRing with
  | none => ([], m)
  | some ring =>
      let (bytes, ring) := ring.popSlice n
      (bytes, { m with uart := { m.uart with txRing := some ring } })

/-- `tx_ring.len() > 0`; `false` without a ring. -/
def hasPendingTx : Prog Machine Bool := .ofFn fun m =>
  let m := m.moved
  match m.uart.txRing with
  | none => (false, m)
  | some ring => (decide (0 < ring.data.length), m)

/-- `ring.next_request()`; `none` without a ring. -/
def nextSqe : Prog Machine (Option Sqe) := .ofFn fun m =>
  let m := m.moved
  match m.uart.ring with
  | none => (none, m)
  | some ring =>
      let (sqe, ring) := ring.nextRequest
      (sqe, { m with uart := { m.uart with ring := some ring } })

/-- `ring.complete(user_data, result)`, if there is a ring. -/
def complete (userData : UInt64) (result : Int32) : Prog Machine PUnit := .modify fun m =>
  { m with uart := { m.uart with ring := m.uart.ring.map (·.complete userData result) } }

/-- Change a counter. -/
def count (f : UartStats → UartStats) : Prog Machine PUnit := .modify fun m =>
  { m with uart := { m.uart with stats := f m.uart.stats } }

end GlendaDrivers.Uart
