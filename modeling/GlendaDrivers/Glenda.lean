import Mathlib.Tactic

/-!
# What the drivers use of the `glenda` crate

The crate is not part of the repository.  Its types appear here with the fields that the
drivers read, and its operations with the behaviour that the drivers rely on:
`IoUringServer::next_request` returns the queued requests in order, and `complete` posts one
completion, which is recorded.
-/

namespace GlendaDrivers

/-- The variants of `glenda::error::Error` that the drivers return. -/
inductive Error
  | generic
  | invalidArgs
  | ioError
  | notInitialized
  | notSupported
  | outOfMemory
  | permissionDenied
  deriving DecidableEq

/-- `glenda::arch::mem::PGSIZE`. -/
def pgSize : UInt64 := 4096

/-- The opcode of a request. -/
inductive Opcode
  | read
  | write
  | sync
  | other (code : UInt8)
  deriving DecidableEq

/-- `IoUringSqe`, a request. -/
structure Sqe where
  opcode : Opcode
  off : UInt64
  addr : UInt64
  len : UInt32
  userData : UInt64
  deriving DecidableEq

/-- `IoUringServer`: the requests that wait, and the completions posted so far. -/
structure IoUringServer where
  sq : List Sqe
  completions : List (UInt64 × Int32)
  deriving DecidableEq

namespace IoUringServer

/-- `new`: nothing is queued. -/
def new : IoUringServer := ⟨[], []⟩

/-- `next_request`. -/
def nextRequest (s : IoUringServer) : Option Sqe × IoUringServer :=
  match s.sq with
  | [] => (none, s)
  | sqe :: rest => (some sqe, { s with sq := rest })

/-- `complete`. -/
def complete (s : IoUringServer) (userData : UInt64) (result : Int32) : IoUringServer :=
  { s with completions := s.completions ++ [(userData, result)] }

/-- The client queues a request. -/
def push (s : IoUringServer) (sqe : Sqe) : IoUringServer := { s with sq := s.sq ++ [sqe] }

/-- The fetch loop of the `handle_ring` functions: at most `n` requests. -/
def fetch : ℕ → IoUringServer → List Sqe × IoUringServer
  | 0, s => ([], s)
  | n + 1, s =>
      match s.nextRequest with
      | (none, s) => ([], s)
      | (some sqe, s) =>
          let (sqes, s) := fetch n s
          (sqe :: sqes, s)

/-- The fetch loop takes the first `n` requests. -/
theorem fetch_eq (n : ℕ) (s : IoUringServer) :
    s.fetch n = (s.sq.take n, { s with sq := s.sq.drop n }) := by
  induction n generalizing s with
  | zero => rfl
  | succ n ih =>
    cases hs : s.sq with
    | nil => cases s; subst hs; rfl
    | cons sqe rest => simp [fetch, nextRequest, hs, ih]

end IoUringServer

/-- `SharedMemory`: the client's buffer as the driver knows it. -/
structure SharedMemory where
  clientVaddr : UInt64
  paddr : UInt64
  size : UInt64
  deriving DecidableEq

/-- A shared buffer of one page. -/
def sharedPage : SharedMemory := ⟨0x10000, 0x80000000, 0x1000⟩

/-- The address translation of the VirtIO drivers: the physical address of a request's data, or
`none` when the request is out of the boundary of the shared buffer.  Without a shared buffer
the request's address is taken as it is. -/
def dataPaddr (buffer : Option SharedMemory) (sqe : Sqe) : Option UInt64 :=
  match buffer with
  | some shm =>
      if sqe.addr < shm.clientVaddr ∨
          sqe.addr + sqe.len.toUInt64 > shm.clientVaddr + shm.size then
        none
      else
        some (shm.paddr + (sqe.addr - shm.clientVaddr))
  | none => some sqe.addr

end GlendaDrivers
