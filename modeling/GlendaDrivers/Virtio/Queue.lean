import GlendaDrivers.Lib.Outcome
import GlendaDrivers.Lib.Threaded

/-!
# The split virtqueue (`virtio/common/src/queue.rs`)

`VirtQueue` with the memory at its `vaddr`: the descriptor table, the available ring, which
the driver writes and the device reads, and the used ring, which the device writes and the
driver reads.

* `VirtQueue.new`, `allocDesc`, `freeDesc`, `writeDesc`: the descriptor table and the free list
  threaded through its `next` fields;
* `submit`, `canPop`, `pop`: the two rings;
* `freeChain`: the loop with which the block and the network driver return a chain.

The 16-bit fields are `UInt16`, whose arithmetic wraps.  An index into the slice
`desc_table()` is checked against `num` and panics outside it.
-/

namespace GlendaDrivers

/-- A descriptor. -/
structure Descriptor where
  addr : UInt64
  len : UInt32
  flags : UInt16
  next : UInt16
  deriving DecidableEq, Inhabited

def descFNext : UInt16 := 1
def descFWrite : UInt16 := 2

/-- An element of the used ring. -/
structure UsedElem where
  id : UInt32
  len : UInt32
  deriving DecidableEq, Inhabited

/-- The memory of a queue: descriptor table, available ring, used ring. -/
structure QueueMem where
  desc : UInt16 → Descriptor
  availIdx : UInt16
  availRing : ℕ → UInt16
  usedIdx : UInt16
  usedRing : ℕ → UsedElem

/-- Zeroed queue memory. -/
def QueueMem.zeroed : QueueMem where
  desc _ := ⟨0, 0, 0, 0⟩
  availIdx := 0
  availRing _ := 0
  usedIdx := 0
  usedRing _ := ⟨0, 0⟩

/-- A queue: the driver's own fields and the memory it shares with the device. -/
structure VirtQueue where
  index : UInt32
  num : UInt16
  paddr : UInt64
  lastUsedIdx : UInt16
  freeHead : UInt16
  numFree : UInt16
  mem : QueueMem

namespace VirtQueue

/-- The loop of `new`: link entry `i` to entry `i + 1` for `i < n`. -/
def linkDescs (desc : UInt16 → Descriptor) : ℕ → UInt16 → Descriptor
  | 0 => desc
  | n + 1 =>
      let i := UInt16.ofNat n
      let desc := linkDescs desc n
      Function.update desc i { desc i with next := UInt16.ofNat (n + 1), flags := descFNext }

/-- The queue that `new` builds: all descriptors are on the free list, in order. -/
def fresh (index : UInt32) (num : UInt16) (paddr : UInt64) (mem : QueueMem) : VirtQueue :=
  let desc := linkDescs mem.desc (num.toNat - 1)
  let last := num - 1
  { index := index
    num := num
    paddr := paddr
    lastUsedIdx := 0
    freeHead := 0
    numFree := num
    mem := { mem with
      desc := Function.update desc last { desc last with next := 0, flags := 0 } } }

/-- `VirtQueue::new`.  An empty table has no last entry `num - 1`. -/
def new (index : UInt32) (num : UInt16) (paddr : UInt64) (mem : QueueMem) : Outcome VirtQueue :=
  if num = 0 then .panic else .ret (fresh index num paddr mem)

/-- `desc_table()[id]`. -/
def row (q : VirtQueue) (id : UInt16) : Outcome Descriptor :=
  if id < q.num then .ret (q.mem.desc id) else .panic

/-- `alloc_desc`. -/
def allocDesc (q : VirtQueue) : Outcome (Option UInt16 × VirtQueue) :=
  if q.numFree = 0 then
    .ret (none, q)
  else do
    let d ← q.row q.freeHead
    return (some q.freeHead, { q with freeHead := d.next, numFree := q.numFree - 1 })

/-- A raw write of descriptor `id`. -/
def setDesc (q : VirtQueue) (id : UInt16) (desc : Descriptor) : VirtQueue :=
  { q with mem := { q.mem with desc := Function.update q.mem.desc id desc } }

/-- `free_desc`: the descriptor is linked in front of the free list. -/
def freeDesc (q : VirtQueue) (id : UInt16) : Outcome VirtQueue := do
  let d ← q.row id
  let q := q.setDesc id { d with next := q.freeHead, flags := descFNext }
  return { q with freeHead := id, numFree := q.numFree + 1 }

/-- `write_desc`, through a raw pointer. -/
def writeDesc (q : VirtQueue) (id : UInt16) (desc : Descriptor) : VirtQueue :=
  q.setDesc id desc

/-- `submit`: store the head in the next slot of the available ring and publish it. -/
def submit (q : VirtQueue) (head : UInt16) : VirtQueue :=
  let idx := q.mem.availIdx
  let ringIdx := idx.toNat % q.num.toNat
  { q with mem := { q.mem with
      availRing := Function.update q.mem.availRing ringIdx head
      availIdx := idx + 1 } }

/-- `can_pop`. -/
def canPop (q : VirtQueue) : Bool := q.lastUsedIdx != q.mem.usedIdx

/-- `pop`: the next entry of the used ring. -/
def pop (q : VirtQueue) : Option (UInt32 × UInt32) × VirtQueue :=
  if q.canPop then
    let ringIdx := q.lastUsedIdx.toNat % q.num.toNat
    let elem := q.mem.usedRing ringIdx
    (some (elem.id, elem.len), { q with lastUsedIdx := q.lastUsedIdx + 1 })
  else
    (none, q)

/-- The loop that returns the chain starting at `curr` to the free list, for at most `n`
descriptors. -/
def freeChainLoop : ℕ → UInt16 → VirtQueue → Outcome VirtQueue
  | 0, _, _ => .running
  | n + 1, curr, q => do
      let d ← q.row curr
      let q ← q.freeDesc curr
      if d.flags &&& descFNext = 0 then return q
      freeChainLoop n d.next q

/-- Return the chain starting at `head`.  The loop of the drivers has no bound; no chain of
distinct descriptors is longer than the table. -/
def freeChain (q : VirtQueue) (head : UInt16) : Outcome VirtQueue :=
  freeChainLoop q.num.toNat head q

/-! ### The free list -/

/-- The links of the descriptor table. -/
def next (q : VirtQueue) (id : UInt16) : UInt16 := (q.mem.desc id).next

/-- The ids met by following `next` `num_free` times from `free_head`. -/
def freeIds (q : VirtQueue) : List UInt16 :=
  Threaded.walk q.next q.numFree.toNat q.freeHead

end VirtQueue

end GlendaDrivers
