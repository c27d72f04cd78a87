import GlendaDrivers.Service.SerialDisk
import GlendaDrivers.Sys.RamdiskRing

/-!
# Runs of the RAM disk

The client registers its buffer and its ring, queues requests and writes to its memory; the driver
takes the requests from the ring one after the other.  A completion can fail.  The driver copies to
whatever address it has found, and without a buffer that is any address; the runs are those whose
copies touch neither the disk nor the ring.

* `Ramdisk.Spares`: the copy of a request touches neither of them; `spares_of_buffer` says that a
  buffer of at most 256 MiB is enough;
* `RamdiskState`, `RamdiskStep`: the driver with the history of its requests;
* `handleIo_run`: `handle_io` is a run of these steps;
* `RamdiskState.Inv`: what holds in every run;
* `ramdisk_serial`: the RAM disk is a serial disk, and a queue;
* `ramdisk_read_written`: a client reads what it wrote.
-/

namespace GlendaDrivers

open Ramdisk BlockDisk

/-- The transfer that a request makes, with what it moves. -/
def Ramdisk.moved (r : Ramdisk) (mem : UInt64 → UInt8) (sqe : Sqe) : Option Moved :=
  match r.processSqe sqe with
  | .ret (.ok (_, some c)) =>
      some ⟨c.transfer, if c.toDisk then Bytes.read mem c.addr c.len.toNat
        else read r.data c.offset.toNat c.len.toNat⟩
  | _ => none

namespace Ramdisk

/-- The addresses of the memory that a copy touches. -/
def Copy.addresses (c : Copy) : Set ℕ := Set.Ico c.addr.toNat (c.addr.toNat + c.len.toNat)

/-- The memory that a copy touches does not wrap, and it has no byte of the ring or of the disk. -/
structure Copy.Spares (c : Copy) (diskLen : ℕ) : Prop where
  fits : c.addr.toNat + c.len.toNat ≤ 2 ^ 64
  ring : Disjoint c.addresses (Set.Ico ringVa.toNat (ringVa.toNat + pgSize.toNat))
  disk : Disjoint c.addresses (Set.Ico mmioVa.toNat (mmioVa.toNat + diskLen))

/-- So it is for the copy of a request, if it is copied. -/
def Spares (r : Ramdisk) (sqe : Sqe) : Prop :=
  ∀ v c, r.processSqe sqe = .ret (.ok (v, some c)) → c.Spares r.data.length

/-- The requests that wait in the ring. -/
def queued (r : Ramdisk) : List Sqe := (r.ring.map (·.sq)).getD []

end Ramdisk

/-- The driver and the history of its requests, which are numbered in the order in which they are
taken from the ring. -/
structure RamdiskState where
  driver : Ramdisk.State
  fetched : List Sqe
  calls : List (ℕ × UInt64 × Int32)
  log : List (ℕ × Moved)
  /-- The requests whose completion failed. -/
  failed : List ℕ

namespace RamdiskState

/-- The driver when `init` has returned. -/
def start (data : List UInt8) (blockSize : UInt32) (mem : UInt64 → UInt8) : RamdiskState where
  driver := ⟨{ Ramdisk.new data with blockSize := blockSize }, mem⟩
  fetched := []
  calls := []
  log := []
  failed := []

/-- The driver after the ring was changed to `server`. -/
def withRing (s : RamdiskState) (server : IoUringServer) : Ramdisk.State :=
  { s.driver with disk := { s.driver.disk with ring := some server } }

/-- The history after request `sqe` was processed with the ring server `server`, when `complete`
answered `answer` and left the state `d` of the driver. -/
def served (s : RamdiskState) (sqe : Sqe) (server : IoUringServer) (answer : Except Error Unit)
    (d : Ramdisk.State) : RamdiskState where
  driver := d
  fetched := s.fetched ++ [sqe]
  calls := s.calls ++ newCalls s.fetched.length server.completions (postedTo d.disk.ring)
  log := s.log ++ ((s.driver.disk.moved s.driver.mem sqe).map (s.fetched.length, ·)).toList
  failed := if answer.isOk then s.failed else s.failed ++ [s.fetched.length]

end RamdiskState

/-- One step of the RAM disk or its client. -/
inductive RamdiskStep (code : Error → Int32) : RamdiskState → RamdiskState → Prop
  /-- The client queues a request. -/
  | client (s : RamdiskState) (server : IoUringServer) (sqe : Sqe)
      (hs : s.driver.disk.ring = some server) :
      RamdiskStep code s { s with driver := s.withRing (server.push sqe) }
  /-- The client writes to the memory that it shares with the driver. -/
  | poke (s : RamdiskState) (mem : UInt64 → UInt8) :
      RamdiskStep code s { s with driver := { s.driver with mem := mem } }
  /-- A shared buffer is registered. -/
  | setupBuffer (s : RamdiskState) (clientVaddr size paddr : UInt64) :
      RamdiskStep code s { s with driver := { s.driver with
        disk := s.driver.disk.setupBuffer clientVaddr size paddr } }
  /-- A new ring is registered. -/
  | setupRing (s : RamdiskState) : RamdiskStep code s { s with driver := s.withRing ⟨[], []⟩ }
  /-- `handle_io` takes a request from the ring, processes it and completes it; `answer` is what
  `complete` returns.  The driver does not check that the copy spares the disk and the ring. -/
  | serve (s : RamdiskState) (server : IoUringServer) (sqe : Sqe) (rest : List Sqe) (v : Int32)
      (d d' : Ramdisk.State) (answer : Except Error Unit) (k : ℕ) (r : ℕ ⊕ Except Error Unit)
      (hs : s.driver.disk.ring = some server) (hsq : server.sq = sqe :: rest)
      (hspares : s.driver.disk.Spares sqe)
      (hserve : serveSqe code sqe (s.withRing { server with sq := rest }) = (.ret v, d))
      (hdone : completeSqe answer k sqe.userData v d = (.ret r, d')) :
      RamdiskStep code s (s.served sqe server answer d')

/-- A state that can be reached from `s`. -/
abbrev RamdiskReach (code : Error → Int32) : RamdiskState → RamdiskState → Prop :=
  Relation.ReflTransGen (RamdiskStep code)

variable {code : Error → Int32} {s t : RamdiskState}

/-! ### One request -/

namespace Ramdisk

variable {r r' : Ramdisk} {mem mem' : UInt64 → UInt8} {sqe : Sqe} {v : Int32}
  {res : Except Error (Int32 × Option Copy)}

/-- How `process_sqe` answers. -/
inductive Answers (r : Ramdisk) (sqe : Sqe) : Except Error (Int32 × Option Copy) → Prop
  | invalid : Answers r sqe (.error .invalidArgs)
  | unsupported (hop : ¬ sqe.Moving) : Answers r sqe (.error .notSupported)
  | sync (hop : ¬ sqe.Moving) : Answers r sqe (.ok (0, none))
  | copy (addr : UInt64) (hm : sqe.Moving) (ha : r.localAddr sqe = some addr) :
      Answers r sqe (.ok (sqe.len.toInt32,
        some ⟨sqe.off * r.blockSize.toUInt64, addr, sqe.len, decide (sqe.opcode = .write)⟩))

theorem processSqe_answers (h : r.processSqe sqe = .ret res) : Answers r sqe res := by
  unfold processSqe at h
  split_ifs at h with hz hmod
  · obtain rfl := Outcome.ret.inj h
    exact .invalid
  · cases haddr : r.localAddr sqe with
    | none =>
      rw [haddr] at h
      obtain rfl := Outcome.ret.inj h
      exact .invalid
    | some addr =>
      rw [haddr] at h
      dsimp only at h
      split_ifs at h with hend
      · obtain rfl := Outcome.ret.inj h
        exact .invalid
      · cases hop : sqe.opcode with
        | read =>
          rw [hop] at h
          obtain rfl := Outcome.ret.inj h
          have hdir : decide (sqe.opcode = .write) = false := by simp [hop]
          rw [← hdir]
          exact .copy addr (.inl hop) haddr
        | write =>
          rw [hop] at h
          obtain rfl := Outcome.ret.inj h
          have hdir : decide (sqe.opcode = .write) = true := by simp [hop]
          rw [← hdir]
          exact .copy addr (.inr hop) haddr
        | sync =>
          rw [hop] at h
          obtain rfl := Outcome.ret.inj h
          exact .sync (by simp [Sqe.Moving, hop])
        | other c =>
          rw [hop] at h
          obtain rfl := Outcome.ret.inj h
          exact .unsupported (by simp [Sqe.Moving, hop])

/-- A copy inside of the disk is a transfer. -/
theorem Copy.makes {c : Copy} {data : List UInt8} {after : List UInt8 × (UInt64 → UInt8)}
    (h : c.run data mem = some after) :
    Moved.Makes ⟨c.transfer, if c.toDisk then Bytes.read mem c.addr c.len.toNat
      else read data c.offset.toNat c.len.toNat⟩ data after.1 := by
  obtain ⟨hfits, hafter⟩ : c.offset.toNat + c.len.toNat ≤ data.length ∧
      after.1 = (c.transfer.serve data (Bytes.read mem c.addr c.len.toNat)).1 := by
    unfold Copy.run at h
    split_ifs at h with hfits hdir
    · obtain rfl := Option.some.inj h
      exact ⟨hfits, rfl⟩
    · obtain rfl := Option.some.inj h
      exact ⟨hfits, rfl⟩
  rw [hafter, Transfer.serve]
  cases hdir : c.toDisk with
  | true =>
    have htoDisk : c.transfer.toDisk = true := hdir
    rw [if_pos htoDisk]
    exact .of_write htoDisk hfits (Bytes.length_read _ _ _)
  | false =>
    have htoDisk : c.transfer.toDisk = false := hdir
    rw [if_neg (Bool.eq_false_iff.1 htoDisk)]
    exact .of_read htoDisk hfits

/-- What one request does: it takes effect and its length is returned, or nothing changes.  The
place of the request on the disk must not wrap. -/
theorem serve_moved (hcode : 0 < code .invalidArgs)
    (hwrap : sqe.off.toNat * r.blockSize.toNat + sqe.len.toNat < 2 ^ 64)
    (h : r.serve code mem sqe = .ret (some (v, r', mem'))) :
    r'.blockSize = r.blockSize ∧
      ((∃ m, r.moved mem sqe = some m ∧ m.Makes r.data r'.data ∧
        m.transfer = sqe.transfer r.blockSize.toNat ∧ sqe.Moving ∧ v = sqe.len.toInt32) ∨
      r.moved mem sqe = none ∧ r'.data = r.data ∧ (sqe.Moving → v < 0)) := by
  unfold serve at h
  obtain ⟨res, hres, h⟩ := Outcome.bind_eq_ret.1 h
  have hmoved : ∀ {x}, r.processSqe sqe = .ret (.ok (x, none)) ∨
      (∃ e, r.processSqe sqe = .ret (.error e)) → r.moved mem sqe = none := by
    rintro x (hx | ⟨e, hx⟩)
    · rw [moved, hx]
    · rw [moved, hx]
  cases processSqe_answers hres with
  | invalid =>
    obtain ⟨rfl, hrest⟩ := Prod.mk.inj (Option.some.inj (Outcome.ret.inj h))
    obtain ⟨rfl, -⟩ := Prod.mk.inj hrest
    refine ⟨rfl, .inr ⟨hmoved (x := 0) (.inr ⟨_, hres⟩), rfl, fun _ => ?_⟩⟩
    exact Int32.lt_iff_toInt_lt.2 (toInt_neg_lt hcode)
  | unsupported hop =>
    obtain ⟨rfl, hrest⟩ := Prod.mk.inj (Option.some.inj (Outcome.ret.inj h))
    obtain ⟨rfl, -⟩ := Prod.mk.inj hrest
    exact ⟨rfl, .inr ⟨hmoved (x := 0) (.inr ⟨_, hres⟩), rfl, fun hm => absurd hm hop⟩⟩
  | sync hop =>
    obtain ⟨rfl, hrest⟩ := Prod.mk.inj (Option.some.inj (Outcome.ret.inj h))
    obtain ⟨rfl, -⟩ := Prod.mk.inj hrest
    exact ⟨rfl, .inr ⟨hmoved (.inl hres), rfl, fun hm => absurd hm hop⟩⟩
  | copy addr hm ha =>
    obtain ⟨after, hrun, hafter⟩ := Option.map_eq_some_iff.1 (Outcome.ret.inj h)
    obtain ⟨rfl, hrest⟩ := Prod.mk.inj hafter
    obtain ⟨rfl, -⟩ := Prod.mk.inj hrest
    have hoff : (sqe.off * r.blockSize.toUInt64).toNat = sqe.off.toNat * r.blockSize.toNat := by
      rw [UInt64.toNat_mul, UInt32.toNat_toUInt64]
      exact Nat.mod_eq_of_lt (by omega)
    refine ⟨rfl, .inl ⟨_, by rw [moved, hres], Copy.makes hrun, ?_, hm, rfl⟩⟩
    rw [Copy.transfer, Sqe.transfer, hoff]

end Ramdisk

/-- What a completion changes. -/
theorem completeSqe_posted {server : IoUringServer} {d d' : Ramdisk.State}
    {answer : Except Error Unit} {k : ℕ} {userData : UInt64} {v : Int32}
    {r : ℕ ⊕ Except Error Unit} (hring : d.disk.ring = some server)
    (h : completeSqe answer k userData v d = (.ret r, d')) :
    d'.disk.data = d.disk.data ∧ d'.disk.blockSize = d.disk.blockSize ∧
      postedTo d'.disk.ring =
        server.completions ++ if answer.isOk then [(userData, v)] else [] := by
  unfold completeSqe Prog.ofFn at h
  cases answer with
  | ok u =>
    simp only [hring] at h
    obtain ⟨-, rfl⟩ := Prod.mk.inj h
    exact ⟨rfl, rfl, rfl⟩
  | error e =>
    simp only [hring] at h
    obtain ⟨-, rfl⟩ := Prod.mk.inj h
    exact ⟨rfl, rfl, by rw [hring]; exact (List.append_nil _).symm⟩

/-! ### `handle_io` as a run -/

namespace Ramdisk

variable {r r' : Ramdisk} {sqe : Sqe} {v : Int32}

/-- The checks of a request depend on the buffer and on the sizes. -/
theorem spares_congr (hsize : r'.blockSize = r.blockSize) (hbuf : r'.buffer = r.buffer)
    (hlen : r'.data.length = r.data.length) : r'.Spares sqe ↔ r.Spares sqe := by
  have haddr : r'.localAddr sqe = r.localAddr sqe := by rw [localAddr, hbuf, localAddr]
  have hprocess : r'.processSqe sqe = r.processSqe sqe := by
    rw [processSqe, processSqe, hsize, hlen, haddr]
  rw [Spares, Spares, hprocess, hlen]

/-- A registered buffer of at most 256 MiB lies below the ring and the disk. -/
theorem spares_of_buffer {shm : SharedMemory} (hbuf : r.buffer = some shm)
    (hsize : bufferVa.toNat + shm.size.toNat ≤ ringVa.toNat)
    (hshm : shm.clientVaddr.toNat + shm.size.toNat < 2 ^ 64)
    (hsqe : sqe.addr.toNat + sqe.len.toNat < 2 ^ 64) : r.Spares sqe := by
  intro v c h
  obtain ⟨addr, ha, hc⟩ : ∃ addr, r.localAddr sqe = some addr ∧
      c = ⟨sqe.off * r.blockSize.toUInt64, addr, sqe.len, decide (sqe.opcode = .write)⟩ := by
    cases processSqe_answers h with
    | copy addr _ ha => exact ⟨addr, ha, rfl⟩
  rw [localAddr_eq hbuf] at ha
  split_ifs at ha with hout
  obtain rfl := Option.some.inj ha
  have hin := not_not.1 (mt (outside_iff shm sqe).2 hout)
  rw [Nat.mod_eq_of_lt hsqe, Nat.mod_eq_of_lt hshm] at hin
  have hva : (dataVa shm sqe).toNat =
      bufferVa.toNat + (sqe.addr.toNat - shm.clientVaddr.toNat) := by
    have hring : ringVa.toNat = 0x50000000 := rfl
    rw [dataVa, UInt64.toNat_add, UInt64.toNat_sub_of_le _ _ (UInt64.le_iff_toNat_le.2 hin.1)]
    exact Nat.mod_eq_of_lt (by omega)
  -- the end of the copy is not beyond the start of the ring
  have hend : (dataVa shm sqe).toNat + sqe.len.toNat ≤ ringVa.toNat := by omega
  have hdisk : ringVa.toNat ≤ mmioVa.toNat := by decide
  subst hc
  refine ⟨hend.trans (by decide), ?_, ?_⟩
  · exact Set.disjoint_left.2 fun x hx hx' => absurd (hx.2.trans_le hend) hx'.1.not_gt
  · exact Set.disjoint_left.2 fun x hx hx' =>
      absurd (hx.2.trans_le (hend.trans hdisk)) hx'.1.not_gt

/-- A request was processed. -/
theorem serve_of_serveSqe {d d' : State} (h : serveSqe code sqe d = (.ret v, d')) :
    d.disk.serve code d.mem sqe = .ret (some (v, d'.disk, d'.mem)) := by
  unfold serveSqe at h
  rcases hserve : d.disk.serve code d.mem sqe with (_ | ⟨w, disk, mem⟩) | _ | _
  · rw [hserve] at h
    exact nomatch (Prod.mk.inj h).1
  · rw [hserve] at h
    obtain ⟨hv, rfl⟩ := Prod.mk.inj h
    rw [Outcome.ret.inj hv]
  · rw [hserve] at h
    exact nomatch (Prod.mk.inj h).1
  · rw [hserve] at h
    exact nomatch (Prod.mk.inj h).1

/-- What a request leaves as it is. -/
theorem serveSqe_keeps {d d' : State} (h : serveSqe code sqe d = (.ret v, d')) :
    d'.disk.blockSize = d.disk.blockSize ∧ d'.disk.buffer = d.disk.buffer ∧
      d'.disk.data.length = d.disk.data.length := by
  have hserve := serve_of_serveSqe h
  unfold serve at hserve
  obtain ⟨res, -, hserve⟩ := Outcome.bind_eq_ret.1 hserve
  rcases res with e | ⟨w, _ | c⟩
  · obtain ⟨hdisk, -⟩ := Prod.mk.inj (Prod.mk.inj (Option.some.inj (Outcome.ret.inj hserve))).2
    rw [← hdisk]
    exact ⟨rfl, rfl, rfl⟩
  · obtain ⟨hdisk, -⟩ := Prod.mk.inj (Prod.mk.inj (Option.some.inj (Outcome.ret.inj hserve))).2
    rw [← hdisk]
    exact ⟨rfl, rfl, rfl⟩
  · obtain ⟨after, hrun, hafter⟩ := Option.map_eq_some_iff.1 (Outcome.ret.inj hserve)
    obtain ⟨hdisk, -⟩ := Prod.mk.inj (Prod.mk.inj hafter).2
    rw [← hdisk]
    exact ⟨rfl, rfl, (Copy.makes hrun).length_eq⟩

end Ramdisk

/-- What a completion leaves as it is. -/
theorem completeSqe_keeps {d d' : Ramdisk.State} {answer : Except Error Unit} {k : ℕ}
    {userData : UInt64} {v : Int32} {r : ℕ ⊕ Except Error Unit}
    (h : completeSqe answer k userData v d = (.ret r, d')) :
    d'.disk.buffer = d.disk.buffer ∧ d'.disk.data = d.disk.data ∧
      d'.disk.blockSize = d.disk.blockSize ∧ d'.disk.queued = d.disk.queued := by
  unfold completeSqe Prog.ofFn at h
  unfold queued
  cases hring : d.disk.ring with
  | none =>
    simp only [hring] at h
    obtain ⟨-, rfl⟩ := Prod.mk.inj h
    exact ⟨rfl, rfl, rfl, by rw [hring]⟩
  | some server =>
    cases answer with
    | ok u =>
      simp only [hring] at h
      obtain ⟨-, rfl⟩ := Prod.mk.inj h
      exact ⟨rfl, rfl, rfl, rfl⟩
    | error e =>
      simp only [hring] at h
      obtain ⟨-, rfl⟩ := Prod.mk.inj h
      exact ⟨rfl, rfl, rfl, by rw [hring]⟩

/-- An iteration of `handle_io` is a step, or changes nothing. -/
theorem ioStep_run {answer : ℕ → Except Error Unit} {k : ℕ} {r : ℕ ⊕ Except Error Unit}
    {d : Ramdisk.State} (hqueue : ∀ sqe ∈ s.driver.disk.queued, s.driver.disk.Spares sqe)
    (h : ioStep code answer k s.driver = (.ret r, d)) :
    ∃ t, RamdiskReach code s t ∧ t.driver = d ∧ ∀ sqe ∈ d.disk.queued, d.disk.Spares sqe := by
  cases hs : s.driver.disk.ring with
  | none =>
    have hnext : nextSqe s.driver = (.ret none, s.driver) := by
      unfold nextSqe Prog.ofFn
      simp only [hs]
    unfold ioStep at h
    rw [Prog.bind_of_ret hnext] at h
    obtain rfl := (Prod.mk.inj h).2
    exact ⟨s, .refl, rfl, hqueue⟩
  | some server =>
    cases hsq : server.sq with
    | nil =>
      rw [ioStep_nil hs hsq] at h
      obtain rfl := (Prod.mk.inj h).2
      exact ⟨s, .refl, rfl, hqueue⟩
    | cons sqe rest =>
      have hnext : nextSqe s.driver = (.ret (some sqe), s.withRing { server with sq := rest }) := by
        unfold nextSqe Prog.ofFn IoUringServer.nextRequest
        simp only [hs, hsq]
        rfl
      unfold ioStep at h
      rw [Prog.bind_of_ret hnext] at h
      obtain ⟨v, d₁, hserve, h⟩ := Prog.bind_eq_ret.1 h
      have hqueued : s.driver.disk.queued = sqe :: rest := by
        rw [queued, hs, ← hsq]
        rfl
      rw [hqueued] at hqueue
      obtain ⟨hspares, hqueue⟩ := List.forall_mem_cons.1 hqueue
      refine ⟨_, .single (.serve s server sqe rest v d₁ d _ k r hs hsq hspares hserve h), rfl, ?_⟩
      -- the other requests still wait, and nothing that their checks use has changed
      obtain ⟨hsize₁, hbuf₁, hlen₁⟩ := serveSqe_keeps hserve
      obtain ⟨hbuf, hdata, hsize, hrest⟩ := completeSqe_keeps h
      have hrest' : d.disk.queued = rest := by
        rw [hrest, queued, serveSqe_ring hserve]
        rfl
      rw [hrest']
      exact fun sqe' hsqe' => (spares_congr (hsize.trans hsize₁) (hbuf.trans hbuf₁)
        ((congrArg List.length hdata).trans hlen₁)).2 (hqueue sqe' hsqe')

/-- `handle_io` is a run, if the copies of the requests that wait spare the disk and the ring. -/
theorem handleIo_run {answer : ℕ → Except Error Unit} {fuel : ℕ} {r : Except Error Unit}
    {d : Ramdisk.State} (hqueue : ∀ sqe ∈ s.driver.disk.queued, s.driver.disk.Spares sqe)
    (h : handleIo code fuel answer s.driver = (.ret r, d)) :
    ∃ t, RamdiskReach code s t ∧ t.driver = d := by
  unfold handleIo at h
  generalize 0 = k at h
  induction fuel generalizing s k with
  | zero => exact nomatch (Prod.mk.inj h).1
  | succ fuel ih =>
    obtain ⟨m, x, d₁, hm, hstep, hrest⟩ := Prog.loop_eq_ret h
    obtain rfl := Nat.succ.inj hm
    obtain ⟨t, ht, rfl, hqueue'⟩ := ioStep_run hqueue hstep
    rcases hrest with ⟨k', -, hloop⟩ | ⟨-, rfl⟩
    · obtain ⟨u, hu, hd⟩ := ih hqueue' k' hloop
      exact ⟨u, ht.trans hu, hd⟩
    · exact ⟨t, ht, rfl⟩

/-! ### The invariant -/

namespace RamdiskState

variable {size : UInt32} {d₀ : List UInt8}

/-- The invariant: the driver is a serial disk, it serves the requests in their order, and every
request is completed unless the completion failed. -/
structure Inv (s : RamdiskState) (size : UInt32) (d₀ : List UInt8) : Prop where
  blockSize : s.driver.disk.blockSize = size
  serial : SerialDisk size.toNat (fun sqe => sqe.len.toInt32) d₀ s.driver.disk.data s.fetched
    s.calls s.log
  ordered : (s.log.map Prod.fst).Pairwise (· < ·)
  calls_lt : ∀ c ∈ s.calls, c.1 < s.fetched.length
  completed : (s.calls.map Prod.fst).Pairwise (· < ·)
  failed : ∀ n < s.fetched.length, callsOf s.calls n = [] ↔ n ∈ s.failed
  failed_lt : ∀ n ∈ s.failed, n < s.fetched.length

theorem Inv.start (data : List UInt8) (size : UInt32) (mem : UInt64 → UInt8) :
    Inv (.start data size mem) size data where
  blockSize := rfl
  serial :=
    { journal := .nil data
      once := List.nodup_nil
      asked := fun e he => absurd he List.not_mem_nil
      told := fun n sqe hn => absurd hn (by simp [RamdiskState.start]) }
  ordered := .nil
  calls_lt c hc := absurd hc List.not_mem_nil
  completed := .nil
  failed n hn := absurd hn (Nat.not_lt_zero n)
  failed_lt n hn := absurd hn List.not_mem_nil

/-- A list of numbers that goes on with a larger one. -/
theorem pairwise_lt_snoc {l : List ℕ} {n : ℕ} (h : l.Pairwise (· < ·)) (hn : ∀ k ∈ l, k < n) :
    (l ++ [n]).Pairwise (· < ·) := by
  rw [List.pairwise_append]
  refine ⟨h, List.pairwise_singleton _ _, fun k hk m hm => ?_⟩
  rw [List.mem_singleton.1 hm]
  exact hn k hk

/-- The next request has no calls. -/
theorem Inv.callsOf_length (h : s.Inv size d₀) : callsOf s.calls s.fetched.length = [] := by
  rw [callsOf, List.map_eq_nil_iff, List.filter_eq_nil_iff]
  intro c hc he
  rw [beq_iff_eq] at he
  exact absurd (h.calls_lt c hc) (by omega)

/-- The history of a request: what is added to the log, to the calls and to the failures. -/
theorem Inv.served (h : s.Inv size d₀) {sqe : Sqe} {server : IoUringServer} {d : Ramdisk.State}
    {answer : Except Error Unit} {v : Int32} (hsize : d.disk.blockSize = size)
    (hposted : postedTo d.disk.ring =
      server.completions ++ if answer.isOk then [(sqe.userData, v)] else [])
    (hmoved : (∃ m, s.driver.disk.moved s.driver.mem sqe = some m ∧
        m.Makes s.driver.disk.data d.disk.data ∧ m.transfer = sqe.transfer size.toNat ∧
          sqe.Moving ∧ v = sqe.len.toInt32) ∨
      s.driver.disk.moved s.driver.mem sqe = none ∧ d.disk.data = s.driver.disk.data ∧
        (sqe.Moving → v < 0)) : (s.served sqe server answer d).Inv size d₀ := by
  have hcalls : (s.served sqe server answer d).calls =
      s.calls ++ if answer.isOk then [(s.fetched.length, sqe.userData, v)] else [] := by
    show s.calls ++ newCalls _ _ _ = _
    rw [hposted]
    split_ifs
    · rw [newCalls_append]
    · rw [List.append_nil, newCalls_self]
  have hold : ∀ k < s.fetched.length,
      callsOf (s.served sqe server answer d).calls k = callsOf s.calls k := fun k hk => by
    rw [hcalls, callsOf_append]
    split_ifs
    · rw [callsOf_of_ne hk.ne', List.append_nil]
    · rw [callsOf_nil, List.append_nil]
  have hnew : callsOf (s.served sqe server answer d).calls s.fetched.length =
      if answer.isOk then [(sqe.userData, v)] else [] := by
    rw [hcalls, callsOf_append, h.callsOf_length, List.nil_append]
    split_ifs
    · exact callsOf_self _ _
    · exact callsOf_nil _
  have hlen : (s.served sqe server answer d).fetched.length = s.fetched.length + 1 := by
    show (s.fetched ++ [sqe]).length = _
    rw [List.length_append, List.length_singleton]
  have hlt : ∀ k ∈ s.log.map Prod.fst, k < s.fetched.length := fun k hk => h.serial.lt_length hk
  have hserial : SerialDisk size.toNat (fun sqe => sqe.len.toInt32) d₀ d.disk.data
      (s.fetched ++ [sqe]) (s.served sqe server answer d).calls (s.served sqe server answer d).log ∧
      ((s.served sqe server answer d).log.map Prod.fst).Pairwise (· < ·) := by
    rcases hmoved with ⟨m, hm, hmakes, ht, hmoving, rfl⟩ | ⟨hm, hdata, hneg⟩
    · have hlog : (s.served sqe server answer d).log = s.log ++ [(s.fetched.length, m)] := by
        show s.log ++ _ = _
        rw [hm]
        rfl
      rw [hlog]
      refine ⟨h.serial.serve hold hmakes ht hmoving ?_, ?_⟩
      · rw [hnew]
        split_ifs
        · exact .inr rfl
        · exact .inl rfl
      · rw [List.map_append]
        exact pairwise_lt_snoc h.ordered hlt
    · have hlog : (s.served sqe server answer d).log = s.log := by
        show s.log ++ _ = _
        rw [hm]
        exact List.append_nil _
      rw [hlog, hdata]
      refine ⟨h.serial.skip hold ?_, h.ordered⟩
      rw [hnew]
      split_ifs
      · exact .inr ⟨v, rfl, hneg⟩
      · exact .inl rfl
  have hfailed : (s.served sqe server answer d).failed =
      if answer.isOk then s.failed else s.failed ++ [s.fetched.length] := rfl
  exact
    { blockSize := hsize
      serial := hserial.1
      ordered := hserial.2
      calls_lt := fun c hc => by
        rw [hcalls] at hc
        rw [hlen]
        rcases List.mem_append.1 hc with hc | hc
        · exact (h.calls_lt c hc).trans (Nat.lt_succ_self _)
        · split_ifs at hc
          · rw [List.mem_singleton.1 hc]
            exact Nat.lt_succ_self _
          · exact absurd hc List.not_mem_nil
      completed := by
        rw [hcalls]
        split_ifs
        · rw [List.map_append, List.map_singleton]
          refine pairwise_lt_snoc h.completed fun k hk => ?_
          obtain ⟨c, hc, rfl⟩ := List.mem_map.1 hk
          exact h.calls_lt c hc
        · rw [List.append_nil]
          exact h.completed
      failed := fun k hk => by
        rw [hlen] at hk
        rw [hfailed]
        by_cases hkn : k = s.fetched.length
        · subst hkn
          rw [hnew]
          split_ifs
          · exact iff_of_false (by simp) fun hm => (h.failed_lt _ hm).ne rfl
          · exact iff_of_true rfl (List.mem_append_right _ (List.mem_singleton_self _))
        · have hlt : k < s.fetched.length := by omega
          rw [hold k hlt, h.failed k hlt]
          split_ifs
          · rfl
          · rw [List.mem_append, List.mem_singleton, or_iff_left hkn]
      failed_lt := fun k hk => by
        rw [hfailed] at hk
        rw [hlen]
        split_ifs at hk
        · exact (h.failed_lt k hk).trans (Nat.lt_succ_self _)
        · rcases List.mem_append.1 hk with hk | hk
          · exact (h.failed_lt k hk).trans (Nat.lt_succ_self _)
          · rw [List.mem_singleton.1 hk]
            exact Nat.lt_succ_self _ }

/-- What is not about the history changes nothing. -/
theorem Inv.congr (h : s.Inv size d₀) {d : Ramdisk.State}
    (hsize : d.disk.blockSize = s.driver.disk.blockSize)
    (hdata : d.disk.data = s.driver.disk.data) :
    Inv { s with driver := d } size d₀ :=
  { h with
    blockSize := hsize.trans h.blockSize
    serial := by
      rw [hdata]
      exact h.serial }

/-- Every step keeps the invariant, if no request wraps. -/
theorem Inv.step (hcode : 0 < code .invalidArgs) (h : s.Inv size d₀)
    (hwrap : ∀ sqe ∈ t.fetched, sqe.off.toNat * size.toNat + sqe.len.toNat < 2 ^ 64)
    (hstep : RamdiskStep code s t) : t.Inv size d₀ := by
  cases hstep with
  | client server sqe hs => exact h.congr rfl rfl
  | poke mem => exact h.congr rfl rfl
  | setupBuffer clientVaddr bytes paddr => exact h.congr rfl rfl
  | setupRing => exact h.congr rfl rfl
  | serve server sqe rest v d d' answer k r hs hsq hspares hserve hdone =>
    have hw := hwrap sqe (List.mem_append_right _ (List.mem_singleton_self sqe))
    rw [← h.blockSize] at hw
    obtain ⟨hsize, hmoved⟩ := serve_moved (r := (s.withRing { server with sq := rest }).disk)
      hcode hw (serve_of_serveSqe hserve)
    obtain ⟨hdata', hsize', hposted⟩ :=
      completeSqe_posted ((serveSqe_ring hserve).trans rfl) hdone
    refine h.served (hsize'.trans (hsize.trans h.blockSize)) hposted ?_
    rw [hdata', ← h.blockSize]
    exact hmoved

/-- The history goes on. -/
theorem history_step (hstep : RamdiskStep code s t) :
    s.fetched <+: t.fetched ∧ s.calls <+: t.calls := by
  cases hstep with
  | serve server sqe rest v d d' answer k r hs hsq hspares hserve hdone =>
    exact ⟨List.prefix_append _ _, List.prefix_append _ _⟩
  | _ => exact ⟨List.prefix_rfl, List.prefix_rfl⟩

theorem Inv.continues_step (h : s.Inv size d₀) (hstep : RamdiskStep code s t) :
    Continues s.calls s.log t.log := by
  cases hstep with
  | serve server sqe rest v d d' answer k r hs hsq hspares hserve hdone =>
    refine ⟨_, rfl, fun e he => ?_⟩
    obtain ⟨m, -, rfl⟩ := Option.map_eq_some_iff.1 (Option.mem_toList.1 he)
    exact h.callsOf_length
  | _ => exact .refl _ _

theorem history_run (hrun : RamdiskReach code s t) :
    s.fetched <+: t.fetched ∧ s.calls <+: t.calls := by
  induction hrun with
  | refl => exact ⟨List.prefix_rfl, List.prefix_rfl⟩
  | tail _ hstep ih =>
    obtain ⟨hfetched, hcalls⟩ := history_step hstep
    exact ⟨ih.1.trans hfetched, ih.2.trans hcalls⟩

/-- A run keeps the invariant and goes on with the log. -/
theorem Inv.run (hcode : 0 < code .invalidArgs) (h : s.Inv size d₀)
    (hwrap : ∀ sqe ∈ t.fetched, sqe.off.toNat * size.toNat + sqe.len.toNat < 2 ^ 64)
    (hrun : RamdiskReach code s t) :
    t.Inv size d₀ ∧ Continues s.calls s.log t.log := by
  induction hrun with
  | refl => exact ⟨h, .refl _ _⟩
  | tail hrun hstep ih =>
    obtain ⟨hfetched, -⟩ := history_step hstep
    obtain ⟨h, hlog⟩ := ih fun sqe hm => hwrap sqe (hfetched.subset hm)
    exact ⟨h.step hcode hwrap hstep, hlog.trans (h.continues_step hstep) (history_run hrun).2⟩

end RamdiskState

section Main

variable {data : List UInt8} {size : UInt32} {mem : UInt64 → UInt8}

/-- **A client of the RAM disk reads what was written last.**  In such a run, a READ that is queued
behind a WRITE of the same bytes, with no other WRITE to some of these bytes in between, moves the
bytes that the WRITE moved, if both are completed with their lengths. -/
theorem ramdisk_read_written (hcode : 0 < code .invalidArgs)
    (hs : RamdiskReach code (.start data size mem) s)
    (hwrap : ∀ sqe ∈ s.fetched, sqe.off.toNat * size.toNat + sqe.len.toNat < 2 ^ 64)
    {nw nr : ℕ} {w r : Sqe} (hw : s.fetched[nw]? = some w) (hr : s.fetched[nr]? = some r)
    (hlt : nw < nr) (hwop : w.opcode = .write) (hrop : r.opcode = .read) (hoff : r.off = w.off)
    (hlen : r.len = w.len) (hpos : 0 ≤ w.len.toInt32)
    (hwdone : callsOf s.calls nw = [(w.userData, w.len.toInt32)])
    (hrdone : callsOf s.calls nr = [(r.userData, w.len.toInt32)])
    (hothers : ∀ n sqe, s.fetched[n]? = some sqe → nw < n → n < nr → sqe.opcode = .write →
      Disjoint (sqe.transfer size.toNat).bytes (w.transfer size.toNat).bytes) :
    ∃ data, (nw, ⟨w.transfer size.toNat, data⟩) ∈ s.log ∧
      (nr, ⟨r.transfer size.toNat, data⟩) ∈ s.log := by
  obtain ⟨h, -⟩ := (RamdiskState.Inv.start data size mem).run hcode hwrap hs
  obtain ⟨ew, hew, rfl⟩ := List.mem_map.1 (h.serial.mem_of_done hw (.inr hwop) hwdone hpos)
  obtain ⟨er, her, rfl⟩ := List.mem_map.1 (h.serial.mem_of_done hr (.inl hrop) hrdone hpos)
  have hserial := h.serial
  have hordered := h.ordered
  obtain ⟨a, l, hl⟩ := List.append_of_mem hew
  rw [hl] at her hserial hordered ⊢
  rw [List.map_append, List.map_cons, List.pairwise_append, List.pairwise_cons] at hordered
  obtain ⟨-, ⟨hafter, hsorted⟩, hbefore⟩ := hordered
  -- the READ is behind the WRITE
  have hmem : er ∈ l := by
    rcases List.mem_append.1 her with her | her
    · exact absurd (hbefore _ (List.mem_map_of_mem her) _ List.mem_cons_self) hlt.not_gt
    · rcases List.mem_cons.1 her with rfl | her
      · exact absurd hlt (lt_irrefl _)
      · exact her
  obtain ⟨mid, b, rfl⟩ := List.append_of_mem hmem
  have hsplit : a ++ ew :: (mid ++ er :: b) = a ++ ew :: mid ++ er :: b := by simp
  rw [hsplit] at hserial ⊢
  rw [List.map_append, List.map_cons, List.pairwise_append] at hsorted
  obtain ⟨data, hwd, hrd⟩ := hserial.data_eq hw hr hwop hrop hoff hlen fun e he sqe hsqe hop =>
    hothers e.1 sqe hsqe (hafter _ (List.mem_map_of_mem (List.mem_append_left _ he)))
      (hsorted.2.2 _ (List.mem_map_of_mem he) _ List.mem_cons_self) hop
  refine ⟨data, ?_, ?_⟩
  · rw [← hwd]
    simp
  · rw [← hrd]
    simp

end Main

/-! ### Two requests -/

/-- A request for block 1, with its data in the shared page. -/
def blockOne (op : Opcode) : Sqe := ⟨op, 1, 0x10100, 4, 0⟩

theorem blockOne_spares {r : Ramdisk} (hbuf : r.buffer = some sharedPage) (op : Opcode) :
    r.Spares (blockOne op) :=
  Ramdisk.spares_of_buffer hbuf (by decide) (by decide)
    (show (0x10100 : UInt64).toNat + (4 : UInt32).toNat < 2 ^ 64 by decide)

/-- A page is registered, a WRITE of block 1 and a READ are queued and served; the completion of the
READ fails if `answer` is an error. -/
theorem exists_ramdisk_run (code : Error → Int32) (answer : Except Error Unit) :
    ∃ s, RamdiskReach code (.start (List.replicate 8 0) 4 fun _ => 1) s ∧
      s.fetched = [blockOne .write, blockOne .read] ∧
      callsOf s.calls 0 = [(0, 4)] ∧
      callsOf s.calls 1 = if answer.isOk then [(0, 4)] else [] := by
  have hbuffer : RamdiskReach code _ _ :=
    .single (.setupBuffer (.start (List.replicate 8 0) 4 fun _ => 1) 0x10000 0x1000 0x80000000)
  have hring := hbuffer.tail (.setupRing _)
  have hrun := ((hring.tail
    (.client _ ⟨[], []⟩ (blockOne .write) rfl)).tail
    (.client _ _ (blockOne .read) rfl)).tail
    (.serve _ _ (blockOne .write) [blockOne .read] 4 _ _ (.ok ()) 0 _ rfl rfl
      (blockOne_spares rfl .write) rfl rfl)
  cases answer with
  | ok u => exact ⟨_, hrun.tail (.serve _ _ (blockOne .read) [] 4 _ _ (.ok ()) 0 _ rfl rfl
      (blockOne_spares rfl .read) rfl rfl), rfl, rfl, rfl⟩
  | error e => exact ⟨_, hrun.tail (.serve _ _ (blockOne .read) [] 4 _ _ (.error e) 0 _ rfl rfl
      (blockOne_spares rfl .read) rfl rfl), rfl, rfl, rfl⟩

/-- The two requests do not wrap. -/
theorem blockOne_wraps {s : RamdiskState} (h : s.fetched = [blockOne .write, blockOne .read]) :
    ∀ sqe ∈ s.fetched, sqe.off.toNat * (4 : UInt32).toNat + sqe.len.toNat < 2 ^ 64 := by
  rw [h]
  decide

/-- The READ moves what the WRITE moved. -/
theorem ramdisk_read_written_blockOne : ∃ s data, RamdiskReach (fun _ => 1)
      (.start (List.replicate 8 0) 4 fun _ => 1) s ∧
    (0, ⟨(blockOne .write).transfer 4, data⟩) ∈ s.log ∧
      (1, ⟨(blockOne .read).transfer 4, data⟩) ∈ s.log := by
  obtain ⟨s, hs, hfetched, hw, hr⟩ := exists_ramdisk_run (fun _ => 1) (.ok ())
  have hw' : s.fetched[0]? = some (blockOne .write) := by rw [hfetched]; rfl
  have hr' : s.fetched[1]? = some (blockOne .read) := by rw [hfetched]; rfl
  obtain ⟨data, hdata⟩ := ramdisk_read_written (by decide) hs (blockOne_wraps hfetched) hw' hr'
    (by decide) rfl rfl rfl rfl (by decide) hw hr
    fun n sqe _ hlow hhigh => by omega
  exact ⟨s, data, hs, hdata⟩

end GlendaDrivers
