import GlendaDrivers.Virtio.Bringup
import GlendaDrivers.Virtio.NetCompletion

/-!
# Packets and their headers

* `VirtQueue.follow`, `gather`, `scatter`: a device that reads and writes the buffers of a chain;
* `deviceHdrLen`: the length of the header that a device puts before a packet;
* `Framed`: driver and device agree on the packet in a chain;
* `framed_iff`: the chains of the driver have headers of 10 bytes;
* `net_framing`: when the two agree on every request.
-/

namespace GlendaDrivers

open VirtQueue VirtIONet

/-! ### The device -/

/-- The descriptors of the chain from `id` on, at most `k` of them. -/
def VirtQueue.follow (q : VirtQueue) : ℕ → UInt16 → List Descriptor
  | 0, _ => []
  | k + 1, id =>
      let d := q.mem.desc id
      d :: if d.flags &&& descFNext = 0 then [] else q.follow k d.next

/-- The bytes in the buffers of a chain. -/
def gather (mem : UInt64 → UInt8) (chain : List Descriptor) : List UInt8 :=
  chain.flatMap fun d => Bytes.read mem d.addr d.len.toNat

/-- Memory after bytes were stored in the buffers of a chain, one after the other. -/
def scatter : List Descriptor → List UInt8 → (UInt64 → UInt8) → UInt64 → UInt8
  | [], _, mem => mem
  | d :: ds, bytes, mem =>
      scatter ds (bytes.drop d.len.toNat) (Bytes.write mem d.addr (bytes.take d.len.toNat))

/-- The length of the header when the features `f` are negotiated. -/
def deviceHdrLen (f : UInt64) : ℕ :=
  if f &&& (VirtIOGpu.virtioFVersion1 ||| virtioNetFMrgRxbuf) ≠ 0 then 12 else 10

/-- A device with headers of `hdrLen` bytes and the driver agree on a request to queue `i` with the
data at `paddr`: the first buffer is for the header; what follows the header in the chain is the
client's data; a packet stored in the chain behind a header is found at the start of the client's
buffer, and the request is completed with its length. -/
structure Framed (hdrLen : ℕ) (i : NetDir) (paddr : UInt64) (len : UInt32)
    (chain : List Descriptor) : Prop where
  header : chain.head?.map (fun d => d.len.toNat) = some hdrLen
  sent : i = .tx → ∀ mem, (gather mem chain).drop hdrLen = Bytes.read mem paddr len.toNat
  received : i = .rx → ∀ (mem : UInt64 → UInt8) (hdr frame : List UInt8), hdr.length = hdrLen →
    hdrLen + frame.length ≤ (gather mem chain).length → hdrLen + frame.length < 2 ^ 32 →
      Bytes.read (scatter chain (hdr ++ frame) mem) paddr frame.length = frame ∧
        resultLen i (UInt32.ofNat (hdrLen + frame.length)) =
          (UInt32.ofNat frame.length).toInt32

/-! ### The chains of the driver -/

/-- The header is as long as the first buffer iff all bytes find their place. -/
theorem framed_iff {hdrLen : ℕ} {i : NetDir} {haddr paddr : UInt64} {len : UInt32}
    {flags flags' d2 : UInt16} :
    Framed hdrLen i paddr len
        [⟨haddr, UInt32.ofNat sizeOfVirtioNetHdr, flags, d2⟩, ⟨paddr, len, flags', 0⟩] ↔
      hdrLen = sizeOfVirtioNetHdr := by
  constructor
  · rintro ⟨hheader, -, -⟩
    exact (Option.some.inj hheader).symm
  · rintro rfl
    refine ⟨rfl, fun _ mem => ?_, fun hi mem hdr frame hhdr hfit hlt => ⟨?_, ?_⟩⟩
    · simp only [gather, List.flatMap_cons, List.flatMap_nil, List.append_nil]
      exact List.drop_left' (Bytes.length_read _ _ _)
    · have hle : frame.length ≤ len.toNat := by
        simp only [gather, List.flatMap_cons, List.flatMap_nil, List.append_nil,
          List.length_append, Bytes.length_read] at hfit
        exact Nat.le_of_add_le_add_left hfit
      have hdrop : (hdr ++ frame).drop (UInt32.ofNat sizeOfVirtioNetHdr).toNat = frame :=
        List.drop_left' hhdr
      have hlen := len.toNat_lt
      simp only [scatter, hdrop, List.take_of_length_le hle]
      exact Bytes.read_write _ _ (by omega)
    · subst hi
      have hnat : (UInt32.ofNat (sizeOfVirtioNetHdr + frame.length)).toNat =
          sizeOfVirtioNetHdr + frame.length := by
        rw [UInt32.toNat_ofNat', Nat.mod_eq_of_lt hlt]
      rw [resultLen_eq, hnat]
      show (UInt32.ofNat (sizeOfVirtioNetHdr + frame.length - sizeOfVirtioNetHdr)).toInt32 = _
      rw [Nat.add_sub_cancel_left]

/-- The chain of a packet. -/
theorem VirtIONet.IsPacket.follow {q : VirtQueue} {base paddr : UInt64} {i : NetDir} {len : UInt32}
    {d1 d2 : UInt16} (h : IsPacket q.mem.desc base i paddr len d1 d2) (k : ℕ) :
    q.follow (k + 2) d1 = [⟨base + hdrOffset i d1, UInt32.ofNat sizeOfVirtioNetHdr,
      if i = .rx then descFNext ||| descFWrite else descFNext, d2⟩,
      ⟨paddr, len, if i = .rx then descFWrite else 0, 0⟩] := by
  obtain ⟨hnext, hlink, hlast⟩ := h.linked
  have hlast : (q.mem.desc d2).flags &&& descFNext = 0 := hlast
  rw [VirtQueue.follow, if_neg hnext, hlink, VirtQueue.follow, if_pos hlast, h.header, h.payload]

/-- The header that the device uses after the driver's choice of features. -/
theorem deviceHdrLen_chosen (dev : VirtIODevice) :
    deviceHdrLen (VirtIONet.chosen dev) = sizeOfVirtioNetHdr ↔
      dev.features &&& VirtIOGpu.virtioFVersion1 = 0 := by
  have hmask : ~~~virtioNetFMrgRxbuf &&& (VirtIOGpu.virtioFVersion1 ||| virtioNetFMrgRxbuf) =
      VirtIOGpu.virtioFVersion1 := by decide
  unfold deviceHdrLen VirtIONet.chosen
  rw [UInt64.and_assoc, hmask]
  split_ifs with h
  · exact iff_of_false (by decide) h
  · exact iff_of_true rfl (of_not_not h)

/-- What a request that was submitted has put in its queue. -/
theorem NetState.Inv.framed {s : NetState} {held : NetDir → List UInt16} (h : s.Inv held)
    {i : NetDir} {sqe : Sqe} {n' : VirtIONet} (hsub : s.net.submit i sqe = .ret (.ok (), n'))
    (hdrLen : ℕ) :
    ∃ q q' paddr, s.net.queue i = some q ∧ n'.queue i = some q' ∧
      dataPaddr s.net.buffer sqe = some paddr ∧
        (Framed hdrLen i paddr sqe.len
            (q'.follow q'.num.toNat (q'.readAvail q.mem.availIdx)) ↔
          hdrLen = sizeOfVirtioNetHdr) := by
  obtain ⟨q, out, slot, userData, hinv⟩ := h i
  obtain ⟨-, hfail⟩ | ⟨e, q', lost, -, -, hfail, -⟩ | ⟨d1, d2, rest, paddr, hids, hd⟩ :=
    hinv.submit_cases sqe
  · exact nomatch (Prod.mk.inj (Outcome.ret.inj (hfail.symm.trans hsub))).1
  · exact nomatch (Prod.mk.inj (Outcome.ret.inj (hfail.symm.trans hsub))).1
  obtain ⟨q', idx, hok, havail, -, hnext, hpayload, hinv'⟩ := hinv.submit_ok hids hd
  obtain ⟨-, rfl⟩ := Prod.mk.inj (Outcome.ret.inj (hok.symm.trans hsub))
  refine ⟨q, q', paddr, hinv.queue, hinv'.queue, hd, ?_⟩
  obtain ⟨e1, e2, paddr', len, hchain, -, hpacket⟩ := hinv'.chain _
    (List.mem_append_right out List.mem_cons_self)
  obtain ⟨rfl, rfl⟩ : d1 = e1 ∧ d2 = e2 := by simpa using hchain
  have hpayload' : (⟨paddr, sqe.len, _, 0⟩ : Descriptor) = ⟨paddr', len, _, 0⟩ :=
    hpayload.symm.trans hpacket.payload
  injection hpayload' with hpaddr hlen
  have hnum : q'.num.toNat = 126 + 2 := by
    rw [hinv'.num]
    rfl
  rw [havail, hnum, hpacket.follow, ← hpaddr, ← hlen]
  exact framed_iff

/-- **Framing.**  When the driver has come up, it agrees with the device on the packet of a request
iff the device has not offered VIRTIO_F_VERSION_1. -/
theorem net_framing {dma : UInt64 → UInt8} {dmaPaddr : UInt64} {m m' : Mmio} {n : VirtIONet}
    (hup : bringUp dma dmaPaddr (fun _ => .zeroed) m = (.ret (.ok n), m'))
    {server : IoUringServer} {s : NetState} (hs : NetReach (.start (n.setRingServer server)) s)
    {i : NetDir} {sqe : Sqe} {n' : VirtIONet}
    (hsub : s.net.submit i sqe = .ret (.ok (), n')) :
    ∃ q q' paddr, s.net.queue i = some q ∧ n'.queue i = some q' ∧
      dataPaddr s.net.buffer sqe = some paddr ∧
        (Framed (deviceHdrLen m'.driverFeatures) i paddr sqe.len
            (q'.follow q'.num.toNat (q'.readAvail q.mem.availIdx)) ↔
          m.dev.features &&& VirtIOGpu.virtioFVersion1 = 0) := by
  obtain ⟨-, rfl, rfl⟩ := (bringUp_run dma dmaPaddr _ m n m').1 hup
  have hstarted : (started m.dev dma dmaPaddr fun _ => .zeroed).Started := ⟨rfl, rfl, rfl⟩
  have hstart : ((started m.dev dma dmaPaddr fun _ => .zeroed).setRingServer server).Started :=
    ⟨hstarted.rx, hstarted.tx, hstarted.pending⟩
  obtain ⟨held, hinv⟩ := (NetState.inv_start hstart).run hs
  have hf : (ready (identified m) (.fresh 0 128 (dmaPaddr + 8192) .zeroed)
      (.fresh 1 128 (dmaPaddr + 8192 + 4096) .zeroed)).driverFeatures = chosen m.dev :=
    word64_halves _
  rw [hf, ← deviceHdrLen_chosen]
  exact hinv.framed hsub _

/-- A network device that offers the features `f` and accepts every choice. -/
def offering (f : UInt64) : Mmio :=
  .initial { (default : VirtIODevice) with
    magic := magicValue
    deviceId := devIdNet
    features := f
    accepts := fun _ => true }

/-- The driver comes up, and the first request is submitted. -/
theorem offering_submit (f : UInt64) (i : NetDir) (sqe : Sqe) :
    ∃ n m' n', bringUp (fun _ => 0) 0 (fun _ => .zeroed) (offering f) = (.ret (.ok n), m') ∧
      m'.driverFeatures = f &&& ~~~virtioNetFMrgRxbuf ∧ n.buffer = none ∧
      (n.setRingServer .new).Started ∧
        (n.setRingServer .new).submit i sqe = .ret (.ok (), n') := by
  have hup := bringUp_ok (fun _ => 0) 0 (fun _ => .zeroed) (offering f) rfl rfl rfl
  have hstart : ((started (offering f).dev (fun _ => 0) 0 fun _ => .zeroed).setRingServer
      .new).Started := ⟨rfl, rfl, rfl⟩
  obtain ⟨q, hinv⟩ := NetInv.start hstart i (fun _ => 0) (fun _ => 0)
  obtain ⟨d1, d2, rest, hids⟩ := hinv.two_free
  have hd : dataPaddr none sqe = some sqe.addr := rfl
  obtain ⟨q', idx, hsub, -⟩ := hinv.submit_ok hids hd
  exact ⟨_, _, _, hup, word64_halves _, rfl, hstart, hsub⟩

/-- A packet to be sent by a device that offers nothing. -/
theorem net_framing_plain :
    ∃ n m' n' q q', bringUp (fun _ => 0) 0 (fun _ => .zeroed) (offering 0) = (.ret (.ok n), m') ∧
      (n.setRingServer .new).submit .tx ⟨.write, 0, 0x1000, 60, 0⟩ = .ret (.ok (), n') ∧
      n.queue .tx = some q ∧ n'.queue .tx = some q' ∧
        Framed (deviceHdrLen m'.driverFeatures) .tx 0x1000 60
          (q'.follow q'.num.toNat (q'.readAvail q.mem.availIdx)) := by
  obtain ⟨n, m', n', hup, -, hbuf, -, hsub⟩ := offering_submit 0 .tx ⟨.write, 0, 0x1000, 60, 0⟩
  obtain ⟨q, q', paddr, hq, hq', hd, hiff⟩ := net_framing hup .refl hsub
  obtain rfl : 0x1000 = paddr := Option.some.inj ((congrArg (dataPaddr · _) hbuf).symm.trans hd)
  exact ⟨n, m', n', q, q', hup, hsub, hq, hq', hiff.2 (by decide)⟩

/-- A packet to be sent by a device that offers VIRTIO_F_VERSION_1. -/
theorem not_framed_version1 :
    ∃ n m' n' q q', bringUp (fun _ => 0) 0 (fun _ => .zeroed)
        (offering VirtIOGpu.virtioFVersion1) = (.ret (.ok n), m') ∧
      (n.setRingServer .new).submit .tx ⟨.write, 0, 0x1000, 60, 0⟩ = .ret (.ok (), n') ∧
      n.queue .tx = some q ∧ n'.queue .tx = some q' ∧
        ¬ Framed (deviceHdrLen m'.driverFeatures) .tx 0x1000 60
          (q'.follow q'.num.toNat (q'.readAvail q.mem.availIdx)) := by
  obtain ⟨n, m', n', hup, hf, hbuf, hstart, hsub⟩ :=
    offering_submit VirtIOGpu.virtioFVersion1 .tx ⟨.write, 0, 0x1000, 60, 0⟩
  have hinv := NetState.inv_start hstart
  obtain ⟨q, q', paddr, hq, hq', hd, hiff⟩ := hinv.framed hsub (deviceHdrLen m'.driverFeatures)
  obtain rfl : 0x1000 = paddr := Option.some.inj ((congrArg (dataPaddr · _) hbuf).symm.trans hd)
  refine ⟨n, m', n', q, q', hup, hsub, hq, hq', fun h => ?_⟩
  have hlen := hiff.1 h
  rw [hf] at hlen
  exact absurd hlen (by decide)

end GlendaDrivers
