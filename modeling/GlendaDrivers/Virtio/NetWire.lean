import GlendaDrivers.Service.SerialDisk
import GlendaDrivers.Virtio.NetFraming
import GlendaDrivers.Virtio.NetPayload

/-!
# The network driver and the wire

The device of the network driver sends the packets of the TX queue and stores received ones in the
buffers of the RX queue.  Its header can be longer than the driver's, and then the header takes some
bytes of the client's data.

* `headerExcess`: how many, for a device with the features that it offers;
* `WireState`, `WireStep`: the driver, its device, the memory of the client and the packets;
* `Carried`: each packet belongs to one request;
* `net_wire`: what is sent and received, and what the completions say about it;
* `net_received`: the client finds a received packet in its buffer.
-/

namespace GlendaDrivers

open VirtQueue VirtIONet

/-! ### The wire -/

/-- How much longer the header of a device is than the driver's, after the driver's choice of
features. -/
def headerExcess (dev : VirtIODevice) : ℕ := deviceHdrLen (chosen dev) - sizeOfVirtioNetHdr

theorem headerExcess_eq (dev : VirtIODevice) :
    headerExcess dev = if dev.features &&& VirtIOGpu.virtioFVersion1 = 0 then 0 else 2 := by
  unfold headerExcess
  split_ifs with h
  · rw [(deviceHdrLen_chosen dev).2 h, Nat.sub_self]
  · have hne := mt (deviceHdrLen_chosen dev).1 h
    unfold deviceHdrLen at hne ⊢
    split_ifs at hne ⊢
    · rfl
    · exact absurd rfl hne

/-- The data of the requests that are accepted between `s` and `t`. -/
def NetState.newlyAsked (s t : NetState) (i : NetDir) : List Payload :=
  ((t.accepted i).drop (s.accepted i).length).filterMap fun n => (s.fetched[n]?).bind s.net.asks

/-- What the device carries for a request: where it finds or puts the packet, and the packet. -/
structure Packet where
  payload : Payload
  frame : List UInt8

/-- The driver and its device, with the memory and the packets. -/
structure WireState where
  sys : NetState
  /-- The physical memory outside of the driver's pages. -/
  mem : UInt64 → UInt8
  /-- The data of the accepted requests, as the driver asked for them. -/
  asked : NetDir → List Payload
  /-- The packets that were sent and received, by the numbers of their requests. -/
  log : NetDir → List (ℕ × Packet)

namespace WireState

/-- The wire when `init` has returned. -/
def start (n : VirtIONet) (mem : UInt64 → UInt8) : WireState where
  sys := .start n
  mem := mem
  asked _ := []
  log _ := []

/-- The device has carried a packet for request `n` of queue `i`. -/
def carry (s : WireState) (i : NetDir) (n : ℕ) (p : Packet) : NetDir → List (ℕ × Packet) :=
  Function.update s.log i (s.log i ++ [(n, p)])

@[simp] theorem carry_self (s : WireState) (i : NetDir) (n : ℕ) (p : Packet) :
    s.carry i n p i = s.log i ++ [(n, p)] := Function.update_self _ _ _

theorem carry_of_ne (s : WireState) {i j : NetDir} (hj : j ≠ i) (n : ℕ) (p : Packet) :
    s.carry i n p j = s.log j := Function.update_of_ne hj _ _

/-- The packet that the memory holds at `p`, when the header takes `excess` bytes. -/
def packetAt (s : WireState) (excess : ℕ) (p : Payload) : Packet :=
  ⟨p, (Bytes.read s.mem p.addr p.len.toNat).drop excess⟩

/-- The data at `p` are not in the driver's pages, which the driver does not check. -/
def Outside (s : WireState) (p : Payload) : Prop :=
  Disjoint (Bytes.span p.addr p.len.toNat) (Bytes.span s.sys.net.dmaPaddr 16384)

end WireState

/-- One step of the wire, with a device whose header is `excess` bytes longer than the driver's.  A
device publishes a head when it has sent the packet, or has stored one and tells its length. -/
inductive WireStep (excess : ℕ) : WireState → WireState → Prop
  /-- A step that publishes nothing. -/
  | move (s : WireState) (t : NetState) (h : NetStep s.sys t)
      (hp : ∀ i, (t.traffic i).published = (s.sys.traffic i).published) :
      WireStep excess s { s with sys := t, asked := fun i => s.asked i ++ s.sys.newlyAsked t i }
  /-- The client writes to its memory. -/
  | poke (s : WireState) (mem : UInt64 → UInt8) : WireStep excess s { s with mem := mem }
  /-- The device sends the packet of a request that it read. -/
  | send (s : WireState) (q : VirtQueue) (pos n : ℕ) (head : UInt16)
      (hq : s.sys.net.queue .tx = some q) (hhead : (s.sys.traffic .tx).taken[pos]? = some head)
      (hn : (s.sys.accepted .tx)[pos]? = some n) (hnew : n ∉ (s.log .tx).map Prod.fst)
      (hmem : s.Outside (q.dataAt head)) :
      WireStep excess s { s with log := s.carry .tx n (s.packetAt excess (q.dataAt head)) }
  /-- The device stores a packet in a buffer that it read, behind the rest of its header. -/
  | receive (s : WireState) (q : VirtQueue) (pos n : ℕ) (head : UInt16) (rest frame : List UInt8)
      (hq : s.sys.net.queue .rx = some q) (hhead : (s.sys.traffic .rx).taken[pos]? = some head)
      (hn : (s.sys.accepted .rx)[pos]? = some n) (hnew : n ∉ (s.log .rx).map Prod.fst)
      (hrest : rest.length = excess)
      (hlen : rest.length + frame.length ≤ (q.dataAt head).len.toNat)
      (hmem : s.Outside (q.dataAt head)) :
      WireStep excess s { s with
        mem := Bytes.write s.mem (q.dataAt head).addr (rest ++ frame)
        log := s.carry .rx n ⟨q.dataAt head, frame⟩ }
  /-- The device publishes a head. -/
  | publish (s : WireState) (i : NetDir) (q : VirtQueue) (pos n : ℕ) (elem : UsedElem) (p : Packet)
      (hq : s.sys.net.queue i = some q) (hc : (s.sys.traffic i).CanPublish pos elem)
      (hn : (s.sys.accepted i)[pos]? = some n) (hp : (n, p) ∈ s.log i)
      (hlen : i = .rx → elem.len.toNat = sizeOfVirtioNetHdr + (excess + p.frame.length)) :
      WireStep excess s { s with sys := { s.sys with
        net := s.sys.net.setQueue i (q.publishUsed elem)
        traffic := s.sys.setTraffic i ((s.sys.traffic i).publish pos elem) } }

/-- A state that can be reached from `s`. -/
abbrev WireReach (excess : ℕ) : WireState → WireState → Prop :=
  Relation.ReflTransGen (WireStep excess)

variable {excess : ℕ}

/-- A step of the wire is a step of the driver and its device, or leaves them alone. -/
theorem WireStep.sys {s t : WireState} (h : WireStep excess s t) :
    t.sys = s.sys ∨ NetStep s.sys t.sys := by
  cases h with
  | move t h hp => exact .inr h
  | publish i q pos n elem p hq hc hn hp hlen => exact .inr (.publish _ i q pos elem hq hc)
  | _ => exact .inl rfl

/-- The packet `p` is one that queue `i` should carry for the data `asked`. -/
structure Packet.Fits (excess : ℕ) (p : Packet) (i : NetDir) (asked : Payload) : Prop where
  payload : p.payload = asked
  le : i = .rx → excess + p.frame.length ≤ asked.len.toNat
  eq : i = .tx → p.frame.length = asked.len.toNat - excess

/-- Queue `i` and its packets: each packet belongs to a request, the device finds the data of the
outstanding requests where the driver has put them, and what it published it has carried. -/
structure Carried (excess : ℕ) (s : NetState) (i : NetDir) (asked : List Payload)
    (log : List (ℕ × Packet)) : Prop where
  nodup : (log.map Prod.fst).Nodup
  length : asked.length = (s.accepted i).length
  sorted : (s.accepted i).Pairwise (· < ·)
  found : ∀ (pos : ℕ) (head : UInt16) (p : Payload) (q : VirtQueue),
    (s.traffic i).submitted[pos]? = some head → pos ∉ (s.traffic i).popped →
      asked[pos]? = some p → s.net.queue i = some q → q.dataAt head = p
  made : ∀ (pos n : ℕ) (sqe : Sqe) (p : Payload), (s.accepted i)[pos]? = some n →
    s.fetched[n]? = some sqe → asked[pos]? = some p → p.len = sqe.len
  carried : ∀ e ∈ log, ∃ (pos : ℕ) (p : Payload), (s.accepted i)[pos]? = some e.1 ∧
    asked[pos]? = some p ∧ e.2.Fits excess i p
  published : ∀ u ∈ (s.traffic i).published, ∃ (n : ℕ) (p : Packet),
    (s.accepted i)[u.1]? = some n ∧ (n, p) ∈ log ∧
      (i = .rx → u.2.len.toNat = sizeOfVirtioNetHdr + (excess + p.frame.length))

namespace Carried

variable {s t : NetState} {before : List (UInt64 × Int32)} {i : NetDir} {asked : List Payload}
  {log : List (ℕ × Packet)} {q : VirtQueue} {pos n : ℕ} {head : UInt16}

theorem start (n : VirtIONet) (i : NetDir) : Carried excess (.start n) i [] [] where
  nodup := List.nodup_nil
  length := rfl
  sorted := .nil
  found pos head p q hhead := by simp [NetState.start, Traffic.init] at hhead
  made pos n sqe p hacc := by simp [NetState.start] at hacc
  carried e he := absurd he List.not_mem_nil
  published u hu := by simp [NetState.start, Traffic.init] at hu

/-- A request that was accepted keeps its number. -/
theorem fetched_eq (hs : s.Account before) (hstep : NetStep s t)
    (hacc : (s.accepted i)[pos]? = some n) : t.fetched[n]? = s.fetched[n]? := by
  obtain ⟨order, done, place, result, hbooks⟩ := hs.books
  obtain ⟨more, hmore⟩ := hstep.fetched_prefix
  rw [← hmore]
  exact hbooks.ledger.getElem?_of_lt (hbooks.lt (List.mem_of_getElem? hacc)) more

/-- The data stay where they are. -/
theorem found_step (h : Carried excess s i asked log) (hs : s.Account before) (hstep : NetStep s t)
    {p : Payload} (hhead : (s.traffic i).submitted[pos]? = some head)
    (hnm : pos ∉ (t.traffic i).popped) (hp : asked[pos]? = some p) (hq : t.net.queue i = some q) :
    q.dataAt head = p := by
  obtain ⟨q₀, out, held, slot, userData, hinv, -⟩ := hs.served i
  rw [hstep.payload_kept hs hinv.queue hq hhead hnm]
  exact h.found pos head p q₀ hhead (fun hm => hnm (hstep.popped_subset hs hm)) hp hinv.queue

/-- A new request asks for as many bytes as its client. -/
theorem len_of_asks {n : VirtIONet} {sqe : Sqe} {p : Payload} (h : n.asks sqe = some p) :
    p.len = sqe.len := by
  obtain ⟨paddr, -, rfl⟩ := Option.map_eq_some_iff.1 h
  rfl

/-- A step that publishes nothing. -/
theorem move (h : Carried excess s i asked log) (hs : s.Account before) (hstep : NetStep s t)
    (hpub : (t.traffic i).published = (s.traffic i).published) :
    Carried excess t i (asked ++ s.newlyAsked t i) log := by
  cases hstep.adds hs i with
  | nothing hacc hsub =>
    have hnew : asked ++ s.newlyAsked t i = asked := by
      rw [NetState.newlyAsked, hacc, List.drop_length, List.filterMap_nil, List.append_nil]
    rw [hnew]
    refine
      { nodup := h.nodup
        length := h.length.trans (congrArg List.length hacc).symm
        sorted := hacc.symm ▸ h.sorted
        found := fun pos head p q hhead hnm => h.found_step hs hstep (hsub ▸ hhead) hnm
        made := fun pos n sqe p hn hget => ?_
        carried := fun e he => ?_
        published := fun u hu => ?_ }
    · rw [hacc] at hn
      exact h.made pos n sqe p hn ((fetched_eq hs hstep hn).symm.trans hget)
    · rw [hacc]
      exact h.carried e he
    · rw [hacc]
      exact h.published u (hpub ▸ hu)
  | @request sqe p q' head hacc hget hsub hasks hq' hp =>
    obtain ⟨order, done, place, result, hbooks⟩ := hs.books
    have hnew : s.newlyAsked t i = [p] := by
      rw [NetState.newlyAsked, hacc, List.drop_left, List.filterMap_cons_some (b := p),
        List.filterMap_nil]
      rw [hget, Option.bind_some, hasks]
    rw [hnew]
    have hlen := h.length
    have hlen' := hs.length i
    -- what was accepted and asked for keeps its place
    have hkept : ∀ {pos n : ℕ}, (s.accepted i)[pos]? = some n →
        (t.accepted i)[pos]? = some n ∧ (asked ++ [p])[pos]? = asked[pos]? := by
      intro pos n hn
      have hlt := (List.getElem?_eq_some_iff.1 hn).1
      rw [hacc, List.getElem?_append_left hlt, List.getElem?_append_left (by omega)]
      exact ⟨hn, rfl⟩
    refine
      { nodup := h.nodup
        length := ?_
        sorted := ?_
        found := fun pos head' p' q₁ hhead hnm hp' hq₁ => ?_
        made := fun pos n sqe' p' hn hget' hp' => ?_
        carried := fun e he => ?_
        published := fun u hu => ?_ }
    · rw [hacc, List.length_append, List.length_append, hlen]
      rfl
    · rw [hacc, List.pairwise_append]
      refine ⟨h.sorted, List.pairwise_singleton _ _, fun n hn m hm => ?_⟩
      obtain rfl := List.mem_singleton.1 hm
      exact hbooks.lt hn
    · rw [hsub] at hhead
      rcases Nat.lt_or_ge pos (s.accepted i).length with hlt | hge
      · rw [List.getElem?_append_left (by omega)] at hhead hp'
        exact h.found_step hs hstep hhead hnm hp' hq₁
      · have hlt := (List.getElem?_eq_some_iff.1 hp').1
        rw [List.length_append, List.length_singleton] at hlt
        obtain rfl : pos = (s.accepted i).length := by omega
        rw [hlen', List.getElem?_concat_length] at hhead
        rw [← hlen, List.getElem?_concat_length] at hp'
        obtain rfl := Option.some.inj hhead
        obtain rfl := Option.some.inj hp'
        obtain rfl := Option.some.inj (hq'.symm.trans hq₁)
        exact hp
    · rw [hacc] at hn
      rcases Nat.lt_or_ge pos (s.accepted i).length with hlt | hge
      · rw [List.getElem?_append_left hlt] at hn
        rw [List.getElem?_append_left (by omega)] at hp'
        exact h.made pos n sqe' p' hn ((fetched_eq hs hstep hn).symm.trans hget') hp'
      · have hlt := (List.getElem?_eq_some_iff.1 hp').1
        rw [List.length_append, List.length_singleton] at hlt
        obtain rfl : pos = (s.accepted i).length := by omega
        rw [List.getElem?_concat_length] at hn
        rw [← hlen, List.getElem?_concat_length] at hp'
        obtain rfl := Option.some.inj hn
        obtain rfl := Option.some.inj hp'
        obtain ⟨more, hmore⟩ := hstep.fetched_prefix
        rw [← hmore, List.getElem?_append_left (List.getElem?_eq_some_iff.1 hget).1] at hget'
        obtain rfl := Option.some.inj (hget.symm.trans hget')
        exact len_of_asks hasks
    · obtain ⟨pos, p', hn, hp', hfits⟩ := h.carried e he
      exact ⟨pos, p', (hkept hn).1, (hkept hn).2.trans hp', hfits⟩
    · obtain ⟨n, p', hn, hrest⟩ := h.published u (hpub ▸ hu)
      exact ⟨n, p', (hkept hn).1, hrest⟩

/-- A position of which nothing was carried was not published. -/
theorem notMem_published (h : Carried excess s i asked log) (hn : (s.accepted i)[pos]? = some n)
    (hnew : n ∉ log.map Prod.fst) : pos ∉ (s.traffic i).published.map Prod.fst := by
  intro hm
  obtain ⟨u, hu, rfl⟩ := List.mem_map.1 hm
  obtain ⟨m, p, hm, hmem, -⟩ := h.published u hu
  obtain rfl := Option.some.inj (hn.symm.trans hm)
  exact hnew (List.mem_map_of_mem hmem)

/-- The device finds the data of a request of which nothing was carried. -/
theorem payload_eq (h : Carried excess s i asked log) (hs : s.Account before)
    (hq : s.net.queue i = some q) (hhead : (s.traffic i).taken[pos]? = some head)
    (hn : (s.accepted i)[pos]? = some n) (hnew : n ∉ log.map Prod.fst) :
    asked[pos]? = some (q.dataAt head) := by
  have hlt := (List.getElem?_eq_some_iff.1 hn).1
  rw [← h.length] at hlt
  obtain ⟨q₀, out, held, slot, userData, hinv, -⟩ := hs.served i
  obtain ⟨zs, hzs⟩ := hinv.traffic.ring.taken_prefix
  have hsub : (s.traffic i).submitted[pos]? = some head := by
    rw [← hzs, List.getElem?_append_left (List.getElem?_eq_some_iff.1 hhead).1, hhead]
  have hnm : pos ∉ (s.traffic i).popped := fun hm => by
    obtain ⟨u, hu, rfl⟩ := List.mem_map.1 hm
    exact h.notMem_published hn hnew (List.mem_map_of_mem (List.mem_of_mem_take hu))
  rw [h.found pos head _ q hsub hnm (List.getElem?_eq_getElem hlt) hq]
  exact List.getElem?_eq_getElem hlt

/-- The device carries a packet. -/
theorem carry (h : Carried excess s i asked log) (hs : s.Account before)
    (hq : s.net.queue i = some q) (hhead : (s.traffic i).taken[pos]? = some head)
    (hn : (s.accepted i)[pos]? = some n) (hnew : n ∉ log.map Prod.fst) {p : Packet}
    (hp : p.Fits excess i (q.dataAt head)) : Carried excess s i asked (log ++ [(n, p)]) :=
  { h with
    nodup := by
      rw [List.map_append, List.map_singleton, List.nodup_append]
      refine ⟨h.nodup, List.nodup_singleton _, fun a ha b hb => ?_⟩
      obtain rfl := List.mem_singleton.1 hb
      rintro rfl
      exact hnew ha
    carried := fun e he => by
      rcases List.mem_append.1 he with he | he
      · exact h.carried e he
      · obtain rfl := List.mem_singleton.1 he
        exact ⟨pos, _, hn, h.payload_eq hs hq hhead hn hnew, hp⟩
    published := fun u hu => by
      obtain ⟨m, p', hm, hmem, hlen⟩ := h.published u hu
      exact ⟨m, p', hm, List.mem_append_left _ hmem, hlen⟩ }

/-- The device publishes a head of queue `j`. -/
theorem publish (h : Carried excess s i asked log) (hs : s.Account before) {j : NetDir}
    {elem : UsedElem}
    (hq : s.net.queue j = some q) (hc : (s.traffic j).CanPublish pos elem)
    (hn : i = j → ∃ n p, (s.accepted j)[pos]? = some n ∧ (n, p) ∈ log ∧
      (j = .rx → elem.len.toNat = sizeOfVirtioNetHdr + (excess + p.frame.length))) :
    Carried excess { s with
      net := s.net.setQueue j (q.publishUsed elem)
      traffic := s.setTraffic j ((s.traffic j).publish pos elem) } i asked log := by
  have hstep := NetStep.publish s j q pos elem hq hc
  have hsub : ∀ i, (s.setTraffic j ((s.traffic j).publish pos elem) i).submitted =
      (s.traffic i).submitted :=
    NetState.forall_setTraffic (p := fun i tr => tr.submitted = (s.traffic i).submitted) rfl
      fun _ _ => rfl
  refine { h with
    found := fun pos' head p q' hhead hnm => h.found_step hs hstep (hsub i ▸ hhead) hnm
    published := fun u hu => ?_ }
  replace hu : u ∈ (s.setTraffic j ((s.traffic j).publish pos elem) i).published := hu
  by_cases hij : i = j
  · subst hij
    rw [NetState.setTraffic_self] at hu
    rcases List.mem_append.1 hu with hu | hu
    · exact h.published u hu
    · obtain rfl := List.mem_singleton.1 hu
      exact hn rfl
  · rw [NetState.setTraffic_of_ne s hij] at hu
    exact h.published u hu

/-- What was not carried was not completed. -/
theorem callsOf_eq_nil (h : Carried excess s i asked log) (hs : s.Account before)
    (hn : (s.accepted i)[pos]? = some n) (hnew : n ∉ log.map Prod.fst) :
    callsOf s.calls n = [] := by
  obtain ⟨order, done, place, result, hbooks⟩ := hs.books
  refine hbooks.ledger.pending _ n (hbooks.interleaved.getElem?_place hn) fun hm => ?_
  have hpop := (hbooks.interleaved.done i pos (List.getElem?_eq_some_iff.1 hn).1).1 hm
  obtain ⟨u, hu, rfl⟩ := List.mem_map.1 hpop
  exact h.notMem_published hn hnew (List.mem_map_of_mem (List.mem_of_mem_take hu))

end Carried

namespace WireState

variable {s t : WireState} {before : List (UInt64 × Int32)} {i : NetDir} {n : VirtIONet}
  {m₀ : UInt64 → UInt8}

/-- The invariant. -/
structure Inv (excess : ℕ) (s : WireState) (before : List (UInt64 × Int32)) : Prop where
  account : s.sys.Account before
  carried : ∀ i, Carried excess s.sys i (s.asked i) (s.log i)

theorem Inv.start (hn : n.Started) (m₀ : UInt64 → UInt8) :
    Inv excess (.start n m₀) n.completions :=
  ⟨.start hn, .start n⟩

/-- A packet is carried for queue `i`, and none for the other. -/
theorem Inv.carry (h : s.Inv excess before) {q : VirtQueue} {pos k : ℕ} {head : UInt16} {p : Packet}
    (hq : s.sys.net.queue i = some q) (hhead : (s.sys.traffic i).taken[pos]? = some head)
    (hk : (s.sys.accepted i)[pos]? = some k) (hnew : k ∉ (s.log i).map Prod.fst)
    (hp : p.Fits excess i (q.dataAt head)) (j : NetDir) :
    Carried excess s.sys j (s.asked j) (s.carry i k p j) := by
  by_cases hj : j = i
  · subst hj
    rw [carry_self]
    exact (h.carried j).carry h.account hq hhead hk hnew hp
  · rw [carry_of_ne s hj]
    exact h.carried j

/-- Every step keeps the invariant. -/
theorem Inv.step (h : s.Inv excess before) (hstep : WireStep excess s t) : t.Inv excess before := by
  cases hstep with
  | move u hu hp =>
    exact ⟨h.account.step hu, fun i => (h.carried i).move h.account hu (hp i)⟩
  | poke mem => exact ⟨h.account, h.carried⟩
  | send q pos k head hq hhead hk hnew hmem =>
    refine ⟨h.account, h.carry hq hhead hk hnew ⟨rfl, fun he => by simp at he, fun _ => ?_⟩⟩
    exact (List.length_drop ..).trans (congrArg (· - excess) (Bytes.length_read _ _ _))
  | receive q pos k head rest frame hq hhead hk hnew hrest hlen hmem =>
    exact ⟨h.account, h.carry hq hhead hk hnew ⟨rfl, fun _ => hrest ▸ hlen,
      fun he => by simp at he⟩⟩
  | publish j q pos k elem p hq hc hk hp hlen =>
    refine ⟨h.account.step (.publish _ j q pos elem hq hc), fun i => ?_⟩
    refine (h.carried i).publish h.account hq hc fun hij => ?_
    subst hij
    exact ⟨k, p, hk, hp, hlen⟩

/-- The invariant holds along every run. -/
theorem Inv.run (h : s.Inv excess before) (hrun : WireReach excess s t) : t.Inv excess before := by
  induction hrun with
  | refl => exact h
  | tail _ hstep ih => exact ih.step hstep

/-- The packets of a step are those of requests that were not completed before. -/
theorem Inv.continues_step (h : s.Inv excess before) (hstep : WireStep excess s t) (i : NetDir) :
    Continues s.sys.calls (s.log i) (t.log i) := by
  -- a packet for request `k` of queue `j`
  have main : ∀ {j : NetDir} {pos k : ℕ} (p : Packet), (s.sys.accepted j)[pos]? = some k →
      k ∉ (s.log j).map Prod.fst → Continues s.sys.calls (s.log i) (s.carry j k p i) := by
    intro j pos k p hk hnew
    by_cases hij : i = j
    · subst hij
      rw [carry_self]
      refine ⟨_, rfl, fun e he => ?_⟩
      obtain rfl := List.mem_singleton.1 he
      exact (h.carried i).callsOf_eq_nil h.account hk hnew
    · rw [carry_of_ne s hij]
      exact .refl _ _
  cases hstep with
  | send q pos k head hq hhead hk hnew hmem => exact main _ hk hnew
  | receive q pos k head rest frame hq hhead hk hnew hrest hlen hmem => exact main _ hk hnew
  | _ => exact .refl _ _

/-- The packets of a run are those of requests that were not completed before. -/
theorem Inv.continues_run (h : s.Inv excess before) (hrun : WireReach excess s t) (i : NetDir) :
    Continues s.sys.calls (s.log i) (t.log i) ∧ s.sys.calls <+: t.sys.calls := by
  induction hrun with
  | refl => exact ⟨.refl _ _, List.prefix_rfl⟩
  | tail hrun hstep ih =>
    refine ⟨ih.1.trans ((h.run hrun).continues_step hstep i) ih.2, ih.2.trans ?_⟩
    rcases hstep.sys with he | hsys
    · rw [he]
    · exact hsys.calls_prefix

/-- The packet `e` of queue `i` belongs to a request of its client. -/
def Owned (s : WireState) (excess : ℕ) (i : NetDir) (e : ℕ × Packet) : Prop :=
  ∃ (pos : ℕ) (sqe : Sqe) (asked : Payload), (s.sys.accepted i)[pos]? = some e.1 ∧
    s.sys.fetched[e.1]? = some sqe ∧ netDir sqe.opcode = some i ∧ (s.asked i)[pos]? = some asked ∧
      asked.len = sqe.len ∧ e.2.Fits excess i asked

/-- What the client has been told about request `k`. -/
inductive Told (s : WireState) (excess k : ℕ) (sqe : Sqe) : Prop
  | nothing (hcalls : callsOf s.sys.calls k = [])
  | failed (hlog : ∀ i, k ∉ (s.log i).map Prod.fst)
      (hcalls : callsOf s.sys.calls k = [(sqe.userData, -1)])
  | carried (i : NetDir) (p : Packet) (hi : netDir sqe.opcode = some i) (hp : (k, p) ∈ s.log i)
      (hcalls : callsOf s.sys.calls k =
        [(sqe.userData, i.result (sizeOfVirtioNetHdr + (excess + p.frame.length)))])

theorem Inv.owned (h : s.Inv excess before) (i : NetDir) {e : ℕ × Packet} (he : e ∈ s.log i) :
    s.Owned excess i e := by
  obtain ⟨order, done, place, result, hbooks⟩ := h.account.books
  obtain ⟨pos, asked, hacc, hasked, hfits⟩ := (h.carried i).carried e he
  have hmem := List.mem_of_getElem? hacc
  obtain ⟨sqe, hget⟩ := hbooks.exists_sqe hmem
  exact ⟨pos, sqe, asked, hacc, hget, hbooks.dir i e.1 sqe hmem hget, hasked,
    (h.carried i).made pos e.1 sqe asked hacc hget hasked, hfits⟩

theorem Inv.told (h : s.Inv excess before) {k : ℕ} {sqe : Sqe} (hk : s.sys.fetched[k]? = some sqe) :
    s.Told excess k sqe := by
  cases h.account.fate hk with
  | waiting hn hcalls => exact .nothing hcalls
  | rejected hn hacc hcalls =>
    refine .failed (fun i hm => hacc i ?_) hcalls
    obtain ⟨e, he, rfl⟩ := List.mem_map.1 hm
    obtain ⟨pos, asked, hpos, -⟩ := (h.carried i).carried e he
    exact List.mem_of_getElem? hpos
  | pending i d1 d2 hp hcalls => exact .nothing hcalls
  | completed i pos elem hi hacc hpos hcalls =>
    obtain ⟨n, p, hn, hp, hlen⟩ := (h.carried i).published _ (List.mem_of_mem_take hpos)
    obtain rfl := Option.some.inj (hacc.symm.trans hn)
    refine .carried i p hi hp ?_
    rw [hcalls]
    cases i with
    | rx => rw [hlen rfl]
    | tx => rfl

end WireState

/-- **The network driver and the wire.**  Whatever the client, the driver and the device do, as long
as the device finds the data of the requests outside of the driver's pages: each packet belongs to
one request, of which the device found the data where the driver had put them; what was sent is as
long as the client asked for, and what was received is not longer, less the bytes that the device
takes for its header.  A request has one completion at most: -1 if no packet was carried for it, and
else 0 for a sent packet and for a received one its length and those bytes; and a packet is carried
before the completion.  The requests are in the queues in the order in which they were fetched. -/
theorem net_wire (dev : VirtIODevice) {n : VirtIONet} (hn : n.Started) {m₀ : UInt64 → UInt8}
    {s t : WireState} (hs : WireReach (headerExcess dev) (.start n m₀) s)
    (ht : WireReach (headerExcess dev) s t) :
    (∀ i, ((s.log i).map Prod.fst).Nodup ∧ (∀ e ∈ s.log i, s.Owned (headerExcess dev) i e) ∧
      (s.sys.accepted i).Pairwise (· < ·) ∧ Continues s.sys.calls (s.log i) (t.log i)) ∧
    ∀ k sqe, s.sys.fetched[k]? = some sqe → s.Told (headerExcess dev) k sqe := by
  have h := (WireState.Inv.start hn m₀).run hs
  exact ⟨fun i => ⟨(h.carried i).nodup, fun e he => h.owned i he, (h.carried i).sorted,
    (h.continues_run ht i).1⟩, fun k sqe hk => h.told hk⟩

/-! ### Received packets -/

namespace WireState

variable {s t u : WireState} {before : List (UInt64 × Int32)} {i : NetDir} {n : VirtIONet}
  {m₀ : UInt64 → UInt8}

/-- A step in which the client leaves the bytes in `A` alone: only a received packet changes
them. -/
structure Calm (excess : ℕ) (A : Set UInt64) (s t : WireState) : Prop where
  step : WireStep excess s t
  mem : t.log .rx = s.log .rx → ∀ x ∈ A, t.mem x = s.mem x

theorem calm_run {A : Set UInt64} (h : Relation.ReflTransGen (Calm excess A) s t) :
    WireReach excess s t :=
  Relation.ReflTransGen.mono (show Calm excess A ≤ WireStep excess from
    fun _ _ hstep => hstep.step) _ _ h

/-- Requests keep their numbers and their data. -/
theorem Inv.step_kept (h : s.Inv excess before) (hstep : WireStep excess s t) (i : NetDir) :
    s.sys.accepted i <+: t.sys.accepted i ∧ s.asked i <+: t.asked i := by
  cases hstep with
  | move u hu hp =>
    refine ⟨?_, List.prefix_append _ _⟩
    cases hu.adds h.account i with
    | nothing ha hsub => rw [ha]
    | request ha hget hsub hasks hq hpay =>
      rw [ha]
      exact List.prefix_append _ _
  | _ => exact ⟨List.prefix_rfl, List.prefix_rfl⟩

/-- No packet is stored in the bytes of `A` but those of requests that `done` has. -/
def Spares (s : WireState) (A : Set UInt64) (done : List ℕ) : Prop :=
  ∀ (pos k : ℕ) (asked : Payload), (s.sys.accepted .rx)[pos]? = some k →
    (s.asked .rx)[pos]? = some asked → k ∉ done → Disjoint (Bytes.span asked.addr asked.len.toNat) A

theorem Inv.spares_of_step (h : s.Inv excess before) (hstep : WireStep excess s t) {A : Set UInt64}
    {done : List ℕ} (hsp : t.Spares A done) : s.Spares A done := by
  intro pos k asked hk hasked hdone
  obtain ⟨hacc, has⟩ := h.step_kept hstep .rx
  refine hsp pos k asked ?_ ?_ hdone
  · obtain ⟨more, hmore⟩ := hacc
    rw [← hmore, List.getElem?_append_left (List.getElem?_eq_some_iff.1 hk).1, hk]
  · obtain ⟨more, hmore⟩ := has
    rw [← hmore, List.getElem?_append_left (List.getElem?_eq_some_iff.1 hasked).1, hasked]

/-- A step leaves the bytes alone that neither the client nor a packet changes. -/
theorem Inv.mem_step (h : s.Inv excess before) {A : Set UInt64} {done : List ℕ}
    (hstep : Calm excess A s t) (hdone : done ⊆ (s.log .rx).map Prod.fst) (hsp : t.Spares A done) :
    ∀ x ∈ A, t.mem x = s.mem x := by
  have hsp := h.spares_of_step hstep.step hsp
  have hmem := hstep.mem
  cases hstep.step with
  | receive q pos k head rest frame hq hhead hk hnew hrest hlen hdma =>
    intro x hx
    have hdis := hsp pos k _ hk ((h.carried .rx).payload_eq h.account hq hhead hk hnew)
      fun hm => hnew (hdone hm)
    have hout : x ∉ Bytes.span (q.dataAt head).addr (q.dataAt head).len.toNat :=
      fun hx' => Set.disjoint_left.1 hdis hx' hx
    rw [← List.length_append] at hlen
    exact Bytes.write_of_le (hlen.trans (Nat.not_lt.1 hout))
  | send q pos k head hq hhead hk hnew hdma => exact fun _ _ => rfl
  | move u hu hp => exact fun _ _ => rfl
  | poke mem => exact hmem rfl
  | publish j q pos k elem p hq hc hk hp hlen => exact fun _ _ => rfl

/-- The run lemma for it. -/
theorem Inv.mem_run (h : s.Inv excess before) {A : Set UInt64} {done : List ℕ}
    (hrun : Relation.ReflTransGen (Calm excess A) s t) (hdone : done ⊆ (s.log .rx).map Prod.fst)
    (hsp : t.Spares A done) : ∀ x ∈ A, t.mem x = s.mem x := by
  induction hrun with
  | refl => exact fun _ _ => rfl
  | @tail u v hrun hstep ih =>
    have hu := h.run (calm_run hrun)
    obtain ⟨⟨later, hlater, -⟩, -⟩ := h.continues_run (calm_run hrun) .rx
    have hdone' : done ⊆ (u.log .rx).map Prod.fst := by
      rw [hlater, List.map_append]
      exact fun m hm => List.mem_append_left _ (hdone hm)
    intro x hx
    exact (hu.mem_step hstep hdone' hsp x hx).trans
      (ih (hu.spares_of_step hstep.step hsp) x hx)

/-- What a step stores when it receives a packet. -/
theorem received_step (hstep : WireStep excess s t) {k : ℕ} {p : Packet}
    (hlog : t.log .rx = s.log .rx ++ [(k, p)]) :
    Bytes.read t.mem (p.payload.addr + UInt64.ofNat excess) p.frame.length = p.frame := by
  have hne : ∀ {l : List (ℕ × Packet)}, l ≠ l ++ [(k, p)] := by
    intro l he
    have := congrArg List.length he
    simp at this
  cases hstep with
  | receive q pos m head rest frame hq hhead hk hnew hrest hlen hdma =>
    replace hlog : s.carry .rx m _ .rx = _ := hlog
    rw [carry_self] at hlog
    obtain ⟨rfl, rfl⟩ : m = k ∧ ⟨q.dataAt head, frame⟩ = p := by simpa using hlog
    subst hrest
    refine Bytes.read_write_behind _ _ (hlen.trans ?_)
    have := (q.dataAt head).len.toNat_lt
    omega
  | send q pos m head hq hhead hk hnew hdma =>
    have hsame := carry_of_ne s (show NetDir.rx ≠ .tx by decide) m
      (s.packetAt excess (q.dataAt head))
    exact absurd (hsame.symm.trans hlog) hne
  | move u hu hp => exact absurd hlog hne
  | poke mem => exact absurd hlog hne
  | publish j q pos m elem p' hq hc hk hp hlen => exact absurd hlog hne

end WireState

/-- Where a received packet is, behind the bytes that the header takes. -/
def Packet.place (p : Packet) (dev : VirtIODevice) : UInt64 :=
  p.payload.addr + UInt64.ofNat (headerExcess dev)

/-- **The client reads the packet that was received.**  The device stores a packet for READ `k`.
As long as the client leaves these bytes alone and no other buffer overlaps them that is still to be
filled, they are the packet; and when the READ is completed, then with the packet's length and that
of the bytes before it that the header took. -/
theorem net_received (dev : VirtIODevice) {n : VirtIONet} (hn : n.Started) {m₀ : UInt64 → UInt8}
    {s t u : WireState} (hs : WireReach (headerExcess dev) (.start n m₀) s)
    (hstep : WireStep (headerExcess dev) s t) {k : ℕ} {p : Packet}
    (hlog : t.log .rx = s.log .rx ++ [(k, p)])
    (hrun : Relation.ReflTransGen
      (WireState.Calm (headerExcess dev) (Bytes.span (p.place dev) p.frame.length)) t u)
    (hsp : u.Spares (Bytes.span (p.place dev) p.frame.length) ((t.log .rx).map Prod.fst)) :
    Bytes.read u.mem (p.place dev) p.frame.length = p.frame ∧
      ∀ sqe, u.sys.fetched[k]? = some sqe → callsOf u.sys.calls k = [] ∨
        callsOf u.sys.calls k = [(sqe.userData,
          NetDir.rx.result (sizeOfVirtioNetHdr + (headerExcess dev + p.frame.length)))] := by
  have ht := ((WireState.Inv.start hn m₀).run hs).step hstep
  have hu := ht.run (WireState.calm_run hrun)
  constructor
  · rw [Bytes.read_congr (ht.mem_run hrun (List.Subset.refl _) hsp)]
    exact WireState.received_step hstep hlog
  intro sqe hk
  obtain ⟨⟨later, hlater, -⟩, -⟩ := ht.continues_run (WireState.calm_run hrun) .rx
  have hmem : (k, p) ∈ u.log .rx := by
    rw [hlater, hlog]
    simp
  obtain ⟨pos, sqe', asked, -, hget, hdir, -⟩ := hu.owned .rx hmem
  obtain rfl := Option.some.inj (hk.symm.trans hget)
  cases hu.told hk with
  | nothing hcalls => exact .inl hcalls
  | failed hno hcalls => exact absurd (List.mem_map_of_mem hmem) (hno .rx)
  | carried i p' hi hp' hcalls =>
    obtain rfl := Option.some.inj (hdir.symm.trans hi)
    have hpp := List.inj_on_of_nodup_map (hu.carried .rx).nodup hmem hp' rfl
    obtain rfl := (Prod.mk.inj hpp).2
    exact .inr hcalls

/-! ### One packet -/

namespace WireState

/-- A step of the driver that publishes nothing. -/
theorem exists_move {s : WireState} {u v : NetState} (hs : s.sys = u) (h : NetStep u v)
    (hp : ∀ i, (v.traffic i).published = (u.traffic i).published) :
    ∃ t, WireStep excess s t ∧ t.sys = v ∧ t.mem = s.mem ∧ t.log = s.log ∧
      ∀ i, t.asked i = s.asked i ++ u.newlyAsked v i := by
  subst hs
  exact ⟨_, .move s v h hp, rfl, rfl, rfl, fun _ => rfl⟩

/-- The driver has submitted a buffer for a packet. -/
theorem exists_asked :
    ∃ s : WireState, WireReach excess (.start (.initial (some sharedPage)) fun _ => 0) s ∧
      s.sys.phase = .idle ∧ s.sys.fetched = [packetBuffer] ∧
      s.sys.net.ringServer = some ⟨[], []⟩ ∧ s.sys.net.dmaPaddr = 0 ∧
      s.sys.accepted .rx = [0] ∧ s.asked .rx = [⟨0x80000000, 1500⟩] ∧ s.log .rx = [] ∧
      ∃ d1, s.sys.traffic .rx = Traffic.init.submit d1 := by
  obtain ⟨q, d1, d2, rest, h, hids⟩ := fetchedOne_free packetBuffer .rx
  have hd : dataPaddr (some sharedPage) packetBuffer = some 0x80000000 := by decide
  obtain ⟨q', idx, hsub, havail, -⟩ := h.submit_ok hids hd
  have hsub := (submitSqe_eq (show netDir packetBuffer.opcode = some .rx from rfl)).trans hsub
  let n₀ : VirtIONet := .initial (some sharedPage)
  let u₀ : NetState := .start n₀
  let u₁ : NetState := { u₀ with net := { n₀ with ringServer := some ⟨[packetBuffer], []⟩ } }
  have h₁ : NetStep u₀ u₁ := .client u₀ ⟨[], []⟩ packetBuffer rfl
  have h₂ : NetStep u₁ (fetchedOne packetBuffer) := .fetch u₁ ⟨[packetBuffer], []⟩ rfl rfl
  have h₃ := NetStep.accept (fetchedOne packetBuffer) packetBuffer [] .rx _ q q' rfl hsub rfl
    h.queue (entered_queue _ _ _ _ _ _)
  obtain ⟨s₁, hs₁, hsys, hmem, hlog, hasked⟩ := exists_move
    (s := .start n₀ fun _ => 0) rfl h₁ fun _ => rfl
  obtain ⟨s₂, hs₂, hsys₂, -, hlog₂, hasked₂⟩ := exists_move hsys h₂ fun _ => rfl
  obtain ⟨s₃, hs₃, hsys₃, -, hlog₃, hasked₃⟩ := exists_move hsys₂ h₃
    (NetState.forall_setTraffic (p := fun i tr => tr.published = _) rfl fun _ _ => rfl)
  obtain ⟨s₄, hs₄, hsys₄, -, hlog₄, hasked₄⟩ := exists_move hsys₃ (.submitted _ rfl) fun _ => rfl
  refine ⟨s₄, (((Relation.ReflTransGen.single hs₁).tail hs₂).tail hs₃).tail hs₄, ?_⟩
  rw [hsys₄, hlog₄, hlog₃, hlog₂, hlog, hasked₄, hasked₃, hasked₂, hasked]
  refine ⟨rfl, rfl, rfl, rfl, ?_, ?_, rfl, d1, ?_⟩
  · rfl
  · rfl
  · show (fetchedOne packetBuffer).setTraffic .rx _ .rx = _
    rw [NetState.setTraffic_self, havail]
    rfl

/-- The device stores `frame` in the buffer. -/
theorem exists_stored {frame : List UInt8} (hlen : excess + frame.length ≤ 1500) :
    ∃ s t head, WireReach excess (.start (.initial (some sharedPage)) fun _ => 0) s ∧
      WireStep excess s t ∧ t.log .rx = s.log .rx ++ [(0, ⟨⟨0x80000000, 1500⟩, frame⟩)] ∧
      t.sys.phase = .idle ∧ t.sys.fetched = [packetBuffer] ∧
      t.sys.net.ringServer = some ⟨[], []⟩ ∧ t.sys.accepted .rx = [0] ∧
      (t.sys.traffic .rx).taken[0]? = some head ∧ (t.sys.traffic .rx).published = [] ∧
      (t.sys.traffic .rx).pops = 0 := by
  obtain ⟨s, hs, hidle, hfetched, hserver, hbase, hacc, hasked, hlog, d1, htr⟩ :=
    @exists_asked excess
  have hinv := (Inv.start (started_initial (some sharedPage)) fun _ => 0).run hs
  have hrest := List.length_replicate (n := excess) (a := (0 : UInt8))
  obtain ⟨q, out, held, slot, userData, hq, -⟩ := hinv.account.served .rx
  -- the device reads the head
  have hne : (s.sys.traffic .rx).devAvail ≠ q.mem.availIdx := fun he => by
    have heq := congrArg List.length (hq.traffic.ring.devAvail_eq.1 he)
    rw [htr] at heq
    exact absurd heq Nat.zero_ne_one
  obtain ⟨t, ht, hsys, -, hlogt, haskedt⟩ := exists_move rfl
    (NetStep.take s.sys .rx q hq.queue hne)
    (NetState.forall_setTraffic (p := fun i tr => tr.published = _) rfl fun _ _ => rfl)
  have hinvt := hinv.step ht
  have htrt : t.sys.traffic .rx = (s.sys.traffic .rx).take q := by
    rw [hsys]
    exact s.sys.setTraffic_self .rx _
  have hqt : t.sys.net.queue .rx = some q := by
    rw [hsys]
    exact hq.queue
  have hacct : t.sys.accepted .rx = [0] := by
    rw [hsys]
    exact hacc
  have hnew : 0 ∉ (t.log .rx).map Prod.fst := by simp [hlogt, hlog]
  have hhead : (t.sys.traffic .rx).taken[0]? = some (q.readAvail (s.sys.traffic .rx).devAvail) := by
    rw [htrt, htr]
    rfl
  have hzero : (t.sys.accepted .rx)[0]? = some 0 := by
    rw [hacct]
    rfl
  -- it finds the buffer, and stores the packet
  have hpay := (hinvt.carried .rx).payload_eq hinvt.account hqt hhead hzero hnew
  rw [haskedt, hasked] at hpay
  have hpay := (Option.some.inj hpay).symm
  have hdis := Bytes.disjoint_span (a := 0) (d := 0) (e := 0x80000000) (k := 16384) (n := 1500)
    (by decide) (by decide)
  have hrecv := WireStep.receive t q 0 0 _ _ frame hqt hhead hzero hnew hrest
    (by rw [hrest, hpay]; exact hlen) (by
      rw [Outside, hpay, hsys]
      exact hbase ▸ hdis.symm)
  rw [hpay] at hrecv
  refine ⟨t, _, _, hs.tail ht, hrecv, t.carry_self .rx 0 _, ?_, ?_, ?_, hacct, hhead, ?_, ?_⟩
  · exact (congrArg NetState.phase hsys).trans hidle
  · exact (congrArg NetState.fetched hsys).trans hfetched
  · exact (congrArg (fun u => u.net.ringServer) hsys).trans hserver
  · show (t.sys.traffic .rx).published = []
    rw [htrt, htr]
    rfl
  · show (t.sys.traffic .rx).pops = 0
    rw [htrt, htr]
    rfl

/-- The device publishes the buffer, and an interrupt completes the request. -/
theorem Inv.exists_popped {t : WireState} {before : List (UInt64 × Int32)} (h : t.Inv excess before)
    {head : UInt16} {p : Packet} (hidle : t.sys.phase = .idle)
    (hserver : t.sys.net.ringServer = some ⟨[], []⟩) (hacc : t.sys.accepted .rx = [0])
    (hhead : (t.sys.traffic .rx).taken[0]? = some head)
    (hpub : (t.sys.traffic .rx).published = []) (hpops : (t.sys.traffic .rx).pops = 0)
    (hp : (0, p) ∈ t.log .rx) (hlen : excess + p.frame.length ≤ 1500) (A : Set UInt64) :
    ∃ u, Relation.ReflTransGen (Calm excess A) t u ∧ u.sys.fetched = t.sys.fetched ∧
      u.sys.accepted = t.sys.accepted ∧ (u.sys.traffic .rx).pops = 1 := by
  obtain ⟨q, out, held, slot, userData, hq, -⟩ := h.account.served .rx
  let elem : UsedElem := ⟨head.toUInt32, UInt32.ofNat (10 + (excess + p.frame.length))⟩
  have hc : (t.sys.traffic .rx).CanPublish 0 elem := by
    refine ⟨?_, head, hhead, rfl⟩
    rw [hpub]
    exact List.not_mem_nil
  have h₁ := WireStep.publish t .rx q 0 0 elem p hq.queue hc (by rw [hacc]; rfl) hp fun _ => by
    show (UInt32.ofNat (10 + (excess + p.frame.length))).toNat = _
    rw [UInt32.toNat_ofNat', Nat.mod_eq_of_lt (by omega)]
    rfl
  set v : WireState := { t with sys := { t.sys with
    net := t.sys.net.setQueue .rx (q.publishUsed elem)
    traffic := t.sys.setTraffic .rx ((t.sys.traffic .rx).publish 0 elem) } }
  -- it raises the interrupt, which the driver takes
  obtain ⟨v₁, h₂, hsys₁, hmem₁, -⟩ := exists_move (s := v) rfl (.raise v.sys 1) fun _ => rfl
  have hirq := NetStep.irq v₁.sys (by rw [hsys₁]; exact hidle)
  have hgo : v₁.sys.net.transport.interruptAck.1 = true ∧ v₁.sys.net.ringServer.isSome = true := by
    rw [hsys₁]
    constructor
    · simp [Transport.interruptAck]
    · exact congrArg Option.isSome hserver
  rw [if_pos hgo] at hirq
  obtain ⟨v₂, h₃, hsys₂, hmem₂, -⟩ := exists_move rfl hirq fun _ => rfl
  -- the driver pops the entry
  have htr : v₂.sys.traffic .rx = (t.sys.traffic .rx).publish 0 elem := by
    rw [hsys₂, hsys₁]
    exact t.sys.setTraffic_self .rx _
  obtain ⟨q₂, out₂, held₂, slot₂, userData₂, hq₂, -⟩ :=
    (((h.step h₁).step h₂).step h₃).account.served .rx
  obtain ⟨r, -, e1, e2, q₃, -, -, hpop, -⟩ := hq₂.pop_some (by
    rw [htr]
    show (t.sys.traffic .rx).pops < ((t.sys.traffic .rx).published ++ [(0, elem)]).length
    rw [hpops, hpub]
    exact Nat.zero_lt_one)
  obtain ⟨v₃, h₄, hsys₃, hmem₃, -⟩ := exists_move rfl
    (NetStep.pop v₂.sys .rx _ (by rw [hsys₂]) hpop)
    (NetState.forall_setTraffic (p := fun i tr => tr.published = _) rfl fun _ _ => rfl)
  refine ⟨v₃, ?_, ?_, ?_, ?_⟩
  · have hcalm₁ : Calm excess A t v := ⟨h₁, fun _ _ _ => rfl⟩
    have hcalm₂ : Calm excess A v v₁ := ⟨h₂, fun _ x _ => congrFun hmem₁ x⟩
    have hcalm₃ : Calm excess A v₁ v₂ := ⟨h₃, fun _ x _ => congrFun hmem₂ x⟩
    have hcalm₄ : Calm excess A v₂ v₃ := ⟨h₄, fun _ x _ => congrFun hmem₃ x⟩
    exact (((Relation.ReflTransGen.single hcalm₁).tail hcalm₂).tail hcalm₃).tail hcalm₄
  · rw [hsys₃]
    show v₂.sys.fetched = t.sys.fetched
    rw [hsys₂, hsys₁]
  · rw [hsys₃]
    show v₂.sys.accepted = t.sys.accepted
    rw [hsys₂, hsys₁]
  · rw [hsys₃]
    refine (congrArg Traffic.pops (v₂.sys.setTraffic_self .rx _)).trans ?_
    show (v₂.sys.traffic .rx).pops + 1 = 1
    rw [htr]
    exact congrArg (· + 1) hpops

/-- The packet is received, and the READ is completed. -/
theorem exists_received (frame : List UInt8) (hlen : excess + frame.length ≤ 1500)
    (A : Set UInt64) :
    ∃ s t u, WireReach excess (.start (.initial (some sharedPage)) fun _ => 0) s ∧
      WireStep excess s t ∧ t.log .rx = s.log .rx ++ [(0, ⟨⟨0x80000000, 1500⟩, frame⟩)] ∧
      Relation.ReflTransGen (Calm excess A) t u ∧ u.Spares A ((t.log .rx).map Prod.fst) ∧
      u.sys.fetched = [packetBuffer] ∧ (u.sys.traffic .rx).pops = 1 := by
  obtain ⟨s, t, head, hs, hstep, hlog, hidle, hfetched, hserver, hacc, hhead, hpub, hpops⟩ :=
    exists_stored hlen
  have hinv := ((Inv.start (started_initial (some sharedPage)) fun _ => 0).run hs).step hstep
  obtain ⟨u, hrun, hf, ha, hp⟩ := hinv.exists_popped hidle hserver hacc hhead hpub hpops
    (p := ⟨⟨0x80000000, 1500⟩, frame⟩) (by rw [hlog]; simp) hlen A
  refine ⟨s, t, u, hs, hstep, hlog, hrun, fun pos k asked hk _ hdone => ?_, hf.trans hfetched, hp⟩
  rw [ha, hacc] at hk
  obtain rfl : k = 0 := by simpa using List.mem_of_getElem? hk
  exact absurd (by rw [hlog]; simp) hdone

end WireState

/-- A packet of 64 bytes is received by a device that offers nothing, and the READ is completed. -/
theorem net_wire_packet :
    ∃ s, WireReach (headerExcess (offering 0).dev)
        (.start (.initial (some sharedPage)) fun _ => 0) s ∧
      (0, ⟨⟨0x80000000, 1500⟩, List.replicate 64 0x55⟩) ∈ s.log .rx ∧
      (s.sys.traffic .rx).pops = 1 ∧ s.Told 0 0 packetBuffer := by
  obtain ⟨s, t, u, hs, hstep, hlog, hrun, -, hfetched, hpops⟩ :=
    WireState.exists_received (List.replicate 64 0x55)
      (show headerExcess (offering 0).dev + _ ≤ 1500 by decide) ∅
  have hreach := (hs.tail hstep).trans (WireState.calm_run hrun)
  obtain ⟨⟨later, hlater, -⟩, -⟩ := ((WireState.Inv.start (started_initial (some sharedPage))
    fun _ => 0).run (hs.tail hstep)).continues_run (WireState.calm_run hrun) .rx
  refine ⟨u, hreach, ?_, hpops, ?_⟩
  · rw [hlater, hlog]
    simp
  · exact (net_wire (offering 0).dev (started_initial (some sharedPage)) hreach .refl).2 0
      packetBuffer (by rw [hfetched]; rfl)

/-- The client finds the packet in its buffer, behind two bytes of the header of a device that
offers VIRTIO_F_VERSION_1. -/
theorem net_received_packet :
    ∃ u, WireReach (headerExcess (offering VirtIOGpu.virtioFVersion1).dev)
        (.start (.initial (some sharedPage)) fun _ => 0) u ∧
      (u.sys.traffic .rx).pops = 1 ∧
      Bytes.read u.mem 0x80000002 64 = List.replicate 64 0x55 := by
  obtain ⟨s, t, u, hs, hstep, hlog, hrun, hsp, hfetched, hpops⟩ :=
    WireState.exists_received (List.replicate 64 0x55)
      (show headerExcess (offering VirtIOGpu.virtioFVersion1).dev + _ ≤ 1500 by decide)
      (Bytes.span 0x80000002 64)
  exact ⟨u, (hs.tail hstep).trans (WireState.calm_run hrun), hpops,
    (net_received _ (started_initial (some sharedPage)) hs hstep hlog hrun hsp).1⟩

end GlendaDrivers
