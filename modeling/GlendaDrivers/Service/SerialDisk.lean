import GlendaDrivers.Lib.Journal
import GlendaDrivers.Virtio.Ledger

/-!
# Block drivers as serial disks

What the clients of a block driver rely on, whatever the driver does: the requests take effect on
the disk one after the other, each at most once, after it was fetched and before it is completed.

* `SerialDisk`: the disk is what the requests of a log made of it, and the completions tell which
  requests are in the log;
* `Continues`: what takes effect later was not completed before;
* `SerialDisk.read_written`: a client reads what it wrote.
-/

namespace GlendaDrivers

open BlockDisk

/-- The transfer that `sqe` asks of a disk whose sectors have `size` bytes. -/
def Sqe.transfer (sqe : Sqe) (size : ℕ) : Transfer :=
  ⟨sqe.off.toNat * size, sqe.len.toNat, sqe.opcode = .write⟩

/-- A READ or a WRITE. -/
def Sqe.Moving (sqe : Sqe) : Prop := sqe.opcode = .read ∨ sqe.opcode = .write

/-- The requests of `log` took effect on the disk one after the other, and left `d` of `d₀`.
Requests have their numbers in the order in which they were fetched, and a request that took
effect is completed with `ok`. -/
structure SerialDisk (size : ℕ) (ok : Sqe → Int32) (d₀ d : List UInt8) (fetched : List Sqe)
    (calls : List (ℕ × UInt64 × Int32)) (log : List (ℕ × Moved)) : Prop where
  journal : Journal d₀ (log.map Prod.snd) d
  once : (log.map Prod.fst).Nodup
  asked : ∀ e ∈ log, ∃ sqe, fetched[e.1]? = some sqe ∧ sqe.Moving ∧
    e.2.transfer = sqe.transfer size
  told : ∀ n sqe, fetched[n]? = some sqe →
    callsOf calls n = [] ∨
    n ∈ log.map Prod.fst ∧ callsOf calls n = [(sqe.userData, ok sqe)] ∨
    n ∉ log.map Prod.fst ∧ ∃ v, callsOf calls n = [(sqe.userData, v)] ∧ (sqe.Moving → v < 0)

/-- The log goes on with requests that were not completed at the time of `calls`. -/
def Continues {α : Type*} (calls : List (ℕ × UInt64 × Int32)) (log log' : List (ℕ × α)) : Prop :=
  ∃ later, log' = log ++ later ∧ ∀ e ∈ later, callsOf calls e.1 = []

namespace Continues

variable {α : Type*} {calls calls' : List (ℕ × UInt64 × Int32)} {log log' log'' : List (ℕ × α)}

theorem refl (calls : List (ℕ × UInt64 × Int32)) (log : List (ℕ × α)) :
    Continues calls log log := ⟨[], (List.append_nil log).symm, fun _ he => nomatch he⟩

/-- A request that was completed before has no new calls. -/
theorem trans (h : Continues calls log log') (h' : Continues calls' log' log'')
    (hcalls : calls <+: calls') : Continues calls log log'' := by
  obtain ⟨later, rfl, hlater⟩ := h
  obtain ⟨later', rfl, hlater'⟩ := h'
  obtain ⟨more, rfl⟩ := hcalls
  refine ⟨later ++ later', List.append_assoc _ _ _, fun e he => ?_⟩
  rcases List.mem_append.1 he with he | he
  · exact hlater e he
  · have hnil := hlater' e he
    rw [callsOf_append] at hnil
    exact (List.append_eq_nil_iff.1 hnil).1

end Continues

namespace SerialDisk

variable {size : ℕ} {ok : Sqe → Int32} {d₀ d : List UInt8} {fetched : List Sqe}
  {calls : List (ℕ × UInt64 × Int32)} {log : List (ℕ × Moved)}

/-- The requests of the log were fetched. -/
theorem lt_length (h : SerialDisk size ok d₀ d fetched calls log) {n : ℕ}
    (hn : n ∈ log.map Prod.fst) : n < fetched.length := by
  obtain ⟨e, he, rfl⟩ := List.mem_map.1 hn
  obtain ⟨sqe, hsqe, -⟩ := h.asked e he
  exact (List.getElem?_eq_some_iff.1 hsqe).1

/-- A request that was completed with a result that is not negative took effect. -/
theorem mem_of_done (h : SerialDisk size ok d₀ d fetched calls log) {n : ℕ} {sqe : Sqe}
    {v : Int32} (hn : fetched[n]? = some sqe) (hm : sqe.Moving)
    (hdone : callsOf calls n = [(sqe.userData, v)]) (hv : 0 ≤ v) : n ∈ log.map Prod.fst := by
  rcases h.told n sqe hn with hnil | ⟨hmem, -⟩ | ⟨-, w, hw, hneg⟩
  · rw [hdone] at hnil
    cases hnil
  · exact hmem
  · rw [hdone] at hw
    obtain ⟨hw, -⟩ := List.cons.inj hw
    obtain rfl := (Prod.mk.inj hw).2
    exact absurd (hneg hm) (Int32.not_lt.2 hv)

section Next

variable {sqe : Sqe} {calls' : List (ℕ × UInt64 × Int32)}
  (hold : ∀ n < fetched.length, callsOf calls' n = callsOf calls n)

/-- A request of a longer list is an old one or the new one. -/
theorem getElem?_concat {n : ℕ} {sqe' : Sqe} (h : (fetched ++ [sqe])[n]? = some sqe') :
    n < fetched.length ∧ fetched[n]? = some sqe' ∨ n = fetched.length ∧ sqe = sqe' := by
  rcases Nat.lt_or_ge n fetched.length with hlt | hge
  · rw [List.getElem?_append_left hlt] at h
    exact .inl ⟨hlt, h⟩
  · rw [List.getElem?_append_right hge, List.getElem?_singleton] at h
    split_ifs at h with hz
    exact .inr ⟨by omega, Option.some.inj h⟩

include hold

/-- The next request takes no effect. -/
theorem skip (h : SerialDisk size ok d₀ d fetched calls log)
    (hnew : callsOf calls' fetched.length = [] ∨
      ∃ v, callsOf calls' fetched.length = [(sqe.userData, v)] ∧ (sqe.Moving → v < 0)) :
    SerialDisk size ok d₀ d (fetched ++ [sqe]) calls' log where
  journal := h.journal
  once := h.once
  asked e he := by
    obtain ⟨sqe', hget, hrest⟩ := h.asked e he
    refine ⟨sqe', ?_, hrest⟩
    rw [List.getElem?_append_left (List.getElem?_eq_some_iff.1 hget).1]
    exact hget
  told n sqe' hn := by
    rcases getElem?_concat hn with ⟨hlt, hn⟩ | ⟨rfl, rfl⟩
    · rw [hold n hlt]
      exact h.told n sqe' hn
    · exact hnew.imp_right fun hv => .inr ⟨fun hm => (h.lt_length hm).ne rfl, hv⟩

/-- The next request takes effect. -/
theorem serve {d' : List UInt8} {m : Moved} (h : SerialDisk size ok d₀ d fetched calls log)
    (hm : m.Makes d d') (ht : m.transfer = sqe.transfer size) (hmoving : sqe.Moving)
    (hnew : callsOf calls' fetched.length = [] ∨
      callsOf calls' fetched.length = [(sqe.userData, ok sqe)]) :
    SerialDisk size ok d₀ d' (fetched ++ [sqe]) calls' (log ++ [(fetched.length, m)]) where
  journal := by
    rw [List.map_append]
    exact h.journal.snoc hm
  once := by
    rw [List.map_append, List.map_singleton]
    refine List.Nodup.append h.once (List.nodup_singleton _) fun n hn hn' => ?_
    exact (h.lt_length hn).ne (List.mem_singleton.1 hn')
  asked e he := by
    rcases List.mem_append.1 he with he | he
    · obtain ⟨sqe', hget, hrest⟩ := h.asked e he
      refine ⟨sqe', ?_, hrest⟩
      rw [List.getElem?_append_left (List.getElem?_eq_some_iff.1 hget).1]
      exact hget
    · obtain rfl := List.mem_singleton.1 he
      exact ⟨sqe, List.getElem?_concat_length, hmoving, ht⟩
  told n sqe' hn := by
    rw [List.map_append, List.map_singleton, List.mem_append, List.mem_singleton]
    rcases getElem?_concat hn with ⟨hlt, hn⟩ | ⟨rfl, rfl⟩
    · rw [hold n hlt, or_iff_left hlt.ne]
      exact h.told n sqe' hn
    · exact hnew.imp_right fun hok => .inl ⟨.inr rfl, hok⟩

end Next

/-- A READ moves what a WRITE to the same bytes moved, if no request between the two in the log
writes there. -/
theorem data_eq {a mid b : List (ℕ × Moved)} {ew er : ℕ × Moved} {w r : Sqe}
    (h : SerialDisk size ok d₀ d fetched calls (a ++ ew :: mid ++ er :: b))
    (hw : fetched[ew.1]? = some w) (hr : fetched[er.1]? = some r) (hwop : w.opcode = .write)
    (hrop : r.opcode = .read) (hoff : r.off = w.off) (hlen : r.len = w.len)
    (hmid : ∀ e ∈ mid, ∀ sqe, fetched[e.1]? = some sqe → sqe.opcode = .write →
      Disjoint (sqe.transfer size).bytes (w.transfer size).bytes) :
    ∃ data, ew.2 = ⟨w.transfer size, data⟩ ∧ er.2 = ⟨r.transfer size, data⟩ := by
  obtain ⟨w', hw', -, hwt⟩ := h.asked ew (by simp)
  obtain ⟨r', hr', -, hrt⟩ := h.asked er (by simp)
  obtain rfl := Option.some.inj (hw.symm.trans hw')
  obtain rfl := Option.some.inj (hr.symm.trans hr')
  have hsplit : (a ++ ew :: mid ++ er :: b).map Prod.snd =
      a.map Prod.snd ++ ew.2 :: mid.map Prod.snd ++ er.2 :: b.map Prod.snd := by simp
  have hsame : er.2.data = ew.2.data := by
    refine (hsplit ▸ h.journal).read_written ?_ ?_ ?_ ?_ fun m hm hdir => ?_
    · simp [hwt, Sqe.transfer, hwop]
    · simp [hrt, Sqe.transfer, hrop]
    · simp [hwt, hrt, Sqe.transfer, hoff]
    · simp [hwt, hrt, Sqe.transfer, hlen]
    · obtain ⟨e, he, rfl⟩ := List.mem_map.1 hm
      obtain ⟨sqe, hsqe, -, ht⟩ := h.asked e (by simp [he])
      have hbytes : (r.transfer size).bytes = (w.transfer size).bytes := by
        simp only [Transfer.bytes, Sqe.transfer, hoff, hlen]
      rw [ht] at hdir ⊢
      rw [hrt, hbytes]
      exact hmid e he sqe hsqe (by simpa [Sqe.transfer] using hdir)
  refine ⟨ew.2.data, ?_, ?_⟩
  · rw [← hwt]
  · rw [← hrt, ← hsame]

/-- **Reading what was written.**  A WRITE is fetched after `s₀` and completed before `s`, and a
READ of the same bytes is fetched after `s` and completed before `t`.  If every other WRITE to some
of these bytes was completed before `s₀`, then the READ moves the bytes that the WRITE moved. -/
theorem read_written {d₁ d₂ : List UInt8} {fetched₀ fetched₁ : List Sqe}
    {calls₀ calls₁ : List (ℕ × UInt64 × Int32)} {log₀ log₁ : List (ℕ × Moved)}
    (h₀ : SerialDisk size ok d₀ d₁ fetched₀ calls₀ log₀)
    (h₁ : SerialDisk size ok d₀ d₂ fetched₁ calls₁ log₁)
    (h : SerialDisk size ok d₀ d fetched calls log)
    (hlog₀ : Continues calls₀ log₀ log₁) (hlog₁ : Continues calls₁ log₁ log)
    (hcalls : calls₀ <+: calls₁) (hfetched : fetched₁ <+: fetched) {nw nr : ℕ} {w r : Sqe}
    (hw : fetched₁[nw]? = some w) (hnw : fetched₀.length ≤ nw)
    (hr : fetched[nr]? = some r) (hnr : fetched₁.length ≤ nr)
    (hwop : w.opcode = .write) (hrop : r.opcode = .read)
    (hoff : r.off = w.off) (hlen : r.len = w.len) {vw vr : Int32}
    (hwdone : callsOf calls₁ nw = [(w.userData, vw)]) (hvw : 0 ≤ vw)
    (hrdone : callsOf calls nr = [(r.userData, vr)]) (hvr : 0 ≤ vr)
    (hothers : ∀ n sqe, fetched[n]? = some sqe → n ≠ nw → sqe.opcode = .write →
      callsOf calls₀ n ≠ [] ∨
        Disjoint (sqe.transfer size).bytes (w.transfer size).bytes) :
    ∃ data, (nw, ⟨w.transfer size, data⟩) ∈ log ∧ (nr, ⟨r.transfer size, data⟩) ∈ log := by
  obtain ⟨l₁, rfl, hl₁⟩ := hlog₀
  obtain ⟨l₂, rfl, hl₂⟩ := hlog₁
  have hw' : fetched[nw]? = some w := by
    obtain ⟨more, rfl⟩ := hfetched
    rw [List.getElem?_append_left (List.getElem?_eq_some_iff.1 hw).1]
    exact hw
  -- the WRITE is in the second part of the log, the READ in the third
  obtain ⟨ew, hew, hew1⟩ : ∃ e ∈ l₁, e.1 = nw := by
    have hmem := h₁.mem_of_done hw (.inr hwop) hwdone hvw
    rw [List.map_append, List.mem_append] at hmem
    rcases hmem with hmem | hmem
    · exact absurd (h₀.lt_length hmem) (Nat.not_lt.2 hnw)
    · exact List.mem_map.1 hmem
  obtain ⟨er, her, her1⟩ : ∃ e ∈ l₂, e.1 = nr := by
    have hmem := h.mem_of_done hr (.inl hrop) hrdone hvr
    rw [List.map_append, List.mem_append] at hmem
    rcases hmem with hmem | hmem
    · exact absurd (h₁.lt_length hmem) (Nat.not_lt.2 hnr)
    · exact List.mem_map.1 hmem
  obtain ⟨a, mid₁, rfl⟩ := List.append_of_mem hew
  obtain ⟨mid₂, b, rfl⟩ := List.append_of_mem her
  have hsplit : log₀ ++ (a ++ ew :: mid₁) ++ (mid₂ ++ er :: b) =
      log₀ ++ a ++ ew :: (mid₁ ++ mid₂) ++ er :: b := by simp
  rw [hsplit] at h ⊢
  obtain ⟨data, hwd, hrd⟩ := h.data_eq (hew1 ▸ hw') (her1 ▸ hr) hwop hrop hoff hlen
    fun e he sqe hsqe hop => by
      have honce : ((ew :: (mid₁ ++ mid₂)).map Prod.fst).Nodup := by
        refine (h.once.sublist ?_)
        exact (((List.sublist_append_right _ _).trans (List.sublist_append_left _ _)).map _)
      have hne : e.1 ≠ nw := by
        rintro rfl
        refine (List.nodup_cons.1 honce).1 ?_
        rw [hew1]
        exact List.mem_map_of_mem he
      refine (hothers e.1 sqe hsqe hne hop).resolve_left fun hcompleted => hcompleted ?_
      -- what is in the log in between was not completed before `s₀`
      rcases List.mem_append.1 he with he | he
      · exact hl₁ e (by simp [he])
      · obtain ⟨more, rfl⟩ := hcalls
        have hnil := hl₂ e (by simp [he])
        rw [callsOf_append] at hnil
        exact (List.append_eq_nil_iff.1 hnil).1
  refine ⟨data, ?_, ?_⟩
  · rw [← hwd, ← hew1]
    simp
  · rw [← hrd, ← her1]
    simp

end SerialDisk

end GlendaDrivers
