import GlendaDrivers.Bus.PciScan
import GlendaDrivers.Lib.Cursor

/-!
# The base address registers of a function

The dwords of the base address registers are cut into base addresses from the left: what a dword
is depends on its flags, and on whether another dword follows.

* `Bar`: a base address, with the dwords that encode it;
* `BarPartition`: the cut, which exists and is unique;
* `barLoop_eq`: the loop of `parse_bars` follows the cut;
* `parse_bars_partition`: the regions and the reads of `parse_bars`.
-/

namespace GlendaDrivers

open Prog PciBusDriver

/-- What the dwords of the base address registers say. -/
inductive Bar
  | empty
  | io (v : UInt32)
  | mem32 (v : UInt32)
  | mem64 (lo hi : UInt32)
  deriving DecidableEq

namespace Bar

/-- The dwords, in the order of the registers. -/
def dwords : Bar → List UInt32
  | empty => [0]
  | io v => [v]
  | mem32 v => [v]
  | mem64 lo hi => [lo, hi]

/-- The address, without the flags. -/
def base : Bar → ℕ
  | empty => 0
  | io v => v.toNat / 4 * 4
  | mem32 v => v.toNat / 16 * 16
  | mem64 lo hi => hi.toNat * 2 ^ 32 + lo.toNat / 16 * 16

/-- The regions that are reported, when the I/O window of the platform starts at `io`. -/
def regions (ioCpuBase : Option UInt64) (b : Bar) : List MMIORegion :=
  match b with
  | empty => []
  | io _ => ioCpuBase.toList.map fun cpuBase => ⟨cpuBase + UInt64.ofNat b.base, 0x100⟩
  | mem32 _ | mem64 _ _ => if b.base ≠ 0 then [⟨UInt64.ofNat b.base, 0x1000⟩] else []

theorem base_lt (b : Bar) : b.base < 2 ^ 64 := by
  cases b with
  | empty => exact Nat.two_pow_pos 64
  | io v =>
    have hv := v.toNat_lt
    show v.toNat / 4 * 4 < 2 ^ 64
    omega
  | mem32 v =>
    have hv := v.toNat_lt
    show v.toNat / 16 * 16 < 2 ^ 64
    omega
  | mem64 lo hi =>
    have hlo := lo.toNat_lt
    have hhi := hi.toNat_lt
    show hi.toNat * 2 ^ 32 + lo.toNat / 16 * 16 < 2 ^ 64
    omega

end Bar

/-! ### The cut -/

/-- The dwords `ws` of the registers, cut into base addresses.  A dword of the 64-bit type in the
last register is a 32-bit base address. -/
inductive BarPartition : List UInt32 → List Bar → Prop
  | nil : BarPartition [] []
  | empty {ws bars} (h : BarPartition ws bars) : BarPartition (0 :: ws) (.empty :: bars)
  | io {v ws bars} (hv : v.toNat % 2 = 1) (h : BarPartition ws bars) :
      BarPartition (v :: ws) (.io v :: bars)
  | mem32 {v ws bars} (hv : v ≠ 0) (heven : v.toNat % 2 = 0)
      (htype : v.toNat % 8 = 4 → ws = []) (h : BarPartition ws bars) :
      BarPartition (v :: ws) (.mem32 v :: bars)
  | mem64 {lo hi ws bars} (hlo : lo.toNat % 8 = 4) (h : BarPartition ws bars) :
      BarPartition (lo :: hi :: ws) (.mem64 lo hi :: bars)

namespace BarPartition

variable {ws : List UInt32} {bars bars' : List Bar}

/-- Every dword is in exactly one base address. -/
theorem flatMap_dwords (h : BarPartition ws bars) : bars.flatMap Bar.dwords = ws := by
  induction h with
  | nil => rfl
  | empty _ ih => exact congrArg (0 :: ·) ih
  | io _ _ ih => exact congrArg (_ :: ·) ih
  | mem32 _ _ _ _ ih => exact congrArg (_ :: ·) ih
  | mem64 _ _ ih => exact congrArg (_ :: _ :: ·) ih

theorem exists_partition (ws : List UInt32) : ∃ bars, BarPartition ws bars := by
  induction hn : ws.length using Nat.strong_induction_on generalizing ws with
  | _ n ih =>
    cases ws with
    | nil => exact ⟨[], .nil⟩
    | cons v ws =>
      have hrest : ∃ bars, BarPartition ws bars := ih ws.length (by rw [← hn]; simp) ws rfl
      obtain ⟨bars, hbars⟩ := hrest
      by_cases hz : v = 0
      · rw [hz]
        exact ⟨_, .empty hbars⟩
      by_cases hodd : v.toNat % 2 = 1
      · exact ⟨_, .io hodd hbars⟩
      have heven : v.toNat % 2 = 0 := by omega
      by_cases htype : v.toNat % 8 = 4
      · cases ws with
        | nil => exact ⟨_, .mem32 hz heven (fun _ => rfl) hbars⟩
        | cons hi ws =>
          obtain ⟨bars, hbars⟩ := ih ws.length (by rw [← hn]; simp) ws rfl
          exact ⟨_, .mem64 htype hbars⟩
      · exact ⟨_, .mem32 hz heven (fun h => absurd h htype) hbars⟩

/-- There is only one cut. -/
theorem unique (h : BarPartition ws bars) (h' : BarPartition ws bars') : bars' = bars := by
  induction h generalizing bars' with
  | nil =>
    cases h'
    rfl
  | empty _ ih =>
    cases h' with
    | empty h' => rw [ih h']
    | io hv => exact absurd hv (by decide)
    | mem32 hv => exact absurd rfl hv
    | mem64 hlo => exact absurd hlo (by decide)
  | io hv _ ih =>
    cases h' with
    | empty => exact absurd hv (by decide)
    | io _ h' => rw [ih h']
    | mem32 _ heven => omega
    | mem64 hlo => omega
  | mem32 hv heven htype _ ih =>
    cases h' with
    | empty => exact absurd rfl hv
    | io hv' => omega
    | mem32 _ _ _ h' => rw [ih h']
    | mem64 hlo => exact nomatch htype hlo
  | mem64 hlo _ ih =>
    cases h' with
    | empty => exact absurd hlo (by decide)
    | io hv => omega
    | mem32 _ _ htype => exact nomatch htype hlo
    | mem64 _ h' => rw [ih h']

end BarPartition

/-! ### Flags -/

section Flags

variable (v : UInt32)

/-- The I/O flag. -/
theorem ioFlag_iff : v &&& 0x1 ≠ 0 ↔ v.toNat % 2 = 1 := by
  have hand : (v &&& 0x1).toNat = v.toNat % 2 := by
    rw [UInt32.toNat_and]
    exact Nat.and_two_pow_sub_one_eq_mod _ 1
  rw [ne_eq, ← UInt32.toNat_inj, hand]
  show ¬ v.toNat % 2 = 0 ↔ _
  omega

/-- The flags of an I/O base address are cleared. -/
theorem toNat_ioBase : (v &&& 0xfffffffc).toUInt64 = UInt64.ofNat (Bar.io v).base := by
  have hand : (v &&& 0xfffffffc).toNat = v.toNat / 4 * 4 := by
    rw [UInt32.toNat_and]
    exact Align.and_high (k := 2) (w := 32) (by norm_num) v.toNat_lt
  rw [← UInt64.ofNat_uInt32ToNat, hand]
  rfl

theorem toNat_and_flags : (v &&& 0xfffffff0).toNat = v.toNat / 16 * 16 := by
  rw [UInt32.toNat_and]
  exact Align.and_high (k := 4) (w := 32) (by norm_num) v.toNat_lt

/-- The flags of a memory base address are cleared. -/
theorem toUInt64_and_flags : (v &&& 0xfffffff0).toUInt64 = UInt64.ofNat (Bar.mem32 v).base := by
  rw [← UInt64.ofNat_uInt32ToNat, toNat_and_flags]
  rfl

/-- The two halves of a base address. -/
theorem or_halves (lo hi : UInt32) :
    (hi.toUInt64 <<< 32) ||| (lo.toUInt64 &&& 0xfffffff0) =
      UInt64.ofNat (Bar.mem64 lo hi).base := by
  have hlo := lo.toNat_lt
  have hhi := hi.toNat_lt
  have hand : (lo.toUInt64 &&& 0xfffffff0).toNat = lo.toNat / 16 * 16 := by
    rw [UInt64.toNat_and]
    exact Align.and_high (k := 4) (w := 32) (by norm_num) hlo
  have hor := Words.toNat_shift_or (a := hi.toUInt64) (b := lo.toUInt64 &&& 0xfffffff0)
    (n := 32) (by norm_num) (by omega) (by rw [UInt32.toNat_toUInt64]; omega)
  rw [← UInt64.toNat_inj, UInt64.toNat_ofNat', Nat.mod_eq_of_lt (Bar.base_lt _)]
  refine hor.trans ?_
  rw [hand, UInt32.toNat_toUInt64]
  rfl

/-- A memory region is reported unless its address is zero. -/
theorem append_region {n : ℕ} (hn : n < 2 ^ 64) (out : List MMIORegion) :
    (if UInt64.ofNat n ≠ 0 then out ++ [⟨UInt64.ofNat n, 0x1000⟩] else out) =
      out ++ if n ≠ 0 then [⟨UInt64.ofNat n, 0x1000⟩] else [] := by
  have hz : UInt64.ofNat n ≠ 0 ↔ n ≠ 0 := by
    rw [ne_eq, ← UInt64.toNat_inj, UInt64.toNat_ofNat', Nat.mod_eq_of_lt hn]
    rfl
  by_cases h : n ≠ 0
  · rw [if_pos (hz.2 h), if_pos h]
  · rw [if_neg (mt hz.1 h), if_neg h, List.append_nil]

/-- The type of a memory base address. -/
theorem barType_iff (heven : v.toNat % 2 = 0) :
    (v >>> 1) &&& 0x3 = 0x2 ↔ v.toNat % 8 = 4 := by
  have hand : ((v >>> 1) &&& 0x3).toNat = v.toNat / 2 % 4 := by
    rw [UInt32.toNat_and, UInt32.toNat_shiftRight]
    show v.toNat >>> 1 &&& 2 ^ 2 - 1 = _
    rw [Nat.and_two_pow_sub_one_eq_mod, Nat.shiftRight_eq_div_pow]
  rw [← UInt32.toNat_inj, hand]
  show _ = 2 ↔ _
  omega

end Flags

/-! ### The loop -/

namespace PciBusDriver

variable {d : PciBusDriver} {f : PciFn} {s : PciState}

/-- The offset of base address register `i`. -/
def barReg (i : ℕ) : UInt64 := 0x10 + UInt64.ofNat i * 4

theorem barReg_succ (i : ℕ) : barReg i + 4 = barReg (i + 1) := by
  unfold barReg
  rw [UInt64.ofNat_add, UInt64.add_mul, ← UInt64.add_assoc]
  rfl

/-- The `n` registers from `i` on. -/
def barDwords (d : PciBusDriver) (f : PciFn) (mem : UInt64 → UInt8) (i n : ℕ) : List UInt32 :=
  (List.range' i n).map fun i => word mem (d.cfgAddr f (barReg i))

/-- A read of each of the registers. -/
def barReads (f : PciFn) (i n : ℕ) : List PciRead :=
  (List.range' i n).map fun i => ⟨f, cfgOff f (barReg i)⟩

/-- The state after reads. -/
def afterReads (s : PciState) (rs : List PciRead) : PciState := { s with reads := s.reads ++ rs }

theorem readU32_eq (i : ℕ) : d.readU32 f (barReg i) s =
    (.ret (word s.mem (d.cfgAddr f (barReg i))), afterReads s [⟨f, cfgOff f (barReg i)⟩]) := rfl

theorem afterReads_afterReads (rs rs' : List PciRead) :
    afterReads (afterReads s rs) rs' = afterReads s (rs ++ rs') := by
  unfold afterReads
  rw [List.append_assoc]

section Step

variable {i max : ℕ} {out : List MMIORegion} {v : UInt32}

theorem barStep_done (h : ¬ i < max) : d.barStep f max (i, out) s = (.ret (.inr out), s) := by
  unfold barStep
  exact congrFun (if_neg h) s

theorem barStep_empty (h : i < max) (hv : word s.mem (d.cfgAddr f (barReg i)) = 0) :
    d.barStep f max (i, out) s =
      (.ret (.inl (i + 1, out ++ [])), afterReads s (barReads f i 1)) := by
  unfold barStep
  refine (congrFun (if_pos h) s).trans ((bind_of_ret (readU32_eq i)).trans ?_)
  rw [hv, List.append_nil]
  rfl

theorem barStep_io (h : i < max) (hv : word s.mem (d.cfgAddr f (barReg i)) = v)
    (hodd : v.toNat % 2 = 1) :
    d.barStep f max (i, out) s =
      (.ret (.inl (i + 1, out ++ (Bar.io v).regions d.platform.ioBarCpuBase)),
        afterReads s (barReads f i 1)) := by
  have hz : v ≠ 0 := by
    rintro rfl
    exact absurd hodd (by decide)
  unfold barStep
  refine (congrFun (if_pos h) s).trans ((bind_of_ret (readU32_eq i)).trans ?_)
  dsimp only
  rw [hv, if_neg hz, if_pos ((ioFlag_iff v).2 hodd), toNat_ioBase]
  unfold Bar.regions
  cases d.platform.ioBarCpuBase with
  | none =>
    rw [Option.toList_none, List.map_nil, List.append_nil]
    rfl
  | some cpuBase => rfl

theorem barStep_mem32 (h : i < max) (hv : word s.mem (d.cfgAddr f (barReg i)) = v) (hz : v ≠ 0)
    (heven : v.toNat % 2 = 0) (htype : v.toNat % 8 = 4 → i + 1 = max) :
    d.barStep f max (i, out) s =
      (.ret (.inl (i + 1, out ++ (Bar.mem32 v).regions d.platform.ioBarCpuBase)),
        afterReads s (barReads f i 1)) := by
  unfold barStep
  refine (congrFun (if_pos h) s).trans ((bind_of_ret (readU32_eq i)).trans ?_)
  dsimp only
  rw [hv, if_neg hz, if_neg (mt (ioFlag_iff v).1 (by omega)),
    if_neg fun ht => by have := htype ((barType_iff v heven).1 ht.1); omega, toUInt64_and_flags]
  rw [append_region (Bar.base_lt _)]
  rfl

theorem barStep_mem64 (h : i + 1 < max) {lo hi : UInt32}
    (hlo : word s.mem (d.cfgAddr f (barReg i)) = lo)
    (hhi : word s.mem (d.cfgAddr f (barReg (i + 1))) = hi) (htype : lo.toNat % 8 = 4) :
    d.barStep f max (i, out) s =
      (.ret (.inl (i + 2, out ++ (Bar.mem64 lo hi).regions d.platform.ioBarCpuBase)),
        afterReads s (barReads f i 2)) := by
  have hz : lo ≠ 0 := by
    rintro rfl
    exact absurd htype (by decide)
  have heven : lo.toNat % 2 = 0 := by omega
  -- the high half
  have hread : d.readU32 f (0x10 + UInt64.ofNat i * 4 + 4) (afterReads s (barReads f i 1)) =
      (.ret hi, afterReads (afterReads s (barReads f i 1)) (barReads f (i + 1) 1)) := by
    rw [← hhi]
    exact congrFun (congrArg (d.readU32 f) (barReg_succ i)) _
  unfold barStep
  refine (congrFun (if_pos (Nat.lt_of_succ_lt h)) s).trans
    ((bind_of_ret (readU32_eq i)).trans ?_)
  dsimp only
  rw [hlo, if_neg hz, if_neg (mt (ioFlag_iff lo).1 (by omega)),
    if_pos ⟨(barType_iff lo heven).2 htype, h⟩]
  refine (bind_of_ret hread).trans ?_
  rw [or_halves, append_region (Bar.base_lt _), afterReads_afterReads]
  rfl

end Step

/-- An iteration over `j` registers, and then the loop over the other `k`. -/
theorem barLoop_step {i j k n : ℕ} {out found rest : List MMIORegion}
    (hstep : d.barStep f (i + (k + j)) (i, out) s =
      (.ret (.inl (i + j, out ++ found)), afterReads s (barReads f i j)))
    (hrest : loop (d.barStep f (i + j + k)) n (i + j, out ++ found)
        (afterReads s (barReads f i j)) =
      (.ret (out ++ found ++ rest),
        afterReads (afterReads s (barReads f i j)) (barReads f (i + j) k))) :
    loop (d.barStep f (i + (k + j))) (n + 1) (i, out) s =
      (.ret (out ++ (found ++ rest)), afterReads s (barReads f i (k + j))) := by
  have hreads : barReads f i (k + j) = barReads f i j ++ barReads f (i + j) k := by
    unfold barReads
    rw [← List.map_append, List.range'_append_1, Nat.add_comm]
  rw [loop_succ_inl hstep, Nat.add_comm k j, ← Nat.add_assoc, hrest, Nat.add_comm j k,
    afterReads_afterReads, hreads, List.append_assoc]

/-- The loop follows the cut of the registers that are left. -/
theorem barLoop_eq {ws : List UInt32} {bars : List Bar} (h : BarPartition ws bars) {i k : ℕ}
    (hws : d.barDwords f s.mem i k = ws) (m : ℕ) (out : List MMIORegion) :
    loop (d.barStep f (i + k)) (m + k + 1) (i, out) s =
      (.ret (out ++ bars.flatMap (Bar.regions d.platform.ioBarCpuBase)),
        afterReads s (barReads f i k)) := by
  induction h generalizing i k m s out with
  | nil =>
    obtain rfl : k = 0 := by simpa [barDwords] using hws
    rw [loop_succ_inr (barStep_done (by omega))]
    simp [afterReads, barReads]
  | empty h ih =>
    cases k with
    | zero => exact nomatch hws
    | succ k =>
      obtain ⟨hv, hws⟩ := List.cons.inj hws
      exact barLoop_step (barStep_empty (by omega) hv) (ih (s := afterReads s _) hws m _)
  | io hodd h ih =>
    cases k with
    | zero => exact nomatch hws
    | succ k =>
      obtain ⟨hv, hws⟩ := List.cons.inj hws
      exact barLoop_step (barStep_io (by omega) hv hodd) (ih (s := afterReads s _) hws m _)
  | mem32 hz heven htype h ih =>
    cases k with
    | zero => exact nomatch hws
    | succ k =>
      obtain ⟨hv, hws⟩ := List.cons.inj hws
      refine barLoop_step (barStep_mem32 (by omega) hv hz heven fun ht => ?_)
        (ih (s := afterReads s _) hws m _)
      -- a dword of the 64-bit type is in the last register
      obtain rfl := htype ht
      obtain rfl : k = 0 := by simpa [barDwords] using hws
      rfl
  | mem64 htype h ih =>
    match k with
    | 0 => exact nomatch hws
    | 1 => exact nomatch (List.cons.inj hws).2
    | k + 2 =>
      obtain ⟨hlo, hws⟩ := List.cons.inj hws
      obtain ⟨hhi, hws⟩ := List.cons.inj hws
      have hrest := ih (s := afterReads s (barReads f i 2)) hws (m + 1)
      rw [show m + 1 + k + 1 = m + (k + 2) by omega] at hrest
      exact barLoop_step (barStep_mem64 (by omega) hlo hhi htype) (hrest _)

end PciBusDriver

/-- The I/O window of a platform is in the first 4 GiB. -/
theorem detect_ioBarCpuBase_lt {ecamPhys io : UInt64}
    (h : (PciPlatformOps.detect ecamPhys).ioBarCpuBase = some io) : io.toNat < 2 ^ 32 := by
  unfold PciPlatformOps.detect at h
  split_ifs at h
  · obtain rfl := Option.some.inj h
    decide
  · obtain rfl := Option.some.inj h
    decide
  · exact nomatch h

/-- **Base address registers.**  The dwords are cut into base addresses in exactly one way.
`parse_bars` reads every dword once, in order, and returns one region for each base address that
is to be reported, in the order of the registers; the addresses do not wrap. -/
theorem parse_bars_partition (d : PciBusDriver) (f : PciFn) (headerType : UInt8) (s : PciState) :
    let n := if headerType.toNat % 128 = 1 then 2 else 6
    ∃ bars, BarPartition (d.barDwords f s.mem 0 n) bars ∧
      (∀ bars', BarPartition (d.barDwords f s.mem 0 n) bars' → bars' = bars) ∧
      bars.flatMap Bar.dwords = d.barDwords f s.mem 0 n ∧
      d.parseBars f headerType s =
        (.ret (bars.flatMap (Bar.regions d.platform.ioBarCpuBase)),
          { s with reads := s.reads ++ barReads f 0 n }) ∧
      (∀ b ∈ bars, b.base < 2 ^ 64) ∧
      ∀ ecamPhys io v, d.platform = PciPlatformOps.detect ecamPhys →
        d.platform.ioBarCpuBase = some io → io.toNat + (Bar.io v).base < 2 ^ 64 := by
  intro n
  obtain ⟨bars, hbars⟩ := BarPartition.exists_partition (d.barDwords f s.mem 0 n)
  have hmax : (if headerType &&& 0x7f = 0x01 then 2 else 6) = n := by
    have hand : (headerType &&& 0x7f).toNat = headerType.toNat % 128 := by
      rw [UInt8.toNat_and]
      exact Nat.and_two_pow_sub_one_eq_mod _ 7
    have hiff : headerType &&& 0x7f = 0x01 ↔ headerType.toNat % 128 = 1 := by
      rw [← UInt8.toNat_inj, hand]
      rfl
    exact if_congr hiff rfl rfl
  have hn : n ≤ 6 := by
    show (if headerType.toNat % 128 = 1 then 2 else 6) ≤ 6
    split_ifs <;> norm_num
  refine ⟨bars, hbars, fun bars' h => hbars.unique h, hbars.flatMap_dwords, ?_,
    fun b _ => b.base_lt, fun ecamPhys io v hp hio => ?_⟩
  · have hloop := barLoop_eq (d := d) hbars rfl (6 - n) []
    rw [show 6 - n + n + 1 = 7 by omega, Nat.zero_add, List.nil_append] at hloop
    unfold parseBars
    rw [hmax]
    exact hloop
  · have hlt := detect_ioBarCpuBase_lt (hp ▸ hio)
    have hv := v.toNat_lt
    show io.toNat + v.toNat / 4 * 4 < 2 ^ 64
    omega

end GlendaDrivers
