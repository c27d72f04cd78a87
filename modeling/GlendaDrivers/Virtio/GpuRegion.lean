import GlendaDrivers.Lib.Words
import GlendaDrivers.Virtio.GpuReport

/-!
# The region that a flush shows

* `Shows`: the two commands of a flush, read back from their bytes, denote the rectangle asked for;
* `shows_flushCmds`: when the commands of `flush` do;
* `gpu_flush_region`: the same for the calls of `flush`, and for the requests of the ring.
-/

namespace GlendaDrivers

open Prog VirtIOGpu Words

/-- The type of a command. -/
def typeOf (cmd : List UInt8) : UInt32 := field32 cmd 0

/-- The rectangle of a command, after the header: its corner, width and height. -/
def rectOf (cmd : List UInt8) : ℕ × ℕ × ℕ × ℕ :=
  ((field32 cmd 24).toNat, (field32 cmd 28).toNat, (field32 cmd 32).toNat, (field32 cmd 36).toNat)

/-- The byte offset of a transfer, after the rectangle. -/
def offsetOf (cmd : List UInt8) : ℕ := Bytes.ofLittle ((cmd.drop 40).take 8)

/-- The rectangle at `(x, y)` of `w × h` pixels is inside of the framebuffer. -/
def OnDisplay (width height x y w h : ℕ) : Prop := x + w ≤ width ∧ y + h ≤ height

instance (width height x y w h : ℕ) : Decidable (OnDisplay width height x y w h) :=
  inferInstanceAs (Decidable (_ ∧ _))

/-- The commands transfer and flush the rectangle at `(x, y)` of `w × h` pixels, which is inside of
the framebuffer; the transfer begins at the pixel `(x, y)`, with 4 bytes for a pixel. -/
structure Shows (width height x y w h : ℕ) (cmds : List (List UInt8)) : Prop where
  inside : OnDisplay width height x y w h
  types : cmds.map typeOf =
    [GpuCmdType.transferToHost2d.code, GpuCmdType.resourceFlush.code]
  rects : cmds.map rectOf = [(x, y, w, h), (x, y, w, h)]
  offset : cmds.head?.map offsetOf = some (4 * (y * width + x))

/-! ### Reading commands back -/

theorem field32_append (l l' : List UInt8) (v : UInt32) :
    field32 (l ++ (u32Bytes v ++ l')) l.length = v := by
  have hv : v.toNat < 256 ^ 4 := v.toNat_lt
  unfold field32
  rw [List.drop_left, List.take_left' (by simp [u32Bytes]), u32Bytes, Bytes.ofLittle_little hv]
  exact UInt32.ofNat_toNat

theorem typeOf_gpuHeader (ty : GpuCmdType) (l : List UInt8) :
    typeOf (gpuHeader ty ++ l) = ty.code := by
  rw [gpuHeader, List.append_assoc]
  exact field32_append [] _ _

theorem rectOf_append {hdr : List UInt8} (hhdr : hdr.length = 24) (x y w h : UInt32)
    (l : List UInt8) :
    rectOf (hdr ++ (gpuRect x y w h ++ l)) = (x.toNat, y.toNat, w.toNat, h.toNat) := by
  have hx := field32_append hdr (u32Bytes y ++ (u32Bytes w ++ (u32Bytes h ++ l))) x
  have hy := field32_append (hdr ++ u32Bytes x) (u32Bytes w ++ (u32Bytes h ++ l)) y
  have hw := field32_append (hdr ++ u32Bytes x ++ u32Bytes y) (u32Bytes h ++ l) w
  have hh := field32_append (hdr ++ u32Bytes x ++ u32Bytes y ++ u32Bytes w) l h
  simp only [List.append_assoc, List.length_append, hhdr, u32Bytes, Bytes.length_little]
    at hx hy hw hh
  simp only [rectOf, gpuRect, List.append_assoc, u32Bytes, hx, hy, hw, hh]

theorem length_gpuHeader (ty : GpuCmdType) : (gpuHeader ty).length = 24 := by
  simp [gpuHeader, u32Bytes]

theorem offsetOf_gpuTransferToHost2d {rect : List UInt8} (hrect : rect.length = 16) (v : UInt64)
    (resId : UInt32) : offsetOf (gpuTransferToHost2d rect v resId) = v.toNat := by
  have hv : v.toNat < 256 ^ 8 := v.toNat_lt
  have hlen : (gpuHeader .transferToHost2d ++ rect).length = 40 := by
    rw [List.length_append, length_gpuHeader, hrect]
  unfold offsetOf gpuTransferToHost2d
  rw [List.append_assoc, List.append_assoc, List.drop_left' hlen,
    List.take_left' (by simp [u64Bytes]), u64Bytes, Bytes.ofLittle_little hv]

/-! ### The commands of a flush -/

section Commands

variable (width x y w h : UInt64)

theorem map_typeOf_flushCmds : (flushCmds width x y w h).map typeOf =
    [GpuCmdType.transferToHost2d.code, GpuCmdType.resourceFlush.code] := by
  simp only [flushCmds, gpuTransferToHost2d, gpuResourceFlush, List.append_assoc, List.map_cons,
    List.map_nil, typeOf_gpuHeader]

/-- The rectangle keeps the lower halves of the coordinates. -/
theorem map_rectOf_flushCmds : (flushCmds width x y w h).map rectOf =
    List.replicate 2
      (x.toNat % 2 ^ 32, y.toNat % 2 ^ 32, w.toNat % 2 ^ 32, h.toNat % 2 ^ 32) := by
  simp only [flushCmds, gpuTransferToHost2d, gpuResourceFlush, List.append_assoc, List.map_cons,
    List.map_nil, rectOf_append (length_gpuHeader _), UInt64.toNat_toUInt32]
  rfl

/-- The offset is computed in 64 bits. -/
theorem offsetOf_flushCmds : (flushCmds width x y w h).head?.map offsetOf =
    some (4 * (y.toNat * width.toNat + x.toNat) % 2 ^ 64) := by
  have hoff : ((y * width + x) * 4).toNat = 4 * (y.toNat * width.toNat + x.toNat) % 2 ^ 64 := by
    rw [UInt64.toNat_mul, UInt64.toNat_add, UInt64.toNat_mul, Nat.mod_add_mod, Nat.mul_comm]
    exact Nat.mul_mod_mod _ _ _
  have hlen : (gpuRect x.toUInt32 y.toUInt32 w.toUInt32 h.toUInt32).length = 16 := rfl
  rw [flushCmds, List.head?_cons, Option.map_some, offsetOf_gpuTransferToHost2d hlen, hoff]

/-- When the commands of a flush show what was asked for. -/
theorem shows_flushCmds {height : ℕ} :
    Shows width.toNat height x.toNat y.toNat w.toNat h.toNat (flushCmds width x y w h) ↔
      OnDisplay width.toNat height x.toNat y.toNat w.toNat h.toNat ∧
        (x.toNat < 2 ^ 32 ∧ y.toNat < 2 ^ 32 ∧ w.toNat < 2 ^ 32 ∧ h.toNat < 2 ^ 32) ∧
        4 * (y.toNat * width.toNat + x.toNat) < 2 ^ 64 := by
  have hmod : ∀ {n k : ℕ}, 0 < k → (n % k = n ↔ n < k) := fun hk =>
    ⟨fun h => h ▸ Nat.mod_lt _ hk, Nat.mod_eq_of_lt⟩
  constructor
  · rintro ⟨hin, -, hrects, hoff⟩
    rw [map_rectOf_flushCmds] at hrects
    rw [offsetOf_flushCmds] at hoff
    have hrect := (List.cons.inj hrects).1
    simp only [Prod.mk.injEq, hmod (Nat.two_pow_pos 32)] at hrect
    exact ⟨hin, hrect, (hmod (Nat.two_pow_pos 64)).1 (Option.some.inj hoff)⟩
  · rintro ⟨hin, ⟨hx, hy, hw, hh⟩, hoff⟩
    refine ⟨hin, map_typeOf_flushCmds .., ?_, ?_⟩
    · rw [map_rectOf_flushCmds, Nat.mod_eq_of_lt hx, Nat.mod_eq_of_lt hy, Nat.mod_eq_of_lt hw,
        Nat.mod_eq_of_lt hh]
      rfl
    · rw [offsetOf_flushCmds, Nat.mod_eq_of_lt hoff]

end Commands

/-! ### Calls -/

section Calls

variable {mem₁ : QueueMem} {s s' : GpuState}

/-- What a call with the commands of a flush leaves. -/
theorem shows_of_sends {x y w h : UInt64} {P : Prop}
    (hsent : s.Sends mem₁ (flushCmds s.gpu.width x y w h) s') :
    (∃ new, s'.answered = s.answered ++ new ∧
        (Shows s.gpu.width.toNat s.gpu.height.toNat x.toNat y.toNat w.toNat h.toNat
            (new.map Prod.fst) ∨ new = [] ∧ P)) ↔
      OnDisplay s.gpu.width.toNat s.gpu.height.toNat x.toNat y.toNat w.toNat h.toNat ∧
        (x.toNat < 2 ^ 32 ∧ y.toNat < 2 ^ 32 ∧ w.toNat < 2 ^ 32 ∧ h.toNat < 2 ^ 32) ∧
        4 * (y.toNat * s.gpu.width.toNat + x.toNat) < 2 ^ 64 := by
  rw [← shows_flushCmds]
  constructor
  · rintro ⟨new, hnew, h⟩
    rw [← List.append_cancel_left (hsent.answered.symm.trans hnew), GpuDevice.map_answers] at h
    obtain hshows | ⟨hnil, -⟩ := h
    · exact hshows
    · exact nomatch hnil
  · intro hshows
    refine ⟨_, hsent.answered, .inl ?_⟩
    rwa [GpuDevice.map_answers]

end Calls

/-- **The region of a flush.**  A flush returns when the device answers its two commands.  It has
either shown the rectangle asked for, inside of the framebuffer, or failed without a command, iff
the rectangle is inside, its coordinates fit in 32 bits and the byte offset of its corner in 64.
The coordinates of a request of the ring are the halves of `off` and `addr`. -/
theorem gpu_flush_region {mem₁ : QueueMem} {s : GpuState} (hs : GpuReach mem₁ s) :
    (∀ (fuel : ℕ) (x y w h : UInt64), (∀ i < 2, s.device.delay (s.notified + i) < fuel) →
      ∃ r s', flush fuel x y w h s = (.ret r, s')) ∧
    (∀ (fuel : ℕ) (x y w h : UInt64) (r : Except Error Unit) (s' : GpuState),
      flush fuel x y w h s = (.ret r, s') →
        ((∃ new, s'.answered = s.answered ++ new ∧
            (Shows s.gpu.width.toNat s.gpu.height.toNat x.toNat y.toNat w.toNat h.toNat
                (new.map Prod.fst) ∨ new = [] ∧ r ≠ .ok ())) ↔
          OnDisplay s.gpu.width.toNat s.gpu.height.toNat x.toNat y.toNat w.toNat h.toNat ∧
            (x.toNat < 2 ^ 32 ∧ y.toNat < 2 ^ 32 ∧ w.toNat < 2 ^ 32 ∧ h.toNat < 2 ^ 32) ∧
            4 * (y.toNat * s.gpu.width.toNat + x.toNat) < 2 ^ 64)) ∧
    ∀ (fuel : ℕ) (opFlush : Opcode) (answer : ℕ → Except Error Unit) (sv : IoUringServer) (k : ℕ)
      (sqe : Sqe) (rest : List Sqe) (out : (IoUringServer × ℕ) ⊕ Except Error IoUringServer)
      (s' : GpuState), sv.sq = sqe :: rest → sqe.opcode = opFlush →
        ringStep fuel opFlush answer (sv, k) s = (.ret out, s') →
          ((∃ new, s'.answered = s.answered ++ new ∧
              (Shows s.gpu.width.toNat s.gpu.height.toNat (sqe.off.toNat / 2 ^ 32)
                  (sqe.off.toNat % 2 ^ 32) (sqe.addr.toNat / 2 ^ 32) (sqe.addr.toNat % 2 ^ 32)
                  (new.map Prod.fst) ∨
                new = [] ∧ out =
                  completeRing (answer k) { sv with sq := rest } k sqe.userData (-1))) ↔
            OnDisplay s.gpu.width.toNat s.gpu.height.toNat (sqe.off.toNat / 2 ^ 32)
                (sqe.off.toNat % 2 ^ 32) (sqe.addr.toNat / 2 ^ 32) (sqe.addr.toNat % 2 ^ 32) ∧
              4 * (sqe.off.toNat % 2 ^ 32 * s.gpu.width.toNat + sqe.off.toNat / 2 ^ 32) <
                2 ^ 64) := by
  refine ⟨fun fuel x y w h hf => ?_, fun fuel x y w h r s' hrun => ?_,
    fun fuel opFlush answer sv k sqe rest out s' hsq hop hrun => ?_⟩
  · obtain ⟨s', hrun⟩ := flush_returns x y w h hs hf
    exact ⟨_, s', hrun⟩
  · obtain ⟨rfl, hsent⟩ := flush_ret hs hrun
    exact shows_of_sends hsent
  · obtain ⟨-, hsent, rfl⟩ | ⟨hno, -⟩ := ringStep_request hs hsq hrun
    · rw [← toNat_high, ← toNat_low, ← toNat_high, ← toNat_low, shows_of_sends hsent, toNat_high,
        toNat_low, toNat_high, toNat_low]
      have hlt : ∀ n, n % 2 ^ 32 < 2 ^ 32 := fun n => Nat.mod_lt _ (Nat.two_pow_pos 32)
      have hoff := sqe.off.toNat_lt
      have haddr := sqe.addr.toNat_lt
      refine and_congr_right fun _ => and_iff_right ⟨?_, hlt _, ?_, hlt _⟩
      · omega
      · omega
    · exact absurd hop hno

/-- The whole framebuffer. -/
theorem gpu_flush_region_all :
    ∃ s s' new, GpuReach .zeroed s ∧ flush 1 0 0 1280 720 s = (.ret (.ok ()), s') ∧
      s'.answered = s.answered ++ new ∧ Shows 1280 720 0 0 1280 720 (new.map Prod.fst) := by
  obtain ⟨s, s', hs, -, -, hw, hh, hrun⟩ := answering_flush 0x1100 0 0 1280 720
  have hregion := (gpu_flush_region hs).2.1 1 0 0 1280 720 _ s' hrun
  rw [hw, hh] at hregion
  obtain ⟨new, hnew, hshows | ⟨-, hne⟩⟩ := hregion.2 (by decide)
  · exact ⟨s, s', new, hs, hrun, hnew, hshows⟩
  · exact absurd rfl hne

/-- The corner `x = 2 ^ 32`: the rectangle begins at 0, the offset does not. -/
theorem flush_truncates :
    ∃ s s', GpuReach .zeroed s ∧ flush 1 0x100000000 0 1 1 s = (.ret (.ok ()), s') ∧
      ¬ ∃ new, s'.answered = s.answered ++ new ∧
        (Shows 1280 720 (2 ^ 32) 0 1 1 (new.map Prod.fst) ∨
          new = [] ∧ (.ok () : Except Error Unit) ≠ .ok ()) := by
  obtain ⟨s, s', hs, -, -, hw, hh, hrun⟩ := answering_flush 0x1100 0x100000000 0 1 1
  have hregion := shows_of_sends (P := (.ok () : Except Error Unit) ≠ .ok ()) (flush_ret hs hrun).2
  rw [hw, hh] at hregion
  exact ⟨s, s', hs, hrun, fun h => absurd (hregion.1 h) (by decide)⟩

end GlendaDrivers
