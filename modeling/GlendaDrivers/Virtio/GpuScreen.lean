import GlendaDrivers.Lib.Raster
import GlendaDrivers.Virtio.GpuRegion

/-!
# What the screen shows

A device with one screen carries the commands of the GPU driver out, which it reads from their
bytes.  Its memory is given at each command: clients draw at any time.

* `GpuRequest.ofBytes`: a command, read back;
* `Screen.exec`: one command, with its errors;
* `Screen.Conforms`: the device answers `RespOkNoData` to the commands that it carries out;
* `Display`: a screen that shows a frame buffer, region by region;
* `Display.ShownBy`: the screen shows what the display does;
* `ShownBy.flushCmds`, `ShownBy.executes_checkedCmds`, `ShownBy.showCmds`: the commands of `flush`
  and of `set_scanout` keep this.
-/

namespace GlendaDrivers

open VirtIOGpu Words

/-! ### Reading commands -/

/-- A command, as the device reads it. -/
inductive GpuRequest
  | resourceCreate2d (resourceId format : UInt32) (width height : ℕ)
  | resourceAttachBacking (resourceId nrEntries : UInt32) (addr : UInt64) (length : ℕ)
  | setScanout (r : Rect) (scanoutId resourceId : UInt32)
  | transferToHost2d (r : Rect) (offset : ℕ) (resourceId : UInt32)
  | resourceFlush (r : Rect) (resourceId : UInt32)
  | other
  deriving DecidableEq

/-- The 64-bit field at offset `o`. -/
def field64 (cmd : List UInt8) (o : ℕ) : UInt64 :=
  UInt64.ofNat (Bytes.ofLittle ((cmd.drop o).take 8))

/-- The rectangle after the header. -/
def rectAfter (cmd : List UInt8) : Rect :=
  ⟨(field32 cmd 24).toNat, (field32 cmd 28).toNat, (field32 cmd 32).toNat, (field32 cmd 36).toNat⟩

/-- The command with the given bytes. -/
def GpuRequest.ofBytes (cmd : List UInt8) : GpuRequest :=
  if typeOf cmd = GpuCmdType.resourceCreate2d.code then
    .resourceCreate2d (field32 cmd 24) (field32 cmd 28) (field32 cmd 32).toNat
      (field32 cmd 36).toNat
  else if typeOf cmd = GpuCmdType.resourceAttachBacking.code then
    .resourceAttachBacking (field32 cmd 24) (field32 cmd 28) (field64 cmd 32)
      (field32 cmd 40).toNat
  else if typeOf cmd = GpuCmdType.setScanout.code then
    .setScanout (rectAfter cmd) (field32 cmd 40) (field32 cmd 44)
  else if typeOf cmd = GpuCmdType.transferToHost2d.code then
    .transferToHost2d (rectAfter cmd) (field64 cmd 40).toNat (field32 cmd 48)
  else if typeOf cmd = GpuCmdType.resourceFlush.code then
    .resourceFlush (rectAfter cmd) (field32 cmd 40)
  else .other

section Fields

/-- The field behind `l`. -/
theorem field32_at {n : ℕ} (l l' : List UInt8) (h : l.length = n) (v : UInt32) :
    field32 (l ++ (u32Bytes v ++ l')) n = v := h ▸ field32_append l l' v

theorem field64_at {n : ℕ} (l l' : List UInt8) (h : l.length = n) (v : UInt64) :
    field64 (l ++ (u64Bytes v ++ l')) n = v := by
  have hv : v.toNat < 256 ^ 8 := v.toNat_lt
  unfold field64
  rw [List.drop_left' h, List.take_left' (by simp [u64Bytes]), u64Bytes, Bytes.ofLittle_little hv]
  exact UInt64.ofNat_toNat

@[simp] theorem length_u32Bytes (v : UInt32) : (u32Bytes v).length = 4 := by simp [u32Bytes]

@[simp] theorem length_u64Bytes (v : UInt64) : (u64Bytes v).length = 8 := by simp [u64Bytes]

@[simp] theorem length_gpuRect (x y w h : UInt32) : (gpuRect x y w h).length = 16 := by
  simp [gpuRect]

theorem rectAfter_append {hdr : List UInt8} (hhdr : hdr.length = 24) (x y w h : UInt32)
    (l : List UInt8) :
    rectAfter (hdr ++ (gpuRect x y w h ++ l)) = ⟨x.toNat, y.toNat, w.toNat, h.toNat⟩ := by
  have hrect := rectOf_append hhdr x y w h l
  simp only [rectOf, Prod.mk.injEq] at hrect
  simp only [rectAfter, hrect]

theorem ofBytes_gpuResourceCreate2d (id format width height : UInt32) :
    GpuRequest.ofBytes (gpuResourceCreate2d id format width height) =
      .resourceCreate2d id format width.toNat height.toNat := by
  set hdr := gpuHeader .resourceCreate2d with hhdr
  have hlen : hdr.length = 24 := length_gpuHeader _
  have hty : typeOf (gpuResourceCreate2d id format width height) =
      GpuCmdType.resourceCreate2d.code := by
    simp only [gpuResourceCreate2d, List.append_assoc, typeOf_gpuHeader]
  have h₁ := field32_at hdr (u32Bytes format ++ (u32Bytes width ++ u32Bytes height)) hlen id
  have h₂ := field32_at (n := 28) (hdr ++ u32Bytes id) (u32Bytes width ++ u32Bytes height)
    (by simp [hlen]) format
  have h₃ := field32_at (n := 32) (hdr ++ u32Bytes id ++ u32Bytes format) (u32Bytes height)
    (by simp [hlen]) width
  have h₄ := field32_at (n := 36) (hdr ++ u32Bytes id ++ u32Bytes format ++ u32Bytes width) []
    (by simp [hlen]) height
  simp only [List.append_assoc, List.append_nil] at h₁ h₂ h₃ h₄
  rw [GpuRequest.ofBytes, if_pos hty]
  simp only [gpuResourceCreate2d, ← hhdr, List.append_assoc, h₁, h₂, h₃, h₄]

theorem ofBytes_attachWithEntry (id nrEntries : UInt32) (addr : UInt64) (length : UInt32) :
    GpuRequest.ofBytes (attachWithEntry id nrEntries addr length) =
      .resourceAttachBacking id nrEntries addr length.toNat := by
  set hdr := gpuHeader .resourceAttachBacking with hhdr
  have hlen : hdr.length = 24 := length_gpuHeader _
  have hty : typeOf (attachWithEntry id nrEntries addr length) =
      GpuCmdType.resourceAttachBacking.code := by
    simp only [attachWithEntry, List.append_assoc, typeOf_gpuHeader]
  have h₁ := field32_at hdr
    (u32Bytes nrEntries ++ (u64Bytes addr ++ (u32Bytes length ++ u32Bytes 0))) hlen id
  have h₂ := field32_at (n := 28) (hdr ++ u32Bytes id)
    (u64Bytes addr ++ (u32Bytes length ++ u32Bytes 0)) (by simp [hlen]) nrEntries
  have h₃ := field64_at (n := 32) (hdr ++ u32Bytes id ++ u32Bytes nrEntries)
    (u32Bytes length ++ u32Bytes 0) (by simp [hlen]) addr
  have h₄ := field32_at (n := 40) (hdr ++ u32Bytes id ++ u32Bytes nrEntries ++ u64Bytes addr)
    (u32Bytes 0) (by simp [hlen]) length
  simp only [List.append_assoc] at h₁ h₂ h₃ h₄
  rw [GpuRequest.ofBytes, hty, if_neg (by decide), if_pos rfl]
  simp only [attachWithEntry, ← hhdr, List.append_assoc, h₁, h₂, h₃, h₄]

theorem ofBytes_gpuSetScanout (x y w h scanoutId id : UInt32) :
    GpuRequest.ofBytes (gpuSetScanout (gpuRect x y w h) scanoutId id) =
      .setScanout ⟨x.toNat, y.toNat, w.toNat, h.toNat⟩ scanoutId id := by
  set hdr := gpuHeader .setScanout with hhdr
  have hlen : hdr.length = 24 := length_gpuHeader _
  have hty : typeOf (gpuSetScanout (gpuRect x y w h) scanoutId id) =
      GpuCmdType.setScanout.code := by
    simp only [gpuSetScanout, List.append_assoc, typeOf_gpuHeader]
  have h₁ := rectAfter_append hlen x y w h (u32Bytes scanoutId ++ u32Bytes id)
  have h₂ := field32_at (n := 40) (hdr ++ gpuRect x y w h) (u32Bytes id) (by simp [hlen]) scanoutId
  have h₃ := field32_at (n := 44) (hdr ++ gpuRect x y w h ++ u32Bytes scanoutId) []
    (by simp [hlen]) id
  simp only [List.append_assoc, List.append_nil] at h₁ h₂ h₃
  rw [GpuRequest.ofBytes, hty, if_neg (by decide), if_neg (by decide), if_pos rfl]
  simp only [gpuSetScanout, ← hhdr, List.append_assoc, h₁, h₂, h₃]

theorem ofBytes_gpuTransferToHost2d (x y w h : UInt32) (offset : UInt64) (id : UInt32) :
    GpuRequest.ofBytes (gpuTransferToHost2d (gpuRect x y w h) offset id) =
      .transferToHost2d ⟨x.toNat, y.toNat, w.toNat, h.toNat⟩ offset.toNat id := by
  set hdr := gpuHeader .transferToHost2d with hhdr
  have hlen : hdr.length = 24 := length_gpuHeader _
  have hty : typeOf (gpuTransferToHost2d (gpuRect x y w h) offset id) =
      GpuCmdType.transferToHost2d.code := by
    simp only [gpuTransferToHost2d, List.append_assoc, typeOf_gpuHeader]
  have h₁ := rectAfter_append hlen x y w h (u64Bytes offset ++ (u32Bytes id ++ u32Bytes 0))
  have h₂ := field64_at (n := 40) (hdr ++ gpuRect x y w h) (u32Bytes id ++ u32Bytes 0)
    (by simp [hlen]) offset
  have h₃ := field32_at (n := 48) (hdr ++ gpuRect x y w h ++ u64Bytes offset) (u32Bytes 0)
    (by simp [hlen]) id
  simp only [List.append_assoc] at h₁ h₂ h₃
  rw [GpuRequest.ofBytes, hty, if_neg (by decide), if_neg (by decide), if_neg (by decide),
    if_pos rfl]
  simp only [gpuTransferToHost2d, ← hhdr, List.append_assoc, h₁, h₂, h₃]

theorem ofBytes_gpuResourceFlush (x y w h id : UInt32) :
    GpuRequest.ofBytes (gpuResourceFlush (gpuRect x y w h) id) =
      .resourceFlush ⟨x.toNat, y.toNat, w.toNat, h.toNat⟩ id := by
  set hdr := gpuHeader .resourceFlush with hhdr
  have hlen : hdr.length = 24 := length_gpuHeader _
  have hty : typeOf (gpuResourceFlush (gpuRect x y w h) id) = GpuCmdType.resourceFlush.code := by
    simp only [gpuResourceFlush, List.append_assoc, typeOf_gpuHeader]
  have h₁ := rectAfter_append hlen x y w h (u32Bytes id ++ u32Bytes 0)
  have h₂ := field32_at (n := 40) (hdr ++ gpuRect x y w h) (u32Bytes 0) (by simp [hlen]) id
  simp only [List.append_assoc] at h₁ h₂
  rw [GpuRequest.ofBytes, hty, if_neg (by decide), if_neg (by decide), if_neg (by decide),
    if_neg (by decide), if_pos rfl]
  simp only [gpuResourceFlush, ← hhdr, List.append_assoc, h₁, h₂]

end Fields

/-! ### The device -/

/-- A resource of the device, with 4 bytes for each pixel. -/
structure HostResource where
  width : ℕ
  height : ℕ
  /-- Its memory: an address and a length. -/
  backing : Option (UInt64 × ℕ)
  pixels : ℕ → ℕ → List UInt8

/-- A device with the screen 0. -/
structure Screen where
  resources : UInt32 → Option HostResource
  /-- The resource that is shown, and the part of it. -/
  scanout : Option (UInt32 × Rect)
  /-- What the screen shows, once it was flushed. -/
  shown : ℕ → ℕ → Option (List UInt8)

namespace Screen

/-- The device after its reset. -/
def blank : Screen := ⟨fun _ => none, none, fun _ _ => none⟩

/-- The pixels of the rectangle `r` in a memory whose rows have `width` pixels, from `addr` on. -/
def pixelsAt (mem : UInt64 → UInt8) (addr : UInt64) (r : Rect) (width offset : ℕ) (i j : ℕ) :
    List UInt8 :=
  Bytes.read mem (addr + UInt64.ofNat (offset + 4 * ((j - r.y) * width + (i - r.x)))) 4

def setResource (sc : Screen) (id : UInt32) (res : HostResource) : Screen :=
  { sc with resources := Function.update sc.resources id (some res) }

/-- `VIRTIO_GPU_CMD_RESOURCE_CREATE_2D`: a new resource. -/
def create (sc : Screen) (id format : UInt32) (width height : ℕ) : Option Screen :=
  if id ≠ 0 ∧ format = b8g8r8a8Unorm ∧ (sc.resources id).isNone then
    some (sc.setResource id ⟨width, height, none, fun _ _ => List.replicate 4 0⟩)
  else none

/-- `VIRTIO_GPU_CMD_RESOURCE_ATTACH_BACKING`, for a resource that has no memory. -/
def attach (sc : Screen) (id nrEntries : UInt32) (addr : UInt64) (length : ℕ) : Option Screen :=
  (sc.resources id).bind fun res =>
    if nrEntries = 1 ∧ res.backing.isNone then
      some (sc.setResource id { res with backing := some (addr, length) })
    else none

/-- `VIRTIO_GPU_CMD_SET_SCANOUT`: from now on a part of the resource is shown. -/
def setScanout (sc : Screen) (r : Rect) (scanoutId id : UInt32) : Option Screen :=
  (sc.resources id).bind fun res =>
    if scanoutId = 0 ∧ r.Within res.width res.height then
      some { sc with scanout := some (id, r), shown := fun _ _ => none }
    else none

/-- `VIRTIO_GPU_CMD_TRANSFER_TO_HOST_2D`: the device reads the pixels of a rectangle from the
memory of the resource, the first of them at `offset`. -/
def transfer (sc : Screen) (mem : UInt64 → UInt8) (r : Rect) (offset : ℕ) (id : UInt32) :
    Option Screen :=
  (sc.resources id).bind fun res => res.backing.bind fun (addr, length) =>
    if r.Within res.width res.height ∧
        (r.h = 0 ∨ offset + 4 * ((r.h - 1) * res.width + r.w) ≤ length) then
      some (sc.setResource id
        { res with pixels := r.paint (pixelsAt mem addr r res.width offset) res.pixels })
    else none

/-- `VIRTIO_GPU_CMD_RESOURCE_FLUSH`: the pixels of a rectangle appear where they are shown. -/
def flush (sc : Screen) (r : Rect) (id : UInt32) : Option Screen :=
  (sc.resources id).bind fun res =>
    if r.Within res.width res.height then
      some { sc with shown := match sc.scanout with
        | none => sc.shown
        | some (id', part) => fun i j =>
            if id' = id ∧ i < part.w ∧ j < part.h ∧ r.Covers (part.x + i) (part.y + j) then
              some (res.pixels (part.x + i) (part.y + j))
            else sc.shown i j }
    else none

/-- The device carries out a command, or finds an error in it. -/
def exec (sc : Screen) (mem : UInt64 → UInt8) : GpuRequest → Option Screen
  | .resourceCreate2d id format width height => sc.create id format width height
  | .resourceAttachBacking id nrEntries addr length => sc.attach id nrEntries addr length
  | .setScanout r scanoutId id => sc.setScanout r scanoutId id
  | .transferToHost2d r offset id => sc.transfer mem r offset id
  | .resourceFlush r id => sc.flush r id
  | .other => some sc

/-- An error changes nothing. -/
def run (sc : Screen) (mem : UInt64 → UInt8) (cmd : List UInt8) : Screen :=
  (sc.exec mem (.ofBytes cmd)).getD sc

/-- The commands `cmds`, the first of which is command number `n`; the memory is `mem k` when
command number `k` is carried out. -/
def after (mem : ℕ → UInt64 → UInt8) : Screen → ℕ → List (List UInt8) → Screen
  | sc, _, [] => sc
  | sc, n, cmd :: cmds => after mem (sc.run (mem n) cmd) (n + 1) cmds

/-- The driver reads `RespOkNoData` for a command of the screen iff it was carried out. -/
def Conforms (mem : ℕ → UInt64 → UInt8) : Screen → ℕ → List (List UInt8 × List UInt8) → Prop
  | _, _, [] => True
  | sc, n, a :: l =>
      (GpuRequest.ofBytes a.1 = .other ∨
        (Accepted a ↔ (sc.exec (mem n) (.ofBytes a.1)).isSome)) ∧
      Conforms mem (sc.run (mem n) a.1) (n + 1) l

instance decidableConforms (mem : ℕ → UInt64 → UInt8) : (sc : Screen) → (n : ℕ) →
    (l : List (List UInt8 × List UInt8)) → Decidable (sc.Conforms mem n l)
  | _, _, [] => isTrue trivial
  | sc, n, a :: l =>
      have := decidableConforms mem (sc.run (mem n) a.1) (n + 1) l
      inferInstanceAs (Decidable (_ ∧ _))

variable {mem : ℕ → UInt64 → UInt8} {sc : Screen} {n : ℕ}

theorem after_append (cmds cmds' : List (List UInt8)) :
    sc.after mem n (cmds ++ cmds') = (sc.after mem n cmds).after mem (n + cmds.length) cmds' := by
  induction cmds generalizing sc n with
  | nil => rfl
  | cons cmd cmds ih =>
    rw [List.cons_append, after, ih, after, List.length_cons, Nat.add_right_comm n 1]
    rfl

theorem conforms_append {l l' : List (List UInt8 × List UInt8)} :
    sc.Conforms mem n (l ++ l') ↔ sc.Conforms mem n l ∧
      (sc.after mem n (l.map Prod.fst)).Conforms mem (n + l.length) l' := by
  induction l generalizing sc n with
  | nil => simp [Conforms, after]
  | cons a l ih =>
    rw [List.cons_append, Conforms, Conforms, ih, and_assoc, List.length_cons,
      Nat.add_right_comm n 1]
    rfl

/-- All of the commands `cmds` are carried out, without an error. -/
inductive Executes (mem : ℕ → UInt64 → UInt8) : Screen → ℕ → List (List UInt8) → Screen → Prop
  | nil (sc : Screen) (n : ℕ) : Executes mem sc n [] sc
  | cons {sc sc₁ sc' : Screen} {n : ℕ} {cmd : List UInt8} {cmds : List (List UInt8)}
      {req : GpuRequest} (hreq : .ofBytes cmd = req) (hne : req ≠ .other)
      (h : sc.exec (mem n) req = some sc₁) (hrest : Executes mem sc₁ (n + 1) cmds sc') :
      Executes mem sc n (cmd :: cmds) sc'

theorem Executes.after_eq {sc' : Screen} {cmds : List (List UInt8)}
    (h : Executes mem sc n cmds sc') : sc.after mem n cmds = sc' := by
  induction h with
  | nil => rfl
  | cons hreq hne h _ ih => rw [after, run, hreq, h, Option.getD_some, ih]

theorem Executes.of_prefix {sc' : Screen} {pre cmds : List (List UInt8)}
    (h : Executes mem sc n cmds sc') (hpre : pre <+: cmds) : ∃ sc₁, Executes mem sc n pre sc₁ := by
  induction h generalizing pre with
  | nil sc n =>
    rw [List.prefix_nil.1 hpre]
    exact ⟨sc, .nil sc n⟩
  | @cons sc _ _ n cmd cmds _ hreq hne h _ ih =>
    cases pre with
    | nil => exact ⟨sc, .nil sc n⟩
    | cons cmd' pre =>
      obtain ⟨rfl, hpre'⟩ := List.cons_prefix_cons.1 hpre
      obtain ⟨sc₁, h₁⟩ := ih hpre'
      exact ⟨sc₁, .cons hreq hne h h₁⟩

/-- A device that conforms accepts commands that are carried out. -/
theorem Executes.accepts {sc' : Screen} {d : GpuDevice} {cmds : List (List UInt8)}
    (h : Executes mem sc n cmds sc') (hconf : sc.Conforms mem n (d.answers n cmds)) :
    d.Accepts n cmds := by
  induction h with
  | nil => exact List.forall_mem_nil _
  | cons hreq hne h _ ih =>
    obtain ⟨hacc, hrest⟩ := hconf
    rw [hreq, h] at hacc
    rw [run, hreq, h] at hrest
    exact List.forall_mem_cons.2 ⟨(hacc.resolve_left hne).2 rfl, ih hrest⟩

@[simp] theorem resources_setResource (sc : Screen) (id : UInt32) (res : HostResource) :
    (sc.setResource id res).resources id = some res := Function.update_self _ _ _

/-- A region of the resource that fills the screen appears on it. -/
theorem flush_whole {id : UInt32} {res : HostResource} {r : Rect}
    (hres : sc.resources id = some res)
    (hscan : sc.scanout = some (id, Rect.whole res.width res.height))
    (hr : r.Within res.width res.height) :
    sc.flush r id =
      some { sc with shown := r.paint (fun i j => some (res.pixels i j)) sc.shown } := by
  have hshown : (fun i j => if id = id ∧ i < res.width ∧ j < res.height ∧ r.Covers (0 + i) (0 + j)
      then some (res.pixels (0 + i) (0 + j)) else sc.shown i j) =
      r.paint (fun i j => some (res.pixels i j)) sc.shown := by
    funext i j
    rw [Nat.zero_add, Nat.zero_add]
    by_cases hc : r.Covers i j
    · rw [Rect.paint_of_covers hc, if_pos ⟨rfl, (hc.lt hr).1, (hc.lt hr).2, hc⟩]
    · rw [Rect.paint_of_not_covers hc, if_neg fun h => hc h.2.2.2]
  rw [flush, hres, Option.bind_some, if_pos hr, hscan, ← hshown]
  rfl

end Screen

/-! ### Frame buffers -/

/-- A screen that shows a frame buffer in the memory, as its clients think of it. -/
structure Display where
  /-- Where the frame buffer is. -/
  base : Option UInt64
  shown : ℕ → ℕ → Option (List UInt8)

namespace Display

/-- No frame buffer. -/
def blank : Display := ⟨none, fun _ _ => none⟩

/-- The pixels of a frame buffer at `base`, in rows of `width`. -/
def frame (width : ℕ) (base : UInt64) (mem : UInt64 → UInt8) (i j : ℕ) : Option (List UInt8) :=
  some (Bytes.read mem (base + UInt64.ofNat (4 * (j * width + i))) 4)

/-- A region of the frame buffer is shown, if there is one and the region is inside. -/
def flush (width height : ℕ) (r : Rect) (mem : UInt64 → UInt8) (d : Display) : Display :=
  match d.base with
  | none => d
  | some base =>
      if r.Within width height then { d with shown := r.paint (frame width base mem) d.shown }
      else d

/-- The first frame buffer is shown; there is no second one. -/
def setScanout (width height : ℕ) (base : UInt64) (mem : UInt64 → UInt8) (d : Display) : Display :=
  match d.base with
  | none => ⟨some base, (Rect.whole width height).paint (frame width base mem) fun _ _ => none⟩
  | some _ => d

/-- The first frame buffer is shown as a whole. -/
theorem setScanout_of_none {d : Display} (hb : d.base = none) (width height : ℕ) (base : UInt64)
    (mem : UInt64 → UInt8) : d.setScanout width height base mem =
      flush width height (Rect.whole width height) mem ⟨some base, fun _ _ => none⟩ := by
  rw [setScanout, hb]
  exact (if_pos (Rect.within_whole width height)).symm

theorem setScanout_of_ne {d : Display} (hb : d.base ≠ none) (width height : ℕ) (base : UInt64)
    (mem : UInt64 → UInt8) : d.setScanout width height base mem = d := by
  obtain ⟨b, hb⟩ := Option.ne_none_iff_exists'.1 hb
  rw [setScanout, hb]

/-- The device shows what the display shows: the only resource is the frame buffer. -/
structure ShownBy (width height : ℕ) (sc : Screen) (d : Display) : Prop where
  shown : sc.shown = d.shown
  absent : d.base = none → sc.resources 1 = none ∧ d.shown = fun _ _ => none
  present : ∀ base, d.base = some base → sc.scanout = some (1, Rect.whole width height) ∧
    ∃ pixels, sc.resources 1 = some ⟨width, height, some (base, 4 * (width * height)), pixels⟩

theorem shownBy_blank (width height : ℕ) : ShownBy width height .blank .blank :=
  ⟨rfl, fun _ => ⟨rfl, rfl⟩, fun _ h => by simp [blank] at h⟩

variable {width height : ℕ} {sc : Screen} {d : Display} {r : Rect}

/-- The pixels of a transfer are those of the frame buffer. -/
theorem pixelsAt_eq (mem : UInt64 → UInt8) (base : UInt64) (width : ℕ) {i j : ℕ}
    (h : r.Covers i j) :
    some (Screen.pixelsAt mem base r width (4 * (r.y * width + r.x)) i j) =
      frame width base mem i j := by
  rw [Screen.pixelsAt, frame, ← Nat.mul_add, Rect.row_add h]

/-- A region that is transferred to the resource and flushed. -/
theorem ShownBy.transfer_flush (h : ShownBy width height sc d) {base : UInt64}
    (hb : d.base = some base) (hr : r.Within width height) (mem : UInt64 → UInt8) :
    ∃ sc₁ sc₂, sc.transfer mem r (4 * (r.y * width + r.x)) 1 = some sc₁ ∧
      sc₁.flush r 1 = some sc₂ ∧ ShownBy width height sc₂ (d.flush width height r mem) := by
  obtain ⟨hscan, pixels, hres⟩ := h.present base hb
  have hin : r.h = 0 ∨ 4 * (r.y * width + r.x) + 4 * ((r.h - 1) * width + r.w) ≤
      4 * (width * height) := by
    refine r.h.eq_zero_or_pos.imp_right fun hpos => ?_
    have := Rect.row_last hr hpos
    omega
  let res : HostResource := ⟨width, height, some (base, 4 * (width * height)),
    r.paint (Screen.pixelsAt mem base r width (4 * (r.y * width + r.x))) pixels⟩
  have h₁ : sc.transfer mem r (4 * (r.y * width + r.x)) 1 = some (sc.setResource 1 res) := by
    rw [Screen.transfer, hres]
    exact if_pos ⟨hr, hin⟩
  have hres₁ := sc.resources_setResource 1 res
  refine ⟨_, _, h₁, Screen.flush_whole hres₁ hscan hr, ?_⟩
  have hd : d.flush width height r mem =
      { d with shown := r.paint (frame width base mem) d.shown } := by
    rw [flush, hb]
    exact if_pos hr
  rw [hd]
  refine ⟨?_, fun hnone => ?_, fun base' hbase' => ?_⟩
  · show r.paint (fun i j => some (res.pixels i j)) sc.shown = _
    rw [h.shown]
    refine Rect.paint_congr fun i j hc => ?_
    rw [← pixelsAt_eq mem base width hc]
    exact congrArg some (Rect.paint_of_covers hc)
  · exact absurd (hb.symm.trans hnone) (by simp)
  · obtain rfl := Option.some.inj (hb.symm.trans hbase')
    exact ⟨hscan, _, hres₁⟩

section Commands

variable {mem : ℕ → UInt64 → UInt8} {n : ℕ} {fbWidth fbHeight x y w h : UInt64}

/-- The rectangle of a call. -/
def regionOf (x y w h : UInt64) : Rect := ⟨x.toNat, y.toNat, w.toNat, h.toNat⟩

/-- Coordinates that fit in 32 bits. -/
def Fits32 (x y w h : UInt64) : Prop :=
  x.toNat < 2 ^ 32 ∧ y.toNat < 2 ^ 32 ∧ w.toNat < 2 ^ 32 ∧ h.toNat < 2 ^ 32

theorem Fits32.rect (hfit : Fits32 x y w h) :
    (⟨x.toUInt32.toNat, y.toUInt32.toNat, w.toUInt32.toNat, h.toUInt32.toNat⟩ : Rect) =
      regionOf x y w h := by
  obtain ⟨hx, hy, hw, hh⟩ := hfit
  rw [regionOf, UInt64.toNat_toUInt32, UInt64.toNat_toUInt32, UInt64.toNat_toUInt32,
    UInt64.toNat_toUInt32, Nat.mod_eq_of_lt hx, Nat.mod_eq_of_lt hy, Nat.mod_eq_of_lt hw,
    Nat.mod_eq_of_lt hh]

/-- The byte offset of a region that is inside. -/
theorem toNat_offset (hin : (regionOf x y w h).Within fbWidth.toNat height)
    (hsize : 4 * (fbWidth.toNat * height) < 2 ^ 32) (hw : fbWidth.toNat < 2 ^ 32) :
    ((y * fbWidth + x) * 4).toNat = 4 * (y.toNat * fbWidth.toNat + x.toNat) := by
  have hx : x.toNat ≤ fbWidth.toNat := (Nat.le_add_right _ _).trans hin.1
  have hy : y.toNat ≤ height := (Nat.le_add_right _ _).trans hin.2
  have hrow : y.toNat * fbWidth.toNat ≤ fbWidth.toNat * height := by
    rw [Nat.mul_comm]
    exact Nat.mul_le_mul_left _ hy
  rw [UInt64.toNat_mul, UInt64.toNat_add, UInt64.toNat_mul,
    Nat.mod_eq_of_lt (show y.toNat * fbWidth.toNat < 2 ^ 64 by omega),
    Nat.mod_eq_of_lt (show y.toNat * fbWidth.toNat + x.toNat < 2 ^ 64 by omega)]
  show _ * 4 % 2 ^ 64 = _
  omega

/-- What the device makes of the two commands of a flush. -/
theorem after_flushCmds (hfit : Fits32 x y w h) :
    sc.after mem n (flushCmds fbWidth x y w h) =
      ((((sc.transfer (mem n) (regionOf x y w h) ((y * fbWidth + x) * 4).toNat 1).getD sc).flush
        (regionOf x y w h) 1).getD
          ((sc.transfer (mem n) (regionOf x y w h) ((y * fbWidth + x) * 4).toNat 1).getD sc)) := by
  rw [← hfit.rect]
  simp only [flushCmds, Screen.after, Screen.run, ofBytes_gpuTransferToHost2d,
    ofBytes_gpuResourceFlush, Screen.exec]

/-- A region that is not inside is not transferred and not flushed. -/
theorem ShownBy.refused (hs : ShownBy width height sc d) {m : UInt64 → UInt8}
    (hr : d.base = none ∨ ¬ r.Within width height) (offset : ℕ) :
    sc.transfer m r offset 1 = none ∧ sc.flush r 1 = none ∧ d.flush width height r m = d := by
  cases hb : d.base with
  | none =>
    rw [Screen.transfer, Screen.flush, (hs.absent hb).1, flush, hb]
    exact ⟨rfl, rfl, rfl⟩
  | some base =>
    have hr := hr.resolve_left (by simp [hb])
    obtain ⟨hscan, pixels, hres⟩ := hs.present base hb
    rw [Screen.transfer, Screen.flush, hres, flush, hb]
    exact ⟨if_neg fun h => hr h.1, if_neg hr, if_neg hr⟩

/-- The commands of `flush` show the region. -/
theorem ShownBy.flushCmds (hs : ShownBy fbWidth.toNat height sc d) (hfit : Fits32 x y w h)
    (hsize : 4 * (fbWidth.toNat * height) < 2 ^ 32) (hw : fbWidth.toNat < 2 ^ 32) :
    ShownBy fbWidth.toNat height (sc.after mem n (flushCmds fbWidth x y w h))
      (d.flush fbWidth.toNat height (regionOf x y w h) (mem n)) := by
  rw [after_flushCmds hfit]
  by_cases hin : d.base ≠ none ∧ (regionOf x y w h).Within fbWidth.toNat height
  · obtain ⟨hb, hin⟩ := hin
    obtain ⟨base, hb⟩ := Option.ne_none_iff_exists'.1 hb
    obtain ⟨sc₁, sc₂, h₁, h₂, hshows⟩ := hs.transfer_flush hb hin (mem n)
    rw [toNat_offset hin hsize hw]
    change sc.transfer _ _ (4 * (y.toNat * fbWidth.toNat + x.toNat)) 1 = _ at h₁
    rw [h₁, Option.getD_some, h₂]
    exact hshows
  · obtain ⟨h₁, h₂, hd⟩ := hs.refused (m := mem n) (r := regionOf x y w h)
      (by tauto) ((y * fbWidth + x) * 4).toNat
    rw [h₁, Option.getD_none, h₂, hd]
    exact hs

/-- Without a frame buffer the commands of `set_scanout` are carried out. -/
theorem ShownBy.executes_checkedCmds (hs : ShownBy fbWidth.toNat fbHeight.toNat sc d)
    (hb : d.base = none) (hsize : 4 * (fbWidth.toNat * fbHeight.toNat) < 2 ^ 32)
    (hw : fbWidth.toNat < 2 ^ 32) (hh : fbHeight.toNat < 2 ^ 32) (base : UInt64) :
    ∃ sc', Screen.Executes mem sc n (checkedCmds fbWidth fbHeight base) sc' ∧
      ShownBy fbWidth.toNat fbHeight.toNat sc' ⟨some base, fun _ _ => none⟩ := by
  obtain ⟨habs, hnone⟩ := hs.absent hb
  have hlen : (fbWidth * fbHeight * 4).toUInt32.toNat = 4 * (fbWidth.toNat * fbHeight.toNat) := by
    rw [UInt64.toNat_toUInt32, UInt64.toNat_mul, UInt64.toNat_mul,
      Nat.mod_eq_of_lt (show fbWidth.toNat * fbHeight.toNat < 2 ^ 64 by omega)]
    show _ * 4 % 2 ^ 64 % 2 ^ 32 = _
    omega
  have hw₃₂ : fbWidth.toUInt32.toNat = fbWidth.toNat := by
    rw [UInt64.toNat_toUInt32, Nat.mod_eq_of_lt hw]
  have hh₃₂ : fbHeight.toUInt32.toNat = fbHeight.toNat := by
    rw [UInt64.toNat_toUInt32, Nat.mod_eq_of_lt hh]
  let res : HostResource := ⟨fbWidth.toNat, fbHeight.toNat, none, fun _ _ => List.replicate 4 0⟩
  let res' : HostResource :=
    { res with backing := some (base, 4 * (fbWidth.toNat * fbHeight.toNat)) }
  let sc₁ := sc.setResource 1 res
  let sc₂ := sc₁.setResource 1 res'
  have h₁ : sc.exec (mem n) (.resourceCreate2d 1 b8g8r8a8Unorm fbWidth.toNat fbHeight.toNat) =
      some sc₁ := by
    rw [Screen.exec, Screen.create, habs]
    exact if_pos ⟨by decide, rfl, rfl⟩
  have h₂ : sc₁.exec (mem (n + 1)) (.resourceAttachBacking 1 1 base
      (4 * (fbWidth.toNat * fbHeight.toNat))) = some sc₂ := by
    rw [Screen.exec, Screen.attach, Screen.resources_setResource, Option.bind_some,
      if_pos ⟨rfl, rfl⟩]
  let sc₃ : Screen := { sc₂ with
    scanout := some (1, Rect.whole fbWidth.toNat fbHeight.toNat)
    shown := fun _ _ => none }
  have h₃ : sc₂.exec (mem (n + 1 + 1))
      (.setScanout (Rect.whole fbWidth.toNat fbHeight.toNat) 0 1) = some sc₃ := by
    rw [Screen.exec, Screen.setScanout, Screen.resources_setResource, Option.bind_some,
      if_pos ⟨rfl, Rect.within_whole _ _⟩]
  have hrect := ofBytes_gpuSetScanout 0 0 fbWidth.toUInt32 fbHeight.toUInt32 0 1
  have hcreate := ofBytes_gpuResourceCreate2d 1 b8g8r8a8Unorm fbWidth.toUInt32 fbHeight.toUInt32
  have hattach := ofBytes_attachWithEntry 1 1 base (fbWidth * fbHeight * 4).toUInt32
  rw [hw₃₂, hh₃₂] at hrect hcreate
  rw [hlen] at hattach
  refine ⟨sc₃, .cons hcreate (by simp) h₁ (.cons hattach (by simp) h₂
    (.cons hrect (by simp) h₃ (.nil _ _))), ?_⟩
  refine ⟨rfl, fun h => by simp at h, fun base' hbase' => ?_⟩
  obtain rfl := Option.some.inj hbase'
  exact ⟨rfl, _, sc₁.resources_setResource 1 res'⟩

/-- The last two commands of `set_scanout` show the whole frame buffer. -/
theorem ShownBy.showCmds (hs : ShownBy fbWidth.toNat fbHeight.toNat sc d)
    (hsize : 4 * (fbWidth.toNat * fbHeight.toNat) < 2 ^ 32) (hw : fbWidth.toNat < 2 ^ 32)
    (hh : fbHeight.toNat < 2 ^ 32) :
    ShownBy fbWidth.toNat fbHeight.toNat (sc.after mem n (showCmds fbWidth fbHeight))
      (d.flush fbWidth.toNat fbHeight.toNat (Rect.whole fbWidth.toNat fbHeight.toNat) (mem n)) := by
  have hcmds : GlendaDrivers.showCmds fbWidth fbHeight =
      GlendaDrivers.flushCmds fbWidth 0 0 fbWidth fbHeight := by
    simp [GlendaDrivers.showCmds, GlendaDrivers.flushCmds]
  rw [hcmds]
  exact hs.flushCmds ⟨by decide, by decide, hw, hh⟩ hsize hw

/-- With a frame buffer the first command of `set_scanout` fails. -/
theorem ShownBy.create_eq_none (hs : ShownBy width height sc d) (hb : d.base ≠ none)
    (m : UInt64 → UInt8) (format w h : UInt32) :
    sc.exec m (.ofBytes (gpuResourceCreate2d 1 format w h)) = none := by
  obtain ⟨base, hb⟩ := Option.ne_none_iff_exists'.1 hb
  obtain ⟨-, pixels, hres⟩ := hs.present base hb
  rw [ofBytes_gpuResourceCreate2d, Screen.exec, Screen.create, hres]
  exact if_neg fun h => by simp at h

end Commands

end Display

end GlendaDrivers
