import GlendaDrivers.Lib.Align
import GlendaDrivers.Platform.Dtb

/-!
# The two passes over the device tree (`platform/dtb/src/driver.rs`, `layout.rs`)

`init` maps the blob and parses it; `probe` parses it once more, with a slice of a fixed length.

* `DtbDriver.init`, `DtbDriver.probe`: the two passes;
* `ReadsHeader`: what `Fdt::new` checks;
* `SameBlob`: that both passes see the blob;
* `same_blob`: for which sizes they do.
-/

namespace GlendaDrivers

open Align

namespace DtbDriver

/-- `MAP_VA`. -/
def mapVa : UInt64 := 0x40000000

/-- `REPORT_VA`. -/
def reportVa : UInt64 := 0x40200000

/-- The length of the slice in `probe`. -/
def probeLen : ℕ := 0x100000

/-- The number of pages that `init` maps at `MAP_VA`. -/
def mappedPages (fdtSize : UInt64) : UInt64 := alignUp pgSize fdtSize / pgSize

/-- `init` up to `Fdt::new`, with the results of `get_mmio` and `map_page`, and the crate's parser
`fdtNew`. -/
def init (fdtNew : List UInt8 → Option Fdt) (getMmio : Except Error UInt64)
    (mapPage : UInt64 → UInt64 → Except Error Unit) (mem : UInt64 → UInt8) : Except Error Fdt :=
  match getMmio with
  | .error e => .error e
  | .ok fdtSize =>
      match mapPage mapVa (mappedPages fdtSize) with
      | .error e => .error e
      | .ok _ =>
          match fdtNew (Bytes.read mem mapVa fdtSize.toNat) with
          | none => .error .invalidArgs
          | some fdt => .ok fdt

/-- `probe`. -/
def probe (fdtNew : List UInt8 → Option Fdt) (mem : UInt64 → UInt8) :
    Except Error (List DeviceDescNode) :=
  parseDtbBlob fdtNew (Bytes.read mem mapVa probeLen)

end DtbDriver

/-! ### The header -/

/-- The header is complete and has the magic number. -/
def ValidHeader (slice : List UInt8) : Prop :=
  40 ≤ slice.length ∧ slice.take 4 = [0xd0, 0x0d, 0xfe, 0xed]

instance : DecidablePred ValidHeader := fun slice =>
  inferInstanceAs (Decidable (40 ≤ slice.length ∧ slice.take 4 = [0xd0, 0x0d, 0xfe, 0xed]))

/-- `totalsize`, a big-endian number. -/
def totalSize (slice : List UInt8) : ℕ := Bytes.ofLittle ((slice.drop 4).take 4).reverse

/-- `Fdt::new` fails iff the header is invalid or the total size exceeds the slice. -/
def ReadsHeader (fdtNew : List UInt8 → Option Fdt) : Prop :=
  ∀ slice, (fdtNew slice).isSome ↔ ValidHeader slice ∧ totalSize slice ≤ slice.length

/-- The memory with `blob` at `MAP_VA`. -/
def withBlob (mem : UInt64 → UInt8) (blob : List UInt8) : UInt64 → UInt8 :=
  Bytes.write mem DtbDriver.mapVa blob

/-- The bytes of the header. -/
def headerOf (mem : UInt64 → UInt8) : List UInt8 := Bytes.read mem DtbDriver.mapVa 40

open DtbDriver

/-- Both passes see the blob: the slice of `probe` is mapped, contains the blob and ends below
`REPORT_VA`, and `probe` succeeds exactly when `init` does, whose mapping succeeded. -/
structure SameBlob (fdtNew : List UInt8 → Option Fdt) (mem : UInt64 → UInt8) (blob : List UInt8)
    (fdtSize : UInt64) : Prop where
  mapped : probeLen ≤ (mappedPages fdtSize).toNat * pgSize.toNat
  whole : blob <+: Bytes.read (withBlob mem blob) mapVa probeLen
  below : mapVa.toNat + probeLen ≤ reportVa.toNat
  agree : (∃ devices, probe fdtNew (withBlob mem blob) = .ok devices) ↔
    ∃ fdt, init fdtNew (.ok fdtSize) (fun _ _ => .ok ()) (withBlob mem blob) = .ok fdt

section Passes

variable {fdtNew : List UInt8 → Option Fdt} {mem : UInt64 → UInt8} {blob : List UInt8}
  {fdtSize : UInt64}

/-- A carry leaves fewer pages than the size takes. -/
theorem mapped_iff : probeLen ≤ (mappedPages fdtSize).toNat * pgSize.toNat ↔
    0xFF001 ≤ fdtSize.toNat ∧ fdtSize.toNat ≤ 2 ^ 64 - 4096 := by
  have hpg : pgSize.toNat = 2 ^ 12 := rfl
  have hlt := fdtSize.toNat_lt
  have hpages : (mappedPages fdtSize).toNat = (fdtSize + pgSize - 1).toNat / 2 ^ 12 := by
    unfold mappedPages alignUp
    rw [UInt64.toNat_div, toNat_alignDown hpg, hpg, Nat.mul_div_cancel _ (by norm_num)]
  have hsum : (fdtSize + pgSize - 1).toNat = (fdtSize.toNat + 4095) % 2 ^ 64 := by
    rw [UInt64.sub_eq_add_neg, UInt64.add_assoc, ← UInt64.sub_eq_add_neg, UInt64.toNat_add]
    rfl
  rw [hpages, hsum, hpg]
  unfold probeLen
  omega

theorem whole_iff :
    blob <+: Bytes.read (withBlob mem blob) mapVa probeLen ↔ blob.length ≤ probeLen := by
  constructor
  · intro h
    have hlen := h.length_le
    rwa [Bytes.length_read] at hlen
  · intro h
    unfold withBlob
    rw [Bytes.read_write_append mem mapVa h (by unfold probeLen; norm_num)]
    exact List.prefix_append _ _

/-- Both passes read the same header. -/
theorem header_read {n : ℕ} (hn : 40 ≤ n) (m : UInt64 → UInt8) :
    (ValidHeader (Bytes.read m mapVa n) ↔ ValidHeader (headerOf m)) ∧
      totalSize (Bytes.read m mapVa n) = totalSize (headerOf m) := by
  have htake : (Bytes.read m mapVa n).take 40 = headerOf m := by
    unfold headerOf Bytes.read
    rw [← List.map_take, List.take_range, Nat.min_eq_left hn]
  unfold ValidHeader totalSize
  rw [← htake, Bytes.length_read, List.length_take, Bytes.length_read, List.take_take,
    List.drop_take, List.take_take]
  exact ⟨and_congr (by omega) Iff.rfl, rfl⟩

theorem isSome_read (hnew : ReadsHeader fdtNew) {n : ℕ} (hn : 40 ≤ n) (m : UInt64 → UInt8) :
    (fdtNew (Bytes.read m mapVa n)).isSome ↔
      ValidHeader (headerOf m) ∧ totalSize (headerOf m) ≤ n := by
  rw [hnew, (header_read hn m).1, (header_read hn m).2, Bytes.length_read]

theorem probe_ok_iff (m : UInt64 → UInt8) : (∃ devices, probe fdtNew m = .ok devices) ↔
    (fdtNew (Bytes.read m mapVa probeLen)).isSome := by
  unfold probe parseDtbBlob
  cases fdtNew (Bytes.read m mapVa probeLen) with
  | none => simp
  | some fdt =>
    dsimp only
    cases fdt.findNode "/" <;> simp

theorem init_ok_iff (m : UInt64 → UInt8) :
    (∃ fdt, init fdtNew (.ok fdtSize) (fun _ _ => .ok ()) m = .ok fdt) ↔
      (fdtNew (Bytes.read m mapVa fdtSize.toNat)).isSome := by
  unfold init
  dsimp only
  cases fdtNew (Bytes.read m mapVa fdtSize.toNat) <;> simp

/-- **The two passes over the device tree.**  Both see the blob exactly when the size that was
reported is at least the length of the second slice, up to a page, and does not overflow when it
is rounded up, the blob is no longer than the second slice, and the total size in a valid header
exceeds both slices or neither. -/
theorem same_blob (fdtNew : List UInt8 → Option Fdt) (hnew : ReadsHeader fdtNew)
    (mem : UInt64 → UInt8) (blob : List UInt8) (fdtSize : UInt64) :
    SameBlob fdtNew mem blob fdtSize ↔
      0xFF001 ≤ fdtSize.toNat ∧ fdtSize.toNat ≤ 2 ^ 64 - 4096 ∧ blob.length ≤ 0x100000 ∧
        (ValidHeader (headerOf (withBlob mem blob)) →
          (totalSize (headerOf (withBlob mem blob)) ≤ fdtSize.toNat ↔
            totalSize (headerOf (withBlob mem blob)) ≤ 0x100000)) := by
  have hagree : 40 ≤ fdtSize.toNat → (((∃ devices, probe fdtNew (withBlob mem blob) = .ok devices) ↔
      ∃ fdt, init fdtNew (.ok fdtSize) (fun _ _ => .ok ()) (withBlob mem blob) = .ok fdt) ↔
        (ValidHeader (headerOf (withBlob mem blob)) →
          (totalSize (headerOf (withBlob mem blob)) ≤ fdtSize.toNat ↔
            totalSize (headerOf (withBlob mem blob)) ≤ 0x100000))) := by
    intro hsize
    rw [probe_ok_iff, init_ok_iff, isSome_read hnew hsize, isSome_read hnew (by decide)]
    unfold probeLen
    tauto
  constructor
  · rintro ⟨hmapped, hwhole, -, hsame⟩
    obtain ⟨hlow, hhigh⟩ := mapped_iff.mp hmapped
    exact ⟨hlow, hhigh, whole_iff.mp hwhole, (hagree (by omega)).mp hsame⟩
  · rintro ⟨hlow, hhigh, hblob, hsame⟩
    exact ⟨mapped_iff.mpr ⟨hlow, hhigh⟩, whole_iff.mpr hblob, by decide,
      (hagree (by omega)).mpr hsame⟩

end Passes

/-- A parser that only looks at the header. -/
def headerParser (slice : List UInt8) : Option Fdt :=
  if ValidHeader slice ∧ totalSize slice ≤ slice.length then some socFdt else none

theorem readsHeader_headerParser : ReadsHeader headerParser := by
  intro slice
  unfold headerParser
  split_ifs with h <;> simp [h]

/-- A small blob in a region of one megabyte. -/
theorem same_blob_megabyte : SameBlob headerParser (fun _ => 0) socBlob 0x100000 := by
  refine (same_blob headerParser readsHeader_headerParser _ socBlob 0x100000).mpr
    ⟨by decide, by decide, by decide +kernel, fun _ => Iff.rfl⟩

/-- In a region of two pages the second slice is not mapped. -/
theorem not_same_blob_small : (DtbDriver.mappedPages 0x2000).toNat = 2 ∧
    (∃ fdt, DtbDriver.init headerParser (.ok 0x2000) (fun _ _ => .ok ())
      (withBlob (fun _ => 0) socBlob) = .ok fdt) ∧
        ¬SameBlob headerParser (fun _ => 0) socBlob 0x2000 := by
  refine ⟨by decide, ?_, fun h => absurd (mapped_iff.mp h.mapped).1 (by decide)⟩
  rw [init_ok_iff, isSome_read readsHeader_headerParser (by decide)]
  decide

end GlendaDrivers
