import Vela.Common.VideoFrame
import Vela.Foundation.Stores

/-! # Pixel conversion

From the pictures of a camera to I420. A source is what may be read of it: the byte at an
offset from its beginning, or none where nothing may be read. -/

namespace Vela.PixelConvert

open Foundation CheckedInt

/-- What the language leaves undefined. -/
inductive Undefined where
  | overflow
  | outOfBounds
  deriving DecidableEq, Repr

abbrev Source := Int → Option Byte

/-- The value of a signed expression. -/
def int (value : Int) : Except Undefined Int :=
  (checked 32 value).mapError fun _ => .overflow

/-- `srow[column]` -/
def readAt (source : Source) (row column : Int) : Except Undefined Byte := do
  let column ← int column
  match source (row + column) with
  | some byte => return byte
  | none => .error .outOfBounds

def chromaWidth (w : Int) : Except Undefined Int := do return (← int (w + 1)).tdiv 2

def chromaHeight (h : Int) : Except Undefined Int := do return (← int (h + 1)).tdiv 2

/-- The stores into `dst`, in their order. -/
def nv12ToI420 (srcY : Source) (srcYStride : Int) (srcUV : Source) (srcUVStride : Int)
    (w h : Int) : Except Undefined (List (Store Byte)) := do
  let cw ← chromaWidth w
  let ch ← chromaHeight h
  let dstU := w.toNat * h.toNat
  let dstV := dstU + cw.toNat * ch.toNat
  let luma ← Store.loop h.toNat fun y => Store.loop w.toNat fun x => do
    let row := y * srcYStride
    let value ← readAt srcY row x
    return [⟨y * w.toNat + x, value⟩]
  let chroma ← Store.loop ch.toNat fun y => Store.loop cw.toNat fun x => do
    let row := y * srcUVStride
    let u ← readAt srcUV row (2 * x + 0)
    let v ← readAt srcUV row (2 * x + 1)
    return [⟨dstU + y * cw.toNat + x, u⟩, ⟨dstV + y * cw.toNat + x, v⟩]
  return luma ++ chroma

def clamp8 (v : Int) : Byte := BitVec.ofInt 8 (if v < 0 then 0 else if v > 255 then 255 else v)

/-- 0.257R + 0.504G + 0.098B + 16 -/
def bt601Y (b g r : Byte) : Int :=
  ((66 * (r.toNat : Int) + 129 * g.toNat + 25 * b.toNat + 128) >>> (8 : Nat)) + 16

/-- -0.148R - 0.291G + 0.439B + 128 -/
def bt601U (b g r : Byte) : Int :=
  ((-38 * (r.toNat : Int) - 74 * g.toNat + 112 * b.toNat + 128) >>> (8 : Nat)) + 128

/-- 0.439R - 0.368G - 0.071B + 128 -/
def bt601V (b g r : Byte) : Int :=
  ((112 * (r.toNat : Int) - 94 * g.toNat - 18 * b.toNat + 128) >>> (8 : Nat)) + 128

/-- The chroma of a block of four pixels is that of its first one. -/
def bgraToI420 (src : Source) (srcStride : Int) (w h : Int) :
    Except Undefined (List (Store Byte)) := do
  let cw ← chromaWidth w
  let ch ← chromaHeight h
  let dstU := w.toNat * h.toNat
  let dstV := dstU + cw.toNat * ch.toNat
  let luma ← Store.loop h.toNat fun y => Store.loop w.toNat fun x => do
    let row := y * srcStride
    let b ← readAt src row (4 * x + 0)
    let g ← readAt src row (4 * x + 1)
    let r ← readAt src row (4 * x + 2)
    return [⟨y * w.toNat + x, clamp8 (bt601Y b g r)⟩]
  let chroma ← Store.loop ch.toNat fun cy => Store.loop cw.toNat fun cx => do
    let sy ← int (cy * 2)
    let row := sy * srcStride
    let sx ← int (cx * 2)
    let b ← readAt src row (4 * sx + 0)
    let g ← readAt src row (4 * sx + 1)
    let r ← readAt src row (4 * sx + 2)
    return [⟨dstU + cy * cw.toNat + cx, clamp8 (bt601U b g r)⟩,
      ⟨dstV + cy * cw.toNat + cx, clamp8 (bt601V b g r)⟩]
  return luma ++ chroma

/-! ## Geometry -/

variable {source : Source} {row column value w h : Int}

theorem int_eq (fits : Fits 32 value) : int value = .ok value := by
  rw [int, checked_of_fits fits]
  rfl

theorem int_of_nonneg (nonnegative : 0 ≤ value) (bound : value < 2 ^ 31) : int value = .ok value :=
  int_eq (fits_of_nonneg nonnegative bound)

theorem readAt_eq {byte : Byte} (nonnegative : 0 ≤ column) (bound : column < 2 ^ 31)
    (readable : source (row + column) = some byte) : readAt source row column = .ok byte := by
  rw [readAt, int_of_nonneg nonnegative bound, ok_bind, readable]
  rfl

/-- The byte at an offset that may be read. -/
def byteOf (source : Source) (offset : Int) : Byte := (source offset).getD 0

theorem some_byteOf {source : Source} {offset : Int} (readable : (source offset).isSome = true) :
    source offset = some (byteOf source offset) := by
  rcases Option.isSome_iff_exists.mp readable with ⟨byte, found⟩
  rw [byteOf, found, Option.getD_some]

theorem chromaWidth_eq {size : Int} (positive : 1 ≤ size) (fits : size < 2 ^ 31 - 1) :
    chromaWidth size = .ok (VideoFrame.half size : Int) := by
  rcases VideoFrame.half_eq positive fits with ⟨isChecked, isHalf⟩
  rw [chromaWidth, int, isChecked, ← isHalf]
  rfl

theorem chromaHeight_eq {size : Int} (positive : 1 ≤ size) (fits : size < 2 ^ 31 - 1) :
    chromaHeight size = .ok (VideoFrame.half size : Int) := chromaWidth_eq positive fits

theorem chromaHeight_max {size : Int} (max : size = 2 ^ 31 - 1) :
    chromaHeight size = .error .overflow := by
  rw [chromaHeight, int, VideoFrame.checked_half_max max]
  rfl

/-! ## Pictures -/

/-- The three planes of a picture, behind each other. -/
def picture (w h : Int) (luma u v : Nat → Nat → Byte) : List (Store Byte) :=
  let cw := VideoFrame.half w
  let ch := VideoFrame.half h
  Store.plane 0 w.toNat h.toNat luma ++
    (Store.plane (w.toNat * h.toNat) cw ch u ++
      Store.plane (w.toNat * h.toNat + cw * ch) cw ch v)

theorem picture_offsets (w h : Int) (luma u v : Nat → Nat → Byte) :
    (picture w h luma u v).map Store.offset = List.range (VideoFrame.byteCount w h) := by
  have total : VideoFrame.byteCount w h = h.toNat * w.toNat +
      (VideoFrame.half h * VideoFrame.half w + VideoFrame.half h * VideoFrame.half w) := by
    rw [VideoFrame.byteCount, Nat.mul_comm w.toNat, Nat.mul_comm (VideoFrame.half w), Nat.two_mul]
  rw [picture, List.map_append, List.map_append, Store.plane_offsets, Store.plane_offsets,
    Store.plane_offsets, total, List.range_eq_range', ← List.range'_append_1,
    ← List.range'_append_1]
  rw [Nat.zero_add, Nat.mul_comm w.toNat, Nat.mul_comm (VideoFrame.half w)]

/-- The planes of a frame over this memory show the three given ones. -/
structure Shows (memory : Nat → Byte) (frame : VideoFrame) (luma u v : Nat → Nat → Option Byte) :
    Prop where
  luma : ∀ x y, x < frame.width.toNat → y < frame.height.toNat →
    luma x y = some (memory (frame.planes[0].data + y * frame.planes[0].stride.toNat + x))
  blue : ∀ cx cy, cx < VideoFrame.half frame.width → cy < VideoFrame.half frame.height →
    u cx cy = some (memory (frame.planes[1].data + cy * frame.planes[1].stride.toNat + cx))
  red : ∀ cx cy, cx < VideoFrame.half frame.width → cy < VideoFrame.half frame.height →
    v cx cy = some (memory (frame.planes[2].data + cy * frame.planes[2].stride.toNat + cx))

/-- The bytes of an I420 picture are written, each of them once and no other, and a
frame made over a buffer with room for them shows the three planes. -/
structure WritesI420 (stores : List (Store Byte)) (w h : Int) (size : BitVec 64)
    (luma u v : Nat → Nat → Option Byte) : Prop where
  sized : VideoFrame.i420Size w h = .ok size
  once : (stores.map Store.offset).Perm (List.range size.toNat)
  shown : ∀ (buffer : FramePool.Buffer) (captured : SteadyTime), size ≤ buffer.capacity →
    ∃ frame, VideoFrame.makeI420 (some buffer) w h captured = .ok (some frame) ∧
      frame.width = w ∧ frame.height = h ∧
      ∀ memory, Shows (Store.apply memory stores) frame luma u v

theorem picture_once (w h : Int) (luma u v : Nat → Nat → Byte) :
    ((picture w h luma u v).map Store.offset).Nodup := by
  rw [picture_offsets]
  exact List.nodup_range

/-- Stores in any order that are those of a picture. -/
theorem WritesI420.of_perm (sized : VideoFrame.Sized w h) {stores : List (Store Byte)}
    {luma u v : Nat → Nat → Byte} {lumaSource uSource vSource : Nat → Nat → Option Byte}
    (same : stores.Perm (picture w h luma u v))
    (isLuma : ∀ x y, x < w.toNat → y < h.toNat → lumaSource x y = some (luma x y))
    (isChroma : ∀ cx cy, cx < VideoFrame.half w → cy < VideoFrame.half h →
      uSource cx cy = some (u cx cy) ∧ vSource cx cy = some (v cx cy)) :
    WritesI420 stores w h (BitVec.ofNat 64 (VideoFrame.byteCount w h)) lumaSource uSource
      vSource := by
  have offsets := same.map Store.offset
  have once : (stores.map Store.offset).Nodup := offsets.nodup_iff.mpr (picture_once w h luma u v)
  have shows : ∀ memory store, store ∈ picture w h luma u v →
      Store.apply memory stores store.offset = store.value :=
    fun memory store member => Store.apply_of_mem once (same.mem_iff.mpr member)
  refine ⟨sized.i420Size_eq, ?_, ?_⟩
  · rwa [sized.toNat_byteCount, ← picture_offsets w h luma u v]
  · intro buffer captured room
    have bytes := BitVec.le_def.mp room
    rw [sized.toNat_byteCount] at bytes
    refine ⟨_, sized.makeI420_eq bytes captured, rfl, rfl, fun memory => ⟨?_, ?_, ?_⟩⟩
    · intro x y column row
      have member : ⟨0 + y * w.toNat + x, luma x y⟩ ∈ picture w h luma u v :=
        List.mem_append_left _ (Store.mem_plane luma column row)
      exact (isLuma x y column row).trans (congrArg some (shows memory _ member).symm)
    · intro cx cy column row
      have member : ⟨w.toNat * h.toNat + cy * VideoFrame.half w + cx, u cx cy⟩ ∈
          picture w h luma u v :=
        List.mem_append_right _ (List.mem_append_left _ (Store.mem_plane u column row))
      exact (isChroma cx cy column row).1.trans (congrArg some (shows memory _ member).symm)
    · intro cx cy column row
      have member : ⟨w.toNat * h.toNat + VideoFrame.half w * VideoFrame.half h +
          cy * VideoFrame.half w + cx, v cx cy⟩ ∈ picture w h luma u v :=
        List.mem_append_right _ (List.mem_append_right _ (Store.mem_plane v column row))
      exact (isChroma cx cy column row).2.trans (congrArg some (shows memory _ member).symm)

end Vela.PixelConvert
