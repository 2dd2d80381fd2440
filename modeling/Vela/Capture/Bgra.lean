import Vela.Capture.PixelConvert

/-! # From BGRA

Four bytes a pixel. The chroma of a block of two by two pixels is taken from its upper
left one. -/

namespace Vela.PixelConvert

open Foundation CheckedInt

variable {srcStride w h : Int} {src : Source}

/-! ## BT.601 -/

/-- A value that `clamp8` leaves as it is. -/
theorem toNat_clamp8 {v : Int} (nonnegative : 0 ≤ v) (small : v ≤ 255) :
    ((clamp8 v).toNat : Int) = v := by
  rw [clamp8, if_neg (by omega), if_neg (by omega)]
  exact toNat_ofInt_of_bounds nonnegative (by omega)

section Components

variable (b g r : Byte)

theorem bt601Y_range : 16 ≤ bt601Y b g r ∧ bt601Y b g r ≤ 235 := by
  have blue := b.isLt
  have green := g.isLt
  have red := r.isLt
  rw [bt601Y, Int.shiftRight_eq_div_pow]
  omega

theorem bt601U_range : 16 ≤ bt601U b g r ∧ bt601U b g r ≤ 240 := by
  have blue := b.isLt
  have green := g.isLt
  have red := r.isLt
  rw [bt601U, Int.shiftRight_eq_div_pow]
  omega

theorem bt601V_range : 16 ≤ bt601V b g r ∧ bt601V b g r ≤ 240 := by
  have blue := b.isLt
  have green := g.isLt
  have red := r.isLt
  rw [bt601V, Int.shiftRight_eq_div_pow]
  omega

end Components

theorem bt601_gray (level : Byte) :
    bt601U level level level = 128 ∧ bt601V level level level = 128 := by
  rw [bt601U, bt601V, Int.shiftRight_eq_div_pow, Int.shiftRight_eq_div_pow]
  omega

/-! ## Pixels -/

structure Pixel where
  b : Byte
  g : Byte
  r : Byte
  deriving DecidableEq, Repr

namespace Pixel

def y (pixel : Pixel) : Byte := clamp8 (bt601Y pixel.b pixel.g pixel.r)

def u (pixel : Pixel) : Byte := clamp8 (bt601U pixel.b pixel.g pixel.r)

def v (pixel : Pixel) : Byte := clamp8 (bt601V pixel.b pixel.g pixel.r)

/-- The three components are within the range of studio video, and clamping changes none
of them. -/
structure InRange (pixel : Pixel) : Prop where
  luma : (pixel.y.toNat : Int) = bt601Y pixel.b pixel.g pixel.r ∧
    16 ≤ pixel.y.toNat ∧ pixel.y.toNat ≤ 235
  blue : (pixel.u.toNat : Int) = bt601U pixel.b pixel.g pixel.r ∧
    16 ≤ pixel.u.toNat ∧ pixel.u.toNat ≤ 240
  red : (pixel.v.toNat : Int) = bt601V pixel.b pixel.g pixel.r ∧
    16 ≤ pixel.v.toNat ∧ pixel.v.toNat ≤ 240

theorem inRange (pixel : Pixel) : pixel.InRange := by
  have luma := bt601Y_range pixel.b pixel.g pixel.r
  have blue := bt601U_range pixel.b pixel.g pixel.r
  have red := bt601V_range pixel.b pixel.g pixel.r
  have lumaKept : (pixel.y.toNat : Int) = _ := toNat_clamp8 (by omega) (by omega)
  have blueKept : (pixel.u.toNat : Int) = _ := toNat_clamp8 (by omega) (by omega)
  have redKept : (pixel.v.toNat : Int) = _ := toNat_clamp8 (by omega) (by omega)
  exact ⟨⟨lumaKept, by omega⟩, ⟨blueKept, by omega⟩, ⟨redKept, by omega⟩⟩

theorem gray {pixel : Pixel} (green : pixel.g = pixel.b) (red : pixel.r = pixel.b) :
    pixel.u = 128 ∧ pixel.v = 128 := by
  rcases bt601_gray pixel.b with ⟨u, v⟩
  rw [Pixel.u, Pixel.v, green, red, u, v]
  exact ⟨rfl, rfl⟩

end Pixel

/-- The pixel of a source, where its three components may be read. -/
def pixelAt (src : Source) (srcStride x y : Int) : Option Pixel := do
  let b ← src (y * srcStride + 4 * x)
  let g ← src (y * srcStride + (4 * x + 1))
  let r ← src (y * srcStride + (4 * x + 2))
  return ⟨b, g, r⟩

def pixelOf (src : Source) (srcStride x y : Int) : Pixel where
  b := byteOf src (y * srcStride + 4 * x)
  g := byteOf src (y * srcStride + (4 * x + 1))
  r := byteOf src (y * srcStride + (4 * x + 2))

/-- The visible bytes of a picture may be read. -/
def BgraReadable (src : Source) (srcStride w h : Int) : Prop :=
  ∀ k y : Int, 0 ≤ k → k < 4 * w → 0 ≤ y → y < h → (src (y * srcStride + k)).isSome = true

theorem BgraReadable.pixelAt_eq (readable : BgraReadable src srcStride w h) {x y : Int}
    (left : 0 ≤ x) (column : x < w) (top : 0 ≤ y) (row : y < h) :
    pixelAt src srcStride x y = some (pixelOf src srcStride x y) := by
  rw [pixelAt, some_byteOf (readable (4 * x) y (by omega) (by omega) top row),
    some_byteOf (readable (4 * x + 1) y (by omega) (by omega) top row),
    some_byteOf (readable (4 * x + 2) y (by omega) (by omega) top row)]
  rfl

/-- The three reads of a pixel. -/
theorem BgraReadable.reads (readable : BgraReadable src srcStride w h) {x y : Int}
    (left : 0 ≤ x) (column : x < w) (top : 0 ≤ y) (row : y < h) (bound : 4 * w < 2 ^ 31) :
    readAt src (y * srcStride) (4 * x + 0) = .ok (pixelOf src srcStride x y).b ∧
      readAt src (y * srcStride) (4 * x + 1) = .ok (pixelOf src srcStride x y).g ∧
      readAt src (y * srcStride) (4 * x + 2) = .ok (pixelOf src srcStride x y).r := by
  rw [Int.add_zero]
  exact ⟨readAt_eq (by omega) (by omega)
      (some_byteOf (readable (4 * x) y (by omega) (by omega) top row)),
    readAt_eq (by omega) (by omega)
      (some_byteOf (readable (4 * x + 1) y (by omega) (by omega) top row)),
    readAt_eq (by omega) (by omega)
      (some_byteOf (readable (4 * x + 2) y (by omega) (by omega) top row))⟩

/-! ## The conversion -/

theorem bgra_luma (bound : 4 * w < 2 ^ 31) (readable : BgraReadable src srcStride w h) :
    (Store.loop h.toNat fun y => Store.loop w.toNat fun x => do
      let b ← readAt src (y * srcStride) (4 * x + 0)
      let g ← readAt src (y * srcStride) (4 * x + 1)
      let r ← readAt src (y * srcStride) (4 * x + 2)
      return [⟨y * w.toNat + x, clamp8 (bt601Y b g r)⟩]) =
      .ok (Store.plane 0 w.toNat h.toNat fun x y => (pixelOf src srcStride x y).y) := by
  apply Store.loop_plane
  intro x y column row
  rcases readable.reads (Int.natCast_nonneg x) (by omega) (Int.natCast_nonneg y) (by omega) bound
    with ⟨b, g, r⟩
  rw [b, ok_bind, g, ok_bind, r, ok_bind, Nat.zero_add]
  rfl

theorem bgra_chroma (sized : VideoFrame.Sized w h) (bound : 4 * w < 2 ^ 31)
    (readable : BgraReadable src srcStride w h) (dstU dstV : Nat) :
    ∃ stores, (Store.loop (VideoFrame.half h) fun cy => Store.loop (VideoFrame.half w) fun cx => do
        let sy ← int (cy * 2)
        let sx ← int (cx * 2)
        let b ← readAt src (sy * srcStride) (4 * sx + 0)
        let g ← readAt src (sy * srcStride) (4 * sx + 1)
        let r ← readAt src (sy * srcStride) (4 * sx + 2)
        return [⟨dstU + cy * VideoFrame.half w + cx, clamp8 (bt601U b g r)⟩,
          ⟨dstV + cy * VideoFrame.half w + cx, clamp8 (bt601V b g r)⟩]) = .ok stores ∧
      stores.Perm
        (Store.plane dstU (VideoFrame.half w) (VideoFrame.half h)
            (fun cx cy => (pixelOf src srcStride (cx * 2) (cy * 2)).u) ++
          Store.plane dstV (VideoFrame.half w) (VideoFrame.half h)
            (fun cx cy => (pixelOf src srcStride (cx * 2) (cy * 2)).v)) := by
  have heightFits := sized.heightFits
  apply Store.loop_planes
  intro cx cy column row
  -- The first pixel of a block is in the picture, even in the last odd column or row.
  have inColumn : (cx * 2 : Int) < w := by
    rw [VideoFrame.half] at column
    omega
  have inRow : (cy * 2 : Int) < h := by
    rw [VideoFrame.half] at row
    omega
  rcases readable.reads (show (0 : Int) ≤ cx * 2 by omega) inColumn
    (show (0 : Int) ≤ cy * 2 by omega) inRow bound with ⟨b, g, r⟩
  rw [int_of_nonneg (by omega) (by omega), ok_bind, int_of_nonneg (by omega) (by omega), ok_bind,
    b, ok_bind, g, ok_bind, r, ok_bind]
  rfl

theorem bgraToI420_perm (sized : VideoFrame.Sized w h) (bound : 4 * w < 2 ^ 31)
    (readable : BgraReadable src srcStride w h) :
    ∃ stores, bgraToI420 src srcStride w h = .ok stores ∧
      stores.Perm (picture w h
        (fun x y => (pixelOf src srcStride x y).y)
        (fun cx cy => (pixelOf src srcStride (cx * 2) (cy * 2)).u)
        (fun cx cy => (pixelOf src srcStride (cx * 2) (cy * 2)).v)) := by
  rcases bgra_chroma sized bound readable (w.toNat * h.toNat)
    (w.toNat * h.toNat + VideoFrame.half w * VideoFrame.half h) with ⟨chroma, isChroma, same⟩
  refine ⟨_, ?_, same.append_left _⟩
  rw [bgraToI420, chromaWidth_eq sized.width sized.widthFits, ok_bind,
    chromaHeight_eq sized.height sized.heightFits, ok_bind]
  simp only [Int.toNat_natCast, bgra_luma bound readable, ok_bind, isChroma]
  rfl

/-- What is written of a picture. -/
structure BgraWritten (src : Source) (srcStride w h : Int) (stores : List (Store Byte)) : Prop where
  written : ∃ size, WritesI420 stores w h size
    (fun x y => (pixelAt src srcStride x y).map Pixel.y)
    (fun cx cy => (pixelAt src srcStride (2 * cx) (2 * cy)).map Pixel.u)
    (fun cx cy => (pixelAt src srcStride (2 * cx) (2 * cy)).map Pixel.v)
  luma : ∀ store ∈ stores, store.offset < w.toNat * h.toNat →
    16 ≤ store.value.toNat ∧ store.value.toNat ≤ 235
  chroma : ∀ store ∈ stores, w.toNat * h.toNat ≤ store.offset →
    16 ≤ store.value.toNat ∧ store.value.toNat ≤ 240

/-- A picture of this size is converted, whatever else of its memory may be read or not,
and the conversion of a pixel neither leaves the range of studio video nor colours gray. -/
structure BgraExact (srcStride w h : Int) : Prop where
  converted : ∀ src, BgraReadable src srcStride w h →
    ∃ stores, bgraToI420 src srcStride w h = .ok stores ∧ BgraWritten src srcStride w h stores
  inRange : ∀ pixel : Pixel, pixel.InRange
  gray : ∀ pixel : Pixel, pixel.g = pixel.b → pixel.r = pixel.b → pixel.u = 128 ∧ pixel.v = 128

/-- A byte of a plane in a picture is that of a pixel. -/
theorem mem_picture {luma u v : Nat → Nat → Byte} {store : Store Byte}
    (member : store ∈ picture w h luma u v) :
    (store.offset < w.toNat * h.toNat ∧ ∃ x y, store.value = luma x y) ∨
      (w.toNat * h.toNat ≤ store.offset ∧
        ((∃ cx cy, store.value = u cx cy) ∨ ∃ cx cy, store.value = v cx cy)) := by
  rcases List.mem_append.mp member with inLuma | inChroma
  · rcases Store.of_mem_plane inLuma with ⟨x, y, _, _, value⟩
    have offset := (Store.offset_of_mem_plane inLuma).2
    rw [Nat.zero_add, Nat.mul_comm] at offset
    exact Or.inl ⟨offset, x, y, value⟩
  · rcases List.mem_append.mp inChroma with inBlue | inRed
    · rcases Store.of_mem_plane inBlue with ⟨cx, cy, _, _, value⟩
      exact Or.inr ⟨(Store.offset_of_mem_plane inBlue).1, Or.inl ⟨cx, cy, value⟩⟩
    · rcases Store.of_mem_plane inRed with ⟨cx, cy, _, _, value⟩
      have offset := (Store.offset_of_mem_plane inRed).1
      exact Or.inr ⟨by omega, Or.inr ⟨cx, cy, value⟩⟩

theorem bgra_written (sized : VideoFrame.Sized w h)
    (readable : BgraReadable src srcStride w h) {stores : List (Store Byte)}
    (same : stores.Perm (picture w h
      (fun x y => (pixelOf src srcStride x y).y)
      (fun cx cy => (pixelOf src srcStride (cx * 2) (cy * 2)).u)
      (fun cx cy => (pixelOf src srcStride (cx * 2) (cy * 2)).v))) :
    BgraWritten src srcStride w h stores := by
  refine ⟨⟨_, WritesI420.of_perm sized same ?_ ?_⟩, ?_, ?_⟩
  · intro x y column row
    rw [readable.pixelAt_eq (by omega) (by omega) (by omega) (by omega), Option.map_some]
  · intro cx cy column row
    rw [VideoFrame.half] at column row
    rw [readable.pixelAt_eq (by omega) (by omega) (by omega) (by omega), Option.map_some,
      Option.map_some, Int.mul_comm 2, Int.mul_comm 2]
    exact ⟨rfl, rfl⟩
  · intro store member below
    rcases mem_picture (same.mem_iff.mp member) with ⟨_, x, y, value⟩ | ⟨beyond, _⟩
    · rw [value]
      exact (Pixel.inRange _).luma.2
    · omega
  · intro store member beyond
    rcases mem_picture (same.mem_iff.mp member) with
      ⟨below, _⟩ | ⟨_, ⟨cx, cy, value⟩ | ⟨cx, cy, value⟩⟩
    · omega
    · rw [value]
      exact (Pixel.inRange _).blue.2
    · rw [value]
      exact (Pixel.inRange _).red.2

/-- No picture of the greatest height is converted: rounding its half up overflows. -/
theorem not_bgraExact_max (widthPositive : 1 ≤ w) (widthBound : w < 2 ^ 31 - 1)
    (max : h = 2 ^ 31 - 1) : ¬BgraExact srcStride w h := by
  intro converts
  rcases converts.converted (fun _ => some 0) (fun _ _ _ _ _ _ => rfl) with ⟨stores, converted, _⟩
  rw [bgraToI420, chromaWidth_eq widthPositive widthBound, ok_bind, chromaHeight_max max]
    at converted
  cases converted

/-- With a stride that leaves room for the rows, a picture of any size is converted
exactly, up to the height whose half is out of the range of an `int`. -/
theorem bgraToI420_exact_iff (widthPositive : 1 ≤ w) (heightPositive : 1 ≤ h)
    (heightInt : Fits 32 h) (strideInt : Fits 32 srcStride) (stride : 4 * w ≤ srcStride) :
    BgraExact srcStride w h ↔ h < 2 ^ 31 - 1 := by
  have heightBound : h < 2 ^ 31 := heightInt.2
  have strideBound : srcStride < 2 ^ 31 := strideInt.2
  have widthBound : w < 2 ^ 31 - 1 := by omega
  constructor
  · intro converts
    by_contra tall
    exact not_bgraExact_max widthPositive widthBound (by omega) converts
  · intro heightFits
    have sized : VideoFrame.Sized w h := ⟨widthPositive, heightPositive, widthBound, heightFits⟩
    refine ⟨?_, Pixel.inRange, fun pixel green red => Pixel.gray green red⟩
    intro src readable
    rcases bgraToI420_perm sized (by omega) readable with ⟨stores, converted, same⟩
    exact ⟨stores, converted, bgra_written sized readable same⟩

/-- Three pixels by three, with padded rows. -/
theorem bgraToI420_exact_odd : BgraExact 16 3 3 :=
  (bgraToI420_exact_iff (by decide) (by decide) (by decide) (by decide) (by decide)).mpr
    (by decide)

/-- One pixel wide and as high as an `int` can say. -/
theorem bgraToI420_max_height :
    (1 : Int) ≤ 2147483647 ∧ Fits 32 2147483647 ∧ ¬BgraExact 4 1 2147483647 :=
  ⟨by decide, by decide, not_bgraExact_max (by decide) (by decide) (by decide)⟩

end Vela.PixelConvert
