import Vela.Capture.PixelConvert

/-! # From NV12

A luma plane and a plane in which the two chroma values of a position follow each
other. -/

namespace Vela.PixelConvert

open Foundation CheckedInt

variable {srcYStride srcUVStride w h : Int} {srcY srcUV : Source}

/-- The visible bytes of a picture may be read. -/
structure Nv12Readable (srcY : Source) (srcYStride : Int) (srcUV : Source) (srcUVStride : Int)
    (w h : Int) : Prop where
  luma : ∀ x y, x < w.toNat → y < h.toNat → (srcY (y * srcYStride + x)).isSome = true
  chroma : ∀ k cy, k < 2 * VideoFrame.half w → cy < VideoFrame.half h →
    (srcUV (cy * srcUVStride + k)).isSome = true

/-- Whatever else of the picture may be read or not, it is converted as it is seen. -/
def Nv12Exact (srcYStride srcUVStride w h : Int) : Prop :=
  ∀ srcY srcUV, Nv12Readable srcY srcYStride srcUV srcUVStride w h →
    ∃ stores size, nv12ToI420 srcY srcYStride srcUV srcUVStride w h = .ok stores ∧
      WritesI420 stores w h size
        (fun x y => srcY (y * srcYStride + x))
        (fun cx cy => srcUV (cy * srcUVStride + 2 * cx))
        (fun cx cy => srcUV (cy * srcUVStride + (2 * cx + 1)))

/-- Both chroma values of a position may be read. -/
theorem Nv12Readable.pair (readable : Nv12Readable srcY srcYStride srcUV srcUVStride w h)
    {cx cy : Nat} (column : cx < VideoFrame.half w) (row : cy < VideoFrame.half h) :
    (srcUV (cy * srcUVStride + 2 * cx)).isSome = true ∧
      (srcUV (cy * srcUVStride + (2 * cx + 1))).isSome = true := by
  constructor
  · exact_mod_cast readable.chroma (2 * cx) cy (by omega) row
  · exact_mod_cast readable.chroma (2 * cx + 1) cy (by omega) row

/-- The loop over the luma plane. -/
theorem nv12_luma (sized : VideoFrame.Sized w h)
    (readable : Nv12Readable srcY srcYStride srcUV srcUVStride w h) :
    (Store.loop h.toNat fun y => Store.loop w.toNat fun x => do
      let value ← readAt srcY (y * srcYStride) x
      return [⟨y * w.toNat + x, value⟩]) =
      .ok (Store.plane 0 w.toNat h.toNat fun x y => byteOf srcY (y * srcYStride + x)) := by
  have widthFits := sized.widthFits
  apply Store.loop_plane
  intro x y column row
  have read := readAt_eq (by omega) (by omega) (some_byteOf (readable.luma x y column row))
  rw [read, ok_bind, Nat.zero_add]
  rfl

/-- The loop over the chroma plane, with the two planes that it writes. -/
theorem nv12_chroma (sized : VideoFrame.Sized w h)
    (readable : Nv12Readable srcY srcYStride srcUV srcUVStride w h) (dstU dstV : Nat) :
    ∃ stores, (Store.loop (VideoFrame.half h) fun y => Store.loop (VideoFrame.half w) fun x => do
        let u ← readAt srcUV (y * srcUVStride) (2 * x + 0)
        let v ← readAt srcUV (y * srcUVStride) (2 * x + 1)
        return [⟨dstU + y * VideoFrame.half w + x, u⟩, ⟨dstV + y * VideoFrame.half w + x, v⟩]) =
        .ok stores ∧
      stores.Perm
        (Store.plane dstU (VideoFrame.half w) (VideoFrame.half h)
            (fun cx cy => byteOf srcUV (cy * srcUVStride + 2 * cx)) ++
          Store.plane dstV (VideoFrame.half w) (VideoFrame.half h)
            (fun cx cy => byteOf srcUV (cy * srcUVStride + (2 * cx + 1)))) := by
  have widthFits := sized.widthFits
  have halfWidth : 2 * VideoFrame.half w ≤ w.toNat + 1 := by
    rw [VideoFrame.half]
    omega
  apply Store.loop_planes
  intro cx cy column row
  rcases readable.pair column row with ⟨readableU, readableV⟩
  rw [Int.add_zero, readAt_eq (by omega) (by omega) (some_byteOf readableU), ok_bind,
    readAt_eq (by omega) (by omega) (some_byteOf readableV), ok_bind]
  rfl

theorem nv12ToI420_perm (sized : VideoFrame.Sized w h)
    (readable : Nv12Readable srcY srcYStride srcUV srcUVStride w h) :
    ∃ stores, nv12ToI420 srcY srcYStride srcUV srcUVStride w h = .ok stores ∧
      stores.Perm (picture w h
        (fun x y => byteOf srcY (y * srcYStride + x))
        (fun cx cy => byteOf srcUV (cy * srcUVStride + 2 * cx))
        (fun cx cy => byteOf srcUV (cy * srcUVStride + (2 * cx + 1)))) := by
  rcases nv12_chroma sized readable (w.toNat * h.toNat)
    (w.toNat * h.toNat + VideoFrame.half w * VideoFrame.half h) with ⟨chroma, isChroma, same⟩
  refine ⟨_, ?_, same.append_left _⟩
  rw [nv12ToI420, chromaWidth_eq sized.width sized.widthFits, ok_bind,
    chromaHeight_eq sized.height sized.heightFits, ok_bind]
  simp only [Int.toNat_natCast, nv12_luma sized readable, ok_bind, isChroma]
  rfl

/-- No picture of the greatest height is converted: rounding its half up overflows. -/
theorem not_nv12Exact_max (widthPositive : 1 ≤ w) (widthBound : w < 2 ^ 31 - 1)
    (max : h = 2 ^ 31 - 1) : ¬Nv12Exact srcYStride srcUVStride w h := by
  intro converts
  rcases converts (fun _ => some 0) (fun _ => some 0) ⟨fun _ _ _ _ => rfl, fun _ _ _ _ => rfl⟩ with
    ⟨stores, size, converted, _⟩
  rw [nv12ToI420, chromaWidth_eq widthPositive widthBound, ok_bind, chromaHeight_max max]
    at converted
  cases converted

/-- With strides that leave room for the rows, a picture of any size is converted
exactly, up to the height whose half is out of the range of an `int`. -/
theorem nv12ToI420_exact_iff (widthPositive : 1 ≤ w) (heightPositive : 1 ≤ h)
    (heightInt : Fits 32 h) (uvStrideInt : Fits 32 srcUVStride)
    (uvStride : 2 * ((w + 1) / 2) ≤ srcUVStride) :
    Nv12Exact srcYStride srcUVStride w h ↔ h < 2 ^ 31 - 1 := by
  have heightBound : h < 2 ^ 31 := heightInt.2
  have widthBound : w < 2 ^ 31 - 1 := by
    have strideBound : srcUVStride < 2 ^ 31 := uvStrideInt.2
    omega
  constructor
  · intro converts
    by_contra tall
    exact not_nv12Exact_max widthPositive widthBound (by omega) converts
  · intro heightFits srcY srcUV readable
    have sized : VideoFrame.Sized w h := ⟨widthPositive, heightPositive, widthBound, heightFits⟩
    rcases nv12ToI420_perm sized readable with ⟨stores, converted, same⟩
    refine ⟨stores, _, converted, WritesI420.of_perm sized same ?_ ?_⟩
    · exact fun x y column row => some_byteOf (readable.luma x y column row)
    · intro cx cy column row
      rcases readable.pair column row with ⟨readableU, readableV⟩
      exact ⟨some_byteOf readableU, some_byteOf readableV⟩

/-- Three pixels by one, with padded rows. -/
theorem nv12ToI420_exact_odd : Nv12Exact 8 8 3 1 :=
  (nv12ToI420_exact_iff (by decide) (by decide) (by decide) (by decide) (by decide)).mpr
    (by decide)

/-- One pixel wide and as high as an `int` can say. -/
theorem nv12ToI420_max_height :
    (1 : Int) ≤ 2147483647 ∧ Fits 32 2147483647 ∧ ¬Nv12Exact 1 2 1 2147483647 :=
  ⟨by decide, by decide, not_nv12Exact_max (by decide) (by decide) (by decide)⟩

end Vela.PixelConvert
