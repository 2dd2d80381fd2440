import Vela.Common.FramePool
import Vela.Common.Types
import Vela.Foundation.CheckedInt

/-! # Video frames

A picture over a buffer of a pool. An I420 picture has its three planes behind each
other: luma, then the two chroma planes of half the size, rounded up. -/

namespace Vela

open Foundation CheckedInt

inductive PixelFormat where
  | unknown
  | i420
  | nv12
  | yuyv
  | rgba
  | bgra
  deriving DecidableEq, Repr

structure Plane where
  /-- Where the plane begins in the buffer. -/
  data : Nat
  stride : Int
  deriving DecidableEq, Repr

structure VideoFrame where
  format : PixelFormat
  width : Int
  height : Int
  planes : Vector Plane 3
  captureTime : SteadyTime
  rtpTimestamp : BitVec 32 := 0
  buffer : FramePool.Buffer
  deriving DecidableEq, Repr

namespace VideoFrame

/-- A picture over a buffer, or none if there is no buffer or it is too small. -/
def makeI420 (buf : Option FramePool.Buffer) (w h : Int) (captured : SteadyTime) :
    Except Overflow (Option VideoFrame) :=
  match buf with
  | none => return none
  | some buffer =>
      if w ≤ 0 ∨ h ≤ 0 then return none
      else do
        let ySize := w.toNat * h.toNat
        let cw := (← checked 32 (w + 1)).tdiv 2
        let ch := (← checked 32 (h + 1)).tdiv 2
        let cSize := cw.toNat * ch.toNat
        if buffer.capacity.toNat < ySize + 2 * cSize then return none
        else
          return some {
            format := .i420
            width := w
            height := h
            planes := #v[⟨0, w⟩, ⟨ySize, cw⟩, ⟨ySize + cSize, cw⟩]
            captureTime := captured
            buffer }

def i420Size (w h : Int) : Except Overflow (BitVec 64) := do
  let y := BitVec.ofInt 64 w * BitVec.ofInt 64 h
  let cw := (← checked 32 (w + 1)).tdiv 2
  let ch := (← checked 32 (h + 1)).tdiv 2
  let c := BitVec.ofInt 64 cw * BitVec.ofInt 64 ch
  return y + 2 * c

/-! ## The layout -/

/-- The dimensions of a picture for which all sizes can be computed. -/
structure Sized (w h : Int) : Prop where
  width : 1 ≤ w
  height : 1 ≤ h
  widthFits : w < 2 ^ 31 - 1
  heightFits : h < 2 ^ 31 - 1

/-- Half of a dimension, rounded up. -/
def half (size : Int) : Nat := (size.toNat + 1) / 2

/-- The bytes of an I420 picture. -/
def byteCount (w h : Int) : Nat := w.toNat * h.toNat + 2 * (half w * half h)

variable {w h : Int}

theorem half_eq {size : Int} (positive : 1 ≤ size) (fits : size < 2 ^ 31 - 1) :
    checked 32 (size + 1) = .ok (size + 1) ∧ (size + 1).tdiv 2 = (half size : Int) := by
  refine ⟨checked_of_fits (fits_of_nonneg (by omega) (by omega)), ?_⟩
  rw [Int.tdiv_eq_ediv_of_nonneg (by omega), half]
  omega

theorem checked_half_max {size : Int} (max : size = 2 ^ 31 - 1) :
    checked 32 (size + 1) = .error .overflow := by
  rw [max]
  rfl

/-- A frame is made over every buffer that is large enough, with the planes behind
each other. -/
theorem Sized.makeI420_eq (sized : Sized w h) {buffer : FramePool.Buffer}
    (room : byteCount w h ≤ buffer.capacity.toNat) (captured : SteadyTime) :
    makeI420 (some buffer) w h captured = .ok (some {
      format := .i420
      width := w
      height := h
      planes := #v[⟨0, w⟩, ⟨w.toNat * h.toNat, half w⟩,
        ⟨w.toNat * h.toNat + half w * half h, half w⟩]
      captureTime := captured
      buffer }) := by
  have positive : ¬(w ≤ 0 ∨ h ≤ 0) := by
    have width := sized.width
    have height := sized.height
    omega
  rcases half_eq sized.width sized.widthFits with ⟨widthChecked, widthHalf⟩
  rcases half_eq sized.height sized.heightFits with ⟨heightChecked, heightHalf⟩
  simp only [makeI420, if_neg positive, widthChecked, heightChecked, ok_bind, widthHalf, heightHalf,
    Int.toNat_natCast]
  rw [byteCount] at room
  rw [if_neg (Nat.not_lt.mpr room)]
  rfl

theorem Sized.byteCount_lt (sized : Sized w h) : byteCount w h < 2 ^ 64 := by
  have width := sized.widthFits
  have height := sized.heightFits
  have luma : w.toNat * h.toNat ≤ 2 ^ 31 * 2 ^ 31 := Nat.mul_le_mul (by omega) (by omega)
  have chroma : half w * half h ≤ 2 ^ 30 * 2 ^ 30 := by
    apply Nat.mul_le_mul <;> rw [half] <;> omega
  rw [byteCount]
  omega

/-- The size that a pool is made with has room for the planes and nothing else. -/
theorem Sized.i420Size_eq (sized : Sized w h) :
    i420Size w h = .ok (BitVec.ofNat 64 (byteCount w h)) := by
  rcases half_eq sized.width sized.widthFits with ⟨widthChecked, widthHalf⟩
  rcases half_eq sized.height sized.heightFits with ⟨heightChecked, heightHalf⟩
  have width : w = (w.toNat : Int) := by
    have positive := sized.width
    omega
  have height : h = (h.toNat : Int) := by
    have positive := sized.height
    omega
  have luma : BitVec.ofInt 64 w * BitVec.ofInt 64 h = BitVec.ofNat 64 (w.toNat * h.toNat) := by
    rw [BitVec.ofNat_mul, ← BitVec.ofInt_natCast, ← BitVec.ofInt_natCast, ← width, ← height]
  simp only [i420Size, widthChecked, heightChecked, ok_bind, widthHalf, heightHalf, luma,
    BitVec.ofInt_natCast]
  rw [byteCount, BitVec.ofNat_add, BitVec.ofNat_mul 2, BitVec.ofNat_mul (half w)]
  rfl

theorem Sized.toNat_byteCount (sized : Sized w h) :
    (BitVec.ofNat 64 (byteCount w h)).toNat = byteCount w h := by
  rw [BitVec.toNat_ofNat, Nat.mod_eq_of_lt sized.byteCount_lt]

end VideoFrame

end Vela
