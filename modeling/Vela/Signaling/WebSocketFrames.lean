import Vela.Foundation.Octets

/-! # WebSocket frames

The frame that the client builds around a text, and the reader that its receive
loop applies to the byte stream. The length of a text is counted in 64 bits. -/

namespace Vela.SignalingClient

open Foundation Octets

/-- The four bytes that a client's payload is masked with. -/
abbrev Mask := Vector Byte 4

/-! ## Writing -/

def maskBit : BitVec 64 := 0x80

/-- Every byte of a payload, masked or unmasked. -/
def applyMask (mask : Mask) (payload : Bytes) : Bytes :=
  payload.mapIdx fun i byte => byte ^^^ mask[i % 4]

def lengthField (len : BitVec 64) : Bytes :=
  if len < 126 then [(maskBit ||| len).setWidth 8]
  else if len ≤ 0xFFFF then [(maskBit ||| 126).setWidth 8, lowOctet (len >>> 8), lowOctet len]
  else
    [(maskBit ||| 127).setWidth 8, lowOctet (len >>> 56), lowOctet (len >>> 48),
      lowOctet (len >>> 40), lowOctet (len >>> 32), lowOctet (len >>> 24), lowOctet (len >>> 16),
      lowOctet (len >>> 8), lowOctet len]

/-- The frame that `sendTextFrame` writes: FIN and the opcode of a text. -/
def textFrame (text : Bytes) (mask : Mask) : Bytes :=
  0x81 :: lengthField (BitVec.ofNat 64 text.length) ++ mask.toList ++ applyMask mask text

/-! ## Reading -/

/-- Why a pass gets no frame. -/
inductive ReadFailure where
  | ended
  /-- `resize` throws, before any of the payload is read. -/
  | tooLong
  deriving DecidableEq, Repr

/-- A source that hands out exactly `n` bytes, unless it ends before. -/
abbrev ReadExact (Source : Type) := (n : Nat) → Source → Except ReadFailure (Vector Byte n × Source)

/-- Exactly `n` bytes of the stream and what follows them. -/
def readExact : ReadExact Bytes := fun n stream =>
  if enough : n ≤ stream.length then
    .ok (⟨(stream.take n).toArray, by simp [enough]⟩, stream.drop n)
  else .error .ended

structure WireFrame where
  fin : Bool
  opcode : Byte
  payload : Bytes
  deriving DecidableEq, Repr

section Reading

variable {Source : Type}

def readLength (read : ReadExact Source) (code : Byte) (source : Source) :
    Except ReadFailure (BitVec 64 × Source) :=
  let len : BitVec 64 := (code &&& 0x7f).setWidth 64
  if len = 126 then do
    let (ext, source) ← read 2 source
    return ((ext[0].setWidth 64 <<< 8) ||| ext[1].setWidth 64, source)
  else if len = 127 then do
    let (ext, source) ← read 8 source
    return (ext.toList.foldl (fun len byte => (len <<< 8) ||| byte.setWidth 64) 0, source)
  else .ok (len, source)

def readMask (read : ReadExact Source) (masked : Bool) (source : Source) :
    Except ReadFailure (Mask × Source) :=
  if masked then read 4 source else .ok (Vector.replicate 4 0, source)

/-- `limit` is the longest payload that the string can be resized to. -/
def readPayload (read : ReadExact Source) (limit len : BitVec 64) (source : Source) :
    Except ReadFailure (Bytes × Source) :=
  if limit < len then .error .tooLong
  else if 0 < len then do
    let (payload, source) ← read len.toNat source
    return (payload.toList, source)
  else .ok ([], source)

/-- One frame, as a pass of the receive loop reads it. -/
def readFrame (read : ReadExact Source) (limit : BitVec 64) (source : Source) :
    Except ReadFailure (WireFrame × Source) := do
  let (hdr, source) ← read 2 source
  let fin := hdr[0] &&& 0x80 != 0
  let opcode := hdr[0] &&& 0x0f
  let masked := hdr[1] &&& 0x80 != 0
  let (len, source) ← readLength read hdr[1] source
  let (mask, source) ← readMask read masked source
  let (payload, source) ← readPayload read limit len source
  return ({ fin, opcode, payload := if masked then applyMask mask payload else payload }, source)

end Reading

/-- `max_size()` of a string. -/
def maxSize : BitVec 64 := 0x7FFFFFFFFFFFFFFF

/-! ## Round trips -/

theorem readExact_append (n : Nat) (bytes : Bytes) (length : bytes.toArray.size = n)
    (rest : Bytes) : readExact n (bytes ++ rest) = .ok (⟨bytes.toArray, length⟩, rest) := by
  have enough : n ≤ (bytes ++ rest).length := by
    rw [List.length_append, ← length, List.size_toArray]
    exact Nat.le_add_right _ _
  rw [readExact, dif_pos enough]
  simp [← length]

theorem readMask_append (mask : Mask) (rest : Bytes) :
    readMask readExact true (mask.toList ++ rest) = .ok (mask, rest) := by
  rw [readMask, if_pos rfl, readExact_append 4 mask.toList (by simp) rest]
  simp [Vector.toList]

theorem readPayload_append {limit len : BitVec 64} (granted : len ≤ limit) (payload rest : Bytes)
    (length : payload.length = len.toNat) :
    readPayload readExact limit len (payload ++ rest) = .ok (payload, rest) := by
  rw [readPayload, if_neg (BitVec.not_lt.mpr granted)]
  split
  · rw [readExact_append len.toNat payload length rest]
    rfl
  · rename_i empty
    rw [BitVec.lt_def, Nat.not_lt, ← length] at empty
    have nothing : payload = [] := List.eq_nil_of_length_eq_zero (Nat.le_zero.mp empty)
    rw [nothing]
    rfl

theorem applyMask_applyMask (mask : Mask) (payload : Bytes) :
    applyMask mask (applyMask mask payload) = payload := by
  rw [applyMask, List.mapIdx_eq_iff]
  intro i
  rw [applyMask, List.getElem?_mapIdx, Option.map_map]
  cases payload[i]? with
  | none => rfl
  | some byte =>
      rw [Option.map_some, Function.comp_apply, BitVec.xor_assoc, BitVec.xor_self, BitVec.xor_zero]

/-- The octet that a shift takes out of a word is the one that is put back. -/
theorem shift_octet (word : BitVec 64) :
    ((word >>> 8) <<< 8) ||| (lowOctet word).setWidth 64 = word := by
  apply BitVec.eq_of_getLsbD_eq
  intro i within
  have mask : (0xFF : BitVec 64).getLsbD i = decide (i < 8) := by
    have low : ∀ i : Fin 64, (0xFF : BitVec 64).getLsbD i = decide (i.val < 8) := by decide
    exact low ⟨i, within⟩
  simp only [lowOctet, BitVec.getLsbD_or, BitVec.getLsbD_shiftLeft, BitVec.getLsbD_ushiftRight,
    BitVec.getLsbD_setWidth, BitVec.getLsbD_and, mask]
  by_cases low : i < 8
  · simp [low, within]
  · have restored : 8 + (i - 8) = i := by omega
    simp [low, within, restored]

theorem shift_octet_from (word : BitVec 64) (bits : Nat) :
    ((word >>> (bits + 8)) <<< 8) ||| (lowOctet (word >>> bits)).setWidth 64 = word >>> bits := by
  rw [BitVec.shiftRight_add]
  exact shift_octet (word >>> bits)

/-- Which form a length of `n` is written in: the seven bits of the code, or two or
eight more octets. -/
inductive ShortestForm (n : Nat) (code : Byte) (ext : Bytes) : Prop where
  | seven (fits : n ≤ 125) (inCode : (code &&& 0x7f).toNat = n) (noMore : ext = [])
  | sixteen (tooLong : 125 < n) (fits : n ≤ 65535) (inCode : code &&& 0x7f = 126)
      (two : ext.length = 2)
  | sixtyFour (tooLong : 65535 < n) (inCode : code &&& 0x7f = 127) (eight : ext.length = 8)

theorem shiftRight_eq_zero {len : BitVec 64} {bits : Nat} (small : len.toNat < 2 ^ bits) :
    len >>> bits = 0 := by
  apply BitVec.eq_of_toNat_eq
  rw [BitVec.toNat_ushiftRight, Nat.shiftRight_eq_div_pow, Nat.div_eq_of_lt small]
  rfl

/-- A length field next to a mask bit, in the shortest form, that is read back as the
length. -/
structure FieldOf (len : BitVec 64) (code : Byte) (ext : Bytes) : Prop where
  masked : code &&& 0x80 = 0x80
  shortest : ShortestForm len.toNat code ext
  reads : ∀ rest, readLength readExact code (ext ++ rest) = .ok (len, rest)

theorem field_seven {len : BitVec 64} (short : len < 126) :
    FieldOf len ((maskBit ||| len).setWidth 8) [] := by
  have small : ∀ code : Byte, code < 126 →
      (0x80 ||| code) &&& 0x80 = 0x80 ∧ (0x80 ||| code) &&& 0x7f = code := by decide
  have bound : len.toNat < 126 := short
  have narrow : (len.setWidth 8).toNat = len.toNat := by
    rw [BitVec.toNat_setWidth]
    omega
  have written : (maskBit ||| len).setWidth 8 = 0x80 ||| len.setWidth 8 := by
    rw [BitVec.setWidth_or]
    rfl
  rcases small (len.setWidth 8) (by rw [BitVec.lt_def, narrow]; exact bound) with ⟨masked, inCode⟩
  have widened : (len.setWidth 8).setWidth 64 = len := by
    apply BitVec.eq_of_toNat_eq
    rw [BitVec.toNat_setWidth, narrow]
    omega
  have not126 : len ≠ 126 := by
    rintro rfl
    exact absurd short (by decide)
  have not127 : len ≠ 127 := by
    rintro rfl
    exact absurd short (by decide)
  rw [written]
  refine ⟨masked, .seven (by omega) (by rw [inCode, narrow]) rfl, fun rest => ?_⟩
  simp only [readLength, inCode, widened, if_neg not126, if_neg not127, List.nil_append]

theorem field_sixteen {len : BitVec 64} (long : 125 < len.toNat) (medium : len.toNat ≤ 65535) :
    FieldOf len ((maskBit ||| 126).setWidth 8) [lowOctet (len >>> 8), lowOctet len] := by
  refine ⟨rfl, .sixteen long medium rfl rfl, fun rest => ?_⟩
  have upper : (lowOctet (len >>> 8)).setWidth 64 = len >>> 8 := by
    have whole := shift_octet_from len 8
    rw [shiftRight_eq_zero (show len.toNat < 2 ^ (8 + 8) by omega)] at whole
    exact (BitVec.zero_or).symm.trans whole
  have read : readExact 2 ([lowOctet (len >>> 8), lowOctet len] ++ rest) =
      .ok (⟨#[lowOctet (len >>> 8), lowOctet len], rfl⟩, rest) :=
    readExact_append 2 _ rfl rest
  have asCode : ((((maskBit ||| 126).setWidth 8 : Byte) &&& 0x7f).setWidth 64 : BitVec 64) =
      126 := rfl
  simp only [readLength, asCode, if_true, read, bind, Except.bind, Vector.getElem_mk,
    List.getElem_toArray, List.getElem_cons_zero, List.getElem_cons_succ, upper, shift_octet]
  rfl

theorem field_sixtyFour {len : BitVec 64} (large : 65535 < len.toNat) :
    FieldOf len ((maskBit ||| 127).setWidth 8)
      [lowOctet (len >>> 56), lowOctet (len >>> 48), lowOctet (len >>> 40), lowOctet (len >>> 32),
        lowOctet (len >>> 24), lowOctet (len >>> 16), lowOctet (len >>> 8), lowOctet len] := by
  refine ⟨rfl, .sixtyFour large rfl rfl, fun rest => ?_⟩
  have top : ((0 : BitVec 64) <<< 8) ||| (lowOctet (len >>> 56)).setWidth 64 = len >>> 56 := by
    have whole := shift_octet_from len 56
    rw [shiftRight_eq_zero (show len.toNat < 2 ^ (56 + 8) from len.isLt)] at whole
    exact whole
  have read := readExact_append 8 [lowOctet (len >>> 56), lowOctet (len >>> 48),
    lowOctet (len >>> 40), lowOctet (len >>> 32), lowOctet (len >>> 24), lowOctet (len >>> 16),
    lowOctet (len >>> 8), lowOctet len] rfl rest
  have asCode : ((((maskBit ||| 127).setWidth 8 : Byte) &&& 0x7f).setWidth 64 : BitVec 64) =
      127 := rfl
  have not126 : (127 : BitVec 64) ≠ 126 := by decide
  -- The loop puts the octets back one by one, the highest first.
  simp only [readLength, asCode, if_neg not126, if_true, read, bind, Except.bind,
    Vector.toList_mk, List.foldl_cons, List.foldl_nil, top,
    shift_octet_from len 48, shift_octet_from len 40, shift_octet_from len 32,
    shift_octet_from len 24, shift_octet_from len 16, shift_octet_from len 8, shift_octet]
  rfl

theorem lengthField_read (len : BitVec 64) :
    ∃ code ext, lengthField len = code :: ext ∧ FieldOf len code ext := by
  rw [lengthField]
  by_cases short : len < 126
  · rw [if_pos short]
    exact ⟨_, [], rfl, field_seven short⟩
  · rw [if_neg short]
    rw [BitVec.lt_def, Nat.not_lt] at short
    by_cases medium : len ≤ 0xFFFF
    · rw [if_pos medium]
      exact ⟨_, _, rfl, field_sixteen short medium⟩
    · rw [if_neg medium]
      rw [BitVec.le_def, Nat.not_le] at medium
      exact ⟨_, _, rfl, field_sixtyFour medium⟩

/-- The reader gives back the text in one final frame and leaves the stream at the
byte after the frame; the frame is masked and its length has the shortest form. -/
theorem readFrame_textFrame (text : Bytes) (small : text.length < 2 ^ 63) (mask : Mask)
    (trailing : Bytes) :
    readFrame readExact maxSize (textFrame text mask ++ trailing) =
        .ok ({ fin := true, opcode := 1, payload := text }, trailing) ∧
      ∃ code ext, textFrame text mask =
          0x81 :: code :: ext ++ mask.toList ++ applyMask mask text ∧
        code &&& 0x80 = 0x80 ∧ ShortestForm text.length code ext := by
  have exactLength : (BitVec.ofNat 64 text.length).toNat = text.length := by
    rw [BitVec.toNat_ofNat]
    omega
  rcases lengthField_read (BitVec.ofNat 64 text.length) with
    ⟨code, ext, field, masked, form, reads⟩
  rw [exactLength] at form
  have written : textFrame text mask =
      0x81 :: code :: ext ++ mask.toList ++ applyMask mask text := by
    rw [textFrame, field]
  refine ⟨?_, code, ext, written, masked, form⟩
  have header := readExact_append 2 [0x81, code] rfl
    (ext ++ (mask.toList ++ (applyMask mask text ++ trailing)))
  have granted : BitVec.ofNat 64 text.length ≤ maxSize := by
    rw [BitVec.le_def, exactLength]
    exact Nat.le_of_lt_succ small
  have payload := readPayload_append granted (applyMask mask text) trailing
    (by rw [exactLength, applyMask, List.length_mapIdx])
  have isMasked : (code &&& 0x80 != 0) = true := by
    rw [masked]
    rfl
  have grouped : 0x81 :: code :: ext ++ mask.toList ++ applyMask mask text ++ trailing =
      [0x81, code] ++ (ext ++ (mask.toList ++ (applyMask mask text ++ trailing))) := by
    simp only [List.cons_append, List.nil_append, List.append_assoc]
  have first : ((0x81 : Byte) &&& 0x80 != 0) = true ∧ (0x81 : Byte) &&& 0x0f = 1 := by decide
  rw [written, grouped, readFrame, header]
  simp only [bind, Except.bind, Vector.getElem_mk, List.getElem_toArray,
    List.getElem_cons_zero, List.getElem_cons_succ, reads, isMasked, readMask_append, payload,
    first, if_true, applyMask_applyMask]
  rfl

/-- A text of 126 bytes, the shortest with a 16-bit length. -/
theorem readFrame_textFrame_at_boundary :
    readFrame readExact maxSize
          (textFrame (List.replicate 126 0x61) #v[1, 2, 3, 4] ++ [0x88]) =
        .ok ({ fin := true, opcode := 1, payload := List.replicate 126 0x61 }, [0x88]) ∧
      ∃ code ext, textFrame (List.replicate 126 0x61) #v[1, 2, 3, 4] =
          0x81 :: code :: ext ++ #v[1, 2, 3, 4].toList ++
            applyMask #v[1, 2, 3, 4] (List.replicate 126 0x61) ∧
        code &&& 0x80 = 0x80 ∧ ShortestForm (List.replicate 126 (0x61 : Byte)).length code ext :=
  readFrame_textFrame (List.replicate 126 0x61) (by rw [List.length_replicate]; decide)
    #v[1, 2, 3, 4] [0x88]

end Vela.SignalingClient
