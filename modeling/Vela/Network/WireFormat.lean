import Vela.Network.Datagram

/-! # The wire format

The parser as a whole: it accepts exactly the datagram grammar and reads no byte
past the end of its buffer, and the serializer is its inverse on datagrams
without extension and padding. -/

namespace Vela

open Foundation Octets

namespace RtpPacket

/-! ## Reads inside of the buffer -/

theorem byteAt_inBounds {data : Bytes} {index : Nat} (inside : index < data.length) :
    byteAt data index ≠ .error .outOfBounds := by
  rw [byteAt, List.getElem?_eq_getElem inside]
  intro same
  cases same

theorem getU16_inBounds {data : Bytes} {offset : Nat} (inside : offset + 2 ≤ data.length) :
    getU16 data offset ≠ .error .outOfBounds := by
  apply bind_ne_error (byteAt_inBounds (by omega))
  intro high _
  apply bind_ne_error (byteAt_inBounds (by omega))
  intro low _ same
  cases same

theorem getU32_inBounds {data : Bytes} {offset : Nat} (inside : offset + 4 ≤ data.length) :
    getU32 data offset ≠ .error .outOfBounds := by
  apply bind_ne_error (byteAt_inBounds (by omega))
  intro first _
  apply bind_ne_error (byteAt_inBounds (by omega))
  intro second _
  apply bind_ne_error (byteAt_inBounds (by omega))
  intro third _
  apply bind_ne_error (byteAt_inBounds (by omega))
  intro fourth _ same
  cases same

theorem getCsrcs_inBounds {data : Bytes} {offset count : Nat}
    (inside : offset + count * 4 ≤ data.length) :
    getCsrcs data offset count ≠ .error .outOfBounds := by
  induction count generalizing offset with
  | zero =>
      intro same
      cases same
  | succ count induction =>
      apply bind_ne_error (getU32_inBounds (by omega))
      intro csrc _
      apply bind_ne_error (induction (by omega))
      intro rest _ same
      cases same

theorem skipExtension_inBounds (data : Bytes) (extension : Bool) (offset : Nat) :
    skipExtension data extension offset ≠ .error .outOfBounds := by
  cases extension with
  | false =>
      intro same
      cases same
  | true =>
      rw [skipExtension, if_pos rfl]
      by_cases short : data.length < offset + 4
      · rw [if_pos short]
        intro same
        cases same
      · rw [if_neg short]
        apply bind_ne_error (getU16_inBounds (by omega))
        intro words _
        dsimp only
        split <;>
        · intro same
          cases same

theorem payloadEnd_inBounds (data : Bytes) (padding : Bool) (offset : Nat) :
    payloadEnd data padding offset ≠ .error .outOfBounds := by
  cases padding with
  | false =>
      intro same
      cases same
  | true =>
      rw [payloadEnd, if_pos rfl]
      by_cases empty : data.length ≤ offset
      · rw [if_pos empty]
        intro same
        cases same
      · rw [if_neg empty]
        apply bind_ne_error (byteAt_inBounds (by omega))
        intro pad _
        split <;>
        · intro same
          cases same

/-- The offset past the extension is still inside of the buffer. -/
theorem skipExtension_le {data : Bytes} {extension : Bool} {offset stop : Nat}
    (inside : offset ≤ data.length) (skipped : skipExtension data extension offset = .ok stop) :
    stop ≤ data.length := by
  cases extension with
  | false =>
      cases skipped
      exact inside
  | true =>
      rw [skipExtension, if_pos rfl] at skipped
      split at skipped
      · cases skipped
      · rcases bind_eq_ok.mp skipped with ⟨words, _, accepted⟩
        dsimp only at accepted
        split at accepted
        · cases accepted
        · cases accepted
          omega

/-- Padding never reaches in front of the payload. -/
theorem payloadEnd_bounds {data : Bytes} {padding : Bool} {offset stop : Nat}
    (inside : offset ≤ data.length) (trimmed : payloadEnd data padding offset = .ok stop) :
    offset ≤ stop ∧ stop ≤ data.length := by
  cases padding with
  | false =>
      cases trimmed
      exact ⟨inside, Nat.le_refl _⟩
  | true =>
      rw [payloadEnd, if_pos rfl] at trimmed
      split at trimmed
      · cases trimmed
      · rcases bind_eq_ok.mp trimmed with ⟨pad, _, accepted⟩
        split at accepted
        · cases accepted
        · cases accepted
          omega

theorem slice_inBounds {data : Bytes} {start stop : Nat} (ordered : start ≤ stop)
    (inside : stop ≤ data.length) : slice data start stop ≠ .error .outOfBounds := by
  rw [slice, if_pos ⟨ordered, inside⟩]
  intro same
  cases same

/-- No byte at or past the end of the buffer is read, whatever the lengths in
the datagram say. -/
theorem parse_inBounds (data : Bytes) : parse data ≠ .error .outOfBounds := by
  by_cases short : data.length < kFixedHeaderBytes
  · rw [parse, if_pos short]
    intro same
    cases same
  rw [parse, if_neg short]
  rw [kFixedHeaderBytes] at short
  apply bind_ne_error (byteAt_inBounds (by omega))
  intro b0 _
  dsimp only
  by_cases isVersion : (b0 >>> 6) &&& 0x03 ≠ kVersion
  · rw [if_pos isVersion]
    intro same
    cases same
  rw [if_neg isVersion]
  apply bind_ne_error (byteAt_inBounds (by omega))
  intro b1 _
  apply bind_ne_error (getU16_inBounds (by omega))
  intro sequenceNumber _
  apply bind_ne_error (getU32_inBounds (by omega))
  intro timestamp _
  apply bind_ne_error (getU32_inBounds (by omega))
  intro ssrc _
  by_cases cut : data.length < kFixedHeaderBytes + (b0 &&& 0x0F).toNat * 4
  · rw [if_pos cut]
    intro same
    cases same
  rw [if_neg cut]
  rw [Nat.not_lt] at cut
  apply bind_ne_error (getCsrcs_inBounds cut)
  intro csrcs _
  apply bind_ne_error (skipExtension_inBounds _ _ _)
  intro start skipped
  have startInside := skipExtension_le cut skipped
  apply bind_ne_error (payloadEnd_inBounds _ _ _)
  intro stop trimmed
  rcases payloadEnd_bounds startInside trimmed with ⟨ordered, stopInside⟩
  apply bind_ne_error (slice_inBounds ordered stopInside)
  intro payload _ same
  cases same

/-- The parser accepts exactly the bytes of datagrams, keeps exactly their
parts, and reads nothing else. -/
theorem parse_grammar (data : Bytes) :
    (∀ packet, parse data = .ok packet ↔
      ∃ datagram : Datagram, datagram.bytes = data ∧ datagram.packet = packet) ∧
    parse data ≠ .error .outOfBounds :=
  ⟨fun _ => Datagram.parse_eq_ok_iff, parse_inBounds data⟩

/-! ## The serializer as inverse -/

theorem csrcCount_eq (packet : RtpPacket) : packet.csrcCount = min 15 packet.csrcs.length := by
  rw [csrcCount]
  split <;> omega

theorem take_csrcCount (packet : RtpPacket) :
    packet.csrcs.take packet.csrcCount = packet.csrcs.take 15 := by
  rw [csrcCount_eq, ← List.take_eq_take_min]

/-- A packet of the RTP version that has neither padding nor an extension. -/
structure Plain (packet : RtpPacket) : Prop where
  version : packet.version = kVersion
  noPadding : packet.padding = false
  noExtension : packet.extension = false

theorem Plain.firstByte {packet : RtpPacket} (plain : Plain packet) :
    packet.firstByte = 0x80 ||| (BitVec.ofNat 8 packet.csrcCount &&& 0x0F) := by
  rw [RtpPacket.firstByte, plain.version, plain.noPadding, plain.noExtension]
  rfl

theorem plainByte_bits : ∀ count : Fin 16,
    let byte : Byte := 0x80 ||| (BitVec.ofNat 8 count &&& 0x0F)
    (byte >>> 6) &&& 0x03 = kVersion ∧ (byte &&& 0x0F).toNat = count ∧
      (byte &&& 0x10 != 0) = false ∧ (byte &&& 0x20 != 0) = false := by
  decide

theorem Plain.firstByte_bits {packet : RtpPacket} (plain : Plain packet) :
    (packet.firstByte >>> 6) &&& 0x03 = kVersion ∧
      (packet.firstByte &&& 0x0F).toNat = packet.csrcCount ∧
      (packet.firstByte &&& 0x10 != 0) = false ∧ (packet.firstByte &&& 0x20 != 0) = false := by
  have bound : packet.csrcCount < 16 := by
    rw [csrcCount_eq]
    omega
  rw [plain.firstByte]
  exact plainByte_bits ⟨packet.csrcCount, bound⟩

theorem secondByte_bits (packet : RtpPacket) :
    (packet.secondByte &&& 0x80 != 0) = packet.marker ∧
      packet.secondByte &&& 0x7F = packet.payloadType &&& 0x7F := by
  have bits : ∀ (payloadType : BitVec 8) (marker : Bool),
      let b1 := payloadType &&& 0x7F
      let byte := if marker then b1 ||| 0x80 else b1
      (byte &&& 0x80 != 0) = marker ∧ byte &&& 0x7F = payloadType &&& 0x7F := by
    decide +kernel
  exact bits packet.payloadType packet.marker

/-- The datagram that the serializer writes for a plain packet. -/
def toDatagram (packet : RtpPacket) (plain : Plain packet) : Datagram where
  firstByte := packet.firstByte
  secondByte := packet.secondByte
  sequenceNumber := packet.sequenceNumber
  timestamp := packet.timestamp
  ssrc := packet.ssrc
  csrcs := packet.csrcs.take packet.csrcCount
  extensionPart := []
  payload := packet.payload
  paddingPart := []
  isVersion := plain.firstByte_bits.1
  csrcs_length := by
    rw [plain.firstByte_bits.2.1, List.length_take, csrcCount_eq]
    omega
  isExtension := by
    rw [plain.firstByte_bits.2.2.1]
    rfl
  isPadding := by
    rw [plain.firstByte_bits.2.2.2]
    rfl

theorem toDatagram_bytes (packet : RtpPacket) (plain : Plain packet) :
    (packet.toDatagram plain).bytes = packet.serialize := by
  rw [Datagram.bytes, toDatagram, List.append_nil, List.append_nil]
  rfl

theorem toDatagram_packet (packet : RtpPacket) (plain : Plain packet) :
    (packet.toDatagram plain).packet =
      { packet with
        payloadType := packet.payloadType &&& 0x7F
        csrcs := packet.csrcs.take 15 } := by
  rcases secondByte_bits packet with ⟨marker, payloadType⟩
  rw [Datagram.packet, toDatagram, ← take_csrcCount, plain.firstByte_bits.2.2.1,
    plain.firstByte_bits.2.2.2, marker, payloadType, ← plain.version, ← plain.noPadding]
  simp only [plain.noPadding, plain.noExtension]

/-- Serializer and parser undo each other on packets and on datagrams without
padding and extension, but for the payload type's eighth bit and the CSRCs that
the count field has no room for. -/
theorem serialize_parse_inverse :
    (∀ packet, Plain packet → parse packet.serialize =
      .ok { packet with
            payloadType := packet.payloadType &&& 0x7F, csrcs := packet.csrcs.take 15 }) ∧
    ∀ data packet, Datagram.FlagsClear (data.headD 0) → parse data = .ok packet →
      packet.serialize = data := by
  constructor
  · intro packet plain
    rw [← toDatagram_bytes packet plain, Datagram.parse_bytes, toDatagram_packet]
  · intro data packet clear accepted
    rcases Datagram.parse_eq_ok_iff.mp accepted with ⟨datagram, rfl, rfl⟩
    exact datagram.serialize_of_flagsClear clear

theorem serialize_parse_inverse_example :
    parse (serialize { payloadType := 0xE0, csrcs := [7], payload := [0x41] }) =
        .ok { payloadType := 0x60, csrcs := [7], payload := [0x41] } ∧
      serialize { payloadType := 0x60, csrcs := [7], payload := [0x41] } =
        [0x81, 0x60, 0, 0, 0, 0, 0, 0, 0, 0, 0, 0, 0, 0, 0, 7, 0x41] :=
  ⟨serialize_parse_inverse.1 { payloadType := 0xE0, csrcs := [7], payload := [0x41] }
      ⟨rfl, rfl, rfl⟩,
    serialize_parse_inverse.2 [0x81, 0x60, 0, 0, 0, 0, 0, 0, 0, 0, 0, 0, 0, 0, 0, 7, 0x41]
      { payloadType := 0x60, csrcs := [7], payload := [0x41] }
      (by unfold Datagram.FlagsClear; decide) rfl⟩

end RtpPacket

end Vela
