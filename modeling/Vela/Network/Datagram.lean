import Vela.Network.RtpPacket

/-! # The datagram grammar

A well-formed datagram, part by part, with its bytes and the packet they mean.
The parser accepts exactly the bytes of such datagrams, and what the serializer
writes for an accepted packet is its datagram without the extension and padding
parts. -/

namespace Vela

open Foundation Octets

namespace RtpPacket

/-! ## Reading at the end of a prefix -/

theorem byteAt_append {before rest : Bytes} {offset : Nat} (here : before.length = offset)
    {byte : Byte} :
    byteAt (before ++ rest) offset = .ok byte ↔ ∃ after, rest = byte :: after := by
  subst here
  cases rest with
  | nil => simp [byteAt]
  | cons head tail => simp [byteAt]

theorem getU16_append {before rest : Bytes} {offset : Nat} (here : before.length = offset)
    {value : BitVec 16} :
    getU16 (before ++ rest) offset = .ok value ↔ ∃ after, rest = putU16 value ++ after := by
  unfold getU16
  simp only [bind_eq_ok, byteAt_append here]
  constructor
  · rintro ⟨high, ⟨after, rfl⟩, low, lowRead, equal⟩
    rw [List.append_cons, byteAt_append (by simp [here])] at lowRead
    rcases lowRead with ⟨after', rfl⟩
    cases equal
    rcases lowOctets_bigEndian16 high low with ⟨highBack, lowBack⟩
    exact ⟨after', by simp [putU16, highBack, lowBack]⟩
  · rintro ⟨after, rfl⟩
    refine ⟨_, ⟨_, rfl⟩, lowOctet value, ?_, ?_⟩
    · rw [putU16, List.cons_append, List.append_cons, byteAt_append (by simp [here])]
      exact ⟨after, rfl⟩
    · rw [bigEndian16_lowOctets]
      rfl

theorem getU32_append {before rest : Bytes} {offset : Nat} (here : before.length = offset)
    {value : BitVec 32} :
    getU32 (before ++ rest) offset = .ok value ↔ ∃ after, rest = putU32 value ++ after := by
  unfold getU32
  simp only [bind_eq_ok, byteAt_append here]
  constructor
  · rintro ⟨first, ⟨after, rfl⟩, second, secondRead, third, thirdRead, fourth, fourthRead, equal⟩
    rw [List.append_cons, byteAt_append (by simp [here])] at secondRead
    rcases secondRead with ⟨after, rfl⟩
    rw [List.append_cons, List.append_cons, byteAt_append (by simp [here])] at thirdRead
    rcases thirdRead with ⟨after, rfl⟩
    rw [List.append_cons, List.append_cons, List.append_cons,
      byteAt_append (by simp [here])] at fourthRead
    rcases fourthRead with ⟨after, rfl⟩
    cases equal
    rcases lowOctets_bigEndian32 first second third fourth with
      ⟨firstBack, secondBack, thirdBack, fourthBack⟩
    exact ⟨after, by simp [putU32, firstBack, secondBack, thirdBack, fourthBack]⟩
  · rintro ⟨after, rfl⟩
    refine ⟨_, ⟨_, rfl⟩, lowOctet (value >>> 16), ?_, lowOctet (value >>> 8), ?_,
      lowOctet value, ?_, ?_⟩
    · rw [putU32, List.cons_append, List.append_cons, byteAt_append (by simp [here])]
      exact ⟨_, rfl⟩
    · rw [putU32, List.cons_append, List.cons_append, List.append_cons, List.append_cons,
        byteAt_append (by simp [here])]
      exact ⟨_, rfl⟩
    · rw [putU32, List.cons_append, List.cons_append, List.cons_append, List.append_cons,
        List.append_cons, List.append_cons, byteAt_append (by simp [here])]
      exact ⟨_, rfl⟩
    · rw [bigEndian32_lowOctets]
      rfl

@[simp] theorem putU16_length (value : BitVec 16) : (putU16 value).length = 2 := rfl

@[simp] theorem putU32_length (value : BitVec 32) : (putU32 value).length = 4 := rfl

@[simp] theorem csrcBytes_length (csrcs : List (BitVec 32)) :
    (csrcs.flatMap putU32).length = csrcs.length * 4 := by
  induction csrcs with
  | nil => rfl
  | cons head tail induction => simp [induction]; omega

theorem getCsrcs_append {before rest : Bytes} {offset count : Nat}
    (here : before.length = offset) {csrcs : List (BitVec 32)} :
    getCsrcs (before ++ rest) offset count = .ok csrcs ↔
      csrcs.length = count ∧ ∃ after, rest = csrcs.flatMap putU32 ++ after := by
  induction count generalizing before rest offset csrcs with
  | zero =>
      rw [getCsrcs, List.length_eq_zero_iff]
      constructor
      · intro equal
        cases equal
        exact ⟨rfl, rest, rfl⟩
      · intro ⟨empty, _⟩
        rw [empty]
        rfl
  | succ count induction =>
      simp only [getCsrcs, bind_eq_ok, getU32_append here]
      constructor
      · rintro ⟨csrc, ⟨after, rfl⟩, tail, tailRead, equal⟩
        rw [← List.append_assoc, induction (by simp [here])] at tailRead
        rcases tailRead with ⟨tailLength, after', rfl⟩
        cases equal
        exact ⟨by simp [tailLength], after', by simp⟩
      · rintro ⟨length, after, rfl⟩
        cases csrcs with
        | nil => cases length
        | cons csrc tail =>
            refine ⟨csrc, ⟨tail.flatMap putU32 ++ after, by simp⟩, tail, ?_, rfl⟩
            rw [List.flatMap_cons, List.append_assoc, ← List.append_assoc,
              induction (by simp [here])]
            exact ⟨by simpa using length, after, rfl⟩

/-! ## Parts of a datagram -/

/-- The header extension: two profile bytes, a 16-bit length in words, and that
many words. -/
def IsExtension : Bool → Bytes → Prop
  | false, part => part = []
  | true, part => ∃ profile words body,
      part = profile ++ putU16 words ++ body ∧ profile.length = 2 ∧ body.length = words.toNat * 4

/-- Padding: its last byte is its own length. -/
def IsPadding : Bool → Bytes → Prop
  | false, part => part = []
  | true, part => ∃ filler count, part = filler ++ [count] ∧ count.toNat = part.length

/-- Past an extension that is there. -/
theorem skipExtension_of_isExtension {before part : Bytes} {offset : Nat}
    (here : before.length = offset) (isExtension : IsExtension true part) (after : Bytes) :
    skipExtension (before ++ (part ++ after)) true offset = .ok (offset + part.length) := by
  rcases isExtension with ⟨profile, words, body, rfl, profileLength, bodyLength⟩
  have room : ¬ (before ++ (profile ++ putU16 words ++ body ++ after)).length < offset + 4 := by
    simp [here, profileLength]
    omega
  have split : before ++ (profile ++ putU16 words ++ body ++ after) =
      (before ++ profile) ++ (putU16 words ++ (body ++ after)) := by
    simp
  rw [skipExtension, if_pos rfl, if_neg room, bind_eq_ok]
  refine ⟨words, ?_, ?_⟩
  · rw [split, getU16_append (by simp [here, profileLength])]
    exact ⟨_, rfl⟩
  · have inside : ¬ (before ++ (profile ++ putU16 words ++ body ++ after)).length <
        offset + (4 + words.toNat * 4) := by
      simp [here, profileLength, bodyLength]
      omega
    rw [if_neg inside]
    simp [pure, Except.pure, profileLength, bodyLength]
    omega

theorem skipExtension_append {before rest : Bytes} {extension : Bool} {offset stop : Nat}
    (here : before.length = offset) :
    skipExtension (before ++ rest) extension offset = .ok stop ↔
      ∃ part after, rest = part ++ after ∧ IsExtension extension part ∧
        stop = offset + part.length := by
  cases extension with
  | false =>
      constructor
      · intro equal
        cases equal
        exact ⟨[], rest, rfl, rfl, rfl⟩
      · rintro ⟨part, after, _, empty, rfl⟩
        cases empty
        rfl
  | true =>
      constructor
      · intro skipped
        rw [skipExtension, if_pos rfl] at skipped
        by_cases short : (before ++ rest).length < offset + 4
        · rw [if_pos short] at skipped
          cases skipped
        · rw [if_neg short] at skipped
          rcases bind_eq_ok.mp skipped with ⟨words, wordsRead, accepted⟩
          rcases rest with _ | ⟨first, _ | ⟨second, tail⟩⟩
          · simp [here] at short
          · simp [here] at short
          · have split : before ++ first :: second :: tail =
                (before ++ [first, second]) ++ tail := by
              simp
            rw [split, getU16_append (by simp [here])] at wordsRead
            rcases wordsRead with ⟨body, rfl⟩
            by_cases cut : (before ++ first :: second :: (putU16 words ++ body)).length <
                offset + (4 + words.toNat * 4)
            · rw [if_pos cut] at accepted
              cases accepted
            · rw [if_neg cut] at accepted
              cases accepted
              have enough : words.toNat * 4 ≤ body.length := by
                simp [here] at cut
                omega
              refine ⟨[first, second] ++ putU16 words ++ body.take (words.toNat * 4),
                body.drop (words.toNat * 4), ?_, ?_, ?_⟩
              · simp
              · exact ⟨[first, second], words, _, rfl, rfl, by simp [enough]⟩
              · simp [enough]
                omega
      · rintro ⟨part, after, rfl, isExtension, rfl⟩
        exact skipExtension_of_isExtension here isExtension after

/-- As many bytes from the end as the last one counts. -/
theorem isPadding_drop {rest : Bytes} {pad : Byte} (nonempty : rest ≠ [])
    (isLast : rest.getLast nonempty = pad) (bound : 0 < pad.toNat ∧ pad.toNat ≤ rest.length) :
    IsPadding true (rest.drop (rest.length - pad.toNat)) := by
  have partNonempty : rest.drop (rest.length - pad.toNat) ≠ [] := by
    rw [ne_eq, List.drop_eq_nil_iff]
    omega
  have lastPart : (rest.drop (rest.length - pad.toNat)).getLast partNonempty = pad := by
    rw [List.getLast_drop]
    exact isLast
  have rebuilt := List.dropLast_append_getLast partNonempty
  rw [lastPart] at rebuilt
  refine ⟨(rest.drop (rest.length - pad.toNat)).dropLast, pad, rebuilt.symm, ?_⟩
  rw [List.length_drop]
  omega

/-- Short of a padding that is there. -/
theorem payloadEnd_of_isPadding {before payload part : Bytes} {offset : Nat}
    (here : before.length = offset) (isPadding : IsPadding true part) :
    payloadEnd (before ++ (payload ++ part)) true offset = .ok (offset + payload.length) := by
  rcases isPadding with ⟨filler, count, rfl, countLength⟩
  have room : ¬ (before ++ (payload ++ (filler ++ [count]))).length ≤ offset := by
    simp only [List.length_append, List.length_singleton]
    omega
  have split : before ++ (payload ++ (filler ++ [count])) =
      (before ++ payload ++ filler) ++ [count] := by
    simp
  rw [payloadEnd, if_pos rfl, if_neg room, bind_eq_ok]
  refine ⟨count, ?_, ?_⟩
  · rw [split, byteAt_append (by simp only [List.length_append, List.length_singleton]; omega)]
    exact ⟨[], rfl⟩
  · have accepted : ¬ (count.toNat = 0 ∨
        count.toNat > (before ++ (payload ++ (filler ++ [count]))).length - offset) := by
      rw [countLength]
      simp only [List.length_append, List.length_singleton]
      omega
    rw [if_neg accepted, countLength]
    simp [pure, Except.pure, here]
    omega

theorem payloadEnd_append {before rest : Bytes} {padding : Bool} {offset stop : Nat}
    (here : before.length = offset) :
    payloadEnd (before ++ rest) padding offset = .ok stop ↔
      ∃ payload part, rest = payload ++ part ∧ IsPadding padding part ∧
        stop = offset + payload.length := by
  cases padding with
  | false =>
      constructor
      · intro equal
        cases equal
        exact ⟨rest, [], by simp, rfl, by simp [here]⟩
      · rintro ⟨payload, part, rfl, empty, rfl⟩
        cases empty
        simp [payloadEnd, pure, Except.pure, here]
  | true =>
      constructor
      · intro trimmed
        rw [payloadEnd, if_pos rfl] at trimmed
        by_cases none : (before ++ rest).length ≤ offset
        · rw [if_pos none] at trimmed
          cases trimmed
        · rw [if_neg none] at trimmed
          rcases bind_eq_ok.mp trimmed with ⟨pad, padRead, accepted⟩
          by_cases bad : pad.toNat = 0 ∨ pad.toNat > (before ++ rest).length - offset
          · rw [if_pos bad] at accepted
            cases accepted
          · rw [if_neg bad] at accepted
            cases accepted
            have nonempty : rest ≠ [] := by
              intro empty
              simp [here, empty] at none
            have bound : 0 < pad.toNat ∧ pad.toNat ≤ rest.length := by
              simp [here] at bad
              omega
            have isLast : rest.getLast nonempty = pad := by
              have split : before ++ rest =
                  (before ++ rest.dropLast) ++ [rest.getLast nonempty] := by
                rw [List.append_assoc, List.dropLast_append_getLast]
              rw [split, byteAt_append (by simp)] at padRead
              rcases padRead with ⟨_, equal⟩
              exact (List.cons.inj equal).1
            refine ⟨rest.take (rest.length - pad.toNat), rest.drop (rest.length - pad.toNat),
              by simp, isPadding_drop nonempty isLast bound, ?_⟩
            rw [List.length_take, List.length_append, here]
            omega
      · rintro ⟨payload, part, rfl, isPadding, rfl⟩
        exact payloadEnd_of_isPadding here isPadding

theorem slice_append {before middle after : Bytes} {start stop : Nat}
    (here : before.length = start) (there : start + middle.length = stop) :
    slice (before ++ (middle ++ after)) start stop = .ok middle := by
  subst here there
  rw [slice, if_pos (by simp)]
  simp [pure, Except.pure]

end RtpPacket

/-! ## Datagrams -/

open RtpPacket in
/-- A datagram cut into its parts, with the conditions its header imposes on
them. -/
structure Datagram where
  firstByte : Byte
  secondByte : Byte
  sequenceNumber : BitVec 16
  timestamp : BitVec 32
  ssrc : BitVec 32
  csrcs : List (BitVec 32)
  extensionPart : Bytes
  payload : Bytes
  paddingPart : Bytes
  isVersion : (firstByte >>> 6) &&& 0x03 = kVersion
  csrcs_length : csrcs.length = (firstByte &&& 0x0F).toNat
  isExtension : IsExtension (firstByte &&& 0x10 != 0) extensionPart
  isPadding : IsPadding (firstByte &&& 0x20 != 0) paddingPart

namespace Datagram

open RtpPacket

def header (datagram : Datagram) : Bytes :=
  [datagram.firstByte, datagram.secondByte] ++ putU16 datagram.sequenceNumber ++
    putU32 datagram.timestamp ++ putU32 datagram.ssrc

def bytes (datagram : Datagram) : Bytes :=
  datagram.header ++ datagram.csrcs.flatMap putU32 ++ datagram.extensionPart ++
    datagram.payload ++ datagram.paddingPart

/-- What a receiver keeps of a datagram. -/
def packet (datagram : Datagram) : RtpPacket where
  version := kVersion
  padding := datagram.firstByte &&& 0x20 != 0
  extension := datagram.firstByte &&& 0x10 != 0
  marker := datagram.secondByte &&& 0x80 != 0
  payloadType := datagram.secondByte &&& 0x7F
  sequenceNumber := datagram.sequenceNumber
  timestamp := datagram.timestamp
  ssrc := datagram.ssrc
  csrcs := datagram.csrcs
  payload := datagram.payload

@[simp] theorem header_length (datagram : Datagram) :
    datagram.header.length = kFixedHeaderBytes := rfl

/-! What the parser reads at each place of a datagram's bytes. -/

section Reads

variable (datagram : Datagram)

theorem getU16_sequence : getU16 datagram.bytes 2 = .ok datagram.sequenceNumber := by
  have split : datagram.bytes = [datagram.firstByte, datagram.secondByte] ++
      (putU16 datagram.sequenceNumber ++ datagram.bytes.drop 4) := rfl
  rw [split, getU16_append (by rfl)]
  exact ⟨_, rfl⟩

theorem getU32_timestamp : getU32 datagram.bytes 4 = .ok datagram.timestamp := by
  have split : datagram.bytes = datagram.bytes.take 4 ++
      (putU32 datagram.timestamp ++ datagram.bytes.drop 8) := rfl
  rw [split, getU32_append (by rfl)]
  exact ⟨_, rfl⟩

theorem getU32_ssrc : getU32 datagram.bytes 8 = .ok datagram.ssrc := by
  have split : datagram.bytes = datagram.bytes.take 8 ++
      (putU32 datagram.ssrc ++ datagram.bytes.drop 12) := rfl
  rw [split, getU32_append (by rfl)]
  exact ⟨_, rfl⟩

theorem getCsrcs_bytes :
    getCsrcs datagram.bytes kFixedHeaderBytes (datagram.firstByte &&& 0x0F).toNat =
      .ok datagram.csrcs := by
  simp only [bytes, List.append_assoc]
  rw [getCsrcs_append datagram.header_length]
  exact ⟨datagram.csrcs_length, _, rfl⟩

/-- Where the extension begins, if there is one. -/
theorem beforeExtension_length :
    (datagram.header ++ datagram.csrcs.flatMap putU32).length =
      kFixedHeaderBytes + (datagram.firstByte &&& 0x0F).toNat * 4 := by
  rw [List.length_append, header_length, csrcBytes_length, datagram.csrcs_length]

theorem skipExtension_bytes :
    skipExtension datagram.bytes (datagram.firstByte &&& 0x10 != 0)
        (kFixedHeaderBytes + (datagram.firstByte &&& 0x0F).toNat * 4) =
      .ok (kFixedHeaderBytes + (datagram.firstByte &&& 0x0F).toNat * 4 +
        datagram.extensionPart.length) := by
  have split : datagram.bytes = datagram.header ++ datagram.csrcs.flatMap putU32 ++
      (datagram.extensionPart ++ (datagram.payload ++ datagram.paddingPart)) := by
    simp [bytes]
  rw [split, skipExtension_append datagram.beforeExtension_length]
  exact ⟨_, _, rfl, datagram.isExtension, rfl⟩

/-- Where the payload begins. -/
theorem beforePayload_length :
    (datagram.header ++ datagram.csrcs.flatMap putU32 ++ datagram.extensionPart).length =
      kFixedHeaderBytes + (datagram.firstByte &&& 0x0F).toNat * 4 +
        datagram.extensionPart.length := by
  rw [List.length_append, beforeExtension_length]

theorem payloadEnd_bytes :
    payloadEnd datagram.bytes (datagram.firstByte &&& 0x20 != 0)
        (kFixedHeaderBytes + (datagram.firstByte &&& 0x0F).toNat * 4 +
          datagram.extensionPart.length) =
      .ok (kFixedHeaderBytes + (datagram.firstByte &&& 0x0F).toNat * 4 +
        datagram.extensionPart.length + datagram.payload.length) := by
  simp only [bytes, List.append_assoc (_ ++ datagram.extensionPart)]
  rw [payloadEnd_append datagram.beforePayload_length]
  exact ⟨_, _, rfl, datagram.isPadding, rfl⟩

theorem slice_payload :
    slice datagram.bytes
        (kFixedHeaderBytes + (datagram.firstByte &&& 0x0F).toNat * 4 +
          datagram.extensionPart.length)
        (kFixedHeaderBytes + (datagram.firstByte &&& 0x0F).toNat * 4 +
          datagram.extensionPart.length + datagram.payload.length) = .ok datagram.payload := by
  simp only [bytes, List.append_assoc (_ ++ datagram.extensionPart)]
  exact slice_append datagram.beforePayload_length rfl

theorem parse_bytes : parse datagram.bytes = .ok datagram.packet := by
  have first : byteAt datagram.bytes 0 = .ok datagram.firstByte := rfl
  have second : byteAt datagram.bytes 1 = .ok datagram.secondByte := rfl
  have length : datagram.bytes.length =
      kFixedHeaderBytes + (datagram.firstByte &&& 0x0F).toNat * 4 +
        datagram.extensionPart.length + datagram.payload.length + datagram.paddingPart.length := by
    rw [bytes, List.length_append, List.length_append, beforePayload_length]
  rw [parse, if_neg (by omega)]
  simp only [first, second, datagram.getU16_sequence, datagram.getU32_timestamp,
    datagram.getU32_ssrc, ok_bind, datagram.isVersion, ne_eq, not_true_eq_false, if_false]
  rw [if_neg (by omega)]
  simp only [datagram.getCsrcs_bytes, datagram.skipExtension_bytes, datagram.payloadEnd_bytes,
    datagram.slice_payload, ok_bind]
  rfl

end Reads

/-- The fixed-offset reads of the parser determine the first twelve bytes. -/
theorem header_split {data : Bytes} {b0 b1 : Byte} {sequenceNumber : BitVec 16}
    {timestamp ssrc : BitVec 32} (b0Read : byteAt data 0 = .ok b0)
    (b1Read : byteAt data 1 = .ok b1) (sequenceRead : getU16 data 2 = .ok sequenceNumber)
    (timestampRead : getU32 data 4 = .ok timestamp) (ssrcRead : getU32 data 8 = .ok ssrc) :
    ∃ rest, data = [b0, b1] ++ putU16 sequenceNumber ++ putU32 timestamp ++ putU32 ssrc ++
      rest := by
  rcases (@byteAt_append [] data 0 rfl b0).mp b0Read with ⟨rest, rfl⟩
  rcases (@byteAt_append [b0] rest 1 rfl b1).mp b1Read with ⟨rest, rfl⟩
  rcases (@getU16_append [b0, b1] rest 2 rfl sequenceNumber).mp sequenceRead with ⟨rest, rfl⟩
  rcases (@getU32_append ([b0, b1] ++ putU16 sequenceNumber) rest 4 rfl timestamp).mp timestampRead
    with ⟨rest, rfl⟩
  rcases (@getU32_append ([b0, b1] ++ putU16 sequenceNumber ++ putU32 timestamp) rest 8 rfl
    ssrc).mp ssrcRead with ⟨rest, rfl⟩
  exact ⟨rest, rfl⟩

/-- The parser accepts exactly the bytes of well-formed datagrams. -/
theorem parse_eq_ok_iff {data : Bytes} {packet : RtpPacket} :
    parse data = .ok packet ↔
      ∃ datagram : Datagram, datagram.bytes = data ∧ datagram.packet = packet := by
  constructor
  · intro accepted
    by_cases short : data.length < kFixedHeaderBytes
    · rw [parse, if_pos short] at accepted
      cases accepted
    rw [parse, if_neg short] at accepted
    rcases bind_eq_ok.mp accepted with ⟨b0, b0Read, accepted⟩
    dsimp only at accepted
    by_cases isVersion : (b0 >>> 6) &&& 0x03 ≠ kVersion
    · rw [if_pos isVersion] at accepted
      cases accepted
    rw [if_neg isVersion] at accepted
    rw [ne_eq, not_not] at isVersion
    rcases bind_eq_ok.mp accepted with ⟨b1, b1Read, accepted⟩
    rcases bind_eq_ok.mp accepted with ⟨sequenceNumber, sequenceRead, accepted⟩
    rcases bind_eq_ok.mp accepted with ⟨timestamp, timestampRead, accepted⟩
    rcases bind_eq_ok.mp accepted with ⟨ssrc, ssrcRead, accepted⟩
    by_cases cut : data.length < kFixedHeaderBytes + (b0 &&& 0x0F).toNat * 4
    · rw [if_pos cut] at accepted
      cases accepted
    rw [if_neg cut] at accepted
    rcases bind_eq_ok.mp accepted with ⟨csrcs, csrcsRead, accepted⟩
    rcases bind_eq_ok.mp accepted with ⟨start, startRead, accepted⟩
    rcases bind_eq_ok.mp accepted with ⟨stop, stopRead, accepted⟩
    rcases bind_eq_ok.mp accepted with ⟨payload, payloadRead, accepted⟩
    cases accepted
    -- Each read in turn fixes the next bytes of the datagram.
    rcases header_split b0Read b1Read sequenceRead timestampRead ssrcRead with ⟨rest, split⟩
    rw [split, getCsrcs_append (by rfl)] at csrcsRead
    rcases csrcsRead with ⟨csrcsLength, rest', restSplit⟩
    rw [restSplit, ← List.append_assoc] at split
    have beforeExtension : ([b0, b1] ++ putU16 sequenceNumber ++ putU32 timestamp ++ putU32 ssrc ++
        csrcs.flatMap putU32).length = kFixedHeaderBytes + (b0 &&& 0x0F).toNat * 4 := by
      rw [List.length_append, csrcBytes_length, csrcsLength]
      rfl
    rw [split, skipExtension_append beforeExtension] at startRead
    rcases startRead with ⟨extensionPart, rest'', restSplit', isExtension, startEq⟩
    rw [restSplit', ← List.append_assoc] at split
    have beforePayload : ([b0, b1] ++ putU16 sequenceNumber ++ putU32 timestamp ++ putU32 ssrc ++
        csrcs.flatMap putU32 ++ extensionPart).length = start := by
      rw [List.length_append, beforeExtension, startEq]
    rw [split, payloadEnd_append beforePayload] at stopRead
    rcases stopRead with ⟨body, paddingPart, restSplit'', isPadding, stopEq⟩
    rw [restSplit''] at split
    rw [split, slice_append beforePayload stopEq.symm] at payloadRead
    cases payloadRead
    refine ⟨⟨b0, b1, sequenceNumber, timestamp, ssrc, csrcs, extensionPart, payload, paddingPart,
      isVersion, csrcsLength, isExtension, isPadding⟩, ?_, ?_⟩
    · rw [split]
      simp [bytes, header]
    · rw [packet, isVersion]
  · rintro ⟨datagram, rfl, rfl⟩
    exact datagram.parse_bytes

/-! ## Serializing an accepted packet -/

theorem csrcCount_packet (datagram : Datagram) :
    datagram.packet.csrcCount = datagram.csrcs.length := by
  have bound : datagram.csrcs.length ≤ 15 := by
    rw [datagram.csrcs_length, BitVec.toNat_and]
    exact Nat.and_le_right
  exact if_neg (Nat.not_lt.mpr bound)

/-- The header bytes that the serializer rebuilds from the decoded fields are
the received ones: nothing of the two flag bytes is lost. -/
theorem firstByte_packet (datagram : Datagram) :
    datagram.packet.firstByte = datagram.firstByte := by
  have rebuild : ∀ byte : Byte, (byte >>> 6) &&& 0x03 = kVersion →
      (let b0 := (kVersion &&& 0x03) <<< 6
       let b0 := if byte &&& 0x20 != 0 then b0 ||| 0x20 else b0
       let b0 := if byte &&& 0x10 != 0 then b0 ||| 0x10 else b0
       b0 ||| (BitVec.ofNat 8 (byte &&& 0x0F).toNat &&& 0x0F)) = byte := by
    decide +kernel
  rw [RtpPacket.firstByte, csrcCount_packet, csrcs_length]
  exact rebuild datagram.firstByte datagram.isVersion

theorem secondByte_packet (datagram : Datagram) :
    datagram.packet.secondByte = datagram.secondByte := by
  have rebuild : ∀ byte : Byte,
      (if byte &&& 0x80 != 0 then (byte &&& 0x7F) &&& 0x7F ||| 0x80
        else (byte &&& 0x7F) &&& 0x7F) = byte := by
    decide +kernel
  exact rebuild datagram.secondByte

/-- Forwarding writes the datagram back without its extension and padding. -/
theorem serialize_packet (datagram : Datagram) :
    datagram.packet.serialize =
      datagram.header ++ datagram.csrcs.flatMap putU32 ++ datagram.payload := by
  have whole : datagram.packet.csrcs.take datagram.packet.csrcCount = datagram.csrcs := by
    rw [csrcCount_packet]
    exact List.take_length
  rw [serialize, firstByte_packet, secondByte_packet, whole]
  rfl

/-- Both flag bits of the first byte are clear. -/
def FlagsClear (firstByte : Byte) : Prop := firstByte &&& 0x30 = 0

theorem flagsClear_iff (firstByte : Byte) :
    FlagsClear firstByte ↔
      (firstByte &&& 0x10 != 0) = false ∧ (firstByte &&& 0x20 != 0) = false := by
  have split : ∀ byte : Byte, byte &&& 0x30 = 0 ↔
      (byte &&& 0x10 != 0) = false ∧ (byte &&& 0x20 != 0) = false := by
    decide +kernel
  exact split firstByte

/-- Without extension and padding nothing of the datagram is lost. -/
theorem serialize_of_flagsClear (datagram : Datagram) (clear : FlagsClear datagram.firstByte) :
    datagram.packet.serialize = datagram.bytes := by
  rcases (flagsClear_iff _).mp clear with ⟨noExtension, noPadding⟩
  have extensionEmpty : datagram.extensionPart = [] := by
    have shape := datagram.isExtension
    rwa [noExtension] at shape
  have paddingEmpty : datagram.paddingPart = [] := by
    have shape := datagram.isPadding
    rwa [noPadding] at shape
  rw [serialize_packet, bytes, extensionEmpty, paddingEmpty, List.append_nil, List.append_nil]

theorem parse_serialize_of_flagsClear (datagram : Datagram)
    (clear : FlagsClear datagram.firstByte) :
    parse datagram.packet.serialize = .ok datagram.packet := by
  rw [datagram.serialize_of_flagsClear clear, parse_bytes]

/-- Once a flag bit is set, whatever is parsed back has a shorter payload. -/
theorem flagsClear_of_payload_eq (datagram : Datagram) {packet : RtpPacket}
    (accepted : parse datagram.packet.serialize = .ok packet)
    (samePayload : packet.payload = datagram.payload) : FlagsClear datagram.firstByte := by
  rcases parse_eq_ok_iff.mp accepted with ⟨received, receivedBytes, rfl⟩
  rw [serialize_packet] at receivedBytes
  have sameFirst : received.firstByte = datagram.firstByte :=
    (List.cons.inj receivedBytes).1
  have lengths := congrArg List.length receivedBytes
  have samePayload' : received.payload = datagram.payload := samePayload
  simp only [bytes, List.length_append, header_length, csrcBytes_length, received.csrcs_length,
    datagram.csrcs_length, sameFirst, samePayload'] at lengths
  rw [flagsClear_iff, ← sameFirst]
  constructor
  · cases flag : received.firstByte &&& 0x10 != 0 with
    | false => rfl
    | true =>
        have shape := received.isExtension
        rw [flag] at shape
        rcases shape with ⟨profile, words, body, equal, profileLength, _⟩
        rw [equal] at lengths
        simp [profileLength] at lengths
        omega
  · cases flag : received.firstByte &&& 0x20 != 0 with
    | false => rfl
    | true =>
        have shape := received.isPadding
        rw [flag] at shape
        rcases shape with ⟨filler, count, equal, _⟩
        rw [equal] at lengths
        simp at lengths
        omega

/-- Forwarding is transparent exactly for datagrams without extension and
padding: then the packet survives, otherwise not even its payload does. -/
theorem forwarded_verbatim_iff (data : Bytes) (packet : RtpPacket)
    (accepted : parse data = .ok packet) :
    (parse packet.serialize = .ok packet ↔ FlagsClear (data.headD 0)) ∧
    ((∃ received, parse packet.serialize = .ok received ∧ received.payload = packet.payload) ↔
      FlagsClear (data.headD 0)) := by
  rcases parse_eq_ok_iff.mp accepted with ⟨datagram, rfl, rfl⟩
  have first : datagram.bytes.headD 0 = datagram.firstByte := rfl
  rw [first]
  refine ⟨⟨fun same => datagram.flagsClear_of_payload_eq same rfl,
    datagram.parse_serialize_of_flagsClear⟩, ?_, ?_⟩
  · intro ⟨received, receivedOk, samePayload⟩
    exact datagram.flagsClear_of_payload_eq receivedOk samePayload
  · intro clear
    exact ⟨datagram.packet, datagram.parse_serialize_of_flagsClear clear, rfl⟩

theorem forwarded_verbatim_plain :
    (RtpPacket.serialize
      { payloadType := 0x60, sequenceNumber := 1, timestamp := 2, ssrc := 3,
        payload := [0x65, 0xAA] }) =
        [0x80, 0x60, 0, 1, 0, 0, 0, 2, 0, 0, 0, 3, 0x65, 0xAA] ∧
      parse [0x80, 0x60, 0, 1, 0, 0, 0, 2, 0, 0, 0, 3, 0x65, 0xAA] =
        .ok { payloadType := 0x60, sequenceNumber := 1, timestamp := 2, ssrc := 3,
              payload := [0x65, 0xAA] } :=
  ⟨rfl, (forwarded_verbatim_iff [0x80, 0x60, 0, 1, 0, 0, 0, 2, 0, 0, 0, 3, 0x65, 0xAA] _
    rfl).1.mpr (by unfold FlagsClear; decide)⟩

/-- A datagram with one byte of payload and one of padding is accepted, but the
receiver behind the forwarder rejects what is sent on: the flag is still set and
the payload byte is read as the padding length. -/
theorem padded_not_forwarded_verbatim :
    parse [0xA0, 0x60, 0, 1, 0, 0, 0, 2, 0, 0, 0, 3, 0x65, 0x01] =
        .ok { padding := true, payloadType := 0x60, sequenceNumber := 1, timestamp := 2,
              ssrc := 3, payload := [0x65] } ∧
      parse (RtpPacket.serialize
        { padding := true, payloadType := 0x60, sequenceNumber := 1, timestamp := 2, ssrc := 3,
          payload := [0x65] }) = .error (.error .protocol) :=
  ⟨rfl, rfl⟩

end Datagram

end Vela
