import Vela.Common.Types

/-! # RTP packets

The wire model of one RTP packet: its fields, the serializer and the parser,
and the 16-bit sequence-number comparisons. The parser reads the datagram byte
by byte; a read at or past its end is a fault of its own, so that memory safety
is a statement about the model. -/

namespace Vela

open Foundation Octets

structure RtpPacket where
  version : BitVec 8 := 2
  padding : Bool := false
  extension : Bool := false
  marker : Bool := false
  payloadType : BitVec 8 := 0
  sequenceNumber : BitVec 16 := 0
  timestamp : BitVec 32 := 0
  ssrc : BitVec 32 := 0
  csrcs : List (BitVec 32) := []
  payload : Bytes := []
  deriving DecidableEq, Repr

namespace RtpPacket

def kFixedHeaderBytes : Nat := 12

def kVersion : BitVec 8 := 2

/-! ## Serializing -/

def putU16 (value : BitVec 16) : Bytes := [lowOctet (value >>> 8), lowOctet value]

def putU32 (value : BitVec 32) : Bytes :=
  [lowOctet (value >>> 24), lowOctet (value >>> 16), lowOctet (value >>> 8), lowOctet value]

/-- The CSRC count is clamped to its 4-bit field. -/
def csrcCount (packet : RtpPacket) : Nat :=
  if packet.csrcs.length > 15 then 15 else packet.csrcs.length

def firstByte (packet : RtpPacket) : Byte :=
  let b0 := (packet.version &&& 0x03) <<< 6
  let b0 := if packet.padding then b0 ||| 0x20 else b0
  let b0 := if packet.extension then b0 ||| 0x10 else b0
  b0 ||| (BitVec.ofNat 8 packet.csrcCount &&& 0x0F)

def secondByte (packet : RtpPacket) : Byte :=
  let b1 := packet.payloadType &&& 0x7F
  if packet.marker then b1 ||| 0x80 else b1

def serialize (packet : RtpPacket) : Bytes :=
  [packet.firstByte, packet.secondByte] ++ putU16 packet.sequenceNumber ++
    putU32 packet.timestamp ++ putU32 packet.ssrc ++
    (packet.csrcs.take packet.csrcCount).flatMap putU32 ++ packet.payload

/-! ## Parsing -/

inductive Fault where
  | error (error : Error)
  | outOfBounds
  deriving DecidableEq, Repr

def byteAt (data : Bytes) (index : Nat) : Except Fault Byte :=
  match data[index]? with
  | some byte => .ok byte
  | none => .error .outOfBounds

def getU16 (data : Bytes) (offset : Nat) : Except Fault (BitVec 16) := do
  let high ← byteAt data offset
  let low ← byteAt data (offset + 1)
  return bigEndian16 high low

def getU32 (data : Bytes) (offset : Nat) : Except Fault (BitVec 32) := do
  let first ← byteAt data offset
  let second ← byteAt data (offset + 1)
  let third ← byteAt data (offset + 2)
  let fourth ← byteAt data (offset + 3)
  return bigEndian32 first second third fourth

def getCsrcs (data : Bytes) : (offset count : Nat) → Except Fault (List (BitVec 32))
  | _, 0 => return []
  | offset, count + 1 => do
      let csrc ← getU32 data offset
      let rest ← getCsrcs data (offset + 4) count
      return csrc :: rest

/-- The offset just past the header extension, whose length field counts
32-bit words after its own four bytes. -/
def skipExtension (data : Bytes) (extension : Bool) (offset : Nat) : Except Fault Nat :=
  if extension then
    if data.length < offset + 4 then .error (.error .protocol)
    else do
      let words ← getU16 data (offset + 2)
      let bodyEnd := offset + (4 + words.toNat * 4)
      if data.length < bodyEnd then .error (.error .protocol) else return bodyEnd
  else return offset

/-- Where the payload ends: the last byte counts the padding octets, itself
included. -/
def payloadEnd (data : Bytes) (padding : Bool) (offset : Nat) : Except Fault Nat :=
  if padding then
    if data.length ≤ offset then .error (.error .protocol)
    else do
      let pad ← byteAt data (data.length - 1)
      if pad.toNat = 0 ∨ pad.toNat > data.length - offset then .error (.error .protocol)
      else return data.length - pad.toNat
  else return data.length

def slice (data : Bytes) (start stop : Nat) : Except Fault Bytes :=
  if start ≤ stop ∧ stop ≤ data.length then return (data.drop start).take (stop - start)
  else .error .outOfBounds

def parse (data : Bytes) : Except Fault RtpPacket :=
  if data.length < kFixedHeaderBytes then .error (.error .protocol)
  else do
    let b0 ← byteAt data 0
    let version := (b0 >>> 6) &&& 0x03
    if version ≠ kVersion then .error (.error .protocol)
    else
      let padding := b0 &&& 0x20 != 0
      let extension := b0 &&& 0x10 != 0
      let cc := (b0 &&& 0x0F).toNat
      let b1 ← byteAt data 1
      let marker := b1 &&& 0x80 != 0
      let payloadType := b1 &&& 0x7F
      let sequenceNumber ← getU16 data 2
      let timestamp ← getU32 data 4
      let ssrc ← getU32 data 8
      if data.length < kFixedHeaderBytes + cc * 4 then .error (.error .protocol)
      else
        let csrcs ← getCsrcs data kFixedHeaderBytes cc
        let start ← skipExtension data extension (kFixedHeaderBytes + cc * 4)
        let stop ← payloadEnd data padding start
        let payload ← slice data start stop
        return { version, padding, extension, marker, payloadType, sequenceNumber,
                 timestamp, ssrc, csrcs, payload }

end RtpPacket

/-! ## Sequence numbers -/

def seqLessThan (a b : BitVec 16) : Bool := decide (b - a < 0x8000) && a != b

def seqDistance (a b : BitVec 16) : BitVec 16 := b - a

end Vela
