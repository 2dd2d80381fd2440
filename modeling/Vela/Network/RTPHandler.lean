import Vela.Network.RtpPacket

/-! # RTP packetizer and depacketizer

One outbound stream's packetizer, which splits an Annex-B access unit into NAL
units and the long ones into FU-A fragments, and the stateless reassembly of the
in-order packets of one access unit. Reads of a buffer go through `byteAt` and
`slice`, which fault out of bounds. -/

namespace Vela

open Foundation RtpPacket

def kNalTypeMask : Byte := 0x1F

def kNalFuA : Byte := 28

def kFuStart : Byte := 0x80

def kFuEnd : Byte := 0x40

def kVideoRtpClockHz : BitVec 32 := 90000

def kDefaultMaxRtpPayload : Nat := 1200

def kStartCode : Bytes := [0, 0, 0, 1]

structure RTPHandler where
  payloadType : BitVec 8
  ssrc : BitVec 32
  clockRateHz : BitVec 32
  maxPayload : Nat
  seq : BitVec 16 := 0
  maxPayload_pos : 0 < maxPayload

namespace RTPHandler

def create (payloadType : BitVec 8) (ssrc : BitVec 32) (clockRateHz : BitVec 32 := kVideoRtpClockHz)
    (maxPayload : Nat := kDefaultMaxRtpPayload) : RTPHandler where
  payloadType := payloadType
  ssrc := ssrc
  clockRateHz := clockRateHz
  maxPayload := if maxPayload = 0 then kDefaultMaxRtpPayload else maxPayload
  maxPayload_pos := by
    split
    · decide
    · rename_i nonzero
      exact Nat.pos_of_ne_zero nonzero

def nextSequenceNumber (handler : RTPHandler) : BitVec 16 := handler.seq

/-! ## Finding NAL units -/

/-- Where a start code begins, and where the NAL body after it begins. -/
structure Marker where
  codeBegin : Nat
  bodyBegin : Nat
  deriving DecidableEq, Repr

def startCodeAt (data : Bytes) (i : Nat) : Except Fault Bool := do
  let first ← byteAt data i
  if first ≠ 0 then return false
  else
    let second ← byteAt data (i + 1)
    if second ≠ 0 then return false
    else
      let third ← byteAt data (i + 2)
      return third == 1

/-- A 4-byte code is a 3-byte code with one extra leading zero. -/
def codeBeginAt (data : Bytes) (i : Nat) (markers : List Marker) : Except Fault Nat :=
  if 1 ≤ i then do
    let previous ← byteAt data (i - 1)
    match markers.getLast? with
    | some back => return if previous = 0 ∧ back.bodyBegin ≤ i - 1 then i - 1 else i
    | none => return i
  else return i

/-- The scan of the buffer; every iteration moves `i` forward. -/
def findMarkers (data : Bytes) :
    (iterations i : Nat) → List Marker → Except Fault (List Marker)
  | 0, _, markers => return markers
  | iterations + 1, i, markers =>
      if i + 3 ≤ data.length then do
        if ← startCodeAt data i then
          let codeBegin ← codeBeginAt data i markers
          findMarkers data iterations (i + 3) (markers ++ [⟨codeBegin, i + 3⟩])
        else findMarkers data iterations (i + 1) markers
      else return markers

/-- A NAL unit ends where the next start code begins, the last one with the
buffer; empty ones are left out. -/
def nalRanges (length : Nat) : List Marker → List (Nat × Nat)
  | [] => []
  | [marker] => if length > marker.bodyBegin then [(marker.bodyBegin, length)] else []
  | marker :: next :: rest =>
      if next.codeBegin > marker.bodyBegin then
        (marker.bodyBegin, next.codeBegin) :: nalRanges length (next :: rest)
      else nalRanges length (next :: rest)

def findNalUnits (data : Bytes) : Except Fault (List (Nat × Nat)) := do
  let markers ← findMarkers data data.length 0 []
  return nalRanges data.length markers

def sliceAll (data : Bytes) : List (Nat × Nat) → Except Fault (List Bytes)
  | [] => return []
  | (start, stop) :: rest => do
      let nal ← slice data start stop
      let nals ← sliceAll data rest
      return nal :: nals

/-- The bodies of the NAL units that `findNalUnits` finds. -/
def nalUnits (data : Bytes) : Except Fault (List Bytes) := do
  let ranges ← findNalUnits data
  sliceAll data ranges

/-! ## Payloads of the packets of one NAL unit -/

def fuIndicator (nalHeader : Byte) : Byte := (nalHeader &&& 0xE0) ||| kNalFuA

def fuHeader (nalHeader : Byte) (first last : Bool) : Byte :=
  let header := nalHeader &&& kNalTypeMask
  let header := if first then header ||| kFuStart else header
  if last then header ||| kFuEnd else header

/-- Each fragment carries two header bytes. -/
def fragmentBudget (maxPayload : Nat) : Nat := if maxPayload > 2 then maxPayload - 2 else 1

/-- The fragments of the bytes that are left of a NAL unit; every one of them
takes a byte at least. -/
def fragments (nalHeader : Byte) (chunk : Nat) :
    (iterations : Nat) → (rest : Bytes) → (first : Bool) → List Bytes
  | 0, _, _ => []
  | iterations + 1, rest, first =>
      if 0 < rest.length then
        let take := min chunk rest.length
        let last := decide (take ≥ rest.length)
        (fuIndicator nalHeader :: fuHeader nalHeader first last :: rest.take take) ::
          fragments nalHeader chunk iterations (rest.drop take) false
      else []

/-- The NAL header is not part of the fragmented bytes. -/
def nalPayloads (maxPayload : Nat) : Bytes → List Bytes
  | [] => [[]]
  | nalHeader :: body =>
      if (nalHeader :: body).length ≤ maxPayload then [nalHeader :: body]
      else fragments nalHeader (fragmentBudget maxPayload) body.length body true

/-! ## Packetizing -/

/-- The next packet of the stream; `seq_++`. -/
def emit (handler : RTPHandler) (timestamp : BitVec 32) (payload : Bytes) :
    RTPHandler × RtpPacket :=
  ({ handler with seq := handler.seq + 1 },
    { payloadType := handler.payloadType, ssrc := handler.ssrc, timestamp,
      sequenceNumber := handler.seq, payload })

def emitAll (handler : RTPHandler) (timestamp : BitVec 32) :
    List Bytes → RTPHandler × List RtpPacket
  | [] => (handler, [])
  | payload :: rest =>
      let (afterOne, packet) := handler.emit timestamp payload
      let (afterAll, packets) := emitAll afterOne timestamp rest
      (afterAll, packet :: packets)

/-- The marker bit marks the last packet of the access unit. -/
def markLast : List RtpPacket → List RtpPacket
  | [] => []
  | [packet] => [{ packet with marker := true }]
  | packet :: next :: rest => packet :: markLast (next :: rest)

def packetizeOpus (handler : RTPHandler) (frame : EncodedFrame) :
    RTPHandler × Except Fault (List RtpPacket) :=
  let (handler, packet) := handler.emit frame.rtpTimestamp frame.payload
  (handler, .ok [{ packet with marker := true }])

def packetizeH264 (handler : RTPHandler) (frame : EncodedFrame) :
    RTPHandler × Except Fault (List RtpPacket) :=
  match nalUnits frame.payload with
  | .error fault => (handler, .error fault)
  | .ok nals =>
      if nals.isEmpty then (handler, .error (.error .protocol))
      else
        let (handler, packets) := handler.emitAll frame.rtpTimestamp
          (nals.flatMap (nalPayloads handler.maxPayload))
        if packets.isEmpty then (handler, .error (.error .protocol))
        else (handler, .ok (markLast packets))

def packetize (handler : RTPHandler) (frame : EncodedFrame) :
    RTPHandler × Except Fault (List RtpPacket) :=
  if frame.payload.isEmpty then (handler, .error (.error .invalidArgument))
  else
    match frame.kind with
    | .video =>
        if frame.videoCodec ≠ .h264 then (handler, .error (.error .unsupported))
        else handler.packetizeH264 frame
    | .audio =>
        if frame.audioCodec ≠ .opus then (handler, .error (.error .unsupported))
        else handler.packetizeOpus frame

/-- The packets of successive frames, when each of them can be packetized. -/
def packetizeAll (handler : RTPHandler) : List EncodedFrame → Except Fault (List (List RtpPacket))
  | [] => return []
  | frame :: rest =>
      match handler.packetize frame with
      | (_, .error fault) => .error fault
      | (handler, .ok packets) => do
          let later ← packetizeAll handler rest
          return packets :: later

/-! ## Depacketizing -/

/-- What `depacketize` carries from packet to packet. -/
structure Reassembly where
  out : Bytes := []
  fuAccum : Bytes := []
  inFu : Bool := false
  fuNalHeader : Byte := 0
  sawKeyframe : Bool := false
  deriving DecidableEq, Repr

namespace Reassembly

/-- An IDR slice, or the parameter sets bundled with one, mark a keyframe. -/
def recordType (state : Reassembly) (nalType : Byte) : Reassembly :=
  if nalType = 5 ∨ nalType = 7 ∨ nalType = 8 then { state with sawKeyframe := true } else state

/-- Opens a fragmented NAL unit, with its header rebuilt from both header bytes. -/
def openFu (state : Reassembly) (indicator header : Byte) : Reassembly :=
  let nalHeader := (indicator &&& 0xE0) ||| (header &&& kNalTypeMask)
  { state with inFu := true, fuAccum := [nalHeader], fuNalHeader := nalHeader }

def closeFu (state : Reassembly) : Reassembly :=
  let state := state.recordType (state.fuNalHeader &&& kNalTypeMask)
  { state with out := state.out ++ kStartCode ++ state.fuAccum, inFu := false, fuAccum := [] }

def addFragment (state : Reassembly) (payload : Bytes) : Except Fault Reassembly :=
  if payload.length < 2 then .error (.error .protocol)
  else do
    let indicator ← byteAt payload 0
    let header ← byteAt payload 1
    let body ← slice payload 2 payload.length
    let start := header &&& kFuStart != 0
    let final := header &&& kFuEnd != 0
    let state ←
      if start then
        if state.inFu then .error (.error .protocol) else .ok (state.openFu indicator header)
      else if !state.inFu then .error (.error .protocol)
      else .ok state
    let state := { state with fuAccum := state.fuAccum ++ body }
    if final then
      if !state.inFu then .error (.error .protocol) else return state.closeFu
    else return state

def addPayload (state : Reassembly) (payload : Bytes) : Except Fault Reassembly :=
  if payload.isEmpty then .error (.error .protocol)
  else do
    let type := (← byteAt payload 0) &&& kNalTypeMask
    if type = kNalFuA then state.addFragment payload
    else if state.inFu then .error (.error .protocol)
    else
      let state := state.recordType type
      return { state with out := state.out ++ kStartCode ++ payload }

def addAll (state : Reassembly) : List Bytes → Except Fault Reassembly
  | [] => return state
  | payload :: rest => do
      let state ← state.addPayload payload
      state.addAll rest

end Reassembly

def depacketize (packets : List RtpPacket) (kind : MediaKind) (videoCodec : VideoCodec := .h264)
    (audioCodec : AudioCodec := .opus) : Except Fault EncodedFrame :=
  match packets with
  | [] => .error (.error .invalidArgument)
  | front :: _ =>
      match kind with
      | .audio => return { kind, rtpTimestamp := front.timestamp, audioCodec,
                           payload := front.payload }
      | .video => do
          let state ← ({} : Reassembly).addAll (packets.map RtpPacket.payload)
          if state.inFu then .error (.error .protocol)
          else return { kind, rtpTimestamp := front.timestamp, videoCodec,
                        keyframe := state.sawKeyframe, payload := state.out }

end RTPHandler

end Vela
