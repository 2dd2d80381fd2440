import Vela.Foundation.Machine
import Vela.Foundation.Parts
import Vela.Foundation.Segments
import Vela.Signaling.MalformedFrames
import Vela.Signaling.Messages
import Vela.Signaling.WebSocketFrames

/-! # The receive loop

The loop of the receive thread, pass by pass, over what arrives at the socket. It
tells of the frames in the stream and nothing else, however the stream is cut into
segments, and at its end that the connection is closed. -/

namespace Vela.SignalingClient

open Foundation Octets

/-! ## Reading from segments -/

section Reading

/-- Two reads that get the same and leave the same. -/
def SameRead {Source Other Value : Type} (view : Source → Other)
    (read : Except ReadFailure (Value × Source)) (other : Except ReadFailure (Value × Other)) :
    Prop :=
  read.map (fun (value, left) => (value, view left)) = other

variable {Source Other Value Next : Type} {view : Source → Other} {read : ReadExact Source}
  {other : ReadExact Other}

theorem SameRead.bind {first : Except ReadFailure (Value × Source)}
    {firstOther : Except ReadFailure (Value × Other)} (same : SameRead view first firstOther)
    {next : Value × Source → Except ReadFailure (Next × Source)}
    {nextOther : Value × Other → Except ReadFailure (Next × Other)}
    (sameNext : ∀ value left, SameRead view (next (value, left)) (nextOther (value, view left))) :
    SameRead view (first >>= next) (firstOther >>= nextOther) := by
  rw [SameRead] at same
  rw [← same]
  cases first with
  | error failure => rfl
  | ok result => exact sameNext result.1 result.2

/-- A frame is the same over any source that hands out the same bytes. -/
theorem sameRead_readFrame
    (follows : ∀ n source, SameRead view (read n source) (other n (view source)))
    (limit : BitVec 64) (source : Source) :
    SameRead view (readFrame read limit source) (readFrame other limit (view source)) := by
  have length : ∀ code source, SameRead view (readLength read code source)
      (readLength other code (view source)) := by
    intro code source
    rw [readLength, readLength]
    dsimp only
    split
    · exact (follows 2 source).bind fun _ _ => rfl
    · split
      · exact (follows 8 source).bind fun _ _ => rfl
      · rfl
  have mask : ∀ masked source, SameRead view (readMask read masked source)
      (readMask other masked (view source)) := by
    intro masked source
    cases masked with
    | false => rfl
    | true => exact follows 4 source
  have payload : ∀ len source, SameRead view (readPayload read limit len source)
      (readPayload other limit len (view source)) := by
    intro len source
    rw [readPayload, readPayload]
    split
    · rfl
    · split
      · exact (follows len.toNat source).bind fun _ _ => rfl
      · rfl
  exact (follows 2 source).bind fun hdr source => (length hdr[1] source).bind fun len source =>
    (mask _ source).bind fun _ source => (payload len source).bind fun _ _ => rfl

/-- `readExact` as the loop around `recv` that it is. -/
def readExactFrom : ReadExact (List (Segment Byte)) := fun n segments =>
  match received : Segment.receive n segments with
  | none => .error .ended
  | some (items, left) => .ok (⟨items.toArray, Segment.length_receive received⟩, left)

theorem sameRead_readExactFrom (n : Nat) (segments : List (Segment Byte)) :
    SameRead Segment.join (readExactFrom n segments) (readExact n (Segment.join segments)) := by
  have got := Segment.receive_eq n segments
  rw [SameRead, readExactFrom, readExact]
  split
  · rename_i received
    rw [received] at got
    split at got
    · cases got
    · rename_i tooFew
      rw [dif_neg tooFew]
      rfl
  · rename_i items left received
    rw [received] at got
    split at got
    · rename_i enough
      simp only [Option.map_some, Option.some.injEq, Prod.mk.injEq] at got
      rw [dif_pos enough]
      simp only [Except.map, Except.ok.injEq, Prod.mk.injEq, Vector.mk.injEq]
      exact ⟨congrArg List.toArray got.1, got.2⟩
    · cases got

/-- A pass reads from the socket what it would read from the stream. -/
theorem readFrame_segments (limit : BitVec 64) (segments : List (Segment Byte)) :
    SameRead Segment.join (readFrame readExactFrom limit segments)
      (readFrame readExact limit (Segment.join segments)) :=
  sameRead_readFrame sameRead_readExactFrom limit segments

end Reading

/-! ## Passes of the loop -/

/-- Where the receive thread is. A pass reads a frame and then handles it, so that
the client can be stopped in between. -/
inductive Phase where
  | atTop
  | handling (frame : WireFrame)
  | leaving
  | left
  /-- An exception left the thread, which ends the process. -/
  | thrown
  deriving DecidableEq, Repr

structure RecvLoop where
  client : SignalingClient
  segments : List (Segment Byte)
  phase : Phase

/-- What a frame makes the loop do: where it goes on, and what it tells. -/
def handle (parse : Bytes → Option Document) (client : SignalingClient) (frame : WireFrame) :
    SignalingClient × Phase × List Notification :=
  if frame.opcode = 0x8 then (client, .leaving, [])
  else if frame.opcode = 0x9 then (client, .atTop, [])
  else if frame.opcode = 0xA then (client, .atTop, [])
  else if !frame.fin then
    (client, .leaving, client.reportError .protocol "unexpected fragmented frame")
  else if frame.opcode ≠ 0x1 then (client, .atTop, [])
  else
    match client.dispatch parse frame.payload with
    | .ok (client, notices) => (client, .atTop, notices)
    | .error _ => (client, .thrown, [])

inductive LoopEvent where
  | proceed
  /-- Another thread, or a callback, disconnects. -/
  | stop
  deriving DecidableEq, Repr

/-- A payload beyond `limit` throws out of the thread. -/
def proceed (limit : BitVec 64) (parse : Bytes → Option Document) (loop : RecvLoop) :
    RecvLoop × List Notification :=
  match loop.phase with
  | .atTop =>
      if loop.client.stopping then ({ loop with phase := .leaving }, [])
      else
        match readFrame readExactFrom limit loop.segments with
        | .error .ended => ({ loop with phase := .leaving }, [])
        | .error .tooLong => ({ loop with phase := .thrown }, [])
        | .ok (frame, segments) => ({ loop with segments, phase := .handling frame }, [])
  | .handling frame =>
      let (client, phase, notices) := handle parse loop.client frame
      ({ loop with client, phase }, notices)
  | .leaving =>
      ({ loop with phase := .left }, loop.client.reportError .networkError "connection closed")
  | .left => (loop, [])
  | .thrown => (loop, [])

def loopStep (limit : BitVec 64) (parse : Bytes → Option Document) (loop : RecvLoop) :
    LoopEvent → RecvLoop × List Notification
  | .proceed => proceed limit parse loop
  | .stop => ({ loop with client := { loop.client with stopping := true } }, [])

/-- The receive thread of a client whose socket delivers `segments`. -/
def recvLoop (limit : BitVec 64) (parse : Bytes → Option Document) (client : SignalingClient)
    (segments : List (Segment Byte)) : Machine RecvLoop LoopEvent (List Notification) where
  initial := { client, segments, phase := .atTop }
  step := loopStep limit parse

/-! ## What the stream says -/

/-- The frames at the beginning of a stream, and why there are no more. -/
def framesWithin (limit : BitVec 64) : Nat → Bytes → List WireFrame × ReadFailure
  | 0, _ => ([], .ended)
  | bound + 1, stream =>
      match readFrame readExact limit stream with
      | .error failure => ([], failure)
      | .ok (frame, rest) =>
          let (frames, failure) := framesWithin limit bound rest
          (frame :: frames, failure)

/-- The frames of a stream. Each takes two bytes at least. -/
def framesOf (limit : BitVec 64) (stream : Bytes) : List WireFrame × ReadFailure :=
  framesWithin limit stream.length stream

/-- What a client tells of frames, to the end of the connection or of the thread. -/
def script (parse : Bytes → Option Document) (failure : ReadFailure) :
    SignalingClient → List WireFrame → List Notification
  | client, [] =>
      match failure with
      | .ended => client.reportError .networkError "connection closed"
      | .tooLong => []
  | client, frame :: rest =>
      match handle parse client frame with
      | (client, .atTop, notices) => notices ++ script parse failure client rest
      | (client, .leaving, notices) =>
          notices ++ client.reportError .networkError "connection closed"
      | (_, _, notices) => notices

/-! ## Frames take bytes -/

theorem readExact_rest {n : Nat} {stream rest : Bytes} {bytes : Vector Byte n}
    (got : readExact n stream = .ok (bytes, rest)) : rest.length + n = stream.length := by
  rw [readExact] at got
  split at got
  · simp only [Except.ok.injEq, Prod.mk.injEq] at got
    rw [← got.2, List.length_drop]
    omega
  · cases got

theorem readFrame_rest {limit : BitVec 64} {stream rest : Bytes} {frame : WireFrame}
    (got : readFrame readExact limit stream = .ok (frame, rest)) : rest.length < stream.length := by
  rcases bind_eq_ok.mp got with ⟨⟨hdr, afterHeader⟩, header, got⟩
  rcases bind_eq_ok.mp got with ⟨⟨len, afterLength⟩, length, got⟩
  rcases bind_eq_ok.mp got with ⟨⟨mask, afterMask⟩, masked, got⟩
  rcases bind_eq_ok.mp got with ⟨⟨payload, afterPayload⟩, carried, got⟩
  cases got
  have two := readExact_rest header
  have lengthRest : afterLength.length ≤ afterHeader.length := by
    rw [readLength] at length
    dsimp only at length
    split at length
    · rcases bind_eq_ok.mp length with ⟨⟨ext, after⟩, extended, same⟩
      cases same
      have read := readExact_rest extended
      dsimp only
      omega
    · split at length
      · rcases bind_eq_ok.mp length with ⟨⟨ext, after⟩, extended, same⟩
        cases same
        have read := readExact_rest extended
        dsimp only
        omega
      · cases length
        exact Nat.le_refl _
  have maskRest : afterMask.length ≤ afterLength.length := by
    rw [readMask] at masked
    split at masked
    · have read := readExact_rest masked
      omega
    · cases masked
      exact Nat.le_refl _
  have payloadRest : rest.length ≤ afterMask.length := by
    rw [readPayload] at carried
    split at carried
    · cases carried
    · split at carried
      · rcases bind_eq_ok.mp carried with ⟨⟨bytes, after⟩, read, same⟩
        cases same
        have bounded := readExact_rest read
        omega
      · cases carried
        exact Nat.le_refl _
  omega

theorem framesWithin_congr {limit : BitVec 64} {bound other : Nat} {stream : Bytes}
    (enough : stream.length ≤ bound) (enoughToo : stream.length ≤ other) :
    framesWithin limit bound stream = framesWithin limit other stream := by
  induction bound generalizing stream other with
  | zero =>
      rw [List.eq_nil_of_length_eq_zero (Nat.le_zero.mp enough)]
      cases other <;> rfl
  | succ bound induction =>
      cases other with
      | zero =>
          rw [List.eq_nil_of_length_eq_zero (Nat.le_zero.mp enoughToo)]
          rfl
      | succ other =>
          rw [framesWithin, framesWithin]
          cases read : readFrame readExact limit stream with
          | error failure => rfl
          | ok result =>
              have shorter := readFrame_rest read
              dsimp only
              rw [@induction other _ (by omega) (by omega)]

theorem framesOf_eq (limit : BitVec 64) (stream : Bytes) :
    framesOf limit stream =
      match readFrame readExact limit stream with
      | .error failure => ([], failure)
      | .ok (frame, rest) => (frame :: (framesOf limit rest).1, (framesOf limit rest).2) := by
  rw [framesOf, framesWithin_congr (Nat.le_refl _) (Nat.le_succ stream.length), framesWithin]
  cases read : readFrame readExact limit stream with
  | error failure => rfl
  | ok result =>
      dsimp only
      rw [framesWithin_congr (Nat.le_of_lt (readFrame_rest read)) (Nat.le_refl _), framesOf]

/-! ## A client that is stopped meanwhile -/

/-- The client as if it had not been stopped. -/
def awake (client : SignalingClient) : SignalingClient := { client with stopping := false }

theorem awake_of_running {client : SignalingClient} (running : client.stopping = false) :
    client.awake = client := by
  rcases client with ⟨callbacks, selfId, stopping⟩
  cases running
  rfl

theorem reportError_awake (client : SignalingClient) (error : Error) (detail : String) :
    client.reportError error detail <+: client.awake.reportError error detail := by
  rw [reportError, reportError]
  split
  · rename_i reported
    rw [if_pos ⟨reported.1, Bool.false_ne_true⟩]
  · exact List.nil_prefix

theorem reportError_stopping {client : SignalingClient} (stopping : client.stopping = true)
    (error : Error) (detail : String) : client.reportError error detail = [] := by
  rw [reportError, if_neg (fun reported => reported.2 stopping)]

/-- A dispatch that returns changes the client's own id alone, and tells what the
client would be told if it were not stopping, or less. -/
def DispatchesLike
    (outcome awakeOutcome : Except JsonException (SignalingClient × List Notification))
    (client : SignalingClient) : Prop :=
  ∀ after notices, outcome = .ok (after, notices) →
    (∃ id, after = { client with selfId := id }) ∧
      ∃ more, awakeOutcome = .ok (after.awake, more) ∧ notices <+: more

section Like

variable {client : SignalingClient}

theorem like_ok (id : PeerId) {notices more : List Notification} (fewer : notices <+: more) :
    DispatchesLike (.ok ({ client with selfId := id }, notices))
      (.ok ({ client.awake with selfId := id }, more)) client := by
  intro after told same
  cases same
  exact ⟨⟨id, rfl⟩, more, rfl, fewer⟩

theorem like_bind {Value : Type} (first : Except JsonException Value)
    {next awakeNext : Value → Except JsonException (SignalingClient × List Notification)}
    (like : ∀ value, DispatchesLike (next value) (awakeNext value) client) :
    DispatchesLike (first >>= next) (first >>= awakeNext) client := by
  cases first with
  | error exception => exact fun _ _ returned => nomatch returned
  | ok value => exact like value

theorem like_ite {condition : Prop} [Decidable condition]
    {yes no awakeYes awakeNo : Except JsonException (SignalingClient × List Notification)}
    (likeYes : DispatchesLike yes awakeYes client) (likeNo : DispatchesLike no awakeNo client) :
    DispatchesLike (if condition then yes else no) (if condition then awakeYes else awakeNo)
      client := by
  split
  · exact likeYes
  · exact likeNo

theorem dispatchesLike_object (client : SignalingClient) (fields : Fields) :
    DispatchesLike (client.dispatchObject fields) (client.awake.dispatchObject fields) client := by
  have whole := fun notices : List Notification => List.prefix_refl notices
  have same : ∀ notices : List Notification, DispatchesLike (.ok (client, notices))
      (.ok (client.awake, notices)) client := fun notices => like_ok client.selfId (whole notices)
  apply like_bind
  intro type
  apply like_bind
  intro sender
  apply like_ite
  · apply like_bind
    intro self
    apply like_ite
    · split
      · exact like_bind _ fun peers => like_ok self (whole _)
      · exact like_ok self (whole _)
    · exact like_ok self (whole _)
  · exact like_ite (same _) <| like_ite (same _) <| like_ite (like_bind _ same) <|
      like_ite (like_bind _ same) <| like_ite (like_bind _ same) <|
        like_ite
          (like_bind _ fun reason => like_ok client.selfId (client.reportError_awake _ reason))
          (same [])

end Like

theorem dispatchesLike (parse : Bytes → Option Document) (client : SignalingClient)
    (payload : Bytes) :
    DispatchesLike (client.dispatch parse payload) (client.awake.dispatch parse payload)
      client := by
  rw [dispatch, dispatch]
  split
  · exact dispatchesLike_object client _
  · exact like_ok client.selfId (client.reportError_awake _ _)

theorem handle_like {parse : Bytes → Option Document} {client : SignalingClient} {frame : WireFrame}
    (accepted : frame.opcode = 0x1 → Accepts parse client frame.payload) :
    ∃ id phase notices more,
      handle parse client frame = ({ client with selfId := id }, phase, notices) ∧
      handle parse client.awake frame = ({ client.awake with selfId := id }, phase, more) ∧
      notices <+: more ∧ (phase = .atTop ∨ phase = .leaving) := by
  rw [handle, handle]
  by_cases close : frame.opcode = 0x8
  · rw [if_pos close, if_pos close]
    exact ⟨client.selfId, _, _, _, rfl, rfl, List.prefix_refl _, .inr rfl⟩
  rw [if_neg close, if_neg close]
  by_cases ping : frame.opcode = 0x9
  · rw [if_pos ping, if_pos ping]
    exact ⟨client.selfId, _, _, _, rfl, rfl, List.prefix_refl _, .inl rfl⟩
  rw [if_neg ping, if_neg ping]
  by_cases pong : frame.opcode = 0xA
  · rw [if_pos pong, if_pos pong]
    exact ⟨client.selfId, _, _, _, rfl, rfl, List.prefix_refl _, .inl rfl⟩
  rw [if_neg pong, if_neg pong]
  by_cases fragment : (!frame.fin) = true
  · rw [if_pos fragment, if_pos fragment]
    exact ⟨client.selfId, _, _, _, rfl, rfl, client.reportError_awake _ _, .inr rfl⟩
  rw [if_neg fragment, if_neg fragment]
  by_cases binary : frame.opcode ≠ 0x1
  · rw [if_pos binary, if_pos binary]
    exact ⟨client.selfId, _, _, _, rfl, rfl, List.prefix_refl _, .inl rfl⟩
  rw [if_neg binary, if_neg binary]
  rcases dispatch_ok_iff.mpr (accepted (not_not.mp binary)) with ⟨⟨after, notices⟩, returned⟩
  rcases dispatchesLike parse client frame.payload after notices returned with
    ⟨⟨id, isAfter⟩, more, awakeReturned, fewer⟩
  rw [returned, awakeReturned, isAfter]
  exact ⟨id, _, _, _, rfl, rfl, fewer, .inl rfl⟩

/-! ## Runs of the loop -/

/-- The frames that a loop still comes to. -/
def RecvLoop.pending (limit : BitVec 64) (loop : RecvLoop) : List WireFrame × ReadFailure :=
  let ahead := framesOf limit (Segment.join loop.segments)
  match loop.phase with
  | .atTop => ahead
  | .handling frame => (frame :: ahead.1, ahead.2)
  | _ => ([], ahead.2)

/-- What a loop still tells if it is not stopped. -/
def RecvLoop.owed (limit : BitVec 64) (parse : Bytes → Option Document) (loop : RecvLoop) :
    List Notification :=
  match loop.phase with
  | .atTop => script parse (loop.pending limit).2 loop.client.awake (loop.pending limit).1
  | .handling _ => script parse (loop.pending limit).2 loop.client.awake (loop.pending limit).1
  | .leaving => loop.client.awake.reportError .networkError "connection closed"
  | .left => []
  | .thrown => []

/-- What has been told, and what is to come. A loop that was stopped tells no more
than the frame at hand, and a loop throws where the stream announces too much. -/
structure Telling (limit : BitVec 64) (parse : Bytes → Option Document) (client : SignalingClient)
    (failure : ReadFailure) (told made : List Notification) (loop : RecvLoop) : Prop where
  callbacks : loop.client.callbacks = client.callbacks
  accepted : ∀ frame ∈ (loop.pending limit).1, frame.opcode = 0x1 →
    Accepts parse client frame.payload
  ending : (framesOf limit (Segment.join loop.segments)).2 = failure
  going : loop.phase = .thrown → failure = .tooLong
  isPrefix : made <+: told
  whole : (loop.client.stopping = true → ∃ frame, loop.phase = .handling frame) →
    made ++ loop.owed limit parse = told

section Run

variable {limit : BitVec 64} {parse : Bytes → Option Document} {client : SignalingClient}
  {failure : ReadFailure} {told made : List Notification} {loop : RecvLoop}

theorem accepts_congr {other : SignalingClient} (same : other.callbacks = client.callbacks)
    {payload : Bytes} (accepts : Accepts parse client payload) : Accepts parse other payload := by
  intro fields parsed
  have readable := accepts fields parsed
  rw [FieldsReadable, ← same] at readable
  exact readable

theorem Telling.stop (telling : Telling limit parse client failure told made loop) :
    Telling limit parse client failure told made
      { loop with client := { loop.client with stopping := true } } where
  callbacks := telling.callbacks
  accepted := telling.accepted
  ending := telling.ending
  going := telling.going
  isPrefix := telling.isPrefix
  whole := fun handling => telling.whole fun _ => handling rfl

theorem running_of_not_handling {stopping : Bool} {phase : Phase}
    (notHandling : ∀ frame, phase ≠ .handling frame)
    (handling : stopping = true → ∃ frame, phase = .handling frame) : stopping = false := by
  cases stopping with
  | false => rfl
  | true =>
      rcases handling rfl with ⟨frame, same⟩
      exact absurd same (notHandling frame)

theorem pending_atTop (atTop : loop.phase = .atTop) :
    loop.pending limit = framesOf limit (Segment.join loop.segments) := by
  rw [RecvLoop.pending, atTop]

theorem pending_handling {frame : WireFrame} (handling : loop.phase = .handling frame) :
    loop.pending limit = (frame :: (framesOf limit (Segment.join loop.segments)).1,
      (framesOf limit (Segment.join loop.segments)).2) := by
  rw [RecvLoop.pending, handling]

/-- A loop on its way out owes its last word alone. -/
theorem Telling.toLeaving (telling : Telling limit parse client failure told made loop)
    (whole : loop.client.stopping = false →
      made ++ loop.client.reportError .networkError "connection closed" = told) :
    Telling limit parse client failure told made { loop with phase := .leaving } where
  callbacks := telling.callbacks
  accepted := fun _ member => nomatch member
  ending := telling.ending
  going := nofun
  isPrefix := telling.isPrefix
  whole := by
    intro handling
    have running := running_of_not_handling (by simp) handling
    rw [RecvLoop.owed, awake_of_running running]
    exact whole running

theorem Telling.read (telling : Telling limit parse client failure told made loop)
    (atTop : loop.phase = .atTop) :
    Telling limit parse client failure told (made ++ (proceed limit parse loop).2)
      (proceed limit parse loop).1 := by
  have ahead := framesOf_eq limit (Segment.join loop.segments)
  have read := readFrame_segments limit loop.segments
  rw [SameRead] at read
  rw [← read] at ahead
  have accepted := telling.accepted
  have ending := telling.ending
  rw [pending_atTop atTop] at accepted
  rw [proceed, atTop]
  dsimp only
  cases stopping : loop.client.stopping with
  | true =>
      rw [if_pos rfl, List.append_nil]
      exact telling.toLeaving fun running => by rw [running] at stopping; cases stopping
  | false =>
      have whole := telling.whole (by rw [stopping]; exact fun stopped => nomatch stopped)
      rw [RecvLoop.owed, atTop] at whole
      dsimp only at whole
      rw [pending_atTop atTop] at whole
      rw [if_neg Bool.false_ne_true]
      cases got : readFrame readExactFrom limit loop.segments with
      | error reason =>
          rw [got] at ahead
          dsimp only [Except.map] at ahead
          rw [ahead] at whole ending
          cases reason with
          | ended =>
              rw [List.append_nil]
              apply telling.toLeaving
              intro running
              rw [script, awake_of_running running] at whole
              exact whole
          | tooLong =>
              rw [List.append_nil]
              refine ⟨telling.callbacks, fun _ member => (nomatch member), telling.ending,
                fun _ => ending.symm, telling.isPrefix, fun _ => whole⟩
      | ok result =>
          rcases result with ⟨frame, segments⟩
          rw [got] at ahead
          dsimp only [Except.map] at ahead
          rw [ahead] at whole ending accepted
          rw [List.append_nil]
          exact ⟨telling.callbacks, accepted, ending, nofun, telling.isPrefix, fun _ => whole⟩

theorem Telling.handle (telling : Telling limit parse client failure told made loop)
    {frame : WireFrame} (handling : loop.phase = .handling frame) :
    Telling limit parse client failure told (made ++ (proceed limit parse loop).2)
      (proceed limit parse loop).1 := by
  have accepted := telling.accepted
  have whole := telling.whole fun _ => ⟨frame, handling⟩
  rw [pending_handling handling] at accepted
  rw [RecvLoop.owed, handling] at whole
  dsimp only at whole
  rcases handle_like fun isText => accepts_congr telling.callbacks
      (accepted frame List.mem_cons_self isText) with
    ⟨id, phase, notices, more, handled, awakeHandled, fewer, next⟩
  rw [pending_handling handling, script, awakeHandled] at whole
  rw [proceed, handling]
  dsimp only
  rw [handled]
  dsimp only
  have same : loop.client.stopping = false → notices = more := by
    intro running
    have both := handled
    rw [← awake_of_running running, awakeHandled, awake_of_running running] at both
    simp only [Prod.mk.injEq, true_and] at both
    exact both.symm
  rcases next with rfl | rfl
  · dsimp only at whole
    refine ⟨telling.callbacks, ?_, telling.ending, nofun, ?_, ?_⟩
    · intro other member
      exact accepted other (List.mem_cons_of_mem _ member)
    · rw [← whole]
      exact (List.prefix_append_right_inj made).mpr (fewer.trans (List.prefix_append _ _))
    · intro stillHandling
      have running := running_of_not_handling (by simp) stillHandling
      rw [List.append_assoc, ← whole, same running]
      rfl
  · dsimp only at whole
    refine ⟨telling.callbacks, fun _ member => (nomatch member), telling.ending, nofun, ?_, ?_⟩
    · rw [← whole]
      exact (List.prefix_append_right_inj made).mpr (fewer.trans (List.prefix_append _ _))
    · intro stillHandling
      have running := running_of_not_handling (by simp) stillHandling
      rw [List.append_assoc, ← whole, same running]
      rfl

theorem Telling.leave (telling : Telling limit parse client failure told made loop)
    (leaving : loop.phase = .leaving) :
    Telling limit parse client failure told (made ++ (proceed limit parse loop).2)
      (proceed limit parse loop).1 := by
  rw [proceed, leaving]
  dsimp only
  cases stopping : loop.client.stopping with
  | true =>
      rw [reportError_stopping stopping, List.append_nil]
      refine ⟨telling.callbacks, fun _ member => (nomatch member), telling.ending, nofun,
        telling.isPrefix, ?_⟩
      intro handling
      rcases handling stopping with ⟨frame, same⟩
      cases same
  | false =>
      have whole := telling.whole (by rw [stopping]; exact fun stopped => nomatch stopped)
      rw [RecvLoop.owed, leaving] at whole
      dsimp only at whole
      rw [awake_of_running stopping] at whole
      refine ⟨telling.callbacks, fun _ member => (nomatch member), telling.ending, nofun, ?_,
        fun _ => ?_⟩
      · rw [whole]
      · rw [whole]
        exact List.append_nil _

theorem Telling.step (telling : Telling limit parse client failure told made loop)
    (event : LoopEvent) :
    Telling limit parse client failure told (made ++ (loopStep limit parse loop event).2)
      (loopStep limit parse loop event).1 := by
  cases event with
  | stop =>
      rw [loopStep, List.append_nil]
      exact telling.stop
  | proceed =>
      rw [loopStep]
      cases phase : loop.phase with
      | atTop => exact telling.read phase
      | handling frame => exact telling.handle phase
      | leaving => exact telling.leave phase
      | left =>
          rw [proceed, phase]
          dsimp only
          rw [List.append_nil]
          exact telling
      | thrown =>
          rw [proceed, phase]
          dsimp only
          rw [List.append_nil]
          exact telling

theorem Telling.stopping (telling : Telling limit parse client failure told made loop) :
    (proceed limit parse loop).1.client.stopping = loop.client.stopping := by
  rw [proceed]
  cases phase : loop.phase with
  | atTop =>
      dsimp only
      split
      · rfl
      · split <;> rfl
  | handling frame =>
      have accepted := telling.accepted frame (by
        rw [pending_handling phase]
        exact List.mem_cons_self)
      rcases handle_like fun isText => accepts_congr telling.callbacks (accepted isText) with
        ⟨id, after, notices, more, handled, _⟩
      dsimp only
      rw [handled]
  | _ => rfl

/-! ## To the end -/

/-- The loop leaves, or throws, after some passes. -/
def Finishes (limit : BitVec 64) (parse : Bytes → Option Document) (loop : RecvLoop) : Prop :=
  ∃ count,
    let last := (List.replicate count LoopEvent.proceed).foldl
      (fun loop event => (loopStep limit parse loop event).1) loop
    last.phase = .left ∨ last.phase = .thrown

theorem Finishes.before (finishes : Finishes limit parse (proceed limit parse loop).1) :
    Finishes limit parse loop := by
  rcases finishes with ⟨count, ends⟩
  exact ⟨count + 1, ends⟩

theorem finishes_leaving (leaving : loop.phase = .leaving) : Finishes limit parse loop := by
  refine ⟨1, .inl ?_⟩
  simp only [List.replicate, List.foldl, loopStep, proceed, leaving]

/-- The induction is on the frames that are left. -/
theorem finishes_atTop {frames : List WireFrame} (atTop : loop.phase = .atTop)
    (isAhead : (framesOf limit (Segment.join loop.segments)).1 = frames)
    (accepted : ∀ frame ∈ frames, frame.opcode = 0x1 → Accepts parse loop.client frame.payload) :
    Finishes limit parse loop := by
  induction frames generalizing loop with
  | nil =>
      apply Finishes.before
      rw [proceed, atTop]
      dsimp only
      split
      · exact finishes_leaving rfl
      · have read := readFrame_segments limit loop.segments
        rw [SameRead] at read
        rw [framesOf_eq, ← read] at isAhead
        cases got : readFrame readExactFrom limit loop.segments with
        | error reason =>
            cases reason with
            | ended => exact finishes_leaving rfl
            | tooLong => exact ⟨0, .inr rfl⟩
        | ok result =>
            rw [got] at isAhead
            cases isAhead
  | cons frame rest induction =>
      have read := readFrame_segments limit loop.segments
      rw [SameRead] at read
      rw [framesOf_eq, ← read] at isAhead
      apply Finishes.before
      rw [proceed, atTop]
      dsimp only
      split
      · exact finishes_leaving rfl
      · cases got : readFrame readExactFrom limit loop.segments with
        | error reason =>
            rw [got] at isAhead
            cases isAhead
        | ok result =>
            rw [got] at isAhead
            simp only [Except.map, List.cons.injEq] at isAhead
            rcases isAhead with ⟨rfl, remaining⟩
            rcases handle_like (accepted result.1 List.mem_cons_self) with
              ⟨id, phase, notices, more, handled, _, _, next⟩
            apply Finishes.before
            simp only [proceed, handled]
            rcases next with rfl | rfl
            · refine induction rfl ?_ ?_
              · exact remaining
              · intro other member isText
                exact accepted other (List.mem_cons_of_mem _ member) isText
            · exact finishes_leaving rfl

theorem Telling.finishes (telling : Telling limit parse client failure told made loop) :
    Finishes limit parse loop := by
  have accepted : ∀ frame ∈ (loop.pending limit).1, frame.opcode = 0x1 →
      Accepts parse loop.client frame.payload := fun frame member isText =>
    accepts_congr telling.callbacks (telling.accepted frame member isText)
  cases phase : loop.phase with
  | atTop =>
      rw [pending_atTop phase] at accepted
      exact finishes_atTop phase rfl accepted
  | handling frame =>
      rw [pending_handling phase] at accepted
      rcases handle_like (accepted frame List.mem_cons_self) with
        ⟨id, after, notices, more, handled, _, _, next⟩
      apply Finishes.before
      simp only [proceed, phase, handled]
      rcases next with rfl | rfl
      · apply finishes_atTop rfl rfl
        intro other member isText
        exact accepted other (List.mem_cons_of_mem _ member) isText
      · exact finishes_leaving rfl
  | leaving => exact finishes_leaving phase
  | left => exact ⟨0, .inl phase⟩
  | thrown => exact ⟨0, .inr phase⟩

end Run

/-! ## What a client hears over its socket -/

/-- The bytes are one final text frame, wherever they stand in a stream. -/
def EncodesText (limit : BitVec 64) (text encoding : Bytes) : Prop :=
  ∀ rest, readFrame readExact limit (encoding ++ rest) =
    .ok ({ fin := true, opcode := 0x1, payload := text }, rest)

theorem framesOf_encodings {limit : BitVec 64} {texts encodings : List Bytes}
    (encoded : List.Forall₂ (EncodesText limit) texts encodings) :
    framesOf limit encodings.flatten =
      (texts.map fun text => { fin := true, opcode := 0x1, payload := text }, .ended) := by
  induction encoded with
  | nil => rfl
  | cons first _ induction =>
      rw [List.flatten_cons, framesOf_eq, first]
      dsimp only
      rw [induction, List.map_cons]

theorem script_texts {parse : Bytes → Option Document} {client : SignalingClient}
    {texts : List Bytes} (accepted : ∀ text ∈ texts, Accepts parse client text) :
    ∃ after notices, receiveAll parse client texts = .ok (after, notices) ∧
      script parse .ended client
          (texts.map fun text => { fin := true, opcode := 0x1, payload := text }) =
        notices ++ client.reportError .networkError "connection closed" := by
  induction texts generalizing client with
  | nil => exact ⟨client, [], rfl, rfl⟩
  | cons text rest induction =>
      rcases dispatch_ok_iff.mpr (accepted text List.mem_cons_self) with ⟨⟨after, now⟩, returned⟩
      rcases dispatchesLike parse client text after now returned with ⟨⟨id, rfl⟩, _⟩
      rcases @induction { client with selfId := id } fun other member =>
          accepts_congr rfl (accepted other (List.mem_cons_of_mem _ member)) with
        ⟨last, later, received, told⟩
      refine ⟨last, now ++ later, ?_, ?_⟩
      · rw [receiveAll, returned, ok_bind]
        dsimp only
        rw [received]
        rfl
      · have handled : handle parse client { fin := true, opcode := 0x1, payload := text } =
            ({ client with selfId := id }, .atTop, now) := by
          rw [handle]
          simp only [returned]
          rfl
        rw [List.map_cons, script, handled]
        dsimp only
        rw [told, List.append_assoc]
        rfl

/-- The receive thread of a client tells what the frames of its stream say, in
order, and at last that the connection is closed, however the stream is cut into
segments. It tells the beginning of that whenever the client is stopped, and tells it
all if the client is not stopped. On frames with the fields it expects it throws only
where the stream announces a payload that no string can take, and then has told what
came before. If the stream is texts in frames of their own, that is what the texts
say. -/
theorem recvLoop_tells_stream (limit : BitVec 64) (parse : Bytes → Option Document)
    {client : SignalingClient} (running : client.stopping = false) (segments : List (Segment Byte))
    (accepted : ∀ frame ∈ (framesOf limit (Segment.join segments)).1, frame.opcode = 0x1 →
      Accepts parse client frame.payload) :
    let loop := recvLoop limit parse client segments
    let ahead := framesOf limit (Segment.join segments)
    let told := script parse ahead.2 client ahead.1
    (∀ events, loop.produced events <+: told ∧ ((loop.run events).phase = .thrown →
      ahead.2 = .tooLong)) ∧
      (∀ events, .stop ∉ events → ∃ count,
        let all := events ++ List.replicate count .proceed
        ((loop.run all).phase = .left ∨ (loop.run all).phase = .thrown) ∧
          loop.produced all = told) ∧
      ∀ texts encodings, List.Forall₂ (EncodesText limit) texts encodings →
        Segment.join segments = encodings.flatten →
          ∃ after notices, receiveAll parse client texts = .ok (after, notices) ∧
            told = notices ++ client.reportError .networkError "connection closed" := by
  intro loop ahead told
  have telling : ∀ events, Telling limit parse client
      ahead.2 told (loop.produced events) (loop.run events) := by
    intro events
    induction events using List.reverseRecOn with
    | nil =>
        refine ⟨rfl, accepted, rfl, nofun, List.nil_prefix, fun _ => ?_⟩
        dsimp only [told]
        rw [← awake_of_running running]
        rfl
    | append_singleton past event induction =>
        rw [Machine.produced_snoc, Machine.run_snoc]
        exact induction.step event
  have neverStopped : ∀ events, LoopEvent.stop ∉ events →
      (loop.run events).client.stopping = false := by
    intro events noStop
    induction events using List.reverseRecOn with
    | nil => exact running
    | append_singleton past event induction =>
        rw [List.mem_append, not_or] at noStop
        rw [Machine.run_snoc]
        cases event with
        | stop => exact absurd (List.mem_singleton.mpr rfl) noStop.2
        | proceed => exact (telling past).stopping.trans (induction noStop.1)
  refine ⟨fun events => ⟨(telling events).isPrefix, (telling events).going⟩, ?_, ?_⟩
  · intro events noStop
    rcases (telling events).finishes with ⟨count, ends⟩
    have isOver : (loop.run (events ++ List.replicate count .proceed)).phase = .left ∨
        (loop.run (events ++ List.replicate count .proceed)).phase = .thrown := by
      rw [Machine.run_append]
      exact ends
    refine ⟨count, isOver, ?_⟩
    have stillRunning := neverStopped (events ++ List.replicate count .proceed) (by
      intro member
      rcases List.mem_append.mp member with before | after
      · exact noStop before
      · cases List.eq_of_mem_replicate after)
    have whole := (telling (events ++ List.replicate count .proceed)).whole (by
      rw [stillRunning]
      exact fun stopped => nomatch stopped)
    rcases isOver with left | thrown
    · rw [RecvLoop.owed, left, List.append_nil] at whole
      exact whole
    · rw [RecvLoop.owed, thrown, List.append_nil] at whole
      exact whole
  · intro texts encodings encoded isStream
    have frames := framesOf_encodings encoded
    rw [← isStream] at frames
    dsimp only [told, ahead]
    rw [frames] at accepted ⊢
    apply script_texts
    intro text member
    exact accepted _ (List.mem_map_of_mem member) rfl

/-- The text of one frame that a server sends. -/
def joinedParse (text : Bytes) : Option Document :=
  if text = [9] then (RoomManager.Frame.joined "room" 1 [4]).fields.map .object else none

/-- That frame and a close, in three segments. -/
def joinedSegments : List (Segment Byte) :=
  [⟨[0x81], by decide⟩, ⟨[0x01, 9, 0x88], by decide⟩, ⟨[0x00], by decide⟩]

theorem recvLoop_tells_joined :
    ∃ count, (recvLoop maxSize joinedParse allEars joinedSegments).produced
        (List.replicate count .proceed) =
      [.joined 1, .peerJoined 4, .error .networkError "connection closed"] := by
  have frames : framesOf maxSize (Segment.join joinedSegments) =
      ([⟨true, 0x1, [9]⟩, ⟨true, 0x8, []⟩], .ended) := by
    decide
  have heard := @recvLoop_tells_stream maxSize joinedParse allEars rfl joinedSegments (by
    rw [frames]
    intro frame member isText
    rcases List.mem_cons.mp member with rfl | isClose
    · exact dispatch_ok_iff.mp ⟨_, rfl⟩
    · rw [List.mem_singleton.mp isClose] at isText
      exact absurd isText (by decide))
  dsimp only at heard
  rw [frames] at heard
  rcases heard.2.1 [] (by decide) with ⟨count, _, told⟩
  exact ⟨count, told⟩

end Vela.SignalingClient
