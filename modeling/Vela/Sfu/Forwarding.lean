import Vela.Sfu.SFUServer

/-! # Exact forwarding

What the participants are owed is read off the calls and their statuses alone:
who is a member, and which packets the other members routed since. The server
delivers exactly that. -/

namespace Vela

open Foundation UnorderedMap

namespace SFUServer

variable {Sink : Type}

/-! ## Memberships and dues -/

/-- How one call changes a membership, which is the sink given on joining. -/
def membershipAfter (roomId : String) (participantId : ParticipantId)
    (membership : Option (Option Sink)) : Event Sink × SfuResponse Sink → Option (Option Sink)
  | (.addParticipant room id sink, response) =>
      if room = roomId ∧ id = participantId ∧ response.succeeded then some sink else membership
  | (.removeParticipant room id, _) =>
      if room = roomId ∧ id = participantId then none else membership
  | _ => membership

def membership (transcript : List (Event Sink × SfuResponse Sink)) (roomId : String)
    (participantId : ParticipantId) : Option (Option Sink) :=
  transcript.foldl (membershipAfter roomId participantId) none

/-- The packet a member is owed for one call: one routed in its room by another
id that is a member at that moment. -/
def dueFor (transcript : List (Event Sink × SfuResponse Sink)) (roomId : String)
    (participantId : ParticipantId) : Event Sink → List RtpPacket
  | .routePacket room senderId packet =>
      if room = roomId ∧ senderId ≠ participantId ∧ (membership transcript room senderId).isSome
      then [packet] else []
  | _ => []

/-- The packets a member is owed for the calls of `during`, made after `past`. -/
def due (hasKeyframeRequest : Bool) (roomId : String) (participantId : ParticipantId) :
    (past during : List (Event Sink)) → List RtpPacket
  | _, [] => []
  | past, event :: rest =>
      dueFor ((machine hasKeyframeRequest).transcript past) roomId participantId event ++
        due hasKeyframeRequest roomId participantId (past ++ [event]) rest

/-- The calls made on one participant's sink. -/
def callsTo (roomId : String) (participantId : ParticipantId) (response : SfuResponse Sink) :
    List (SinkCall Sink) :=
  response.sinkCalls.filter fun call => call.room = roomId ∧ call.receiver = participantId

/-- The calls made on one participant's sink by the calls of `during`. -/
def callsDuring (hasKeyframeRequest : Bool) (roomId : String) (participantId : ParticipantId)
    (past during : List (Event Sink)) : List (SinkCall Sink) :=
  ((machine hasKeyframeRequest).transcriptFrom ((machine hasKeyframeRequest).run past)
    during).flatMap fun step => callsTo roomId participantId step.2

/-- The sequence number of the last packet of a source. -/
def lastSeqOf (ssrc : BitVec 32) (packets : List RtpPacket) : Option (BitVec 16) :=
  ((packets.filter fun packet => packet.ssrc = ssrc).getLast?).map RtpPacket.sequenceNumber

theorem lastSeqOf_nil (ssrc : BitVec 32) : lastSeqOf ssrc [] = none := rfl

theorem lastSeqOf_append (ssrc : BitVec 32) (earlier later : List RtpPacket) :
    lastSeqOf ssrc (earlier ++ later) =
      (lastSeqOf ssrc later).or (lastSeqOf ssrc earlier) := by
  simp only [lastSeqOf, List.filter_append, List.getLast?_append]
  cases (later.filter fun packet => packet.ssrc = ssrc).getLast? <;> rfl

theorem due_snoc (hasKeyframeRequest : Bool) (roomId : String) (participantId : ParticipantId)
    (past during : List (Event Sink)) (event : Event Sink) :
    due hasKeyframeRequest roomId participantId past (during ++ [event]) =
      due hasKeyframeRequest roomId participantId past during ++
        dueFor ((machine hasKeyframeRequest).transcript (past ++ during)) roomId participantId
          event := by
  induction during generalizing past with
  | nil => simp [due]
  | cons first during induction => simp [due, induction]

theorem callsDuring_snoc (hasKeyframeRequest : Bool) (roomId : String)
    (participantId : ParticipantId) (past during : List (Event Sink)) (event : Event Sink) :
    callsDuring hasKeyframeRequest roomId participantId past (during ++ [event]) =
      callsDuring hasKeyframeRequest roomId participantId past during ++
        callsTo roomId participantId
          ((machine hasKeyframeRequest).output
            ((machine hasKeyframeRequest).run (past ++ during)) event) := by
  simp [callsDuring, Machine.transcriptFrom_append, Machine.transcriptFrom, Machine.run_append]

/-! ## One call -/

section Step

variable {hasKeyframeRequest : Bool} {server : SFUServer Sink} {roomId : String}
  {participantId : ParticipantId}

/-- The server's record of a member follows its membership. -/
theorem sink_after (event : Event Sink) :
    ((server.call event).1.egress roomId participantId).map Prod.fst =
      membershipAfter roomId participantId
        ((server.egress roomId participantId).map Prod.fst) (event, (server.call event).2) := by
  cases event with
  | addParticipant room id sink =>
      simp only [call, membershipAfter]
      rcases SfuResponse.status_cases (server.addParticipant room id sink).2 with
        ⟨status, succeeded⟩ | ⟨⟨error, status⟩, failed⟩
      · simp only [egress_addParticipant_ok status, succeeded, and_true, eq_comm]
        split <;> rfl
      · simp [egress_addParticipant_error status, failed]
  | removeParticipant room id =>
      simp only [call, membershipAfter, egress_removeParticipant, eq_comm]
      split <;> rfl
  | routePacket room senderId packet =>
      simp only [call, membershipAfter, egress_routePacket]
      split
      · rw [Option.map_map]
        rfl
      · rfl
  | onRemb room id bitrateBps => simp only [call, membershipAfter, egress_onRemb]
  | setAudioSsrc room id ssrc =>
      simp only [call, membershipAfter]
      rw [egress_modifyParticipant] <;> exact fun _ => rfl
  | setVideoSsrc room id ssrc =>
      simp only [call, membershipAfter]
      rw [egress_modifyParticipant] <;> exact fun _ => rfl

/-- Whoever is called is another member of the sender's room, on its own sink and
with the packet that was routed. -/
theorem call_is_due {event : Event Sink} {sinkCall : SinkCall Sink}
    (made : sinkCall ∈ (server.call event).2.sinkCalls) :
    ∃ senderId, event = .routePacket sinkCall.room senderId sinkCall.packet ∧
      senderId ≠ sinkCall.receiver ∧ (server.egress sinkCall.room senderId).isSome ∧
      (server.egress sinkCall.room sinkCall.receiver).map Prod.fst = some (some sinkCall.sink) := by
  cases event with
  | routePacket room senderId packet =>
      rcases sinkCall with ⟨calledRoom, receiver, calledSink, calledPacket⟩
      have inReceiver : ⟨calledRoom, receiver, calledSink, calledPacket⟩ ∈
          (server.routePacket room senderId packet).2.sinkCalls.filter
            (fun call => call.receiver = receiver) :=
        List.mem_filter.mpr ⟨made, decide_eq_true rfl⟩
      rw [calls_routePacket] at inReceiver
      split at inReceiver
      · rename_i due
        rcases List.mem_map.mp inReceiver with ⟨sink, isSink, equal⟩
        cases equal
        rcases Option.bind_eq_some_iff.mp (Option.mem_toList.mp isSink) with
          ⟨view, found, sinkEq⟩
        have sinkKnown : (server.egress room receiver).map Prod.fst = some (some calledSink) := by
          rw [found, Option.map_some, sinkEq]
        exact ⟨senderId, rfl, due.1.symm, due.2, sinkKnown⟩
      · cases inReceiver
  | addParticipant room id sink =>
      rw [call, sinkCalls_addParticipant] at made
      cases made
  | removeParticipant room id =>
      rw [call, sinkCalls_removeParticipant] at made
      cases made
  | onRemb room id bitrateBps => cases made
  | setAudioSsrc room id ssrc => cases made
  | setVideoSsrc room id ssrc => cases made

theorem callsTo_routePacket (room : String) (senderId : ParticipantId) (packet : RtpPacket) :
    callsTo roomId participantId (server.routePacket room senderId packet).2 =
      if room = roomId ∧ senderId ≠ participantId ∧ (server.egress room senderId).isSome then
        ((server.egress roomId participantId).bind Prod.fst).toList.map fun sink =>
          { room := roomId, receiver := participantId, sink, packet }
      else [] := by
  have inRoom : ∀ sinkCall ∈ (server.routePacket room senderId packet).2.sinkCalls,
      sinkCall.room = room := by
    intro sinkCall made
    have isCall : sinkCall ∈ (server.call (.routePacket room senderId packet)).2.sinkCalls := made
    rcases call_is_due isCall with ⟨_, sameEvent, _⟩
    cases sameEvent
    rfl
  by_cases same : room = roomId
  · subst same
    have byReceiver : callsTo room participantId (server.routePacket room senderId packet).2 =
        (server.routePacket room senderId packet).2.sinkCalls.filter
          (fun call => call.receiver = participantId) := by
      apply List.filter_congr
      intro sinkCall made
      simp [inRoom sinkCall made]
    rw [byReceiver, calls_routePacket]
    simp only [true_and, ne_comm]
  · rw [if_neg fun here => same here.1, callsTo, List.filter_eq_nil_iff]
    intro sinkCall made
    simp [inRoom sinkCall made, same]

theorem callsTo_of_no_calls {response : SfuResponse Sink} (silent : response.sinkCalls = []) :
    callsTo roomId participantId response = [] := by
  rw [callsTo, silent]
  rfl

/-- A routed packet reaches a member exactly if it is owed to it. -/
theorem member_routePacket {sink : Option Sink} {seqs : UnorderedMap (BitVec 32) (BitVec 16)}
    {transcript : List (Event Sink × SfuResponse Sink)}
    (recorded : ∀ room id, (server.egress room id).map Prod.fst = membership transcript room id)
    (isMember : server.egress roomId participantId = some (sink, seqs)) (room : String)
    (senderId : String) (packet : RtpPacket) :
    callsTo roomId participantId (server.call (.routePacket room senderId packet)).2 =
        (dueFor transcript roomId participantId (.routePacket room senderId packet)).flatMap
          (fun packet => sink.toList.map fun sink =>
            { room := roomId, receiver := participantId, sink, packet }) ∧
      ∃ seqs', (server.call (.routePacket room senderId packet)).1.egress roomId participantId =
          some (sink, seqs') ∧
        ∀ ssrc, seqs'.lookup ssrc =
          (lastSeqOf ssrc (dueFor transcript roomId participantId
            (.routePacket room senderId packet))).or (seqs.lookup ssrc) := by
  have senderKnown : (membership transcript room senderId).isSome =
      (server.egress room senderId).isSome := by
    rw [← recorded, Option.isSome_map]
  simp only [call, dueFor, senderKnown, callsTo_routePacket, egress_routePacket, isMember]
  by_cases owed : room = roomId ∧ senderId ≠ participantId ∧ (server.egress room senderId).isSome
  · rcases owed with ⟨rfl, notEcho, senderIn⟩
    refine ⟨?_, seqs.insert packet.ssrc packet.sequenceNumber, ?_, ?_⟩
    · simp [notEcho, senderIn]
    · simp [notEcho.symm, senderIn]
    · intro ssrc
      rw [lookup_insert_eq]
      simp only [notEcho, senderIn, ne_eq, not_false_eq_true, and_self, if_true, lastSeqOf]
      by_cases same : ssrc = packet.ssrc
      · simp [same]
      · simp [same, Ne.symm same]
  · have noUpdate : ¬ (roomId = room ∧ participantId ≠ senderId ∧
        (server.egress room senderId).isSome) := by
      intro update
      exact owed ⟨update.1.symm, update.2.1.symm, update.2.2⟩
    rw [if_neg owed, if_neg owed, if_neg noUpdate]
    refine ⟨List.flatMap_nil.symm, seqs, rfl, fun ssrc => ?_⟩
    rw [lastSeqOf_nil, Option.none_or]

/-- A member is called exactly with what one call owes it, and its bookkeeping
follows. -/
theorem member_step {sink : Option Sink} {seqs : UnorderedMap (BitVec 32) (BitVec 16)}
    {transcript : List (Event Sink × SfuResponse Sink)} {event : Event Sink}
    (recorded : ∀ room id, (server.egress room id).map Prod.fst = membership transcript room id)
    (isMember : server.egress roomId participantId = some (sink, seqs))
    (stays : event ≠ .removeParticipant roomId participantId) :
    callsTo roomId participantId (server.call event).2 =
        (dueFor transcript roomId participantId event).flatMap (fun packet =>
          sink.toList.map fun sink =>
            { room := roomId, receiver := participantId, sink, packet }) ∧
      ∃ seqs', (server.call event).1.egress roomId participantId = some (sink, seqs') ∧
        ∀ ssrc, seqs'.lookup ssrc =
          (lastSeqOf ssrc (dueFor transcript roomId participantId event)).or
            (seqs.lookup ssrc) := by
  cases event with
  | addParticipant room id newSink =>
      refine ⟨callsTo_of_no_calls (sinkCalls_addParticipant newSink), seqs, ?_, fun _ => rfl⟩
      rcases SfuResponse.status_cases (server.addParticipant room id newSink).2 with
        ⟨status, _⟩ | ⟨⟨error, status⟩, _⟩
      · -- A successful call was made for somebody else: the id here is taken.
        have unused := (participant_addParticipant_ok status).1
        have other : ¬ (roomId = room ∧ participantId = id) := by
          intro same
          rw [egress, same.1, same.2, unused] at isMember
          cases isMember
        rw [call, egress_addParticipant_ok status, if_neg other, isMember]
      · rw [call, egress_addParticipant_error status, isMember]
  | removeParticipant room id =>
      refine ⟨callsTo_of_no_calls sinkCalls_removeParticipant, seqs, ?_, fun _ => rfl⟩
      have other : ¬ (roomId = room ∧ participantId = id) := by
        intro same
        exact stays (by rw [same.1, same.2])
      rw [call, egress_removeParticipant, if_neg other, isMember]
  | routePacket room senderId packet =>
      exact member_routePacket recorded isMember room senderId packet
  | onRemb room id bitrateBps =>
      refine ⟨rfl, seqs, ?_, fun _ => rfl⟩
      rw [call, egress_onRemb, isMember]
  | setAudioSsrc room id ssrc =>
      refine ⟨rfl, seqs, ?_, fun _ => rfl⟩
      rw [call, egress_modifyParticipant, isMember] <;> exact fun _ => rfl
  | setVideoSsrc room id ssrc =>
      refine ⟨rfl, seqs, ?_, fun _ => rfl⟩
      rw [call, egress_modifyParticipant, isMember] <;> exact fun _ => rfl

end Step

/-! ## Whole runs -/

section Run

variable (hasKeyframeRequest : Bool)

/-- In every state the server knows exactly the members, with their sinks. -/
theorem members_recorded (events : List (Event Sink)) (roomId : String)
    (participantId : ParticipantId) :
    (((machine hasKeyframeRequest).run events).egress roomId participantId).map Prod.fst =
      membership ((machine hasKeyframeRequest).transcript events) roomId participantId := by
  induction events using List.reverseRecOn with
  | nil => rfl
  | append_singleton past event induction =>
      rw [Machine.run_snoc, Machine.transcript_snoc, membership, List.foldl_append]
      simp only [List.foldl_cons, List.foldl_nil]
      rw [← membership, ← induction]
      exact sink_after event

/-- From joining until leaving, a member's sink has been called with exactly
what it was owed, and its bookkeeping shows the last of it. -/
theorem member_run {roomId : String} {participantId : ParticipantId} {sink : Option Sink}
    {joined during : List (Event Sink)}
    (fresh : ((machine hasKeyframeRequest).run joined).egress roomId participantId = some (sink, ∅))
    (stays : .removeParticipant roomId participantId ∉ during) :
    callsDuring hasKeyframeRequest roomId participantId joined during =
        (due hasKeyframeRequest roomId participantId joined during).flatMap (fun packet =>
          sink.toList.map fun sink =>
            { room := roomId, receiver := participantId, sink, packet }) ∧
      ∃ seqs, ((machine hasKeyframeRequest).run (joined ++ during)).egress roomId participantId =
          some (sink, seqs) ∧
        ∀ ssrc, seqs.lookup ssrc =
          lastSeqOf ssrc (due hasKeyframeRequest roomId participantId joined during) := by
  induction during using List.reverseRecOn with
  | nil =>
      rw [List.append_nil]
      exact ⟨rfl, ∅, fresh, fun _ => rfl⟩
  | append_singleton during event induction =>
      rw [List.mem_append, not_or] at stays
      rcases induction stays.1 with ⟨callsSoFar, seqs, isMember, seqsSoFar⟩
      have notRemoved : event ≠ .removeParticipant roomId participantId := by
        intro same
        exact stays.2 (List.mem_singleton.mpr same.symm)
      rcases member_step (members_recorded hasKeyframeRequest (joined ++ during)) isMember
        notRemoved with ⟨newCalls, seqs', stillMember, newSeqs⟩
      rw [callsDuring_snoc, due_snoc, List.flatMap_append, callsSoFar, ← List.append_assoc,
        Machine.run_snoc]
      refine ⟨congrArg _ newCalls, seqs', stillMember, fun ssrc => ?_⟩
      rw [newSeqs, lastSeqOf_append, seqsSoFar]

end Run

/-- Forwarding is exact over every run: during a membership, which starts with
a successful join, a sink is called with the packets that other members routed
in the room, in order, unmodified and nothing else, and the last sequence number
of each source is the last one delivered; and whoever is called at any time is a
member other than the sender, in the room and with the packet of the routing
call, on the sink it joined with. -/
theorem forwarding_exact (hasKeyframeRequest : Bool) :
    (∀ (joined during : List (Event Sink)) (roomId : String) (participantId : ParticipantId)
        (sink : Option Sink),
      ((machine hasKeyframeRequest).output ((machine hasKeyframeRequest).run joined)
        (.addParticipant roomId participantId sink)).status = .ok () →
      .removeParticipant roomId participantId ∉ during →
      let past := joined ++ [.addParticipant roomId participantId sink]
      let owed := due hasKeyframeRequest roomId participantId past during
      callsDuring hasKeyframeRequest roomId participantId past during =
          owed.flatMap (fun packet => sink.toList.map fun sink =>
            { room := roomId, receiver := participantId, sink, packet }) ∧
        ∀ ssrc, ((((machine hasKeyframeRequest).run (past ++ during)).participant roomId
          participantId).bind fun p => p.lastForwardedSeq ssrc) = lastSeqOf ssrc owed) ∧
    ∀ (events : List (Event Sink)) (event : Event Sink) (sinkCall : SinkCall Sink),
      sinkCall ∈ ((machine hasKeyframeRequest).output ((machine hasKeyframeRequest).run events)
        event).sinkCalls →
      ∃ senderId, event = .routePacket sinkCall.room senderId sinkCall.packet ∧
        senderId ≠ sinkCall.receiver ∧
        (membership ((machine hasKeyframeRequest).transcript events) sinkCall.room
          senderId).isSome ∧
        membership ((machine hasKeyframeRequest).transcript events) sinkCall.room
          sinkCall.receiver = some (some sinkCall.sink) := by
  constructor
  · intro joined during roomId participantId sink success stays past owed
    have fresh : ((machine hasKeyframeRequest).run past).egress roomId participantId =
        some (sink, ∅) := by
      rw [Machine.run_snoc]
      exact (egress_addParticipant_ok success).trans (if_pos ⟨rfl, rfl⟩)
    rcases member_run hasKeyframeRequest fresh stays with ⟨calls, seqs, isMember, lastSeqs⟩
    refine ⟨calls, fun ssrc => ?_⟩
    rcases Option.map_eq_some_iff.mp isMember with ⟨p, found, view⟩
    rw [found, ← lastSeqs ssrc, ← (Prod.mk.inj view).2]
    rfl
  · intro events event sinkCall made
    rcases call_is_due made with ⟨senderId, isRouting, notEcho, senderIn, receiverSink⟩
    refine ⟨senderId, isRouting, notEcho, ?_, ?_⟩
    · rw [← members_recorded, Option.isSome_map]
      exact senderIn
    · rw [← members_recorded]
      exact receiverSink

/-- B joins A's room with sink 7 and is sent A's packet, once. -/
theorem forwarding_exact_two_members :
    let joined : List (Event Nat) := [.addParticipant "room" "A" (some 3)]
    let packet : RtpPacket := { ssrc := 10, sequenceNumber := 1, payload := [1, 2, 3] }
    callsDuring false "room" "B" (joined ++ [.addParticipant "room" "B" (some 7)])
        [.routePacket "room" "A" packet] =
      [{ room := "room", receiver := "B", sink := 7, packet }] := by
  intro joined packet
  have delivered := ((forwarding_exact false).1 joined [.routePacket "room" "A" packet] "room" "B"
    (some 7) rfl (by decide)).1
  exact delivered.trans (by decide)

end SFUServer

end Vela
