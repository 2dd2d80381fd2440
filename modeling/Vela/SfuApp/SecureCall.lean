import Vela.SfuApp.Lifecycle
import Vela.Signaling.SecureLink

/-! # A secured call

The server process with all its transports, and the transports of its clients at
the other ends. Packets that come out of one link are routed and go into others.
Whatever the network does, a client hears nothing but what another client of its
room was given to send. -/

namespace Vela

open Foundation UnorderedMap

/-! ## Clients of a room -/

namespace SfuApp

variable {app : SfuApp}

/-- As long as the counter does not wrap, an id stands for its own client. -/
theorem sink_of_member (consistent : Consistent app) (few : app.nextRef ≤ 2 ^ 32)
    {client : ClientRef} (below : client < app.nextRef) {room : String} {sink : Option TransportRef}
    {seqs : UnorderedMap (BitVec 32) (BitVec 16)}
    (member : app.sfu.egress room (idOf client) = some (sink, seqs)) : sink = some client := by
  rcases consistent.members room _ sink seqs member with ⟨owner, st, known, _, isId, isSink, _⟩
  rw [(consistent.owned owner st known).2.2.1] at isId
  have same := idOf_injective ((consistent.lt_nextRef known).trans_le few) (below.trans_le few) isId
  rw [isSink, consistent.numbered owner st known, same]

end SfuApp

open DtlsSrtp (Role)

/-- Client `n` and the server's transport for it are the two ends of link `n`. -/
structure SecureCall (crypto : Crypto) where
  app : SfuApp
  ends : ClientRef → Role → RtpTransport crypto

namespace SecureCall

variable {crypto : Crypto}

/-- A call of one transport. -/
structure TransportCall (crypto : Crypto) where
  client : ClientRef
  role : Role
  event : RtpTransport.Event crypto

def create (crypto : Crypto) : SecureCall crypto where
  app := SfuApp.create
  ends := fun _ role =>
    (RtpTransport.securedMachine crypto (SecureLink.asClient role) true).initial

inductive Event (crypto : Crypto) where
  | loop (event : SfuApp.Event)
  | client (client : ClientRef) (event : RtpTransport.Event crypto)
  | server (client : ClientRef) (event : RtpTransport.Event crypto)

/-- A socket handler or a deferred task. -/
def isLoop : SfuApp.Event → Bool
  | .packet _ _ => false
  | .stateChanged _ _ => false
  | _ => true

/-- The callbacks that the server's transport of a client makes. -/
def callbacks (client : ClientRef) :
    RtpTransport.Event crypto → List RtpTransport.Effect → List SfuApp.Event
  | .iceState state _, _ => [.stateChanged client state]
  | _, effects => effects.filterMap fun effect =>
      match effect with
      | .onPacket packet => some (.packet client packet)
      | _ => none

/-- What the server process is called with. The transport of a client is there as
long as the client is. -/
def appEvents (call : SecureCall crypto) : Event crypto → List SfuApp.Event
  | .loop event => if isLoop event then [event] else []
  | .client _ _ => []
  | .server client event =>
      if client ∈ call.app.clients then
        callbacks client event ((call.ends client .server).step event).2
      else []

def isSend : RtpTransport.Event crypto → Bool
  | .send _ => true
  | _ => false

/-- The calls of transports from outside. At the server's end only sinks send. -/
def outerCalls (call : SecureCall crypto) : Event crypto → List (TransportCall crypto)
  | .loop _ => []
  | .client client event => [⟨client, .client, event⟩]
  | .server client event =>
      if client ∈ call.app.clients ∧ isSend event = false then [⟨client, .server, event⟩] else []

/-- The sink of a participant is its transport's `send`. -/
def sinkCall? : SfuApp.Effect → Option (TransportCall crypto)
  | .transportSend sinkCall => some ⟨sinkCall.sink, .server, .send sinkCall.packet⟩
  | _ => none

def sinkCalls (call : SecureCall crypto) (event : Event crypto) : List (TransportCall crypto) :=
  (SfuApp.machine.producedFrom call.app (call.appEvents event)).filterMap sinkCall?

def transportCalls (call : SecureCall crypto) (event : Event crypto) :
    List (TransportCall crypto) :=
  call.outerCalls event ++ call.sinkCalls event

def perform (ends : ClientRef → Role → RtpTransport crypto) (call : TransportCall crypto) :
    ClientRef → Role → RtpTransport crypto :=
  fun client role =>
    if client = call.client ∧ role = call.role then ((ends client role).step call.event).1
    else ends client role

def step (call : SecureCall crypto) (event : Event crypto) :
    SecureCall crypto × List (TransportCall crypto) :=
  ({ app := (call.appEvents event).foldl SfuApp.machine.next call.app
     ends := (call.transportCalls event).foldl perform call.ends },
    call.transportCalls event)

def machine (crypto : Crypto) :
    Machine (SecureCall crypto) (Event crypto) (List (TransportCall crypto)) where
  initial := create crypto
  step := step

/-! ## The parts of a call -/

/-- What happens at the two ends of a client's link. -/
def linkCalls (client : ClientRef) (call : SecureCall crypto) (event : Event crypto) :
    SecureLink.History crypto :=
  (call.transportCalls event).filterMap fun made =>
    if made.client = client then some (made.role, made.event) else none

def history (client : ClientRef) (events : List (Event crypto)) : SecureLink.History crypto :=
  (machine crypto).shares (linkCalls client) events

theorem app_run (events : List (Event crypto)) :
    ((machine crypto).run events).app =
      SfuApp.machine.run ((machine crypto).shares appEvents events) := by
  induction events using List.reverseRecOn with
  | nil => rfl
  | append_singleton past event induction =>
      rw [Machine.run_snoc, Machine.shares_snoc, Machine.run_append, ← induction]
      rfl

/-- Calls of other transports leave a transport alone. -/
theorem foldl_perform (calls : List (TransportCall crypto))
    (ends : ClientRef → Role → RtpTransport crypto) (client : ClientRef) (role : Role) :
    calls.foldl perform ends client role =
      (SecureLink.own role (calls.filterMap fun made =>
        if made.client = client then some (made.role, made.event) else none)).foldl
          (fun transport event => (transport.step event).1) (ends client role) := by
  induction calls generalizing ends with
  | nil => rfl
  | cons first rest induction =>
      rw [List.foldl_cons, induction, List.filterMap_cons]
      by_cases isClient : first.client = client
      · by_cases isRole : first.role = role
        · have here : client = first.client ∧ role = first.role := ⟨isClient.symm, isRole.symm⟩
          rw [perform, if_pos here, if_pos isClient, SecureLink.own, SecureLink.own,
            List.filterMap_cons, if_pos isRole]
          rfl
        · have elsewhere : ¬(client = first.client ∧ role = first.role) :=
            fun here => isRole here.2.symm
          rw [perform, if_neg elsewhere, if_pos isClient, SecureLink.own, SecureLink.own,
            List.filterMap_cons, if_neg isRole]
      · have elsewhere : ¬(client = first.client ∧ role = first.role) :=
          fun here => isClient here.1.symm
        rw [perform, if_neg elsewhere, if_neg isClient]

theorem ends_run (events : List (Event crypto)) (client : ClientRef) (role : Role) :
    ((machine crypto).run events).ends client role =
      (RtpTransport.securedMachine crypto (SecureLink.asClient role) true).run
        (SecureLink.own role (history client events)) := by
  induction events using List.reverseRecOn with
  | nil => rfl
  | append_singleton past event induction =>
      have step : ((machine crypto).run (past ++ [event])).ends client role =
          (((machine crypto).run past).transportCalls event).foldl perform
            ((machine crypto).run past).ends client role := by
        rw [Machine.run_snoc]
        rfl
      rw [step, foldl_perform, history, Machine.shares_snoc, SecureLink.own, SecureLink.own,
        List.filterMap_append, Machine.run_append, induction]
      rfl

/-- A moment of a link is a moment of the call. -/
theorem mem_history {client : ClientRef} {events : List (Event crypto)} {role : Role}
    {called : RtpTransport.Event crypto} (member : (role, called) ∈ history client events) :
    ∃ past event, past ++ [event] <+: events ∧
      ⟨client, role, called⟩ ∈ ((machine crypto).run past).transportCalls event := by
  rcases Machine.mem_shares _ _ member with ⟨past, event, isPrefix, isCall⟩
  rcases List.mem_filterMap.mp isCall with ⟨⟨other, otherRole, otherEvent⟩, made, same⟩
  simp only at same
  split at same
  · rename_i isClient
    cases same
    rw [isClient] at made
    exact ⟨past, event, isPrefix, made⟩
  · cases same

/-! ## Who is forwarded what -/

/-- The join messages that the server process gets. -/
def joinsIn (events : List (Event crypto)) : Nat :=
  SfuApp.joinsIn ((machine crypto).shares appEvents events)

/-- The server has the client registered in the room, with its transport. -/
def InRoom (app : SfuApp) (room : String) (client : ClientRef) : Prop :=
  ∃ seqs, app.sfu.egress room (SfuApp.idOf client) = some (some client, seqs)

theorem onData_made (transport : RtpTransport crypto) (data : Bytes) :
    (transport.onData data).2 = [] ∨ (∃ record, (transport.onData data).2 = [.feedDtls record]) ∨
      ∃ buffer, (transport.onData data).2 = RtpTransport.deliver buffer := by
  unfold RtpTransport.onData
  repeat' split
  all_goals first
    | exact .inl rfl
    | exact .inr (.inl ⟨_, rfl⟩)
    | exact .inr (.inr ⟨_, rfl⟩)

theorem callbacks_cases (transport : RtpTransport crypto) (client : ClientRef)
    (event : RtpTransport.Event crypto) :
    (∃ datagram packet, event = .data datagram ∧ .onPacket packet ∈ (transport.step event).2 ∧
      callbacks client event (transport.step event).2 = [.packet client packet]) ∨
    (∃ state, callbacks client event (transport.step event).2 = [.stateChanged client state]) ∨
    callbacks client event (transport.step event).2 = [] := by
  cases event with
  | iceState state sslNew => exact .inr (.inl ⟨state, rfl⟩)
  | setRemoteFingerprint fingerprint sslNew =>
      refine .inr (.inr (List.filterMap_eq_nil_iff.mpr fun effect made => ?_))
      have isStart := RtpTransport.maybeStart_effects made
      cases effect with
      | onPacket packet => cases isStart
      | _ => rfl
  | handshakeEnd handshake => exact .inr (.inr rfl)
  | data datagram =>
      rcases onData_made transport datagram with nothing | ⟨record, fed⟩ | ⟨buffer, delivered⟩
      · exact .inr (.inr (by rw [RtpTransport.step, nothing]; rfl))
      · exact .inr (.inr (by rw [RtpTransport.step, fed]; rfl))
      · rw [RtpTransport.step, delivered, RtpTransport.deliver]
        split
        · rename_i packet _
          exact .inl ⟨datagram, packet, rfl, List.mem_singleton_self _, rfl⟩
        · exact .inr (.inr rfl)
  | send packet =>
      refine .inr (.inr ?_)
      simp only [RtpTransport.step, RtpTransport.send]
      repeat' split
      all_goals rfl

theorem produced_single {app : SfuApp} {event : SfuApp.Event} {effect : SfuApp.Effect}
    (produced : effect ∈ SfuApp.machine.producedFrom app [event]) :
    effect ∈ (app.step event).2 := by
  rw [Machine.producedFrom_cons, Machine.producedFrom_nil, List.append_nil] at produced
  exact produced

/-- A packet that a client's transport hands up goes to the others of the room. -/
theorem routed_to {app : SfuApp} (consistent : SfuApp.Consistent app)
    (few : app.nextRef ≤ 2 ^ 32) {sender : ClientRef} {packet : RtpPacket}
    {sinkCall : SinkCall TransportRef}
    (made : .transportSend sinkCall ∈ (app.step (.packet sender packet)).2) :
    sinkCall.packet = packet ∧ sender ≠ sinkCall.sink ∧
      ∃ room, InRoom app room sender ∧ InRoom app room sinkCall.sink := by
  rcases SfuApp.cause_of_effect made with ⟨client, captured, routed, isPacket, installed, isCall⟩
  cases isPacket
  have isRouted : sinkCall ∈
      (app.sfu.call (.routePacket captured.room captured.id packet)).2.sinkCalls := isCall
  rcases SFUServer.call_is_due isRouted with ⟨senderId, same, notEcho, senderIn, onSink⟩
  rcases SFUServer.Event.routePacket.inj same with ⟨_, isSender, isSent⟩
  rcases consistent.captured sender captured installed with ⟨below, _, named⟩
  have senderNamed : senderId = SfuApp.idOf sender := isSender.symm.trans named
  rcases Option.map_eq_some_iff.mp onSink with ⟨⟨sink, seqs⟩, member, isSink⟩
  simp only at isSink
  rcases consistent.members _ _ sink seqs member with ⟨client, st, known, _, isId, isTransport, _⟩
  rw [isSink, consistent.numbered client st known] at isTransport
  have receiverNamed : SfuApp.idOf sinkCall.sink = sinkCall.receiver := by
    rw [Option.some.inj isTransport, ← isId, (consistent.owned client st known).2.2.1]
  refine ⟨isSent.symm, fun echo => ?_, sinkCall.room, ?_, seqs, ?_⟩
  · rw [senderNamed, echo] at notEcho
    exact notEcho receiverNamed
  · rcases Option.isSome_iff_exists.mp senderIn with ⟨⟨senderSink, senderSeqs⟩, senderMember⟩
    rw [senderNamed] at senderMember
    rw [SfuApp.sink_of_member consistent few below senderMember] at senderMember
    exact ⟨senderSeqs, senderMember⟩
  · rw [receiverNamed, ← isSink]
    exact member

/-- What the server sends to a client, another client of the room has sent. -/
theorem forwarded {events : List (Event crypto)} (few : joinsIn events < 2 ^ 32)
    {event : Event crypto} {client : ClientRef} {packet : RtpPacket}
    (made : ⟨client, .server, .send packet⟩ ∈
      ((machine crypto).run events).transportCalls event) :
    ∃ sender datagram room, event = .server sender (.data datagram) ∧
      sender ∈ ((machine crypto).run events).app.clients ∧
      .onPacket packet ∈
        ((((machine crypto).run events).ends sender .server).step (.data datagram)).2 ∧
      sender ≠ client ∧ InRoom ((machine crypto).run events).app room sender ∧
        InRoom ((machine crypto).run events).app room client := by
  have consistent := SfuApp.consistent_run ((machine crypto).shares appEvents events)
  have numbers := (SfuApp.nextRef_run ((machine crypto).shares appEvents events)).trans few
  rw [← app_run] at consistent numbers
  generalize (machine crypto).run events = call at made consistent numbers
  rcases List.mem_append.mp made with outer | fromSink
  · cases event with
    | loop event => cases outer
    | client other event => cases List.mem_singleton.mp outer
    | server other event =>
        rw [outerCalls] at outer
        split at outer
        · rename_i allowed
          cases List.mem_singleton.mp outer
          cases allowed.2
        · cases outer
  · rcases List.mem_filterMap.mp fromSink with ⟨effect, produced, isCall⟩
    cases effect with
    | transportSend sinkCall =>
        cases isCall
        rw [appEvents.eq_def] at produced
        cases event with
        | loop event =>
            simp only at produced
            split at produced
            · rename_i ofLoop
              rcases SfuApp.cause_of_effect (produced_single produced) with
                ⟨_, _, _, isPacket, _⟩
              rw [isPacket] at ofLoop
              cases ofLoop
            · cases produced
        | client other event => cases produced
        | server sender event =>
            simp only at produced
            split at produced
            · rename_i isThere
              rcases callbacks_cases (call.ends sender .server) sender event with
                ⟨datagram, packet, isData, handed, isPacket⟩ | ⟨state, isState⟩ | nothing
              · rw [isPacket] at produced
                rcases routed_to consistent numbers (produced_single produced) with
                  ⟨isSame, notEcho, room, senderIn, receiverIn⟩
                rw [isData] at handed
                rw [isData, isSame]
                exact ⟨sender, datagram, room, rfl, isThere, handed, notEcho, senderIn, receiverIn⟩
              · rw [isState] at produced
                rcases SfuApp.cause_of_effect (produced_single produced) with
                  ⟨_, _, _, isPacket, _⟩
                cases isPacket
              · rw [nothing] at produced
                cases produced
            · cases produced
    | _ => cases isCall

/-! ## What is heard -/

variable {identity : ClientRef → Role → crypto.Certificate}
  {material : ClientRef → DtlsSrtp.KeyingMaterial} {events : List (Event crypto)}

theorem history_data {past : List (Event crypto)} {sender : ClientRef} {datagram : Bytes}
    (isPrefix : past ++ [.server sender (.data datagram)] <+: events)
    (isThere : sender ∈ ((machine crypto).run past).app.clients) :
    history sender past ++ [(.server, .data datagram)] <+: history sender events := by
  apply List.IsPrefix.trans ?_ (Machine.shares_isPrefix _ _ isPrefix)
  rw [history, Machine.shares_snoc, List.prefix_append_right_inj, linkCalls, transportCalls,
    List.filterMap_append, outerCalls, if_pos ⟨isThere, rfl⟩, List.filterMap_cons, if_pos rfl]
  exact ⟨_, rfl⟩

/-- Each datagram that a client hands up a packet of, it hands up once; and whatever
the network does, that packet has been sent by another client, which was in one
room with it when the server forwarded the packet. Ids must not have come back. -/
theorem only_members_heard (contract : crypto.Contract)
    (trust : ∀ client, SecureLink.Trust (identity client) (material client)
      (history client events))
    (network : ∀ client, SecureLink.NoForgery (material client) (history client events))
    (few : joinsIn events < 2 ^ 32) (me : ClientRef) :
    ((SecureLink.handedUp .client (history me events)).map Prod.fst).Nodup ∧
      ∀ entry ∈ SecureLink.handedUp .client (history me events),
        ∃ past sender room, past <+: events ∧ sender ≠ me ∧
          InRoom ((machine crypto).run past).app room sender ∧
          InRoom ((machine crypto).run past).app room me ∧
          ∃ original forwarded,
            original ∈ (SecureLink.sent .client (history sender past)).map Prod.fst ∧
            original.Hop forwarded ∧ forwarded.Hop entry.2 := by
  refine ⟨(RtpTransport.remembered_run contract (SecureLink.asClient .client) true _).2,
    fun entry member => ?_⟩
  rcases SecureLink.mem_handedUp member with ⟨linkPast, moment, made⟩
  rcases SecureLink.handedUp_sent contract (trust me) (network me) moment made with
    ⟨relayed, wasSent, toMe⟩
  rcases RtpTransport.mem_sentBy wasSent with ⟨before, beforePrefix, _⟩
  have isSend : (Role.server, RtpTransport.Event.send relayed) ∈ history me events := by
    apply ((List.prefix_append _ _).trans moment).subset
    exact SecureLink.mem_own.mp (beforePrefix.subset (List.mem_append_right _ (by simp)))
  rcases mem_history isSend with ⟨past, event, isPrefix, isCall⟩
  have fewPast : joinsIn past < 2 ^ 32 := by
    have earlier := Machine.shares_isPrefix (machine crypto) appEvents
      ((List.prefix_append past [event]).trans isPrefix)
    exact earlier.sublist.countP_le.trans_lt few
  rcases forwarded fewPast isCall with
    ⟨sender, datagram, room, isEvent, isThere, handed, notEcho, senderIn, receiverIn⟩
  rw [isEvent] at isPrefix
  rw [ends_run] at handed
  rcases SecureLink.handedUp_sent contract (trust sender) (network sender)
    (history_data isPrefix isThere) handed with ⟨original, originalSent, toServer⟩
  exact ⟨past, sender, room, (List.prefix_append _ _).trans isPrefix, notEcho, senderIn, receiverIn,
    original, relayed, List.mem_map_of_mem originalSent, toServer, toMe⟩

/-! ### A call of two -/

open SecureLink (markingCrypto)

def keysOf (client : ClientRef) : DtlsSrtp.KeyingMaterial :=
  ⟨List.replicate 60 (BitVec.ofNat 8 client), List.length_replicate⟩

/-- Both ends learn the fingerprints, connect and finish their handshakes. -/
def handshakes (client : ClientRef) : SecureLink.History markingCrypto :=
  [(.client, .setRemoteFingerprint (DtlsSrtp.fingerprintOf markingCrypto .server) true),
    (.server, .setRemoteFingerprint (DtlsSrtp.fingerprintOf markingCrypto .client) true),
    (.client, .iceState .connected true),
    (.server, .iceState .connected true),
    (.client, .handshakeEnd
      { initFinished := true, peer := some .server, material := some (keysOf client) }),
    (.server, .handshakeEnd
      { initFinished := true, peer := some .client, material := some (keysOf client) })]

def atLink (client : ClientRef) : Role × RtpTransport.Event markingCrypto → Event markingCrypto
  | (.client, event) => .client client event
  | (.server, event) => .server client event

def upDatagram : Bytes := SecureLink.onePacket.serialize ++ DtlsSrtp.outKey .client (keysOf 1)

def downDatagram : Bytes := SecureLink.onePacket.serialize ++ DtlsSrtp.outKey .server (keysOf 2)

def upward : SecureLink.History markingCrypto :=
  [(.client, .send SecureLink.onePacket), (.server, .data upDatagram)]

def downward : SecureLink.History markingCrypto :=
  [(.server, .send SecureLink.onePacket), (.client, .data downDatagram),
    (.client, .data downDatagram)]

/-- Client 1 sends a packet that client 2 gets, and gets once more. -/
def twoTalk : List (Event markingCrypto) :=
  [.loop (.opened 0), .loop (.opened 1), .loop (.join 0 "room" true),
    .loop (.join 1 "room" true)] ++ (handshakes 1).map (atLink 1) ++
  (handshakes 2).map (atLink 2) ++ [.loop (.deferred 0), .loop (.deferred 0)] ++
  upward.map (atLink 1) ++ downward.tail.map (atLink 2)

theorem heard_two : SecureLink.handedUp .client (history 2 twoTalk) =
    [(downDatagram, SecureLink.onePacket)] := by
  decide +kernel

theorem history_first : history 1 twoTalk = handshakes 1 ++ upward := by rfl

theorem history_second : history 2 twoTalk = handshakes 2 ++ downward := by rfl

theorem calls_two : (machine markingCrypto).produced twoTalk =
    (handshakes 1).map (fun entry => ⟨1, entry.1, entry.2⟩) ++
      (handshakes 2).map (fun entry => ⟨2, entry.1, entry.2⟩) ++
      upward.map (fun entry => ⟨1, entry.1, entry.2⟩) ++
      downward.map (fun entry => ⟨2, entry.1, entry.2⟩) := by
  rfl

theorem history_eq (client : ClientRef) (events : List (Event crypto)) :
    history client events = ((machine crypto).produced events).filterMap fun made =>
      if made.client = client then some (made.role, made.event) else none := by
  induction events using List.reverseRecOn with
  | nil => rfl
  | append_singleton past event induction =>
      rw [history, Machine.shares_snoc, Machine.produced_snoc, List.filterMap_append, ← induction]
      rfl

theorem history_other {client : ClientRef} (notFirst : 1 ≠ client) (notSecond : 2 ≠ client) :
    history client twoTalk = [] := by
  rw [history_eq, calls_two, List.filterMap_eq_nil_iff]
  intro made member
  have isOne : made.client = 1 ∨ made.client = 2 := by
    simp only [List.mem_append, List.mem_map] at member
    rcases member with ((⟨_, _, rfl⟩ | ⟨_, _, rfl⟩) | ⟨_, _, rfl⟩) | ⟨_, _, rfl⟩
    · exact .inl rfl
    · exact .inr rfl
    · exact .inl rfl
    · exact .inr rfl
  rw [if_neg]
  intro isClient
  rcases isOne with one | two
  · exact notFirst (one.symm.trans isClient)
  · exact notSecond (two.symm.trans isClient)

/-- What is neither told nor a handshake. -/
def isMedia : RtpTransport.Event markingCrypto → Bool
  | .send _ => true
  | .data _ => true
  | _ => false

theorem trust_handshakes (client : ClientRef) {later : SecureLink.History markingCrypto}
    (media : ∀ entry ∈ later, isMedia entry.2 = true) :
    SecureLink.Trust id (keysOf client) (handshakes client ++ later) where
  signaled := by
    intro role fingerprint sslNew member
    rcases List.mem_append.mp member with told | other
    · simp only [handshakes, List.mem_cons, Prod.mk.injEq, reduceCtorEq, and_false,
        List.not_mem_nil, or_false, RtpTransport.Event.setRemoteFingerprint.injEq] at told
      rcases told with ⟨rfl, rfl, _⟩ | ⟨rfl, rfl, _⟩ <;> rfl
    · cases media _ other
  exported := by
    intro role handshake certificate exported member _ _ _ isExported
    rcases List.mem_append.mp member with told | other
    · simp only [handshakes, List.mem_cons, Prod.mk.injEq, reduceCtorEq, and_false, false_or,
        List.not_mem_nil, or_false, RtpTransport.Event.handshakeEnd.injEq] at told
      rcases told with ⟨_, rfl⟩ | ⟨_, rfl⟩ <;> exact (Option.some.inj isExported).symm
    · cases media _ other

theorem network_upward : SecureLink.NoForgery (keysOf 1) (handshakes 1 ++ upward) := by
  intro past role datagram isPrefix
  rcases SecureLink.moment_of_isPrefix isPrefix with ⟨moment, isPast, isEntry⟩
  have short : moment < 8 := (List.getElem?_eq_some_iff.mp isEntry).1
  have wasSent : upDatagram ∈
      (SecureLink.sent .client ((handshakes 1 ++ upward).take 7)).map Prod.snd := by
    decide +kernel
  rw [isPast]
  match moment with
  | 0 | 1 | 2 | 3 | 4 | 5 | 6 => cases isEntry
  | 7 =>
      cases isEntry
      exact .inl wasSent
  | later + 8 => exact absurd short (Nat.not_lt.mpr (Nat.le_add_left 8 later))

theorem network_downward : SecureLink.NoForgery (keysOf 2) (handshakes 2 ++ downward) := by
  intro past role datagram isPrefix
  rcases SecureLink.moment_of_isPrefix isPrefix with ⟨moment, isPast, isEntry⟩
  have short : moment < 9 := (List.getElem?_eq_some_iff.mp isEntry).1
  have wasSent : downDatagram ∈
      (SecureLink.sent .server ((handshakes 2 ++ downward).take 7)).map Prod.snd := by
    decide +kernel
  have isStillSent : downDatagram ∈
      (SecureLink.sent .server ((handshakes 2 ++ downward).take 8)).map Prod.snd := by
    decide +kernel
  rw [isPast]
  match moment with
  | 0 | 1 | 2 | 3 | 4 | 5 | 6 => cases isEntry
  | 7 =>
      cases isEntry
      exact .inl wasSent
  | 8 =>
      cases isEntry
      exact .inl isStillSent
  | later + 9 => exact absurd short (Nat.not_lt.mpr (Nat.le_add_left 9 later))

theorem only_members_heard_two :
    ∃ past sender room, past <+: twoTalk ∧ sender ≠ 2 ∧
      InRoom ((machine markingCrypto).run past).app room sender ∧
      InRoom ((machine markingCrypto).run past).app room 2 ∧
      ∃ original forwarded,
        original ∈ (SecureLink.sent .client (history sender past)).map Prod.fst ∧
        original.Hop forwarded ∧ forwarded.Hop SecureLink.onePacket := by
  have trust : ∀ client, SecureLink.Trust id (keysOf client) (history client twoTalk) := by
    intro client
    by_cases first : 1 = client
    · rw [← first, history_first]
      exact trust_handshakes 1 (by decide)
    · by_cases second : 2 = client
      · rw [← second, history_second]
        exact trust_handshakes 2 (by decide)
      · rw [history_other first second]
        exact ⟨fun member => absurd member List.not_mem_nil,
          fun member => absurd member List.not_mem_nil⟩
  have network : ∀ client, SecureLink.NoForgery (keysOf client) (history client twoTalk) := by
    intro client
    by_cases first : 1 = client
    · rw [← first, history_first]
      exact network_upward
    · by_cases second : 2 = client
      · rw [← second, history_second]
        exact network_downward
      · rw [history_other first second]
        intro past role datagram isPrefix
        exact absurd (isPrefix.subset (List.mem_append_right _ (List.mem_singleton_self _)))
          List.not_mem_nil
  apply (only_members_heard SecureLink.markingContract trust network (by decide +kernel) 2).2
    (downDatagram, SecureLink.onePacket)
  rw [heard_two]
  exact List.mem_singleton_self _

end SecureCall

end Vela
