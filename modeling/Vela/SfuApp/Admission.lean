import Vela.SfuApp.Lifecycle
import Vela.Sfu.Registry

/-! # Admission to rooms

A client is told it has joined before it is registered, and registration can be
refused. The refusal is dropped, so a connection can be left without its room
and without an error. -/

namespace Vela

open Foundation UnorderedMap

namespace SfuApp

/-! ## What a connection was sent -/

def Effect.frameTo (socket : SocketId) : Effect → Option Frame
  | .sendJson other frame => if other = socket then some frame else none
  | _ => none

def Event.closes (socket : SocketId) : Event → Bool
  | .close other => other = socket
  | _ => false

/-- The frames sent on the connection that a socket carries: those since the
socket last closed. -/
def sentTo (socket : SocketId) (transcript : List (Event × List Effect)) : List Frame :=
  transcript.foldl
    (fun frames (event, effects) =>
      if event.closes socket then [] else frames ++ effects.filterMap (Effect.frameTo socket))
    []

theorem sentTo_snoc (socket : SocketId) (transcript : List (Event × List Effect)) (event : Event)
    (effects : List Effect) :
    sentTo socket (transcript ++ [(event, effects)]) =
      if event.closes socket then []
      else sentTo socket transcript ++ effects.filterMap (Effect.frameTo socket) := by
  simp [sentTo]

theorem mem_frameTo {socket : SocketId} {frame : Frame} {effects : List Effect} :
    frame ∈ effects.filterMap (Effect.frameTo socket) ↔ .sendJson socket frame ∈ effects := by
  rw [List.mem_filterMap]
  constructor
  · rintro ⟨effect, member, selected⟩
    cases effect with
    | sendJson other sent =>
        simp only [Effect.frameTo] at selected
        split at selected
        · rename_i same
          cases selected
          rw [← same]
          exact member
        · cases selected
    | endSocket other => cases selected
    | addParticipant room id status => cases selected
    | transportSend call => cases selected
  · intro member
    exact ⟨_, member, if_pos rfl⟩

theorem mem_sentTo_snoc {socket : SocketId} {transcript : List (Event × List Effect)}
    {event : Event} {effects : List Effect} {frame : Frame} :
    frame ∈ sentTo socket (transcript ++ [(event, effects)]) ↔
      event.closes socket = false ∧
        (frame ∈ sentTo socket transcript ∨ .sendJson socket frame ∈ effects) := by
  rw [sentTo_snoc]
  cases closing : event.closes socket with
  | true => simp
  | false =>
      rw [← mem_frameTo]
      simp

def SentError (socket : SocketId) (transcript : List (Event × List Effect)) : Prop :=
  ∃ reason, .error reason ∈ sentTo socket transcript

/-! ## The property, and when a step is safe -/

/-- What is sent to the room's others goes to the transport, under the id. -/
def Member (app : SfuApp) (room : String) (id : ParticipantId) (transport : TransportRef) : Prop :=
  ∃ seqs, app.sfu.egress room id = some (some transport, seqs)

/-- Every open connection that was sent `joined` and whose registration task has
run is a member of its room or has been sent an error. -/
def NoBlackHole (app : SfuApp) (transcript : List (Event × List Effect)) : Prop :=
  ∀ socket client st room number, app.sockets.lookup socket = some (some client) →
    app.clients.lookup client = some st → .joined room number ∈ sentTo socket transcript →
    app.joinedSfu.lookup client = some true →
    app.Member room (toString number.toNat) st.transport ∨ SentError socket transcript

/-- The event runs the task that registers a living client for the first time. -/
def Registers (app : SfuApp) (captured : Captured) (st : ClientState) : Event → Prop
  | .deferred index =>
      app.deferred[index]? = some (.register captured) ∧
        app.lockAlive captured.weak = some st ∧ app.joinedSfu.lookup captured.weak ≠ some true
  | _ => False

/-- A client that is registered finds its id free and a place in its room, or has
been sent an error before. -/
def Admits (app : SfuApp) (transcript : List (Event × List Effect)) (event : Event) : Prop :=
  ∀ captured st, app.Registers captured st event →
    app.sfu.participant captured.room captured.id = none ∧
        (∀ room, app.sfu.findRoom captured.room = some room →
          room.size < Room.kMaxParticipants) ∨
      SentError st.ws transcript

/-- A client that leaves takes no other client of its id and room with it, unless
that one has been sent an error. -/
def Spares (app : SfuApp) (transcript : List (Event × List Effect)) (event : Event) : Prop :=
  ∀ leaver st client other, event = .close st.ws → app.clients.lookup leaver = some st →
    app.clients.lookup client = some other → client ≠ leaver → other.room = st.room →
    other.id = st.id → app.joinedSfu.lookup client = some true → SentError other.ws transcript

/-! ## What one step does to the clients -/

/-- The clients, their flags and their memberships over one step. -/
inductive Progress (app : SfuApp) (event : Event) (after : SfuApp)
    (effects : List Effect) : Prop where
  /-- Clients stay as they are. -/
  | quiet
      (clients : after.clients = app.clients)
      (stays : ∀ client st, app.clients.lookup client = some st → event.closes st.ws = false)
      (flags : ∀ client st, app.clients.lookup client = some st →
        (after.joinedSfu.lookup client = some true ↔ app.joinedSfu.lookup client = some true))
      (members : ∀ client st, app.clients.lookup client = some st →
        (after.Member st.room st.id st.transport ↔ app.Member st.room st.id st.transport))
      (frames : ∀ socket room number, .sendJson socket (.joined room number) ∉ effects)
      (nobody : ∀ captured st, ¬ app.Registers captured st event)
  /-- A join succeeds. -/
  | joined (st : ClientState)
      (clients : after.clients = app.clients.insert app.nextRef st)
      (flags : after.joinedSfu = app.joinedSfu.insert app.nextRef false)
      (sfu : after.sfu = app.sfu)
      (stays : ∀ socket, event.closes socket = false)
      (frames : effects = [.sendJson st.ws (.joined st.room (numberOf app.nextRef))])
      (nobody : ∀ captured st, ¬ app.Registers captured st event)
  /-- A living client is registered for the first time. -/
  | registered (captured : Captured) (st : ClientState)
      (registers : app.Registers captured st event)
      (living : app.clients.lookup captured.weak = some st)
      (same : captured = captureOf captured.weak st)
      (first : app.joinedSfu.lookup captured.weak ≠ some true)
      (clients : after.clients = app.clients)
      (flags : after.joinedSfu = app.joinedSfu.insert captured.weak true)
      (sfu : after.sfu =
        (app.sfu.addParticipant captured.room captured.id (some captured.transport)).1)
      (stays : ∀ socket, event.closes socket = false)
      (frames : ∀ socket frame, .sendJson socket frame ∉ effects)
  /-- A client's socket closes. -/
  | closed (leaver : ClientRef) (st : ClientState)
      (closing : event = .close st.ws)
      (left : app.clients.lookup leaver = some st)
      (clients : ∀ client other, after.clients.lookup client = some other ↔
        app.clients.lookup client = some other ∧ client ≠ leaver)
      (flags : after.joinedSfu = app.joinedSfu)
      (sfu : after.sfu = (app.sfu.removeParticipant st.room st.id).1)
      (frames : effects = [])

/-- A step that touches neither clients nor flags nor rooms. -/
theorem Progress.untouched {app after : SfuApp} {event : Event} {effects : List Effect}
    (clients : after.clients = app.clients) (flags : after.joinedSfu = app.joinedSfu)
    (sfu : after.sfu = app.sfu)
    (stays : ∀ client st, app.clients.lookup client = some st → event.closes st.ws = false)
    (frames : ∀ socket room number, .sendJson socket (.joined room number) ∉ effects)
    (nobody : ∀ captured st, ¬ app.Registers captured st event) :
    Progress app event after effects := by
  refine .quiet clients stays (fun client st known => ?_) (fun client st known => ?_) frames nobody
  · rw [flags]
  · rw [Member, Member, sfu]

section Step

variable {app : SfuApp}

theorem progress_onJoin (consistent : Consistent app) (socket : SocketId) (room : String)
    (initialized : Bool) :
    Progress app (.join socket room initialized) (app.onJoin socket room initialized).1
      (app.onJoin socket room initialized).2 := by
  have stays : ∀ other, (Event.join socket room initialized).closes other = false := fun _ => rfl
  have nobody : ∀ captured st, ¬ app.Registers captured st (.join socket room initialized) :=
    fun _ _ registers => registers
  rw [onJoin]
  split
  · simp only
    split
    · exact .untouched rfl rfl rfl (fun _ _ _ => stays _)
        (fun _ _ _ sent => by cases List.mem_singleton.mp sent) nobody
    · split
      · rw [consistent.counted]
        exact .joined
          { id := toString (numberOf app.nextRef).toNat, room, transport := app.nextRef,
            ws := socket }
          rfl rfl rfl stays rfl nobody
      · refine .quiet rfl (fun _ _ _ => stays _) (fun client st known => ?_)
          (fun _ _ _ => Iff.rfl) (fun _ _ _ sent => by cases List.mem_singleton.mp sent) nobody
        rw [lookup_insert_eq, if_neg (Nat.ne_of_lt (consistent.lt_nextRef known))]
  · exact .untouched rfl rfl rfl (fun _ _ _ => stays _) (fun _ _ _ => List.not_mem_nil) nobody

/-- A socket belongs to one client. -/
theorem same_of_ws (consistent : Consistent app) {client other : ClientRef}
    {st otherSt : ClientState} (known : app.clients.lookup client = some st)
    (otherKnown : app.clients.lookup other = some otherSt) (same : otherSt.ws = st.ws) :
    other = client := by
  have isOpen := (consistent.owned client st known).1
  rw [← same, (consistent.owned other otherSt otherKnown).1] at isOpen
  exact Option.some.inj (Option.some.inj isOpen)

/-- A close of a socket that owns no client is no loss to anybody. -/
theorem progress_idleClose (consistent : Consistent app) {socket : SocketId}
    (idle : ∀ client, app.sockets.lookup socket ≠ some (some client)) {after : SfuApp}
    (clients : after.clients = app.clients) (flags : after.joinedSfu = app.joinedSfu)
    (sfu : after.sfu = app.sfu) : Progress app (.close socket) after [] := by
  apply Progress.untouched clients flags sfu
  · intro client st known
    apply decide_eq_false
    intro same
    exact idle client (same ▸ (consistent.owned client st known).1)
  · exact fun _ _ _ => List.not_mem_nil
  · exact fun _ _ registers => registers

theorem progress_onClose (consistent : Consistent app) (socket : SocketId) :
    Progress app (.close socket) (app.onClose socket).1 (app.onClose socket).2 := by
  rw [onClose]
  split
  · rename_i shut
    exact progress_idleClose consistent (fun client => by simp [shut]) rfl rfl rfl
  · rename_i idle
    exact progress_idleClose consistent (fun client => by simp [idle]) rfl rfl rfl
  · rename_i client owns
    rcases consistent.socketOwns socket client owns with ⟨st, known, rfl⟩
    simp only [known]
    refine .closed client st rfl known (fun other otherSt => ?_) rfl rfl rfl
    rw [lookup_erase_eq, lookup_insert_eq]
    by_cases same : other = client
    · simp [same]
    · simp [same]

theorem progress_onPacket (client : ClientRef) (packet : RtpPacket) :
    Progress app (.packet client packet) (app.onPacket client packet).1
      (app.onPacket client packet).2 := by
  have stays : ∀ socket, (Event.packet client packet).closes socket = false := fun _ => rfl
  rw [onPacket]
  split
  · refine .quiet rfl (fun _ _ _ => stays _) (fun _ _ _ => Iff.rfl) (fun other st known => ?_)
      (fun socket room number sent => ?_) fun _ _ registers => registers
    · -- Forwarding counts on a member's sequence numbers and leaves its sink.
      simp only [Member, SFUServer.egress_routePacket]
      split
      · simp only [Option.map_eq_some_iff, Prod.exists, Prod.mk.injEq]
        constructor
        · rintro ⟨_, sink, seqs, found, rfl, _⟩
          exact ⟨seqs, found⟩
        · rintro ⟨seqs, found⟩
          exact ⟨_, _, seqs, found, rfl, rfl⟩
      · rfl
    · rcases List.mem_map.mp sent with ⟨call, _, same⟩
      cases same
  · exact .untouched rfl rfl rfl (fun _ _ _ => stays _) (fun _ _ _ => List.not_mem_nil)
      fun _ _ registers => registers

theorem progress_runDeferred (consistent : Consistent app) (index : Nat) :
    Progress app (.deferred index) (app.runDeferred index).1 (app.runDeferred index).2 := by
  have stays : ∀ socket, (Event.deferred index).closes socket = false := fun _ => rfl
  rw [runDeferred]
  split
  · rename_i task queued
    cases task with
    | sendCandidate weak candidate =>
        have nobody : ∀ captured st, ¬ app.Registers captured st (.deferred index) := by
          intro captured st registers
          cases queued.symm.trans registers.1
        simp only [runTask]
        split
        · exact .untouched rfl rfl rfl (fun _ _ _ => stays _)
            (fun _ _ _ sent => by cases List.mem_singleton.mp sent) nobody
        · exact .untouched rfl rfl rfl (fun _ _ _ => stays _) (fun _ _ _ => List.not_mem_nil) nobody
    | register captured =>
        simp only [runTask]
        split
        · rename_i gone
          have nobody : ∀ other st, ¬ app.Registers other st (.deferred index) := by
            intro other st registers
            cases queued.symm.trans registers.1
            cases gone.symm.trans registers.2.1
          exact .untouched rfl rfl rfl (fun _ _ _ => stays _) (fun _ _ _ => List.not_mem_nil) nobody
        · rename_i st locked
          have installed := consistent.queued captured (List.mem_of_getElem? queued)
          have living : app.clients.lookup captured.weak = some st := Consistent.lockAlive_eq locked
          have same := consistent.captured_of_lock installed locked
          split
          · rename_i already
            refine .quiet rfl (fun _ _ _ => stays _) (fun client other known => ?_)
              (fun _ _ _ => Iff.rfl)
              (fun _ _ _ => List.not_mem_nil) fun other otherSt registers => ?_
            · rw [lookup_insert_eq]
              split
              · rename_i here
                rw [here, already]
              · rfl
            · cases queued.symm.trans registers.1
              exact registers.2.2 already
          · rename_i first
            exact .registered captured st ⟨queued, locked, first⟩ living same first rfl rfl rfl
              stays
              fun _ _ sent => by cases List.mem_singleton.mp sent
  · rename_i missing
    have nobody : ∀ captured st, ¬ app.Registers captured st (.deferred index) := by
      intro captured st registers
      cases missing.symm.trans registers.1
    exact .untouched rfl rfl rfl (fun _ _ _ => stays _) (fun _ _ _ => List.not_mem_nil) nobody

/-- A step of another kind that sends no `joined`. -/
theorem Progress.other {after : SfuApp} {event : Event} {effects : List Effect}
    (clients : after.clients = app.clients) (flags : after.joinedSfu = app.joinedSfu)
    (sfu : after.sfu = app.sfu) (frames : ∀ socket room number,
      .sendJson socket (.joined room number) ∉ effects)
    (notClose : ∀ socket, event ≠ .close socket) (notDeferred : ∀ index, event ≠ .deferred index) :
    Progress app event after effects := by
  refine .untouched clients flags sfu (fun _ st _ => ?_) frames fun captured st registers => ?_
  · cases event with
    | close other => exact absurd rfl (notClose other)
    | _ => rfl
  · cases event with
    | deferred index => exact notDeferred index rfl
    | _ => exact registers

theorem progress_step (consistent : Consistent app) (event : Event) :
    Progress app event (app.step event).1 (app.step event).2 := by
  cases event with
  | opened socket =>
      simp only [step, onOpen]
      split <;> exact .other rfl rfl rfl (by simp) (by simp) (by simp)
  | join socket room initialized => exact progress_onJoin consistent socket room initialized
  | offer socket accepted answer =>
      simp only [step, onOffer]
      split
      · split
        · split <;> exact .other rfl rfl rfl (by simp) (by simp) (by simp)
        · exact .other rfl rfl rfl (by simp) (by simp) (by simp)
      · exact .other rfl rfl rfl (by simp) (by simp) (by simp)
  | ice socket candidate => exact .other rfl rfl rfl (by simp [step]) (by simp) (by simp)
  | leave socket =>
      simp only [step, onLeave]
      split <;> exact .other rfl rfl rfl (by simp) (by simp) (by simp)
  | close socket => exact progress_onClose consistent socket
  | stateChanged client state =>
      simp only [step, onStateChanged]
      split
      · split <;> exact .other rfl rfl rfl (by simp) (by simp) (by simp)
      · exact .other rfl rfl rfl (by simp) (by simp) (by simp)
  | localCandidate client candidate =>
      simp only [step, onLocalCandidate]
      split <;> exact .other rfl rfl rfl (by simp) (by simp) (by simp)
  | packet client packet => exact progress_onPacket client packet
  | deferred index => exact progress_runDeferred consistent index

/-! ## Joined frames and clients -/

/-- The connections that were sent `joined` are those of the clients. -/
structure Announced (app : SfuApp) (transcript : List (Event × List Effect)) : Prop where
  told : ∀ client st, app.clients.lookup client = some st →
    .joined st.room (numberOf client) ∈ sentTo st.ws transcript
  joined : ∀ socket room number, .joined room number ∈ sentTo socket transcript →
    ∃ client st, app.clients.lookup client = some st ∧ st.ws = socket ∧ st.room = room ∧
      numberOf client = number

variable {transcript : List (Event × List Effect)}

theorem Announced.create : Announced SfuApp.create [] where
  told := fun _ _ found => nomatch found
  joined := fun _ _ _ sent => by cases sent

theorem Announced.step (consistent : Consistent app) (announced : Announced app transcript)
    (event : Event) :
    Announced (app.step event).1 (transcript ++ [(event, (app.step event).2)]) := by
  cases progress_step consistent event with
  | quiet clients stays flags members frames nobody =>
      constructor
      · intro client st known
        rw [clients] at known
        exact mem_sentTo_snoc.mpr ⟨stays client st known, .inl (announced.told client st known)⟩
      · intro socket room number sent
        rw [clients]
        rcases (mem_sentTo_snoc.mp sent).2 with earlier | now
        · exact announced.joined socket room number earlier
        · exact absurd now (frames socket room number)
  | joined newcomer clients flags sfu stays frames nobody =>
      rw [frames]
      constructor
      · intro client st known
        apply mem_sentTo_snoc.mpr
        refine ⟨stays st.ws, ?_⟩
        rw [clients, lookup_insert_eq] at known
        split at known
        · rename_i same
          cases known
          rw [same]
          exact Or.inr (List.mem_singleton.mpr rfl)
        · exact Or.inl (announced.told client st known)
      · intro socket room number sent
        rw [clients]
        rcases (mem_sentTo_snoc.mp sent).2 with earlier | now
        · rcases announced.joined socket room number earlier with ⟨client, st, before, rest⟩
          refine ⟨client, st, ?_, rest⟩
          rw [lookup_insert_eq, if_neg (Nat.ne_of_lt (consistent.lt_nextRef before))]
          exact before
        · cases List.mem_singleton.mp now
          exact ⟨app.nextRef, newcomer, AList.lookup_insert _, rfl, rfl, rfl⟩
  | registered captured newcomer registers living same first clients flags sfu stays frames =>
      constructor
      · intro client st known
        rw [clients] at known
        exact mem_sentTo_snoc.mpr ⟨stays st.ws, Or.inl (announced.told client st known)⟩
      · intro socket room number sent
        rw [clients]
        rcases (mem_sentTo_snoc.mp sent).2 with earlier | now
        · exact announced.joined socket room number earlier
        · exact absurd now (frames socket _)
  | closed leaver st closing left clients flags sfu frames =>
      have closes : ∀ socket, event.closes socket = false ↔ st.ws ≠ socket := by
        intro socket
        rw [closing]
        exact decide_eq_false_iff_not
      constructor
      · intro client other known
        rcases (clients client other).mp known with ⟨before, different⟩
        refine mem_sentTo_snoc.mpr ⟨(closes _).mpr fun same => ?_,
          .inl (announced.told client other before)⟩
        exact different (same_of_ws consistent left before same.symm)
      · intro socket room number sent
        rcases mem_sentTo_snoc.mp sent with ⟨stays, earlier | now⟩
        · rcases announced.joined socket room number earlier with
            ⟨client, other, before, isSocket, rest⟩
          refine ⟨client, other, (clients client other).mpr ⟨before, fun same => ?_⟩,
            isSocket, rest⟩
          rw [same, left] at before
          cases before
          exact (closes socket).mp stays isSocket
        · rw [frames] at now
          cases now

/-! ## The property over one step -/

/-- Every client whose registration task has run is a member of its room or has
been sent an error. -/
def Heard (app : SfuApp) (transcript : List (Event × List Effect)) : Prop :=
  ∀ client st, app.clients.lookup client = some st → app.joinedSfu.lookup client = some true →
    app.Member st.room st.id st.transport ∨ SentError st.ws transcript

theorem noBlackHole_iff_heard (consistent : Consistent app)
    (announced : Announced app transcript) :
    NoBlackHole app transcript ↔ Heard app transcript := by
  constructor
  · intro sound client st known flagged
    rcases consistent.owned client st known with ⟨isOpen, _, named, _⟩
    rw [named]
    exact sound st.ws client st st.room (numberOf client) isOpen known
      (announced.told client st known) flagged
  · intro heard socket client st room number owns known sent flagged
    rcases announced.joined socket room number sent with
      ⟨other, otherSt, otherKnown, isSocket, isRoom, isNumber⟩
    have isOpen := (consistent.owned other otherSt otherKnown).1
    rw [isSocket, owns] at isOpen
    cases isOpen
    cases known.symm.trans otherKnown
    have outcome := heard client st known flagged
    rw [(consistent.owned client st known).2.2.1, isSocket, isRoom] at outcome
    rw [← isNumber]
    exact outcome

/-- A membership survives another registration. -/
theorem egress_addParticipant_of_member {server : SFUServer TransportRef} {room other : String}
    {id pid : ParticipantId} {sink : Option TransportRef}
    {view : Option TransportRef × UnorderedMap (BitVec 32) (BitVec 16)}
    (member : server.egress other pid = some view) :
    (server.addParticipant room id sink).1.egress other pid = some view := by
  rcases SfuResponse.status_cases (server.addParticipant room id sink).2 with
    ⟨success, _⟩ | ⟨⟨error, failed⟩, _⟩
  · rw [SFUServer.egress_addParticipant_ok success, if_neg]
    · exact member
    · intro here
      have absent := (SFUServer.participant_addParticipant_ok success).1
      rw [SFUServer.egress, here.1, here.2, absent] at member
      cases member
  · rw [SFUServer.egress_addParticipant_error failed]
    exact member

/-- A client is not a member of its room before its first registration. -/
theorem not_member_unregistered (consistent : Consistent app) {client : ClientRef}
    {st : ClientState} (known : app.clients.lookup client = some st)
    (first : app.joinedSfu.lookup client ≠ some true) :
    ¬ app.Member st.room st.id st.transport := by
  rintro ⟨seqs, member⟩
  rcases consistent.members _ _ _ seqs member with ⟨owner, other, found, _, _, sameSink, flagged⟩
  have sameClient := Option.some.inj sameSink
  rw [consistent.numbered client st known, consistent.numbered owner other found] at sameClient
  rw [← sameClient] at flagged
  exact first flagged

/-- The first registration makes its client a member exactly when its id is free
and the room has a place. -/
theorem member_registered_iff (consistent : Consistent app) (wellFormed : app.sfu.WellFormed)
    {client : ClientRef} {st : ClientState} (known : app.clients.lookup client = some st)
    (first : app.joinedSfu.lookup client ≠ some true) {after : SfuApp}
    (sfu : after.sfu = (app.sfu.addParticipant st.room st.id (some st.transport)).1) :
    after.Member st.room st.id st.transport ↔
      app.sfu.participant st.room st.id = none ∧
        ∀ room, app.sfu.findRoom st.room = some room → room.size < Room.kMaxParticipants := by
  rw [← SFUServer.addParticipant_ok_iff wellFormed, Member, sfu]
  rcases SfuResponse.status_cases (app.sfu.addParticipant st.room st.id (some st.transport)).2 with
    ⟨success, _⟩ | ⟨⟨error, failed⟩, _⟩
  · rw [SFUServer.egress_addParticipant_ok success, if_pos ⟨rfl, rfl⟩]
    exact ⟨fun _ => success, fun _ => ⟨_, rfl⟩⟩
  · rw [SFUServer.egress_addParticipant_error failed]
    constructor
    · intro member
      exact absurd member (not_member_unregistered consistent known first)
    · intro success
      rw [failed] at success
      cases success

theorem heard_step_iff (consistent : Consistent app) (wellFormed : app.sfu.WellFormed)
    (heard : Heard app transcript) (event : Event) :
    Heard (app.step event).1 (transcript ++ [(event, (app.step event).2)]) ↔
      Admits app transcript event ∧ Spares app transcript event := by
  cases progress_step consistent event with
  | quiet clients stays flags members frames nobody =>
      constructor
      · intro _
        refine ⟨fun captured st registers => absurd registers (nobody captured st), ?_⟩
        intro leaver st client other closing left
        have stillOpen := stays leaver st left
        rw [closing] at stillOpen
        exact absurd rfl (of_decide_eq_false stillOpen)
      · intro _ client st known flagged
        rw [clients] at known
        rw [members client st known]
        refine (heard client st known ((flags client st known).mp flagged)).imp_right ?_
        rintro ⟨reason, sent⟩
        exact ⟨reason, mem_sentTo_snoc.mpr ⟨stays client st known, Or.inl sent⟩⟩
  | joined newcomer clients flags sfu stays frames nobody =>
      constructor
      · intro _
        refine ⟨fun captured st registers => absurd registers (nobody captured st), ?_⟩
        intro leaver st client other closing
        have stillOpen := stays st.ws
        rw [closing] at stillOpen
        exact absurd rfl (of_decide_eq_false stillOpen)
      · intro _ client st known flagged
        rw [clients, lookup_insert_eq] at known
        rw [flags, lookup_insert_eq] at flagged
        split at flagged
        · cases flagged
        · rename_i different
          rw [if_neg different] at known
          rw [Member, sfu]
          refine (heard client st known flagged).imp_right ?_
          rintro ⟨reason, sent⟩
          exact ⟨reason, mem_sentTo_snoc.mpr ⟨stays st.ws, Or.inl sent⟩⟩
  | registered captured newcomer registers living same first clients flags sfu stays frames =>
      have sentIff : ∀ socket, SentError socket (transcript ++ [(event, (app.step event).2)]) ↔
          SentError socket transcript := by
        intro socket
        apply exists_congr
        intro reason
        rw [mem_sentTo_snoc]
        exact ⟨fun sent => sent.2.resolve_right (frames socket _),
          fun sent => ⟨stays socket, Or.inl sent⟩⟩
      rw [same] at sfu
      have outcome := member_registered_iff consistent wellFormed living first sfu
      constructor
      · intro after
        refine ⟨fun other st runs => ?_, fun leaver st client other closing => ?_⟩
        · have sameTask : other = captured ∧ st = newcomer := by
            cases event with
            | deferred index =>
                cases registers.1.symm.trans runs.1
                cases registers.2.1.symm.trans runs.2.1
                exact ⟨rfl, rfl⟩
            | _ => cases runs
          have now := after captured.weak newcomer (by rw [clients]; exact living)
            (by rw [flags]; exact AList.lookup_insert _)
          rw [sentIff] at now
          rw [sameTask.1, sameTask.2, same]
          exact now.imp_left outcome.mp
        · have stillOpen := stays st.ws
          rw [closing] at stillOpen
          exact absurd rfl (of_decide_eq_false stillOpen)
      · intro safe client st known flagged
        rw [clients] at known
        rw [sentIff]
        by_cases here : client = captured.weak
        · rw [here, living] at known
          cases known
          have vacant := safe.1 captured newcomer registers
          rw [same] at vacant
          exact vacant.imp_left outcome.mpr
        · rw [flags, lookup_insert_eq, if_neg here] at flagged
          refine (heard client st known flagged).imp_left ?_
          rintro ⟨seqs, member⟩
          rw [Member, sfu]
          exact ⟨seqs, egress_addParticipant_of_member member⟩
  | closed leaver st closing left clients flags sfu frames =>
      have sentIff : ∀ client other, app.clients.lookup client = some other → client ≠ leaver →
          (SentError other.ws (transcript ++ [(event, (app.step event).2)]) ↔
            SentError other.ws transcript) := by
        intro client other known different
        apply exists_congr
        intro reason
        rw [mem_sentTo_snoc, frames, closing]
        constructor
        · exact fun sent => sent.2.resolve_right List.not_mem_nil
        · intro sent
          refine ⟨decide_eq_false fun same => ?_, .inl sent⟩
          exact different (same_of_ws consistent left known same.symm)
      have nobody : ∀ captured other, ¬ app.Registers captured other event := by
        intro captured other registers
        rw [closing] at registers
        exact registers
      have memberIff : ∀ other : ClientState,
          (app.step event).1.Member other.room other.id other.transport ↔
            ¬(other.room = st.room ∧ other.id = st.id) ∧
              app.Member other.room other.id other.transport := by
        intro other
        rw [Member, sfu, SFUServer.egress_removeParticipant]
        by_cases taken : other.room = st.room ∧ other.id = st.id
        · rw [if_pos taken]
          constructor
          · rintro ⟨_, nothing⟩
            cases nothing
          · exact fun member => absurd taken member.1
        · rw [if_neg taken]
          exact ⟨fun member => ⟨taken, member⟩, fun member => member.2⟩
      constructor
      · intro after
        refine ⟨fun captured other registers => absurd registers (nobody captured other), ?_⟩
        intro other otherSt client clientSt isClose otherLeft known different sameRoom sameId flagged
        have isLeaver : other = leaver := by
          apply same_of_ws consistent left otherLeft
          exact (Event.close.inj (isClose.symm.trans closing))
        rw [isLeaver] at different
        rw [isLeaver, left] at otherLeft
        cases otherLeft
        have outcome := after client clientSt ((clients client clientSt).mpr ⟨known, different⟩)
          (by rw [flags]; exact flagged)
        rw [memberIff, sentIff client clientSt known different] at outcome
        exact outcome.resolve_left fun member => member.1 ⟨sameRoom, sameId⟩
      · intro safe client other known flagged
        rcases (clients client other).mp known with ⟨before, different⟩
        rw [flags] at flagged
        rw [memberIff, sentIff client other before different]
        by_cases taken : other.room = st.room ∧ other.id = st.id
        · exact .inr (safe.2 leaver st client other closing left before different taken.1 taken.2
            flagged)
        · exact (heard client other before flagged).imp_left fun member => ⟨taken, member⟩

theorem wellFormed_step (wellFormed : app.sfu.WellFormed) (event : Event) :
    (app.step event).1.sfu.WellFormed := by
  cases event with
  | opened socket =>
      simp only [step, onOpen]
      split <;> exact wellFormed
  | join socket room initialized =>
      simp only [step, onJoin]
      split
      · split
        · exact wellFormed
        · split <;> exact wellFormed
      · exact wellFormed
  | offer socket accepted answer =>
      simp only [step, onOffer]
      split
      · split
        · split <;> exact wellFormed
        · exact wellFormed
      · exact wellFormed
  | ice socket candidate => exact wellFormed
  | leave socket =>
      simp only [step, onLeave]
      split <;> exact wellFormed
  | close socket =>
      simp only [step, onClose]
      split
      · exact wellFormed
      · exact wellFormed
      · split
        · exact wellFormed
        · exact wellFormed.removeParticipant
  | stateChanged client state =>
      simp only [step, onStateChanged]
      split
      · split <;> exact wellFormed
      · exact wellFormed
  | localCandidate client candidate =>
      simp only [step, onLocalCandidate]
      split <;> exact wellFormed
  | packet client packet =>
      simp only [step, onPacket]
      split
      · exact wellFormed.routePacket packet
      · exact wellFormed
  | deferred index =>
      simp only [step, runDeferred]
      split
      · rename_i task queued
        cases task with
        | sendCandidate weak candidate =>
            simp only [runTask]
            split <;> exact wellFormed
        | register captured =>
            simp only [runTask]
            split
            · exact wellFormed
            · split
              · exact wellFormed
              · exact wellFormed.addParticipant _
      · exact wellFormed

end Step

/-! ## Whole runs -/

/-- What every run keeps, whatever its registrations do. -/
structure Accounted (app : SfuApp) (transcript : List (Event × List Effect)) : Prop where
  consistent : Consistent app
  wellFormed : app.sfu.WellFormed
  announced : Announced app transcript

theorem accounted_run (events : List Event) :
    Accounted (machine.run events) (machine.transcript events) := by
  induction events using List.reverseRecOn with
  | nil => exact ⟨.create, SFUServer.WellFormed.create false, .create⟩
  | append_singleton past event induction =>
      rw [Machine.run_snoc, Machine.transcript_snoc]
      exact ⟨induction.consistent.step event, wellFormed_step induction.wellFormed event,
        induction.announced.step induction.consistent event⟩

/-- In a run, every open connection that was sent `joined` and whose registration
task has run is, at every moment, a member of its room or has been sent an error,
exactly when every client that gets registered finds its id free and fewer than
eight members in its room, or has been sent an error before, and no client that
leaves takes another one of its id and room with it. -/
theorem noBlackHole_iff_admits (events : List Event) :
    (∀ past, past <+: events → NoBlackHole (machine.run past) (machine.transcript past)) ↔
      ∀ past event, past ++ [event] <+: events →
        Admits (machine.run past) (machine.transcript past) event ∧
          Spares (machine.run past) (machine.transcript past) event := by
  have exactlyWhen : machine.recorded.Always (fun view => NoBlackHole view.1 view.2) events ↔
      machine.recorded.EveryStep
        (fun view event => Admits view.1 view.2 event ∧ Spares view.1 view.2 event) events := by
    apply @Machine.always_iff_everyStep_of_invariant _ _ _ machine.recorded
      fun view => Accounted view.1 view.2
    · intro past
      rw [Machine.run_recorded]
      exact accounted_run past
    · intro socket client st room number _ _ sent
      cases sent
    · intro view event accounted sound
      have after := accounted.announced.step accounted.consistent event
      have heard := (noBlackHole_iff_heard accounted.consistent accounted.announced).mp sound
      exact (noBlackHole_iff_heard (accounted.consistent.step event) after).trans
        (heard_step_iff accounted.consistent accounted.wellFormed heard event)
  simpa only [Machine.Always, Machine.EveryStep, Machine.run_recorded] using exactlyWhen

/-- One client from its connection to its registration. -/
def arrival (number : Nat) : List Event :=
  [.opened number, .join number "room" true, .stateChanged (number + 1) .connected, .deferred 0]

/-- The ninth client of a room: told that it has joined, its registration task
run, in no room and without an error. -/
theorem ninth_client_silent :
    ¬ NoBlackHole (machine.run ((List.range 9).flatMap arrival))
      (machine.transcript ((List.range 9).flatMap arrival)) := by
  intro sound
  have known : (machine.run ((List.range 9).flatMap arrival)).clients.lookup 9 =
      some { id := "9", room := "room", transport := 9, ws := 8 } := by decide +kernel
  have outside : (machine.run ((List.range 9).flatMap arrival)).sfu.egress "room" "9" = none := by
    decide +kernel
  have frames : sentTo 8 (machine.transcript ((List.range 9).flatMap arrival)) =
      [.joined "room" 9] := by decide +kernel
  rcases sound 8 9 _ "room" 9 (by decide +kernel) known (by decide +kernel) (by decide +kernel) with
    ⟨seqs, member⟩ | ⟨reason, sent⟩
  · cases outside.symm.trans member
  · rw [frames] at sent
    cases List.mem_singleton.mp sent

end SfuApp

end Vela
