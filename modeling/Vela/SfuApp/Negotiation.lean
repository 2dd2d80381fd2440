import Vela.Signaling.FingerprintBundle
import Vela.Signaling.Messages
import Vela.Signaling.SecureLink
import Vela.SfuApp.Lifecycle
import Vela.SfuApp.MessageHandler

/-! # Negotiation

How a client and the server process agree on a media link over one socket: join,
offer and answer, with candidates in between. Each end's description carries its
fingerprint. Texts cross the socket in order, and a text reads as the object that
was dumped. -/

namespace Vela

open Foundation Document UnorderedMap

open DtlsSrtp (Role packDescription unpackDescription fpMarker)

/-! ## Texts -/

def octets (text : String) : Bytes := text.toByteArray.data.toList.map UInt8.toBitVec

/-- A document's strings are text, so not every `std::string` can be dumped. -/
def textOf (bytes : Bytes) : Option String :=
  String.fromUTF8? ⟨(bytes.map UInt8.ofBitVec).toArray⟩

theorem octets_textOf {bytes : Bytes} {text : String} (isText : textOf bytes = some text) :
    octets text = bytes := by
  rw [textOf, String.fromUTF8?] at isText
  split at isText
  · cases isText
    simp [octets, String.fromUTF8, Function.comp_def]
  · cases isText

/-- The payload that an end makes of its ICE description, if it has one. -/
def bundle (description : Option Bytes) (fingerprint : Bytes) : Option String :=
  description.bind fun ice => textOf (packDescription ice fingerprint)

/-- The fingerprint that an end reads from a payload. -/
def fingerprintIn (payload : String) : Bytes := (unpackDescription (octets payload)).2

theorem fingerprintIn_bundle {description : Option Bytes} {fingerprint : Bytes} {payload : String}
    (unmarked : ∀ ice ∈ description, ¬fpMarker <:+: ice)
    (isBundle : bundle description fingerprint = some payload) :
    fingerprintIn payload = fingerprint := by
  rcases Option.bind_eq_some_iff.mp isBundle with ⟨ice, isDescription, isText⟩
  rw [fingerprintIn, octets_textOf isText,
    DtlsSrtp.unpack_packDescription (unmarked ice isDescription)]

/-- The object of a frame. -/
def Frame.fields : Frame → Fields
  | .joined room id =>
      [("type", .string "joined"), ("room", .string room), ("id", .number (.unsigned id.toNat))]
  | .answer payload => [("type", .string "answer"), ("payload", .string payload)]
  | .ice payload => [("type", .string "ice"), ("payload", .string payload)]
  | .error reason => [("type", .string "error"), ("reason", .string reason)]

def Frame.type : Frame → String
  | .joined _ _ => "joined"
  | .answer _ => "answer"
  | .ice _ => "ice"
  | .error _ => "error"

theorem Frame.lookup_type (frame : Frame) :
    frame.fields.lookup "type" = some (.string frame.type) := by
  cases frame <;> rfl

/-! ## One client and the server process -/

/-- `up` and `down` are the objects that are on their way to the server and to the
client. -/
structure Negotiation (crypto : Crypto) where
  app : SfuApp
  server : RtpTransport crypto
  client : RtpTransport crypto
  signaling : SignalingClient
  connected : Bool := false
  announced : Bool := false
  up : List Fields := []
  down : List Fields := []

namespace Negotiation

variable {crypto : Crypto}

/-- What the two ends know from the start. -/
structure Setup where
  socket : SocketId
  room : String
  fingerprint : Role → Bytes

def create (crypto : Crypto) : Negotiation crypto where
  app := SfuApp.create
  server := (RtpTransport.securedMachine crypto false true).initial
  client := (RtpTransport.securedMachine crypto true true).initial
  signaling :=
    { callbacks :=
        { onJoined := true, onPeerJoined := false, onPeerLeft := false, onOffer := false,
          onAnswer := true, onIceCandidate := true, onError := true }
      selfId := 0
      stopping := false }

/-- `initialized` and `accepted` are what the server's agent makes of the join and of
the client's description, `description` is what an end's agent has to offer. -/
inductive Event (crypto : Crypto) where
  | connect
  | announce
  | serverReceives (initialized accepted : Bool) (description : Option Bytes) (sslNew : Bool)
  | clientReceives (description : Option Bytes) (sslNew : Bool)
  | clientCandidate (candidate : String)
  | process (event : SfuApp.Event)
  | transport (role : Role) (event : RtpTransport.Event crypto)

/-- What reaches the server process on the client's socket, and what its transport
reports, are events of their own. -/
def isOwn (setup : Setup) (app : SfuApp) : SfuApp.Event → Bool
  | .opened socket => socket = setup.socket
  | .join socket _ _ => socket = setup.socket
  | .offer socket _ _ => socket = setup.socket
  | .ice socket _ => socket = setup.socket
  | .leave socket => socket = setup.socket
  | .stateChanged client _ => app.sockets.lookup setup.socket = some (some client)
  | _ => false

/-- The objects sent on the client's socket. -/
def sentTo (socket : SocketId) (effects : List SfuApp.Effect) : List Fields :=
  effects.filterMap fun effect =>
    match effect with
    | .sendJson other frame => if other = socket then some frame.fields else none
    | _ => none

/-- The client that the socket has joined as. -/
def joinedAs (setup : Setup) (app : SfuApp) : Option ClientRef :=
  (app.sockets.lookup setup.socket).join

/-- The payload of an offer that the handler gets to. -/
def offered? (setup : Setup) (app : SfuApp) (fields : Fields) : Option String :=
  match joinedAs setup app, fields.lookup "payload" with
  | some _, some (.string payload) => if kindOf fields = "offer" then some payload else none
  | _, _ => none

/-- A call of a transport, as its end and its event. -/
abbrev Told (crypto : Crypto) := List (Role × RtpTransport.Event crypto)

/-- An accepted offer makes the client's fingerprint known. -/
def toldServer (setup : Setup) (app : SfuApp) (fields : Fields) (accepted sslNew : Bool) :
    Told crypto :=
  match offered? setup app fields with
  | some payload =>
      if accepted then [(.server, .setRemoteFingerprint (fingerprintIn payload) sslNew)] else []
  | none => []

def tell (negotiation : Negotiation crypto) : Told crypto → Negotiation crypto
  | [] => negotiation
  | (.server, event) :: rest =>
      { negotiation with server := (negotiation.server.step event).1 }.tell rest
  | (.client, event) :: rest =>
      { negotiation with client := (negotiation.client.step event).1 }.tell rest

/-- The server's transport reports its state to the process. -/
def reported (setup : Setup) (app : SfuApp) (role : Role) (state : IceState) : SfuApp :=
  match role, joinedAs setup app with
  | .server, some client => (app.onStateChanged client state).1
  | _, _ => app

/-- The callbacks that the client's program has set. -/
def callback (setup : Setup) (connected : Bool) (description : Option Bytes) (sslNew : Bool) :
    SignalingClient.Notification → List Fields × Told crypto
  | .joined _ =>
      match bundle description (setup.fingerprint .client) with
      | some payload =>
          match SignalingClient.sendOffer connected setup.room 0 payload with
          | .ok fields => ([fields], [])
          | .error _ => ([], [])
      | none => ([], [])
  | .answer _ payload => ([], [(.client, .setRemoteFingerprint (fingerprintIn payload) sslNew)])
  | _ => ([], [])

def step (setup : Setup) (negotiation : Negotiation crypto) :
    Event crypto → Negotiation crypto × Told crypto
  | .connect =>
      if negotiation.connected then (negotiation, [])
      else
        ({ negotiation with
            app := (negotiation.app.onOpen setup.socket).1
            connected := true }, [])
  | .announce =>
      if negotiation.connected && !negotiation.announced then
        ({ negotiation with
            announced := true
            up := negotiation.up ++ [SignalingClient.joinMessage setup.room] }, [])
      else (negotiation, [])
  | .serverReceives initialized accepted description sslNew =>
      match negotiation.up with
      | [] => (negotiation, [])
      | fields :: rest =>
          let offered := fun _ => (accepted, bundle description (setup.fingerprint .server))
          match negotiation.app.onObject setup.socket fields initialized offered with
          | .error _ => ({ negotiation with up := rest }, [])
          | .ok (app, effects) =>
              let told := toldServer setup negotiation.app fields accepted sslNew
              ({ negotiation with
                  app
                  up := rest
                  down := negotiation.down ++ sentTo setup.socket effects }.tell told, told)
  | .clientReceives description sslNew =>
      match negotiation.down with
      | [] => (negotiation, [])
      | fields :: rest =>
          match negotiation.signaling.dispatchObject fields with
          | .error _ => ({ negotiation with down := rest }, [])
          | .ok (signaling, notifications) =>
              let called := notifications.map
                (callback setup negotiation.connected description sslNew)
              let told := called.flatMap Prod.snd
              ({ negotiation with
                  signaling
                  down := rest
                  up := negotiation.up ++ called.flatMap Prod.fst }.tell told, told)
  | .clientCandidate candidate =>
      match SignalingClient.sendIceCandidate negotiation.connected setup.room 0 candidate with
      | .ok fields => ({ negotiation with up := negotiation.up ++ [fields] }, [])
      | .error _ => (negotiation, [])
  | .process event =>
      if isOwn setup negotiation.app event then (negotiation, [])
      else
        let (app, effects) := negotiation.app.step event
        ({ negotiation with
            app, down := negotiation.down ++ sentTo setup.socket effects }, [])
  | .transport role event =>
      match event with
      -- Signaling alone sets fingerprints.
      | .setRemoteFingerprint _ _ => (negotiation, [])
      | .iceState state _ =>
          ({ negotiation with app := reported setup negotiation.app role state }.tell
            [(role, event)], [(role, event)])
      | _ => (negotiation.tell [(role, event)], [(role, event)])

def machine (crypto : Crypto) (setup : Setup) :
    Machine (Negotiation crypto) (Event crypto) (Told crypto) where
  initial := create crypto
  step := step setup

/-! ## The ends -/

section Ends

variable {setup : Setup} {negotiation : Negotiation crypto}

def atEnd (negotiation : Negotiation crypto) : Role → RtpTransport crypto
  | .client => negotiation.client
  | .server => negotiation.server

/-- Telling touches the transports only. -/
theorem tell_frame (negotiation : Negotiation crypto) (told : Told crypto) :
    ∃ server client, negotiation.tell told = { negotiation with server, client } := by
  induction told generalizing negotiation with
  | nil => exact ⟨negotiation.server, negotiation.client, rfl⟩
  | cons call rest induction =>
      rcases call with ⟨role, event⟩
      cases role with
      | server => exact induction { negotiation with server := (negotiation.server.step event).1 }
      | client => exact induction { negotiation with client := (negotiation.client.step event).1 }

@[simp] theorem tell_app (negotiation : Negotiation crypto) (told : Told crypto) :
    (negotiation.tell told).app = negotiation.app := by
  rcases tell_frame negotiation told with ⟨server, client, same⟩
  rw [same]

@[simp] theorem tell_up (negotiation : Negotiation crypto) (told : Told crypto) :
    (negotiation.tell told).up = negotiation.up := by
  rcases tell_frame negotiation told with ⟨server, client, same⟩
  rw [same]

@[simp] theorem tell_down (negotiation : Negotiation crypto) (told : Told crypto) :
    (negotiation.tell told).down = negotiation.down := by
  rcases tell_frame negotiation told with ⟨server, client, same⟩
  rw [same]

@[simp] theorem tell_connected (negotiation : Negotiation crypto) (told : Told crypto) :
    (negotiation.tell told).connected = negotiation.connected := by
  rcases tell_frame negotiation told with ⟨server, client, same⟩
  rw [same]

@[simp] theorem tell_announced (negotiation : Negotiation crypto) (told : Told crypto) :
    (negotiation.tell told).announced = negotiation.announced := by
  rcases tell_frame negotiation told with ⟨server, client, same⟩
  rw [same]

@[simp] theorem tell_signaling (negotiation : Negotiation crypto) (told : Told crypto) :
    (negotiation.tell told).signaling = negotiation.signaling := by
  rcases tell_frame negotiation told with ⟨server, client, same⟩
  rw [same]

theorem tell_atEnd (negotiation : Negotiation crypto) (told : Told crypto) (role : Role) :
    (negotiation.tell told).atEnd role =
      (SecureLink.own role told).foldl (fun transport event => (transport.step event).1)
        (negotiation.atEnd role) := by
  induction told generalizing negotiation with
  | nil => rfl
  | cons call rest induction =>
      rcases call with ⟨other, event⟩
      cases other with
      | server =>
          rw [tell, induction]
          cases role <;> rfl
      | client =>
          rw [tell, induction]
          cases role <;> rfl

/-- What is told in a step is all that happens to a transport in it. -/
theorem step_atEnd (setup : Setup) (negotiation : Negotiation crypto) (event : Event crypto)
    (role : Role) :
    (step setup negotiation event).1.atEnd role =
      (SecureLink.own role (step setup negotiation event).2).foldl
        (fun transport event => (transport.step event).1) (negotiation.atEnd role) := by
  have same : ∀ {after : Negotiation crypto}, after.server = negotiation.server →
      after.client = negotiation.client → after.atEnd role = negotiation.atEnd role := by
    intro after sameServer sameClient
    cases role <;> assumption
  have toldEnd : ∀ {after : Negotiation crypto} (told : Told crypto),
      after.server = negotiation.server → after.client = negotiation.client →
      (after.tell told).atEnd role = (SecureLink.own role told).foldl
        (fun transport event => (transport.step event).1) (negotiation.atEnd role) := by
    intro after told sameServer sameClient
    rw [tell_atEnd, same sameServer sameClient]
  cases event with
  | connect =>
      simp only [step]
      split <;> exact same rfl rfl
  | announce =>
      simp only [step]
      split <;> exact same rfl rfl
  | serverReceives initialized accepted description sslNew =>
      simp only [step]
      split
      · exact same rfl rfl
      · split
        · exact same rfl rfl
        · exact toldEnd _ rfl rfl
  | clientReceives description sslNew =>
      simp only [step]
      split
      · exact same rfl rfl
      · split
        · exact same rfl rfl
        · exact toldEnd _ rfl rfl
  | clientCandidate candidate =>
      simp only [step]
      split <;> exact same rfl rfl
  | process event =>
      simp only [step]
      split <;> exact same rfl rfl
  | transport other event =>
      cases event with
      | setRemoteFingerprint fingerprint sslNew => exact same rfl rfl
      | iceState state sslNew => exact toldEnd _ rfl rfl
      | data datagram => exact toldEnd _ rfl rfl
      | handshakeEnd handshake => exact toldEnd _ rfl rfl
      | send packet => exact toldEnd _ rfl rfl

/-- Everything that is told, in order. -/
def history (setup : Setup) (events : List (Event crypto)) : SecureLink.History crypto :=
  (machine crypto setup).produced events

theorem atEnd_run (setup : Setup) (events : List (Event crypto)) (role : Role) :
    ((machine crypto setup).run events).atEnd role =
      (RtpTransport.securedMachine crypto (SecureLink.asClient role) true).run
        (SecureLink.own role (history setup events)) := by
  induction events using List.reverseRecOn with
  | nil => cases role <;> rfl
  | append_singleton past event induction =>
      rw [Machine.run_snoc, history, Machine.produced_snoc, SecureLink.own, List.filterMap_append,
        Machine.run_append]
      exact (step_atEnd setup _ event role).trans (by rw [induction]; rfl)

end Ends

/-! ## What crosses the socket -/

/-- What the client sends. -/
inductive Upward (setup : Setup) : Fields → Prop where
  | join : Upward setup (SignalingClient.joinMessage setup.room)
  | offer {payload : String} (genuine : fingerprintIn payload = setup.fingerprint .client)
      {fields : Fields}
      (sends : SignalingClient.sendOffer true setup.room 0 payload = .ok fields) :
      Upward setup fields
  | ice {candidate : String} {fields : Fields}
      (sends : SignalingClient.sendIceCandidate true setup.room 0 candidate = .ok fields) :
      Upward setup fields

/-- What the server sends. -/
def Downward (setup : Setup) (fields : Fields) : Prop :=
  ∃ frame : Frame, fields = frame.fields ∧
    ∀ payload, frame = .answer payload → fingerprintIn payload = setup.fingerprint .server

section Messages

variable {setup : Setup} {app : SfuApp} {initialized : Bool}
  {offered : String → Bool × Option String}

theorem onObject_join (app : SfuApp) (setup : Setup) (initialized : Bool)
    (offered : String → Bool × Option String) :
    app.onObject setup.socket (SignalingClient.joinMessage setup.room) initialized offered =
      .ok (app.step (.join setup.socket setup.room initialized)) := by
  simp only [SfuApp.onObject, SignalingClient.joinMessage, value, List.lookup_cons, BEq.rfl,
    getString, SfuApp.step, SfuApp.onJoin]
  cases found : app.sockets.lookup setup.socket with
  | none => rfl
  | some owner => cases owner <;> rfl

theorem onObject_offer (app : SfuApp) {payload : String} {fields : Fields}
    (sends : SignalingClient.sendOffer true setup.room 0 payload = .ok fields) :
    app.onObject setup.socket fields initialized offered =
      .ok (app.step (.offer setup.socket (offered payload).1 (offered payload).2)) := by
  rcases SignalingClient.lookup_sendMessage sends with ⟨isType, isPayload, _⟩
  have typed : value fields "type" getString "" = .ok "offer" := value_of_lookup isType
  have carried : value fields "payload" getString "" = .ok payload := value_of_lookup isPayload
  rw [SfuApp.onObject, typed, ok_bind]
  simp only [String.reduceEq, if_false, if_true, carried, ok_bind, SfuApp.step]
  cases found : app.sockets.lookup setup.socket with
  | none =>
      simp only [SfuApp.onOffer, found]
      rfl
  | some owner =>
      cases owner with
      | none =>
          simp only [SfuApp.onOffer, found]
          rfl
      | some client => rfl

theorem onObject_ice (app : SfuApp) {candidate : String} {fields : Fields}
    (sends : SignalingClient.sendIceCandidate true setup.room 0 candidate = .ok fields) :
    app.onObject setup.socket fields initialized offered = .ok (app, []) := by
  rcases SignalingClient.lookup_sendMessage sends with ⟨isType, isPayload, _⟩
  have typed : value fields "type" getString "" = .ok "ice" := value_of_lookup isType
  have carried : value fields "payload" getString "" = .ok candidate := value_of_lookup isPayload
  rw [SfuApp.onObject, typed, ok_bind]
  simp only [String.reduceEq, if_false, if_true, carried, ok_bind, SfuApp.step]
  cases found : app.sockets.lookup setup.socket with
  | none => rfl
  | some owner => cases owner <;> rfl

/-- The frames of a step, when no offer of this client is in it. -/
theorem downward_of_step {event : SfuApp.Event}
    (genuine : ∀ accepted payload, event = .offer setup.socket accepted (some payload) →
      fingerprintIn payload = setup.fingerprint .server) :
    ∀ fields ∈ sentTo setup.socket (app.step event).2, Downward setup fields := by
  intro fields member
  rcases List.mem_filterMap.mp member with ⟨effect, made, isSent⟩
  cases effect with
  | sendJson socket frame =>
      simp only at isSent
      split at isSent
      · rename_i isSocket
        refine ⟨frame, (Option.some.inj isSent).symm, fun payload isAnswer => ?_⟩
        rw [isSocket, isAnswer] at made
        exact genuine true payload (SfuApp.cause_of_effect made)
      · cases isSent
  | _ => cases isSent

/-- What the client's program is told of a frame. -/
def noticesOf (client : SignalingClient) : Frame → List SignalingClient.Notification
  | .joined _ id => if client.callbacks.onJoined then [.joined id.toNat] else []
  | .answer payload => if client.callbacks.onAnswer then [.answer 0 payload] else []
  | .ice payload => if client.callbacks.onIceCandidate then [.iceCandidate 0 payload] else []
  | .error reason => client.reportError .protocol reason

theorem dispatchObject_frame {client : SignalingClient}
    (alone : client.callbacks.onPeerJoined = false)
    (frame : Frame) :
    ∃ signaling, client.dispatchObject frame.fields = .ok (signaling, noticesOf client frame) ∧
      signaling.callbacks = client.callbacks ∧ signaling.stopping = client.stopping := by
  cases frame with
  | joined room id =>
      refine ⟨{ client with selfId := id.toNat }, ?_, rfl, rfl⟩
      rw [SignalingClient.dispatchObject]
      simp only [alone]
      rfl
  | answer payload =>
      have typed : value (Frame.answer payload).fields "type" getString "" = .ok "answer" := rfl
      have sent : value (Frame.answer payload).fields "from" getUInt64 0 = .ok 0 := rfl
      have carried : value (Frame.answer payload).fields "payload" getString "" = .ok payload := rfl
      refine ⟨client, ?_, rfl, rfl⟩
      rw [SignalingClient.dispatchObject, typed, ok_bind, sent, ok_bind]
      simp only [String.reduceEq, if_false, if_true, SignalingClient.payloadFor_of_value carried]
      rfl
  | ice payload =>
      have typed : value (Frame.ice payload).fields "type" getString "" = .ok "ice" := rfl
      have sent : value (Frame.ice payload).fields "from" getUInt64 0 = .ok 0 := rfl
      have carried : value (Frame.ice payload).fields "payload" getString "" = .ok payload := rfl
      refine ⟨client, ?_, rfl, rfl⟩
      rw [SignalingClient.dispatchObject, typed, ok_bind, sent, ok_bind]
      simp only [String.reduceEq, if_false, if_true, SignalingClient.payloadFor_of_value carried]
      rfl
  | error reason =>
      refine ⟨client, ?_, rfl, rfl⟩
      rfl

end Messages

/-! ## Whose fingerprint is told -/

def Event.description? : Event crypto → Option Bytes
  | .serverReceives _ _ description _ => description
  | .clientReceives description _ => description
  | _ => none

/-- An ICE description has no line that starts with the mark. -/
def Unmarked (event : Event crypto) : Prop := ∀ ice ∈ event.description?, ¬fpMarker <:+: ice

/-- Fingerprints are told to the other end only. -/
def Genuine (setup : Setup) (told : Told crypto) : Prop :=
  ∀ role fingerprint sslNew, (role, .setRemoteFingerprint fingerprint sslNew) ∈ told →
    fingerprint = setup.fingerprint role.peer

structure Sound (setup : Setup) (negotiation : Negotiation crypto) : Prop where
  up : ∀ fields ∈ negotiation.up, Upward setup fields
  down : ∀ fields ∈ negotiation.down, Downward setup fields
  callbacks : negotiation.signaling.callbacks = (create crypto).signaling.callbacks

section Sound

variable {setup : Setup} {negotiation : Negotiation crypto}

theorem genuine_nil : Genuine setup ([] : Told crypto) := fun _ _ _ member => nomatch member

theorem Genuine.append {earlier later : Told crypto} (before : Genuine setup earlier)
    (after : Genuine setup later) : Genuine setup (earlier ++ later) := by
  intro role fingerprint sslNew member
  rcases List.mem_append.mp member with early | late
  · exact before role fingerprint sslNew early
  · exact after role fingerprint sslNew late

theorem Sound.tell (sound : Sound setup negotiation) (told : Told crypto) :
    Sound setup (negotiation.tell told) := by
  constructor
  · rw [tell_up]
    exact sound.up
  · rw [tell_down]
    exact sound.down
  · rw [tell_signaling]
    exact sound.callbacks

theorem forall_append {Good : Fields → Prop} {earlier later : List Fields}
    (before : ∀ fields ∈ earlier, Good fields) (after : ∀ fields ∈ later, Good fields) :
    ∀ fields ∈ earlier ++ later, Good fields :=
  fun fields member => (List.mem_append.mp member).elim (before fields) (after fields)

/-- The offer that is read off a message of the client's. -/
theorem offered_upward {app : SfuApp} {fields : Fields} {payload : String}
    (upward : Upward setup fields) (isOffered : offered? setup app fields = some payload) :
    fingerprintIn payload = setup.fingerprint .client := by
  rw [offered?] at isOffered
  split at isOffered
  · rename_i carried _ isPayload
    split at isOffered
    · rename_i isOffer
      cases isOffered
      cases upward with
      | join => cases isPayload
      | offer genuine sends =>
          rw [(SignalingClient.lookup_sendMessage sends).2.1] at isPayload
          cases isPayload
          exact genuine
      | ice sends =>
          rw [kindOf, (SignalingClient.lookup_sendMessage sends).1] at isOffer
          exact absurd isOffer (by decide)
    · cases isOffered
  · cases isOffered

/-- The server handles a message of the client's. -/
theorem onObject_upward {app : SfuApp} {fields : Fields} (upward : Upward setup fields)
    (initialized accepted : Bool) (answer : Option String)
    (genuine : ∀ payload ∈ answer, fingerprintIn payload = setup.fingerprint .server) :
    ∃ after effects,
      app.onObject setup.socket fields initialized (fun _ => (accepted, answer)) =
        .ok (after, effects) ∧
      ∀ fields ∈ sentTo setup.socket effects, Downward setup fields := by
  cases upward with
  | join =>
      refine ⟨(app.step (.join setup.socket setup.room initialized)).1,
        (app.step (.join setup.socket setup.room initialized)).2,
        onObject_join app setup initialized _, downward_of_step ?_⟩
      intro _ _ isOffer
      cases isOffer
  | offer _ sends =>
      refine ⟨(app.step (.offer setup.socket accepted answer)).1,
        (app.step (.offer setup.socket accepted answer)).2, onObject_offer app sends,
        downward_of_step ?_⟩
      intro _ payload isOffer
      cases isOffer
      exact genuine payload rfl
  | ice sends =>
      exact ⟨_, _, onObject_ice app sends, fun _ member => absurd member List.not_mem_nil⟩

/-- The client's program answers a frame of the server's. -/
theorem callback_sound {frame : Frame} {connected : Bool} {description : Option Bytes}
    (unmarked : ∀ ice ∈ description, ¬fpMarker <:+: ice)
    (genuine : ∀ payload, frame = .answer payload →
      fingerprintIn payload = setup.fingerprint .server)
    (client : SignalingClient) (sslNew : Bool) {notification : SignalingClient.Notification}
    (notified : notification ∈ noticesOf client frame) :
    (∀ fields ∈ (@callback crypto setup connected description sslNew notification).1,
        Upward setup fields) ∧
      Genuine setup (@callback crypto setup connected description sslNew notification).2 := by
  have silent : (∀ fields ∈ ([] : List Fields), Upward setup fields) ∧
      Genuine setup ([] : Told crypto) :=
    ⟨fun _ member => absurd member List.not_mem_nil, genuine_nil⟩
  cases frame with
  | joined room id =>
      rw [noticesOf] at notified
      split at notified
      · rw [List.mem_singleton.mp notified]
        simp only [callback]
        split
        · rename_i payload isBundle
          split
          · rename_i fields sends
            refine ⟨fun other member => ?_, genuine_nil⟩
            rw [List.mem_singleton.mp member]
            cases connected with
            | false => cases sends
            | true => exact .offer (fingerprintIn_bundle unmarked isBundle) sends
          · exact silent
        · exact silent
      · cases notified
  | answer payload =>
      rw [noticesOf] at notified
      split at notified
      · rw [List.mem_singleton.mp notified]
        refine ⟨fun _ member => absurd member List.not_mem_nil, ?_⟩
        intro role fingerprint isNew member
        cases List.mem_singleton.mp member
        exact genuine payload rfl
      · cases notified
  | ice payload =>
      rw [noticesOf] at notified
      split at notified
      · rw [List.mem_singleton.mp notified]
        exact silent
      · cases notified
  | error reason =>
      rw [noticesOf, SignalingClient.reportError] at notified
      split at notified
      · rw [List.mem_singleton.mp notified]
        exact silent
      · cases notified

theorem Sound.step (sound : Sound setup negotiation) {event : Event crypto}
    (unmarked : Unmarked event) :
    Sound setup (Negotiation.step setup negotiation event).1 ∧
      Genuine setup (Negotiation.step setup negotiation event).2 := by
  cases event with
  | connect =>
      simp only [Negotiation.step]
      split
      · exact ⟨sound, genuine_nil⟩
      · exact ⟨⟨sound.up, sound.down, sound.callbacks⟩, genuine_nil⟩
  | announce =>
      simp only [Negotiation.step]
      split
      · refine ⟨⟨forall_append sound.up ?_, sound.down, sound.callbacks⟩, genuine_nil⟩
        intro fields member
        rw [List.mem_singleton.mp member]
        exact .join
      · exact ⟨sound, genuine_nil⟩
  | serverReceives initialized accepted description sslNew =>
      simp only [Negotiation.step]
      split
      · exact ⟨sound, genuine_nil⟩
      · rename_i fields rest waiting
        have upward : Upward setup fields := sound.up fields (waiting ▸ List.mem_cons_self)
        have later : ∀ other ∈ rest, Upward setup other :=
          fun other member => sound.up other (waiting ▸ List.mem_cons_of_mem _ member)
        rcases onObject_upward upward initialized accepted
          (bundle description (setup.fingerprint .server))
          (fun payload isBundle => fingerprintIn_bundle unmarked isBundle) with
          ⟨after, effects, handled, downward⟩
        rw [handled]
        simp only
        constructor
        · apply Sound.tell
          exact ⟨later, forall_append sound.down downward, sound.callbacks⟩
        · rw [toldServer]
          split
          · rename_i payload isOffered
            split
            · intro role fingerprint isNew member
              cases List.mem_singleton.mp member
              exact offered_upward upward isOffered
            · exact genuine_nil
          · exact genuine_nil
  | clientReceives description sslNew =>
      simp only [Negotiation.step]
      split
      · exact ⟨sound, genuine_nil⟩
      · rename_i fields rest waiting
        rcases sound.down fields (waiting ▸ List.mem_cons_self) with ⟨frame, isFrame, genuine⟩
        have later : ∀ other ∈ rest, Downward setup other :=
          fun other member => sound.down other (waiting ▸ List.mem_cons_of_mem _ member)
        have alone : negotiation.signaling.callbacks.onPeerJoined = false := by
          rw [sound.callbacks]
          rfl
        rcases dispatchObject_frame alone frame with ⟨signaling, dispatched, sameCallbacks, _⟩
        rw [isFrame, dispatched]
        have answers := fun notification notified =>
          @callback_sound crypto setup frame negotiation.connected description unmarked genuine
            negotiation.signaling sslNew notification notified
        simp only
        constructor
        · apply Sound.tell
          refine ⟨forall_append sound.up ?_, later, sameCallbacks.trans sound.callbacks⟩
          intro other member
          rcases List.mem_flatMap.mp member with ⟨called, isCall, isSent⟩
          rcases List.mem_map.mp isCall with ⟨notification, notified, rfl⟩
          exact (answers notification notified).1 other isSent
        · intro role fingerprint isNew member
          rcases List.mem_flatMap.mp member with ⟨called, isCall, isTold⟩
          rcases List.mem_map.mp isCall with ⟨notification, notified, rfl⟩
          exact (answers notification notified).2 role fingerprint isNew isTold
  | clientCandidate candidate =>
      simp only [Negotiation.step]
      split
      · rename_i fields sends
        refine ⟨⟨forall_append sound.up ?_, sound.down, sound.callbacks⟩, genuine_nil⟩
        intro other member
        rw [List.mem_singleton.mp member]
        cases connected : negotiation.connected with
        | false =>
            rw [connected] at sends
            cases sends
        | true =>
            rw [connected] at sends
            exact .ice sends
      · exact ⟨sound, genuine_nil⟩
  | process event =>
      simp only [Negotiation.step]
      split
      · exact ⟨sound, genuine_nil⟩
      · rename_i foreign
        refine ⟨⟨sound.up, forall_append sound.down (downward_of_step ?_), sound.callbacks⟩,
          genuine_nil⟩
        intro accepted payload isOffer
        rw [isOffer] at foreign
        exact absurd (decide_eq_true rfl) foreign
  | transport role event =>
      cases event with
      | setRemoteFingerprint fingerprint sslNew => exact ⟨sound, genuine_nil⟩
      | iceState state sslNew =>
          simp only [Negotiation.step]
          refine ⟨?_, fun _ _ _ member => ?_⟩
          · apply Sound.tell
            exact ⟨sound.up, sound.down, sound.callbacks⟩
          · cases List.mem_singleton.mp member
      | data datagram =>
          refine ⟨sound.tell _, fun _ _ _ member => ?_⟩
          cases List.mem_singleton.mp member
      | handshakeEnd handshake =>
          refine ⟨sound.tell _, fun _ _ _ member => ?_⟩
          cases List.mem_singleton.mp member
      | send packet =>
          refine ⟨sound.tell _, fun _ _ _ member => ?_⟩
          cases List.mem_singleton.mp member

theorem sound_run {events : List (Event crypto)} (unmarked : ∀ event ∈ events, Unmarked event) :
    Sound setup ((machine crypto setup).run events) ∧ Genuine setup (history setup events) := by
  induction events using List.reverseRecOn with
  | nil =>
      refine ⟨⟨?_, ?_, rfl⟩, genuine_nil⟩
      · exact fun _ member => absurd member List.not_mem_nil
      · exact fun _ member => absurd member List.not_mem_nil
  | append_singleton past event induction =>
      rcases induction fun earlier member => unmarked earlier (List.mem_append_left _ member) with
        ⟨sound, genuine⟩
      rcases sound.step (unmarked event (List.mem_append_right _ (List.mem_singleton_self _))) with
        ⟨stillSound, nowGenuine⟩
      rw [Machine.run_snoc, history, Machine.produced_snoc]
      exact ⟨stillSound, genuine.append nowGenuine⟩

end Sound

end Negotiation

end Vela
