import Vela.Signaling.SignalingClient
import Vela.SignalingServer.Roster

/-! # Signaling messages

The objects that the client and the server send each other, and what the client
makes of the server's. An object crosses the wire as text. -/

namespace Vela

open Foundation Document

/-- A text of an object. The library orders the members as it likes. -/
def TextOf (parse : Bytes → Option Document) (fields : Fields) (text : Bytes) : Prop :=
  ∃ again, parse text = some (.object again) ∧ ∀ key, again.lookup key = fields.lookup key

/-! ## What the client sends -/

/-- The messages that are relayed. -/
inductive SignalKind where
  | offer
  | answer
  | ice
  deriving DecidableEq, Repr

def SignalKind.type : SignalKind → String
  | .offer => "offer"
  | .answer => "answer"
  | .ice => "ice"

namespace SignalingClient

def sendMessage (connected : Bool) (room type : String) (target : PeerId) (payload : String) :
    Result Fields :=
  if !connected then .error .notInitialized
  else
    .ok ([("type", .string type), ("room", .string room), ("payload", .string payload)] ++
      if target ≠ 0 then [("to", .number (.unsigned target))] else [])

def sendOffer (connected : Bool) (room : String) (target : PeerId) (sdp : String) : Result Fields :=
  sendMessage connected room "offer" target sdp

def sendAnswer (connected : Bool) (room : String) (target : PeerId)
    (sdp : String) : Result Fields :=
  sendMessage connected room "answer" target sdp

def sendIceCandidate (connected : Bool) (room : String) (target : PeerId) (candidate : String) :
    Result Fields :=
  sendMessage connected room "ice" target candidate

/-- The message after a handshake. -/
def joinMessage (room : String) : Fields := [("type", .string "join"), ("room", .string room)]

/-- The message before a connected client closes its socket. -/
def leaveMessage (room : String) : Fields := [("type", .string "leave"), ("room", .string room)]

/-- The messages of a client. -/
inductive Request where
  | join (room : String)
  | leave (room : String)
  | signal (kind : SignalKind) (room : String) (target : PeerId) (payload : String)
  deriving DecidableEq, Repr

/-- A client that is not connected sends nothing. -/
def Request.Sends : Request → Fields → Prop
  | .join room, fields => fields = joinMessage room
  | .leave room, fields => fields = leaveMessage room
  | .signal .offer room target payload, fields => sendOffer true room target payload = .ok fields
  | .signal .answer room target payload, fields => sendAnswer true room target payload = .ok fields
  | .signal .ice room target payload, fields =>
      sendIceCandidate true room target payload = .ok fields

theorem lookup_sendMessage {room type payload : String} {target : PeerId} {fields : Fields}
    (sends : sendMessage true room type target payload = .ok fields) :
    fields.lookup "type" = some (.string type) ∧ fields.lookup "payload" = some (.string payload) ∧
      fields.lookup "to" = if target ≠ 0 then some (.number (.unsigned target)) else none := by
  cases sends
  refine ⟨rfl, rfl, ?_⟩
  by_cases directed : target ≠ 0
  · rw [if_pos directed, if_pos directed]
    rfl
  · rw [if_neg directed, if_neg directed]
    rfl

theorem lookup_signal {kind : SignalKind} {room : String} {target : PeerId} {payload : String}
    {fields : Fields} (sends : (Request.signal kind room target payload).Sends fields) :
    fields.lookup "type" = some (.string kind.type) ∧
      fields.lookup "payload" = some (.string payload) ∧
      fields.lookup "to" = if target ≠ 0 then some (.number (.unsigned target)) else none := by
  cases kind <;> exact lookup_sendMessage sends

end SignalingClient

/-! ## What the server sends -/

/-- The object of a frame, if it is the server's own. -/
def RoomManager.Frame.fields : RoomManager.Frame → Option Fields
  | .joined room id peers => some
      [("type", .string "joined"), ("room", .string room), ("id", .number (.unsigned id)),
        ("peers", .array (peers.map fun peer => .number (.unsigned peer)))]
  | .peerJoined room sender => some
      [("type", .string "peer-joined"), ("room", .string room),
        ("from", .number (.unsigned sender))]
  | .peerLeft room sender => some
      [("type", .string "peer-left"), ("room", .string room), ("from", .number (.unsigned sender))]
  | .relayed (.object fields) => some fields
  | .relayed _ => none
  | .error reason => some [("type", .string "error"), ("reason", .string reason)]

/-- A signal as it reaches a client: its kind, its sender and its payload. -/
structure Signal where
  kind : SignalKind
  sender : PeerId
  payload : String
  deriving DecidableEq, Repr

/-- A relayed object says what the signal is. -/
structure Signal.Stands (signal : Signal) (fields : Fields) : Prop where
  type : fields.lookup "type" = some (.string signal.kind.type)
  sender : fields.lookup "from" = some (.number (.unsigned signal.sender))
  payload : fields.lookup "payload" = some (.string signal.payload)

def SignalKind.ofType : String → Option SignalKind
  | "offer" => some .offer
  | "answer" => some .answer
  | "ice" => some .ice
  | _ => none

/-- The signal that a relayed object stands for. -/
def Signal.read (fields : Fields) : Option Signal :=
  match SignalKind.ofType (kindOf fields), fields.lookup "from", fields.lookup "payload" with
  | some kind, some (.number (.unsigned sender)), some (.string payload) =>
      some { kind, sender, payload }
  | _, _, _ => none

theorem Signal.Stands.read {signal : Signal} {fields : Fields} (stands : signal.Stands fields) :
    Signal.read fields = some signal := by
  rcases signal with ⟨kind, sender, payload⟩
  have isKind : SignalKind.ofType (kindOf fields) = some kind := by
    rw [kindOf, stands.type]
    cases kind <;> rfl
  rw [Signal.read, isKind, stands.sender, stands.payload]

namespace RoomManager

def Frame.signal : Frame → Option Signal
  | .relayed (.object fields) => Signal.read fields
  | _ => none

/-- What is relayed is a signal of a client. -/
def Frame.Legible : Frame → Prop
  | .relayed rawJson => ∃ fields signal, rawJson = .object fields ∧ Signal.Stands signal fields
  | _ => True

end RoomManager

/-! ## What the client makes of it -/

namespace SignalingClient

theorem value_congr {Value : Type} {get : Document → Except JsonException Value}
    {fields other : Fields} {key : String} {otherwise : Value}
    (same : fields.lookup key = other.lookup key) :
    value fields key get otherwise = value other key get otherwise := by
  rw [value, value, same]

theorem dispatchObject_congr {fields other : Fields} (client : SignalingClient)
    (same : ∀ key, fields.lookup key = other.lookup key) :
    client.dispatchObject fields = client.dispatchObject other := by
  simp only [dispatchObject, payloadFor, value_congr (same _), same]

theorem dispatch_text {parse : Bytes → Option Document} {fields : Fields} {text : Bytes}
    (client : SignalingClient) (isText : TextOf parse fields text) :
    client.dispatch parse text = client.dispatchObject fields := by
  rcases isText with ⟨again, parsed, same⟩
  rw [dispatch, parsed]
  exact client.dispatchObject_congr same

end SignalingClient

def SignalingCallbacks.wants (callbacks : SignalingCallbacks) : SignalKind → Bool
  | .offer => callbacks.onOffer
  | .answer => callbacks.onAnswer
  | .ice => callbacks.onIceCandidate

namespace SignalingClient

def notify (signal : Signal) : Notification :=
  match signal.kind with
  | .offer => .offer signal.sender signal.payload
  | .answer => .answer signal.sender signal.payload
  | .ice => .iceCandidate signal.sender signal.payload

/-- The notifications for a frame that is not relayed. -/
def noticesOf (client : SignalingClient) : RoomManager.Frame → List Notification
  | .joined _ id peers =>
      (if client.callbacks.onJoined then [.joined id] else []) ++
        if client.callbacks.onPeerJoined then peers.map .peerJoined else []
  | .peerJoined _ sender => if client.callbacks.onPeerJoined then [.peerJoined sender] else []
  | .peerLeft _ sender => if client.callbacks.onPeerLeft then [.peerLeft sender] else []
  | .relayed _ => []
  | .error reason => client.reportError .protocol reason

/-- The client after a frame. -/
def after (client : SignalingClient) : RoomManager.Frame → SignalingClient
  | .joined _ id _ => { client with selfId := id }
  | _ => client

theorem mapM_numbers (peers : List PeerId) :
    (peers.map fun peer => (.number (.unsigned peer) : Document)).mapM getUInt64 = .ok peers := by
  induction peers with
  | nil => rfl
  | cons peer rest induction =>
      rw [List.map_cons, List.mapM_cons, induction]
      rfl

theorem dispatchObject_own (client : SignalingClient) {frame : RoomManager.Frame} {fields : Fields}
    (notRelayed : ∀ rawJson, frame ≠ .relayed rawJson) (isFields : frame.fields = some fields) :
    client.dispatchObject fields = .ok (client.after frame, client.noticesOf frame) := by
  cases frame with
  | relayed rawJson => exact absurd rfl (notRelayed rawJson)
  | joined room id peers =>
      cases isFields
      have read := mapM_numbers peers
      rw [noticesOf]
      cases wanted : client.callbacks.onPeerJoined with
      | false =>
          simp [dispatchObject, value, List.lookup_cons, getString, getUInt64,
            JsonNumber.toUInt64, wanted, after]
      | true =>
          simp [dispatchObject, value, List.lookup_cons, getString, getUInt64,
            JsonNumber.toUInt64, wanted, after, read]
  | peerJoined room sender =>
      cases isFields
      rfl
  | peerLeft room sender =>
      cases isFields
      rfl
  | error reason =>
      cases isFields
      rfl

theorem payloadFor_of_value {wanted : Bool} {fields : Fields} {payload : String}
    {notify : String → Notification}
    (carried : value fields "payload" getString "" = .ok payload) :
    payloadFor wanted fields notify = .ok (if wanted then [notify payload] else []) := by
  cases wanted with
  | false => rfl
  | true =>
      rw [payloadFor, if_pos rfl, carried]
      rfl

/-- A relayed signal is handed to the callback for its kind. -/
theorem dispatchObject_signal (client : SignalingClient) {signal : Signal} {fields : Fields}
    (stands : signal.Stands fields) :
    client.dispatchObject fields =
      .ok (client, if client.callbacks.wants signal.kind then [notify signal] else []) := by
  rcases signal with ⟨kind, sender, payload⟩
  have typed : value fields "type" getString "" = .ok kind.type := value_of_lookup stands.type
  have sent : value fields "from" getUInt64 0 = .ok sender := value_of_lookup stands.sender
  have carried : value fields "payload" getString "" = .ok payload := value_of_lookup stands.payload
  rw [dispatchObject, typed, ok_bind, sent, ok_bind]
  cases kind with
  | offer =>
      simp only [SignalKind.type, String.reduceEq, if_false, if_true, payloadFor_of_value carried]
      rfl
  | answer =>
      simp only [SignalKind.type, String.reduceEq, if_false, if_true, payloadFor_of_value carried]
      rfl
  | ice =>
      simp only [SignalKind.type, String.reduceEq, if_false, if_true, payloadFor_of_value carried]
      rfl

/-- What a client is told of a frame. -/
def told (client : SignalingClient) (frame : RoomManager.Frame) : List Notification :=
  client.noticesOf frame ++
    (frame.signal.toList.filter fun signal => client.callbacks.wants signal.kind).map notify

theorem dispatchObject_legible (client : SignalingClient) {frame : RoomManager.Frame}
    {fields : Fields} (legible : frame.Legible) (isFields : frame.fields = some fields) :
    client.dispatchObject fields = .ok (client.after frame, client.told frame) := by
  cases frame with
  | relayed rawJson =>
      rcases legible with ⟨object, signal, rfl, stands⟩
      cases isFields
      rw [client.dispatchObject_signal stands, told, RoomManager.Frame.signal, stands.read]
      cases wanted : client.callbacks.wants signal.kind <;> simp [wanted, after, noticesOf]
  | _ =>
      rw [client.dispatchObject_own (fun _ => by simp) isFields, told]
      simp [RoomManager.Frame.signal]

/-- Only its own id changes. -/
theorem told_after (client : SignalingClient) (earlier frame : RoomManager.Frame) :
    (client.after earlier).told frame = client.told frame := by
  cases earlier <;> rfl

/-! ## A whole conversation -/

/-- The receive loop over the texts of successive frames. -/
def receiveAll (parse : Bytes → Option Document) :
    SignalingClient → List Bytes → Except JsonException (SignalingClient × List Notification)
  | client, [] => .ok (client, [])
  | client, text :: rest => do
      let (client, now) ← client.dispatch parse text
      let (client, later) ← receiveAll parse client rest
      return (client, now ++ later)

/-- A frame has come in as text. -/
def Received (parse : Bytes → Option Document) (frame : RoomManager.Frame) (text : Bytes) : Prop :=
  ∃ fields, frame.fields = some fields ∧ TextOf parse fields text

def Notification.signal : Notification → Option Signal
  | .offer sender payload => some ⟨.offer, sender, payload⟩
  | .answer sender payload => some ⟨.answer, sender, payload⟩
  | .iceCandidate sender payload => some ⟨.ice, sender, payload⟩
  | _ => none

/-- Who a client takes to be with it, from what it is told. -/
def see (view : Option (List PeerId)) : Notification → Option (List PeerId)
  | .joined _ => some []
  | .peerJoined peer =>
      view.bind fun peers => if peer ∈ peers then none else some (peers ++ [peer])
  | .peerLeft peer =>
      view.bind fun peers => if peer ∈ peers then some (peers.erase peer) else none
  | _ => view

theorem receiveAll_legible {parse : Bytes → Option Document} (client : SignalingClient)
    {frames : List RoomManager.Frame} (legible : ∀ frame ∈ frames, frame.Legible)
    {texts : List Bytes} (received : List.Forall₂ (Received parse) frames texts) :
    receiveAll parse client texts =
      .ok (frames.foldl after client, frames.flatMap client.told) := by
  induction received generalizing client with
  | nil => rfl
  | @cons frame text rest later first _ induction =>
      rcases first with ⟨fields, isFields, isText⟩
      have dispatched : client.dispatch parse text =
        .ok (client.after frame, client.told frame) := by
        rw [client.dispatch_text isText]
        exact client.dispatchObject_legible (legible frame List.mem_cons_self) isFields
      have continued := induction (client.after frame)
        fun other member => legible other (List.mem_cons_of_mem _ member)
      rw [receiveAll, dispatched, ok_bind]
      dsimp only
      rw [continued]
      have same : rest.flatMap (client.after frame).told = rest.flatMap client.told := by
        rw [funext (client.told_after frame)]
      rw [ok_bind, same]
      rfl

/-! ## What the notifications say -/

theorem signal_notify (signal : Signal) : (notify signal).signal = some signal := by
  rcases signal with ⟨kind, sender, payload⟩
  cases kind <;> rfl

theorem signals_noticesOf (client : SignalingClient) (frame : RoomManager.Frame) :
    (client.noticesOf frame).filterMap Notification.signal = [] := by
  apply List.filterMap_eq_nil_iff.mpr
  intro notice member
  cases frame with
  | joined room id peers =>
      rcases List.mem_append.mp member with own | others
      · split at own
        · rw [List.mem_singleton.mp own]
          rfl
        · cases own
      · split at others
        · rcases List.mem_map.mp others with ⟨peer, _, rfl⟩
          rfl
        · cases others
  | relayed rawJson => cases member
  | _ =>
      simp only [noticesOf, reportError] at member
      split at member
      · rw [List.mem_singleton.mp member]
        rfl
      · cases member

/-- The signals that a client is told of are those that its frames stand for, less
the kinds it does not want. -/
theorem signals_told (client : SignalingClient) (frames : List RoomManager.Frame) :
    (frames.flatMap client.told).filterMap Notification.signal =
      (frames.filterMap RoomManager.Frame.signal).filter
        fun signal => client.callbacks.wants signal.kind := by
  induction frames with
  | nil => rfl
  | cons frame rest induction =>
      have notified : ∀ signals : List Signal,
          (signals.map notify).filterMap Notification.signal = signals := by
        intro signals
        have inverse : Notification.signal ∘ notify = some := funext signal_notify
        rw [List.filterMap_map, inverse, List.filterMap_some]
      rw [List.flatMap_cons, List.filterMap_append, induction, told, List.filterMap_append,
        signals_noticesOf, List.nil_append, notified, ← List.filter_append]
      cases meant : frame.signal with
      | none => rw [List.filterMap_cons_none meant]; rfl
      | some signal => rw [List.filterMap_cons_some meant]; rfl

theorem foldl_see_none (peers : List PeerId) :
    (peers.map Notification.peerJoined).foldl see none = none := by
  induction peers with
  | nil => rfl
  | cons peer rest induction => exact induction

theorem foldl_see_peers (peers : List PeerId) {known : List PeerId} (distinct : known.Nodup) :
    (peers.map Notification.peerJoined).foldl see (some known) =
      if (known ++ peers).Nodup then some (known ++ peers) else none := by
  induction peers generalizing known with
  | nil => simp [distinct]
  | cons peer rest induction =>
      have step : see (some known) (.peerJoined peer) =
          if peer ∈ known then none else some (known ++ [peer]) := rfl
      rw [List.map_cons, List.foldl_cons, step]
      by_cases known' : peer ∈ known
      · have twice : ¬(known ++ peer :: rest).Nodup := by
          intro nodup
          exact (List.nodup_append.mp nodup).2.2 peer known' peer List.mem_cons_self rfl
        rw [if_pos known', if_neg twice, foldl_see_none]
      · have more : (known ++ [peer]).Nodup := by
          rw [List.nodup_append]
          refine ⟨distinct, List.nodup_singleton _, ?_⟩
          intro other isKnown last isLast same
          exact known' (by rw [← List.mem_singleton.mp isLast, ← same]; exact isKnown)
        rw [if_neg known', induction more, List.append_assoc, List.singleton_append]

theorem see_notify (view : Option (List PeerId)) (signals : List Signal) :
    (signals.map notify).foldl see view = view := by
  induction signals with
  | nil => rfl
  | cons signal rest induction =>
      rcases signal with ⟨kind, sender, payload⟩
      cases kind <;> exact induction

/-- With the callbacks for peers set, a client sees what its frames say. -/
theorem foldl_see_told {client : SignalingClient} (onJoined : client.callbacks.onJoined = true)
    (onPeerJoined : client.callbacks.onPeerJoined = true)
    (onPeerLeft : client.callbacks.onPeerLeft = true) (frames : List RoomManager.Frame)
    (view : Option (List PeerId)) :
    (frames.flatMap client.told).foldl see view = frames.foldl RoomManager.follow view := by
  induction frames generalizing view with
  | nil => rfl
  | cons frame rest induction =>
      rw [List.flatMap_cons, List.foldl_append, List.foldl_cons, induction, told,
        List.foldl_append, see_notify]
      congr 1
      cases frame with
      | joined room id peers =>
          rw [noticesOf, if_pos onJoined, if_pos onPeerJoined, List.foldl_append]
          exact foldl_see_peers peers List.nodup_nil
      | peerJoined room sender =>
          rw [noticesOf, if_pos onPeerJoined]
          rfl
      | peerLeft room sender =>
          rw [noticesOf, if_pos onPeerLeft]
          rfl
      | relayed rawJson => rfl
      | error reason =>
          rw [noticesOf, reportError]
          split <;> rfl

/-- A client with every callback set. -/
def allEars : SignalingClient where
  callbacks := ⟨true, true, true, true, true, true, true⟩
  selfId := 0
  stopping := false

end SignalingClient

end Vela
