import Vela.SfuApp.MessageHandler
import Vela.Signaling.SignalingClient
import Vela.SignalingServer.Server

/-! # Malformed frames

Text that is no JSON object is turned down by every endpoint. A JSON object whose
fields have unexpected types is not: the accessors throw, and nothing catches
that. The results say exactly which frames do it in which state. -/

namespace Vela

open Foundation Document

/-! ## Objects in text frames -/

section Objects

variable {Result : Type} {document : Option Document} {noObject : Result}
  {onObject : Fields → Except JsonException Result} {FieldsReadable : Fields → Prop}

/-- A handler that deals itself with everything but objects returns on exactly the
objects it can read. -/
theorem onDocument_ok_iff
    (read : ∀ fields, (∃ result, onObject fields = .ok result) ↔ FieldsReadable fields) :
    (∃ result,
      (match document with
        | some (.object fields) => onObject fields
        | _ => .ok noObject : Except JsonException Result) = .ok result) ↔
      ∀ fields, document = some (.object fields) → FieldsReadable fields := by
  split
  · simp only [Option.some.injEq, Json.object.injEq, forall_eq']
    exact read _
  · rename_i noObject
    constructor
    · intro _ fields parsed
      exact absurd parsed (noObject fields)
    · intro _
      exact ⟨_, rfl⟩

theorem onText_ok_iff {op : OpCode} {noText : Result}
    (read : ∀ fields, (∃ result, onObject fields = .ok result) ↔ FieldsReadable fields) :
    (∃ result,
      (if op ≠ .text then .ok noText
        else
          match document with
          | some (.object fields) => onObject fields
          | _ => .ok noObject : Except JsonException Result) = .ok result) ↔
      ∀ fields, op = .text → document = some (.object fields) → FieldsReadable fields := by
  by_cases text : op = .text
  · simp only [text, ne_eq, not_true_eq_false, if_false, forall_const]
    exact onDocument_ok_iff read
  · simp only [text, ne_eq, not_false_eq_true, if_true, false_implies, implies_true, iff_true]
    exact ⟨_, rfl⟩

end Objects

/-! ## The signaling server -/

namespace SignalingServer

/-- The fields that the handler reads in this state have the types it expects. -/
def FieldsReadable (manager : RoomManager) (ws : ConnectionHandle) (fields : Fields) : Prop :=
  Readable IsString fields "type" ∧
    (kindOf fields = "join" → Readable IsString fields "room") ∧
    (kindOf fields = "offer" ∨ kindOf fields = "answer" ∨ kindOf fields = "ice" →
      manager.idFor ws ≠ 0 → Readable IsNumber fields "to")

theorem onObject_ok_iff {manager : RoomManager} {ws : ConnectionHandle} {fields : Fields} :
    (∃ result, onObject manager ws fields = .ok result) ↔ FieldsReadable manager ws fields := by
  rw [onObject, typed_ok_iff, FieldsReadable]
  apply and_congr_right
  intro _
  by_cases join : kindOf fields = "join"
  · rw [if_pos join, exists_bind_eq_ok, stringField_ok_iff, join]
    simp only [forall_const, String.reduceEq, or_self, false_implies, and_true]
    apply and_iff_left
    intro room _
    split <;> exact ⟨_, rfl⟩
  · rw [if_neg join]
    simp only [join, false_implies, true_and]
    by_cases leave : kindOf fields = "leave"
    · rw [if_pos leave, leave]
      simp only [String.reduceEq, or_self, false_implies, iff_true]
      exact ⟨_, rfl⟩
    · rw [if_neg leave]
      by_cases relayed : kindOf fields = "offer" ∨ kindOf fields = "answer" ∨ kindOf fields = "ice"
      · rw [if_pos relayed]
        simp only [relayed, forall_const]
        by_cases outsider : manager.idFor ws = 0
        · rw [if_pos outsider]
          simp only [outsider, ne_eq, not_true_eq_false, false_implies, iff_true]
          exact ⟨_, rfl⟩
        · rw [if_neg outsider, exists_bind_eq_ok, numberField_ok_iff]
          simp only [outsider, ne_eq, not_false_eq_true, forall_const]
          apply and_iff_left
          intro target _
          split <;> exact ⟨_, rfl⟩
      · rw [if_neg relayed]
        simp only [relayed, false_implies, iff_true]
        exact ⟨_, rfl⟩

/-- The handler gets text that is no object, or an object it can read. -/
def Accepts (parse : Bytes → Option Document) (manager : RoomManager) (ws : ConnectionHandle)
    (op : OpCode) (msg : Bytes) : Prop :=
  ∀ fields, op = .text → parse msg = some (.object fields) → FieldsReadable manager ws fields

theorem onMessage_ok_iff {parse : Bytes → Option Document} {manager : RoomManager}
    {ws : ConnectionHandle} {op : OpCode} {msg : Bytes} :
    (∃ result, onMessage parse manager ws op msg = .ok result) ↔
      Accepts parse manager ws op msg := by
  rw [onMessage, Accepts]
  exact onText_ok_iff fun _ => onObject_ok_iff

end SignalingServer

/-! ## The SFU server -/

namespace SfuApp

/-- The fields that the handler reads in this state have the types it expects:
a room before the join, payloads after it. -/
def FieldsReadable (app : SfuApp) (socket : SocketId) (fields : Fields) : Prop :=
  Readable IsString fields "type" ∧
    (kindOf fields = "join" → app.sockets.lookup socket = some none →
      Readable IsString fields "room") ∧
    (kindOf fields = "offer" ∨ kindOf fields = "ice" →
      (∃ client, app.sockets.lookup socket = some (some client)) →
        Readable IsString fields "payload")

theorem onObject_ok_iff {app : SfuApp} {socket : SocketId} {fields : Fields} {initialized : Bool}
    {offered : String → Bool × Option String} :
    (∃ result, onObject app socket fields initialized offered = .ok result) ↔
      FieldsReadable app socket fields := by
  rw [onObject, typed_ok_iff, FieldsReadable]
  apply and_congr_right
  intro _
  by_cases join : kindOf fields = "join"
  · rw [if_pos join, join]
    simp only [forall_const, String.reduceEq, or_self, false_implies, and_true]
    split
    · rename_i idle
      simp only [idle, forall_const]
      rw [exists_bind_eq_ok, stringField_ok_iff]
      exact and_iff_left fun room _ => ⟨_, rfl⟩
    · rename_i notIdle
      constructor
      · intro _ idle
        exact absurd idle notIdle
      · intro _
        exact ⟨_, rfl⟩
  · rw [if_neg join]
    simp only [join, false_implies, true_and]
    split
    · rename_i client owns
      simp only [owns, Option.some.injEq, exists_eq', forall_const]
      by_cases offer : kindOf fields = "offer"
      · rw [if_pos offer, exists_bind_eq_ok, stringField_ok_iff]
        simp only [offer, true_or, forall_const]
        exact and_iff_left fun payload _ => ⟨_, rfl⟩
      · rw [if_neg offer]
        by_cases ice : kindOf fields = "ice"
        · rw [if_pos ice, exists_bind_eq_ok, stringField_ok_iff]
          simp only [ice, or_true, forall_const]
          exact and_iff_left fun candidate _ => ⟨_, rfl⟩
        · rw [if_neg ice]
          simp only [offer, ice, or_self, false_implies, iff_true]
          split <;> exact ⟨_, rfl⟩
    · rename_i notJoined
      constructor
      · intro _ _ owns
        rcases owns with ⟨client, owns⟩
        exact absurd owns (notJoined client)
      · intro _
        exact ⟨_, rfl⟩

def Accepts (parse : Bytes → Option Document) (app : SfuApp) (socket : SocketId) (op : OpCode)
    (msg : Bytes) : Prop :=
  ∀ fields, op = .text → parse msg = some (.object fields) → FieldsReadable app socket fields

theorem onMessage_ok_iff {parse : Bytes → Option Document} {app : SfuApp} {socket : SocketId}
    {op : OpCode} {msg : Bytes} {initialized : Bool} {offered : String → Bool × Option String} :
    (∃ result, onMessage parse app socket op msg initialized offered = .ok result) ↔
      Accepts parse app socket op msg := by
  rw [onMessage, Accepts]
  exact onText_ok_iff fun _ => onObject_ok_iff

end SfuApp

/-! ## The client -/

namespace SignalingClient

/-- The callback that is handed the payload of a message of some kind is set. -/
def WantsPayload (callbacks : SignalingCallbacks) (kind : String) : Prop :=
  kind = "offer" ∧ callbacks.onOffer = true ∨ kind = "answer" ∧ callbacks.onAnswer = true ∨
    kind = "ice" ∧ callbacks.onIceCandidate = true

/-- The fields that the dispatch reads have the types it expects: the sender of
every frame, and what the callbacks that are set are handed. -/
def FieldsReadable (client : SignalingClient) (fields : Fields) : Prop :=
  Readable IsString fields "type" ∧ Readable IsNumber fields "from" ∧
    (kindOf fields = "joined" → Readable IsNumber fields "id" ∧
      (client.callbacks.onPeerJoined = true → ∀ elements,
        fields.lookup "peers" = some (.array elements) → ∀ element ∈ elements, IsNumber element)) ∧
    (WantsPayload client.callbacks (kindOf fields) → Readable IsString fields "payload") ∧
    (kindOf fields = "error" → Readable IsString fields "reason")

theorem payloadFor_ok_iff {installed : Bool} {fields : Fields} {notify : String → Notification} :
    (∃ result, payloadFor installed fields notify = .ok result) ↔
      (installed = true → Readable IsString fields "payload") := by
  cases installed with
  | false => simp [payloadFor]
  | true =>
      rw [payloadFor, if_pos rfl, exists_bind_eq_ok, stringField_ok_iff]
      simp only [forall_const]
      exact and_iff_left fun payload _ => ⟨_, rfl⟩

/-- The peers that a joined frame lists, for the callback that wants them. -/
theorem peers_ok_iff {wanted : Bool} {fields : Fields}
    {listed : List (BitVec 64) → SignalingClient × List Notification}
    {unlisted : SignalingClient × List Notification} :
    (∃ result, (if wanted then
        match fields.lookup "peers" with
        | some (.array elements) => elements.mapM getUInt64 >>= fun peers => pure (listed peers)
        | _ => pure unlisted
      else pure unlisted : Except JsonException (SignalingClient × List Notification)) =
        .ok result) ↔
      (wanted = true → ∀ elements, fields.lookup "peers" = some (.array elements) →
        ∀ element ∈ elements, IsNumber element) := by
  cases wanted with
  | false => simp [pure, Except.pure]
  | true =>
      simp only [if_true, forall_const]
      split
      · rename_i elements found
        rw [exists_bind_eq_ok, mapM_getUInt64_ok_iff]
        simp only [found, Option.some.injEq, Json.array.injEq, forall_eq']
        exact and_iff_left fun peers _ => ⟨_, rfl⟩
      · rename_i noArray
        constructor
        · intro _ elements found
          exact absurd found (noArray elements)
        · intro _
          exact ⟨_, rfl⟩

theorem dispatchObject_ok_iff {client : SignalingClient} {fields : Fields} :
    (∃ result, dispatchObject client fields = .ok result) ↔ FieldsReadable client fields := by
  rw [dispatchObject, typed_ok_iff, FieldsReadable]
  apply and_congr_right
  intro _
  rw [exists_bind_eq_ok, numberField_ok_iff]
  apply and_congr_right
  intro senderReadable
  have senderReads : ∃ sender, value fields "from" getUInt64 0 = .ok sender :=
    numberField_ok_iff.mpr senderReadable
  rcases senderReads with ⟨sender, read⟩
  simp only [read, Except.ok.injEq, forall_eq']
  generalize kindOf fields = kind
  by_cases joined : kind = "joined"
  · rw [if_pos joined, exists_bind_eq_ok, numberField_ok_iff, joined]
    simp only [WantsPayload, String.reduceEq, false_and, or_self, false_implies, and_true,
      forall_const]
    apply and_congr_right
    intro idReadable
    have idReads : ∃ self, value fields "id" getUInt64 0 = .ok self :=
      numberField_ok_iff.mpr idReadable
    rcases idReads with ⟨self, readId⟩
    simp only [readId, Except.ok.injEq, forall_eq']
    exact peers_ok_iff
  · rw [if_neg joined]
    simp only [joined, false_implies, true_and]
    by_cases peerJoined : kind = "peer-joined"
    · rw [if_pos peerJoined]
      exact iff_of_true ⟨_, rfl⟩ (by simp [WantsPayload, peerJoined])
    · rw [if_neg peerJoined]
      by_cases peerLeft : kind = "peer-left"
      · rw [if_pos peerLeft]
        exact iff_of_true ⟨_, rfl⟩ (by simp [WantsPayload, peerLeft])
      · rw [if_neg peerLeft]
        by_cases offer : kind = "offer"
        · rw [if_pos offer, exists_bind_eq_ok, payloadFor_ok_iff]
          simp only [WantsPayload, offer, true_and, String.reduceEq, false_and, or_false,
            false_implies, and_true]
          exact and_iff_left fun notifications _ => ⟨_, rfl⟩
        · rw [if_neg offer]
          by_cases answer : kind = "answer"
          · rw [if_pos answer, exists_bind_eq_ok, payloadFor_ok_iff]
            simp only [WantsPayload, answer, true_and, String.reduceEq, false_and, or_false,
              false_or, false_implies, and_true]
            exact and_iff_left fun notifications _ => ⟨_, rfl⟩
          · rw [if_neg answer]
            by_cases ice : kind = "ice"
            · rw [if_pos ice, exists_bind_eq_ok, payloadFor_ok_iff]
              simp only [WantsPayload, ice, true_and, String.reduceEq, false_and, false_or,
                false_implies, and_true]
              exact and_iff_left fun notifications _ => ⟨_, rfl⟩
            · rw [if_neg ice]
              simp only [WantsPayload, offer, answer, ice, false_and, or_self, false_implies,
                true_and]
              by_cases error : kind = "error"
              · rw [if_pos error, exists_bind_eq_ok, stringField_ok_iff]
                simp only [error, forall_const]
                exact and_iff_left fun reason _ => ⟨_, rfl⟩
              · rw [if_neg error]
                exact iff_of_true ⟨_, rfl⟩ fun isError => absurd isError error

def Accepts (parse : Bytes → Option Document) (client : SignalingClient) (payload : Bytes) : Prop :=
  ∀ fields, parse payload = some (.object fields) → FieldsReadable client fields

theorem dispatch_ok_iff {parse : Bytes → Option Document} {client : SignalingClient}
    {payload : Bytes} :
    (∃ result, dispatch parse client payload = .ok result) ↔ Accepts parse client payload := by
  rw [dispatch, Accepts]
  exact onDocument_ok_iff fun _ => dispatchObject_ok_iff

end SignalingClient

/-! ## All endpoints -/

/-- In every state and for every text, each endpoint returns normally exactly when
the text is no JSON object or the fields it reads of it have the expected types. -/
theorem endpoints_return_iff (parse : Bytes → Option Document) :
    (∀ manager ws op msg,
      (∃ result, SignalingServer.onMessage parse manager ws op msg = .ok result) ↔
      SignalingServer.Accepts parse manager ws op msg) ∧
    (∀ app socket op msg initialized offered,
      (∃ result, SfuApp.onMessage parse app socket op msg initialized offered = .ok result) ↔
        SfuApp.Accepts parse app socket op msg) ∧
    ∀ client payload, (∃ result, SignalingClient.dispatch parse client payload = .ok result) ↔
      SignalingClient.Accepts parse client payload :=
  ⟨fun _ _ _ _ => SignalingServer.onMessage_ok_iff, fun _ _ _ _ _ _ => SfuApp.onMessage_ok_iff,
    fun _ _ => SignalingClient.dispatch_ok_iff⟩

/-- The text `{"type":1}`. -/
def numericType : Bytes := [0x7B, 0x22, 0x74, 0x79, 0x70, 0x65, 0x22, 0x3A, 0x31, 0x7D]

def parseNumericType (text : Bytes) : Option Document :=
  if text = numericType then some (.object [("type", .number (.unsigned 1))]) else none

/-- A frame whose type is a number makes every endpoint throw, in its first state. -/
theorem numeric_type_throws :
    SignalingServer.onMessage parseNumericType RoomManager.create 1 .text numericType =
        .error .typeError ∧
      SfuApp.onMessage parseNumericType (SfuApp.create.onOpen 1).1 1 .text numericType true
        (fun _ => (true, none)) = .error .typeError ∧
      ∀ callbacks, SignalingClient.dispatch parseNumericType
        { callbacks, selfId := 0, stopping := false } numericType = .error .typeError := by
  refine ⟨rfl, rfl, fun callbacks => rfl⟩

end Vela
