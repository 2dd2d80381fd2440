import Vela.SignalingServer.Registry

/-! # The signaling server process

The message and close handlers over the room manager. Text is parsed by the JSON
library; what parses to no object is answered with an error. -/

namespace Vela

open Foundation UnorderedMap

structure SignalingServer where
  manager : RoomManager
  running : Bool

namespace SignalingServer

open RoomManager

def create : SignalingServer where
  manager := RoomManager.create
  running := true

def sendError (ws : ConnectionHandle) (reason : String) : List Sent :=
  [{ conn := ws, frame := .error reason }]

/-- The received object with the sender's id in place of what the client put
there. -/
def stamp (fields : Fields) (fromId : RoomManager.ParticipantId) : Document :=
  .object (Json.setMember fields "from" (.number (.unsigned fromId)))

def onObject (manager : RoomManager) (ws : ConnectionHandle) (fields : Fields) :
    Except JsonException (RoomManager × List Sent) := do
  let type ← Document.value fields "type" Document.getString ""
  if type = "join" then
    let room ← Document.value fields "room" Document.getString ""
    match manager.join room ws with
    | (manager, sent, .ok _) => return (manager, sent)
    | (manager, sent, .error error) =>
        let reason := if error = .resourceExhausted then "room is full" else "invalid join request"
        return (manager, sent ++ sendError ws reason)
  else if type = "leave" then
    return manager.leave ws
  else if type = "offer" ∨ type = "answer" ∨ type = "ice" then
    let fromId := manager.idFor ws
    if fromId = 0 then
      return (manager, sendError ws "must join a room before signaling")
    else
      let target ← Document.value fields "to" Document.getUInt64 0
      match manager.relay ws type target (stamp fields fromId) with
      | (sent, .ok _) => return (manager, sent)
      | (sent, .error _) => return (manager, sent ++ sendError ws "relay target not found")
  else
    return (manager, sendError ws "unknown message type")

/-- `parse` is the library's parser without exceptions, with no document for
discarded text. -/
def onMessage (parse : Bytes → Option Document) (manager : RoomManager) (ws : ConnectionHandle)
    (op : OpCode) (msg : Bytes) : Except JsonException (RoomManager × List Sent) :=
  if op ≠ .text then .ok (manager, sendError ws "only text frames are accepted")
  else
    match parse msg with
    | some (.object fields) => onObject manager ws fields
    | _ => .ok (manager, sendError ws "malformed JSON")

inductive Event where
  | message (ws : ConnectionHandle) (op : OpCode) (msg : Bytes)
  | close (ws : ConnectionHandle)

/-- An exception that leaves a handler ends the process. -/
def step (parse : Bytes → Option Document) (server : SignalingServer) (event : Event) :
    SignalingServer × List Sent :=
  if server.running then
    match event with
    | .message ws op msg =>
        match onMessage parse server.manager ws op msg with
        | .ok (manager, sent) => ({ server with manager }, sent)
        | .error _ => ({ server with running := false }, [])
    | .close ws =>
        let (manager, sent) := server.manager.leave ws
        ({ server with manager }, sent)
  else (server, [])

def machine (parse : Bytes → Option Document) : Machine SignalingServer Event (List Sent) where
  initial := create
  step := step parse

/-! ## What a handler does to the registry -/

theorem issued_sendError (ws : ConnectionHandle) (reason : String) :
    issued (sendError ws reason) = 0 := rfl

/-- What a step did to the registry: nothing, or one call of the room manager. -/
def OneCall (manager after : RoomManager) (sent : List Sent) : Prop :=
  after = manager ∧ issued sent = 0 ∨
    ∃ call, after = (manager.call call).1 ∧ issued sent = issued (manager.call call).2

theorem onObject_oneCall {manager after : RoomManager} {ws : ConnectionHandle} {fields : Fields}
    {sent : List Sent} (returned : onObject manager ws fields = .ok (after, sent)) :
    OneCall manager after sent := by
  rcases bind_eq_ok.mp returned with ⟨type, _, dispatched⟩
  split at dispatched
  · -- join
    rcases bind_eq_ok.mp dispatched with ⟨room, _, joined⟩
    right
    refine ⟨.join room ws, ?_⟩
    simp only [call]
    split at joined
    · rename_i result
      cases joined
      rw [result]
      exact ⟨rfl, rfl⟩
    · rename_i result
      cases joined
      rw [result]
      simp [issued_sendError]
  · split at dispatched
    · -- leave
      have outcome : manager.leave ws = (after, sent) := Except.ok.inj dispatched
      refine Or.inr ⟨.leave ws, ?_⟩
      simp only [call, outcome, and_self]
    · split at dispatched
      · -- offer, answer, ice
        simp only at dispatched
        split at dispatched
        · cases dispatched
          exact Or.inl ⟨rfl, rfl⟩
        · rcases bind_eq_ok.mp dispatched with ⟨target, _, relayed⟩
          have quiet := @issued_relay manager ws type target (stamp fields (manager.idFor ws))
          split at relayed
          · rename_i result
            cases relayed
            rw [result] at quiet
            exact Or.inl ⟨rfl, quiet⟩
          · rename_i result
            cases relayed
            rw [result] at quiet
            simp only at quiet
            exact Or.inl ⟨rfl, by rw [issued_append, quiet, issued_sendError]⟩
      · cases dispatched
        exact Or.inl ⟨rfl, rfl⟩

variable {parse : Bytes → Option Document}

theorem onMessage_oneCall {manager after : RoomManager} {ws : ConnectionHandle} {op : OpCode}
    {msg : Bytes} {sent : List Sent}
    (returned : onMessage parse manager ws op msg = .ok (after, sent)) :
    OneCall manager after sent := by
  rw [onMessage] at returned
  split at returned
  · cases returned
    exact Or.inl ⟨rfl, rfl⟩
  · split at returned
    · exact onObject_oneCall returned
    · cases returned
      exact Or.inl ⟨rfl, rfl⟩

theorem step_oneCall (parse : Bytes → Option Document) (server : SignalingServer) (event : Event) :
    OneCall server.manager (step parse server event).1.manager (step parse server event).2 := by
  cases running : server.running with
  | false =>
      simp only [step, running, Bool.false_eq_true, if_false]
      exact Or.inl ⟨rfl, rfl⟩
  | true =>
      cases event with
      | message ws op msg =>
          simp only [step, running, if_true]
          cases returned : onMessage parse server.manager ws op msg with
          | ok result => exact onMessage_oneCall returned
          | error exception => exact Or.inl ⟨rfl, rfl⟩
      | close ws =>
          simp only [step, running, if_true]
          exact Or.inr ⟨.leave ws, rfl, rfl⟩

theorem consistent_run (events : List Event) :
    Consistent ((machine parse).run events).manager := by
  induction events using List.reverseRecOn with
  | nil => exact .create
  | append_singleton past event induction =>
      rw [Machine.run_snoc]
      change Consistent (step parse _ event).1.manager
      rcases step_oneCall parse ((machine parse).run past) event with
        ⟨same, _⟩ | ⟨call, after, _⟩
      · rw [same]
        exact induction
      · rw [after]
        exact induction.call call

theorem identified_run (events : List Event)
    (bounded : issued ((machine parse).outputs events).flatten < 2 ^ 64) :
    Identified (issued ((machine parse).outputs events).flatten)
      ((machine parse).run events).manager := by
  induction events using List.reverseRecOn with
  | nil => exact .create
  | append_singleton past event induction =>
      rw [Machine.outputs_snoc, List.flatten_append, List.flatten_singleton, issued_append]
        at bounded ⊢
      rw [Machine.run_snoc]
      change _ + issued (step parse _ event).2 < _ at bounded
      change Identified (_ + issued (step parse _ event).2) (step parse _ event).1.manager
      have before := induction (Nat.lt_of_le_of_lt (Nat.le_add_right _ _) bounded)
      rcases step_oneCall parse ((machine parse).run past) event with
        ⟨same, quiet⟩ | ⟨call, after, sent⟩
      · rw [same, quiet]
        exact before
      · rw [sent] at bounded ⊢
        rw [after]
        exact before.call (consistent_run past) call bounded

end SignalingServer

end Vela
