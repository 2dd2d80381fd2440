import Vela.Foundation.Parts
import Vela.Signaling.Messages
import Vela.SignalingServer.Relay

/-! # Conversations

Clients talk to each other through the signaling server. Whatever the order in
which their messages come in, each is told of the signals that are meant for it,
in their order, and of who is in its room. -/

namespace Vela

open Foundation Document

namespace SignalingServer

open RoomManager (framesTo issued)
open SignalingClient (Request)

/-! ## Messages at the server -/

/-- What a client sends, as text, and the end of a connection. -/
inductive Happening where
  | request (ws : ConnectionHandle) (asked : Request) (text : Bytes)
  | close (ws : ConnectionHandle)

def Happening.event : Happening → Event
  | .request ws _ text => .message ws .text text
  | .close ws => .close ws

/-- The text is one of the request. -/
def Happening.Written (parse : Bytes → Option Document) : Happening → Prop
  | .request _ asked text => ∃ fields, asked.Sends fields ∧ TextOf parse fields text
  | .close _ => True

/-- The server as it reads what its clients send. -/
def conversation (parse : Bytes → Option Document) :
    Machine SignalingServer Happening (List RoomManager.Sent) where
  initial := create
  step := fun server happening => step parse server happening.event

/-- The signal for a connection in what happens. -/
def signalsTo (conn : ConnectionHandle) (server : SignalingServer) : Happening → List Signal
  | .request ws (.signal kind _ target payload) _ =>
      if conn ∈ (recipients server.manager ws target).map RoomManager.Participant.conn then
        [{ kind, sender := server.manager.idFor ws, payload }]
      else []
  | _ => []

/-! ## One message -/

def OnlyErrors (sent : List RoomManager.Sent) : Prop :=
  ∀ delivery ∈ sent, ∃ reason, delivery.frame = .error reason

theorem onlyErrors_sendError (ws : ConnectionHandle) (reason : String) :
    OnlyErrors (sendError ws reason) := by
  intro delivery member
  rw [List.mem_singleton.mp member]
  exact ⟨reason, rfl⟩

theorem onlyErrors_nil : OnlyErrors [] := fun _ member => nomatch member

/-- What the server does is one call of the room manager, and errors that it
reports, or errors alone. -/
inductive Answers (manager after : RoomManager) (sent : List RoomManager.Sent) : Prop where
  | called (call : RoomManager.Call) (errors : List RoomManager.Sent) (only : OnlyErrors errors)
      (isAfter : after = (manager.call call).1) (isSent : sent = (manager.call call).2 ++ errors)
  | refused (same : after = manager) (only : OnlyErrors sent)

section Requests

variable {parse : Bytes → Option Document} {manager : RoomManager} {ws : ConnectionHandle}

theorem onMessage_text {fields : Fields} {text : Bytes} (isText : TextOf parse fields text) :
    ∃ again, onMessage parse manager ws .text text = onObject manager ws again ∧
      ∀ key, again.lookup key = fields.lookup key := by
  rcases isText with ⟨again, parsed, same⟩
  refine ⟨again, ?_, same⟩
  simp only [onMessage, ne_eq, not_true_eq_false, if_false, parsed]

theorem relays_leave (manager : RoomManager) (ws : ConnectionHandle) :
    relays (manager.leave ws).2 = [] := by
  apply List.filterMap_eq_nil_iff.mpr
  intro delivery member
  rw [RoomManager.leave] at member
  split at member
  · cases member
  · dsimp only at member
    split at member
    · cases member
    · dsimp only at member
      split at member
      · rcases List.mem_map.mp member with ⟨p, _, rfl⟩
        rfl
      · cases member

theorem relays_announce (room : String) (participants : List RoomManager.Participant)
    (id : PeerId) (ws : ConnectionHandle) :
    relays (RoomManager.announce room participants id ws) = [] := by
  apply List.filterMap_eq_nil_iff.mpr
  intro delivery member
  rcases List.mem_cons.mp member with rfl | notice
  · rfl
  · rcases List.mem_map.mp notice with ⟨p, _, rfl⟩
    rfl

theorem relays_join (manager : RoomManager) (room : String) (ws : ConnectionHandle) :
    relays (manager.join room ws).2.1 = [] := by
  have vacated :
      relays (if ws ∈ manager.connRoom then manager.leave ws else (manager, [])).2 = [] := by
    split
    · exact relays_leave manager ws
    · rfl
  rw [RoomManager.join]
  split
  · rfl
  · revert vacated
    generalize (if ws ∈ manager.connRoom then manager.leave ws else (manager, [])) = left
    rcases left with ⟨vacated, left⟩
    intro silent
    have announced : ∀ participants id,
        relays (left ++ RoomManager.announce room participants id ws) = [] := by
      intro participants id
      rw [relays_append, silent, List.nil_append]
      exact relays_announce room participants id ws
    dsimp only
    -- Whether the room is new, and whether it is full.
    split <;> split
    · exact silent
    · exact announced _ _
    · exact silent
    · exact announced _ _

theorem answers_join {room : String} {text : Bytes}
    (isText : TextOf parse (SignalingClient.joinMessage room) text) :
    ∃ after sent, onMessage parse manager ws .text text = .ok (after, sent) ∧
      Answers manager after sent ∧ relays sent = [] := by
  rcases @onMessage_text parse manager ws _ _ isText with ⟨again, same, lookups⟩
  have typed : value again "type" getString "" = .ok "join" := value_of_lookup (lookups "type")
  have named : value again "room" getString "" = .ok room := value_of_lookup (lookups "room")
  rw [same, onObject, typed, ok_bind, if_pos rfl, named, ok_bind]
  have quiet := relays_join manager room ws
  rcases joined : manager.join room ws with ⟨after, sent, result⟩
  have called : manager.call (.join room ws) = (after, sent) := by
    rw [RoomManager.call, joined]
  rw [joined] at quiet
  cases result with
  | ok id =>
      refine ⟨after, sent, rfl, ?_, quiet⟩
      exact .called (.join room ws) [] onlyErrors_nil (by rw [called])
        (by rw [called, List.append_nil])
  | error error =>
      refine ⟨after, _, rfl, ?_, ?_⟩
      · exact .called (.join room ws) _ (onlyErrors_sendError ws _) (by rw [called])
          (by rw [called])
      · rw [relays_append, relays_sendError, List.append_nil]
        exact quiet

theorem answers_leave {room : String} {text : Bytes}
    (isText : TextOf parse (SignalingClient.leaveMessage room) text) :
    ∃ after sent, onMessage parse manager ws .text text = .ok (after, sent) ∧
      Answers manager after sent ∧ relays sent = [] := by
  rcases @onMessage_text parse manager ws _ _ isText with ⟨again, same, lookups⟩
  have typed : value again "type" getString "" = .ok "leave" := value_of_lookup (lookups "type")
  rw [same, onObject, typed, ok_bind, if_neg (by decide), if_pos rfl]
  refine ⟨_, _, rfl, ?_, relays_leave manager ws⟩
  exact .called (.leave ws) [] onlyErrors_nil rfl (List.append_nil _).symm

/-- A signal is relayed to those it is for, under the id of its sender. -/
theorem answers_signal {count : Nat} (consistent : RoomManager.Consistent manager)
    (identified : RoomManager.Identified count manager) {kind : SignalKind} {room payload : String}
    {target : PeerId} {text : Bytes}
    (written : ∃ fields, (Request.signal kind room target payload).Sends fields ∧
      TextOf parse fields text) :
    ∃ sent stamped, onMessage parse manager ws .text text = .ok (manager, sent) ∧
      Answers manager manager sent ∧
      relays sent = (recipients manager ws target).map (fun p => (p.conn, .object stamped)) ∧
      Signal.Stands { kind, sender := manager.idFor ws, payload } stamped := by
  rcases written with ⟨fields, sends, isText⟩
  rcases @onMessage_text parse manager ws _ _ isText with ⟨again, same, lookups⟩
  rcases SignalingClient.lookup_signal sends with ⟨isType, isPayload, isTarget⟩
  rw [← lookups] at isType isPayload isTarget
  have typed : value again "type" getString "" = .ok kind.type := value_of_lookup isType
  have addressed : value again "to" getUInt64 0 = .ok target := by
    by_cases directed : target ≠ 0
    · rw [if_pos directed] at isTarget
      exact value_of_lookup isTarget
    · rw [if_neg directed] at isTarget
      rw [value_of_missing isTarget, not_not.mp directed]
  have isSignal : kind.type = "offer" ∨ kind.type = "answer" ∨ kind.type = "ice" := by
    cases kind <;> simp [SignalKind.type]
  have notJoin : kind.type ≠ "join" := by cases kind <;> decide
  have notLeave : kind.type ≠ "leave" := by cases kind <;> decide
  have stands : Signal.Stands { kind, sender := manager.idFor ws, payload }
      (Json.setMember again "from" (.number (.unsigned (manager.idFor ws)))) := by
    refine ⟨?_, ?_, ?_⟩
    · rw [Json.lookup_setMember, if_neg (by decide)]
      exact isType
    · rw [Json.lookup_setMember, if_pos rfl]
    · rw [Json.lookup_setMember, if_neg (by decide)]
      exact isPayload
  rw [same, onObject, typed, ok_bind, if_neg notJoin, if_neg notLeave, if_pos isSignal]
  dsimp only
  cases home : manager.connRoom.lookup ws with
  | none =>
      rw [if_pos (RoomManager.idFor_of_unbound home)]
      refine ⟨_, _, rfl, .refused rfl (onlyErrors_sendError ws _), ?_, stands⟩
      rw [recipients, home]
      rfl
  | some name =>
      rcases List.mem_map.mp ((consistent.bound ws name).mp home) with ⟨sender, member, rfl⟩
      have known : manager.idFor sender.conn ≠ 0 := by
        rw [RoomManager.idFor_of_mem consistent member]
        exact identified.ne_zero member
      have relayed := relays_relay consistent identified member isSignal target
        (stamp again (manager.idFor sender.conn))
      rw [if_neg known, addressed, ok_bind]
      rcases result : manager.relay sender.conn kind.type target
        (stamp again (manager.idFor sender.conn)) with ⟨sent, status⟩
      rw [result] at relayed
      have called : manager.call (.relay sender.conn kind.type target
          (stamp again (manager.idFor sender.conn))) = (manager, sent) := by
        rw [RoomManager.call, result]
      cases status with
      | ok =>
          refine ⟨sent, _, rfl, ?_, relayed, stands⟩
          exact .called _ [] onlyErrors_nil (by rw [called]) (by rw [called, List.append_nil])
      | error error =>
          refine ⟨_, _, rfl, ?_, ?_, stands⟩
          · exact .called _ _ (onlyErrors_sendError _ _) (by rw [called]) (by rw [called])
          · rw [relays_append, relays_sendError, List.append_nil]
            exact relayed

end Requests

/-! ## One step -/

theorem signals_framesTo (conn : ConnectionHandle) (sent : List RoomManager.Sent) :
    (framesTo conn sent).filterMap RoomManager.Frame.signal =
      ((relays sent).filter fun relay => relay.1 = conn).filterMap
        fun relay => RoomManager.Frame.signal (.relayed relay.2) := by
  induction sent with
  | nil => rfl
  | cons delivery rest induction =>
      rcases delivery with ⟨receiver, frame⟩
      by_cases mine : receiver = conn
      · cases frame <;> simp_all [framesTo, relays, RoomManager.Frame.signal, List.filterMap_cons]
      · cases frame <;> simp_all [framesTo, relays]

theorem legible_framesTo {conn : ConnectionHandle} {sent : List RoomManager.Sent}
    (legible : ∀ relay ∈ relays sent, RoomManager.Frame.Legible (.relayed relay.2)) :
    ∀ frame ∈ framesTo conn sent, frame.Legible := by
  intro frame member
  rcases List.mem_map.mp member with ⟨delivery, listed, rfl⟩
  rcases delivery with ⟨receiver, frame⟩
  cases frame with
  | relayed rawJson =>
      apply legible (receiver, rawJson)
      exact List.mem_filterMap.mpr ⟨_, (List.mem_filter.mp listed).1, rfl⟩
  | _ => trivial

/-- What one step tells the connections. -/
structure Tells (server after : SignalingServer) (happening : Happening)
    (sent : List RoomManager.Sent) : Prop where
  running : after.running = true
  answers : Answers server.manager after.manager sent
  legible : ∀ conn, ∀ frame ∈ framesTo conn sent, frame.Legible
  signals : ∀ conn, (framesTo conn sent).filterMap RoomManager.Frame.signal =
    signalsTo conn server happening

variable {parse : Bytes → Option Document}

theorem Tells.silent {server after : SignalingServer} {happening : Happening}
    {sent : List RoomManager.Sent} (running : after.running = true)
    (answers : Answers server.manager after.manager sent) (nothing : relays sent = [])
    (notSignal : ∀ conn, signalsTo conn server happening = []) :
    Tells server after happening sent where
  running := running
  answers := answers
  legible := fun conn => legible_framesTo (by rw [nothing]; exact fun _ member => nomatch member)
  signals := by
    intro conn
    rw [signals_framesTo, nothing, notSignal]
    rfl

theorem Tells.relayed {server after : SignalingServer} {sent : List RoomManager.Sent}
    {ws : ConnectionHandle} {kind : SignalKind} {room payload : String} {target : PeerId}
    {text : Bytes} {stamped : Fields} (consistent : RoomManager.Consistent server.manager)
    (running : after.running = true) (answers : Answers server.manager after.manager sent)
    (onward : relays sent =
      (recipients server.manager ws target).map fun p => (p.conn, .object stamped))
    (stands : Signal.Stands { kind, sender := server.manager.idFor ws, payload } stamped) :
    Tells server after (.request ws (.signal kind room target payload) text) sent where
  running := running
  answers := answers
  legible := by
    intro conn
    apply legible_framesTo
    intro relay member
    rw [onward] at member
    rcases List.mem_map.mp member with ⟨p, _, rfl⟩
    exact ⟨stamped, _, rfl, stands⟩
  signals := by
    intro conn
    have once : ((recipients server.manager ws target).map RoomManager.Participant.conn).Nodup := by
      rw [recipients]
      split
      · exact List.nodup_nil
      · exact (consistent.once _).sublist (List.filter_sublist.map RoomManager.Participant.conn)
    have mine : (((recipients server.manager ws target).map RoomManager.Participant.conn).filter
        fun receiver => receiver = conn) =
          if conn ∈ (recipients server.manager ws target).map RoomManager.Participant.conn
          then [conn] else [] := by
      rw [List.filter_eq, once.count]
      split <;> rfl
    have pairs : ((recipients server.manager ws target).map fun p =>
        (p.conn, (.object stamped : Document))) =
          ((recipients server.manager ws target).map RoomManager.Participant.conn).map
            fun receiver => (receiver, .object stamped) := by
      rw [List.map_map]
      rfl
    rw [signals_framesTo, onward, pairs, List.filter_map, Function.comp_def, mine, signalsTo]
    split
    · simp [RoomManager.Frame.signal, stands.read]
    · rfl

theorem tells_step {count : Nat} {server : SignalingServer} (running : server.running = true)
    (consistent : RoomManager.Consistent server.manager)
    (identified : RoomManager.Identified count server.manager) {happening : Happening}
    (written : happening.Written parse) :
    Tells server ((conversation parse).next server happening) happening
      ((conversation parse).output server happening) := by
  cases happening with
  | close ws =>
      have stepped : step parse server (.close ws) =
          ({ server with manager := (server.manager.leave ws).1 },
            (server.manager.leave ws).2) := by
        rw [step, if_pos running]
      have outcome : (conversation parse).step server (.close ws) = _ := stepped
      rw [Machine.next, Machine.output, outcome]
      exact .silent running (.called (.leave ws) [] onlyErrors_nil rfl (List.append_nil _).symm)
        (relays_leave _ ws) fun _ => rfl
  | request ws asked text =>
      have stepped : ∀ manager sent, onMessage parse server.manager ws .text text =
          .ok (manager, sent) →
          (conversation parse).step server (.request ws asked text) =
            ({ server with manager }, sent) := by
        intro manager sent answered
        have outcome : (conversation parse).step server (.request ws asked text) =
            step parse server (.message ws .text text) := rfl
        rw [outcome, step, if_pos running]
        simp only [answered]
      rw [Machine.next, Machine.output]
      cases asked with
      | join room =>
          rcases written with ⟨fields, rfl, isText⟩
          rcases @answers_join parse server.manager ws _ _ isText with
            ⟨after, sent, answered, answers, nothing⟩
          rw [stepped _ _ answered]
          exact .silent running answers nothing fun _ => rfl
      | leave room =>
          rcases written with ⟨fields, rfl, isText⟩
          rcases @answers_leave parse server.manager ws _ _ isText with
            ⟨after, sent, answered, answers, nothing⟩
          rw [stepped _ _ answered]
          exact .silent running answers nothing fun _ => rfl
      | signal kind room target payload =>
          rcases @answers_signal parse server.manager ws count consistent identified _ _ _ _ _
            written
            with ⟨sent, stamped, answered, answers, onward, stands⟩
          rw [stepped _ _ answered]
          exact .relayed consistent running answers onward stands

/-! ## Whole conversations -/

open RoomManager (Consistent Identified Agrees)

theorem agrees_errors {manager : RoomManager} {history sent : List RoomManager.Sent}
    (agrees : Agrees manager history) (only : OnlyErrors sent) :
    Agrees manager (history ++ sent) := by
  intro conn name home
  rcases agrees conn name home with ⟨view, replayed, lists⟩
  refine ⟨view, ?_, lists⟩
  have ignored : ∀ frames : List RoomManager.Frame,
    (∀ frame ∈ frames, ∃ reason, frame = .error reason) →
      frames.foldl RoomManager.follow (some view) = some view := by
    intro frames errors
    induction frames with
    | nil => rfl
    | cons frame rest induction =>
        rcases errors frame List.mem_cons_self with ⟨reason, rfl⟩
        exact induction fun later member => errors later (List.mem_cons_of_mem _ member)
  rw [RoomManager.framesTo_append, RoomManager.replay_append, replayed]
  apply ignored
  intro frame member
  rcases List.mem_map.mp member with ⟨delivery, listed, same⟩
  rw [← same]
  exact only delivery (List.mem_filter.mp listed).1

theorem issued_errors {sent : List RoomManager.Sent} (only : OnlyErrors sent) :
    issued sent = 0 := by
  rw [issued, List.countP_eq_zero]
  intro delivery member
  rcases only delivery member with ⟨reason, isError⟩
  rw [isError]
  exact Bool.false_ne_true

/-- What holds of the server and of all that it has sent. -/
structure Orderly (manager : RoomManager) (history : List RoomManager.Sent) : Prop where
  consistent : Consistent manager
  identified : Identified (issued history) manager
  agrees : Agrees manager history

theorem Orderly.answers {manager after : RoomManager} {history sent : List RoomManager.Sent}
    (orderly : Orderly manager history) (answers : Answers manager after sent)
    (bounded : issued (history ++ sent) < 2 ^ 64) : Orderly after (history ++ sent) := by
  rw [RoomManager.issued_append] at bounded
  cases answers with
  | refused same only =>
      rw [same]
      refine ⟨orderly.consistent, ?_, agrees_errors orderly.agrees only⟩
      rw [RoomManager.issued_append, issued_errors only, Nat.add_zero]
      exact orderly.identified
  | called call errors only isAfter isSent =>
      rw [isSent, RoomManager.issued_append, issued_errors only, Nat.add_zero] at bounded
      rw [isAfter, isSent, ← List.append_assoc]
      have called := orderly.agrees.call orderly.consistent orderly.identified call bounded
      refine ⟨orderly.consistent.call call, ?_, agrees_errors called only⟩
      rw [RoomManager.issued_append, RoomManager.issued_append, issued_errors only, Nat.add_zero]
      exact orderly.identified.call orderly.consistent call bounded

/-- What every connection has been told so far. -/
structure Told (parse : Bytes → Option Document) (happenings : List Happening) : Prop where
  running : ((conversation parse).run happenings).running = true
  orderly : Orderly ((conversation parse).run happenings).manager
    ((conversation parse).produced happenings)
  legible : ∀ conn, ∀ frame ∈ framesTo conn ((conversation parse).produced happenings),
    frame.Legible
  signals : ∀ conn, (framesTo conn ((conversation parse).produced happenings)).filterMap
    RoomManager.Frame.signal = (conversation parse).shares (signalsTo conn) happenings

theorem told_run {happenings : List Happening}
    (written : ∀ happening ∈ happenings, happening.Written parse)
    (bounded : issued ((conversation parse).produced happenings) < 2 ^ 64) :
    Told parse happenings := by
  induction happenings using List.reverseRecOn with
  | nil =>
      refine ⟨rfl, ⟨.create, .create, fun _ _ home => nomatch home⟩, ?_, fun _ => rfl⟩
      intro conn frame member
      cases member
  | append_singleton past happening induction =>
      rw [Machine.produced_snoc] at bounded
      have boundedBefore : issued ((conversation parse).produced past) < 2 ^ 64 := by
        rw [RoomManager.issued_append] at bounded
        exact Nat.lt_of_le_of_lt (Nat.le_add_right _ _) bounded
      have before := induction (fun other member => written other (List.mem_append_left _ member))
        boundedBefore
      have tells := tells_step before.running before.orderly.consistent before.orderly.identified
        (written happening (List.mem_append_right _ List.mem_cons_self))
      refine ⟨?_, ?_, ?_, ?_⟩
      · rw [Machine.run_snoc]
        exact tells.running
      · rw [Machine.run_snoc, Machine.produced_snoc]
        exact before.orderly.answers tells.answers bounded
      · intro conn frame member
        rw [Machine.produced_snoc, RoomManager.framesTo_append] at member
        rcases List.mem_append.mp member with earlier | now
        · exact before.legible conn frame earlier
        · exact tells.legible conn frame now
      · intro conn
        rw [Machine.produced_snoc, RoomManager.framesTo_append, List.filterMap_append,
          before.signals, tells.signals, Machine.shares_snoc]

/-- Whatever clients send and in whatever order it comes in, the server goes on,
and the receive loop of a client that has got some of its frames returns: it has
told of exactly the signals in these frames, which are the first of those for its
connection, each once, in their order and under the sender's registered id. Once
all frames are in it has told of them all, and a client that watches its peers sees
exactly those in its room. -/
theorem conversation_delivered (parse : Bytes → Option Document) {happenings : List Happening}
    (written : ∀ happening ∈ happenings, happening.Written parse)
    (bounded : issued ((conversation parse).produced happenings) < 2 ^ 64)
    (conn : ConnectionHandle) (client : SignalingClient) {received : List RoomManager.Frame}
    (isPrefix : received <+: framesTo conn ((conversation parse).produced happenings))
    {texts : List Bytes} (came : List.Forall₂ (SignalingClient.Received parse) received texts) :
    ((conversation parse).run happenings).running = true ∧
    ∃ after notices, SignalingClient.receiveAll parse client texts = .ok (after, notices) ∧
      notices.filterMap SignalingClient.Notification.signal =
        (received.filterMap RoomManager.Frame.signal).filter
          (fun signal => client.callbacks.wants signal.kind) ∧
      notices.filterMap SignalingClient.Notification.signal <+:
        ((conversation parse).shares (signalsTo conn) happenings).filter
          (fun signal => client.callbacks.wants signal.kind) ∧
      (received = framesTo conn ((conversation parse).produced happenings) →
        notices.filterMap SignalingClient.Notification.signal =
          ((conversation parse).shares (signalsTo conn) happenings).filter
            (fun signal => client.callbacks.wants signal.kind) ∧
        (client.callbacks.onJoined = true → client.callbacks.onPeerJoined = true →
          client.callbacks.onPeerLeft = true → ∀ name,
            ((conversation parse).run happenings).manager.connRoom.lookup conn = some name →
            ∃ view, notices.foldl SignalingClient.see none = some view ∧ view.Nodup ∧
              ∀ id, id ∈ view ↔ ∃ p ∈ ((conversation parse).run happenings).manager.roster name,
                p.conn ≠ conn ∧ p.id = id)) := by
  have told := told_run written bounded
  have understood := client.receiveAll_legible
    (fun frame member => told.legible conn frame (isPrefix.subset member)) came
  refine ⟨told.running, _, _, understood, client.signals_told received, ?_, ?_⟩
  · rw [client.signals_told, ← told.signals]
    exact (isPrefix.filterMap _).filter _
  · intro all
    refine ⟨by rw [client.signals_told, all, told.signals], ?_⟩
    intro onJoined onPeerJoined onPeerLeft name home
    rcases told.orderly.agrees conn name home with ⟨view, replayed, lists⟩
    refine ⟨view, ?_, lists.1, fun id => (lists.2 id).trans ?_⟩
    · rw [SignalingClient.foldl_see_told onJoined onPeerJoined onPeerLeft, all]
      exact replayed
    · apply exists_congr
      intro p
      rw [RoomManager.mem_others, and_assoc]

/-- The texts of a conversation: a join, an offer, and what the first client is sent. -/
def offerParse : Bytes → Option Document
  | [1] => some (.object (SignalingClient.joinMessage "room"))
  | [2] => some (.object [("type", .string "offer"), ("room", .string "room"),
      ("payload", .string "sdp"), ("to", .number (.unsigned 1))])
  | [3] => (RoomManager.Frame.joined "room" 1 []).fields.map .object
  | [4] => (RoomManager.Frame.peerJoined "room" 2).fields.map .object
  | [5] => some (.object [("from", .number (.unsigned 2)), ("type", .string "offer"),
      ("room", .string "room"), ("payload", .string "sdp"), ("to", .number (.unsigned 1))])
  | _ => none

/-- Two clients join, and the second one calls the first. -/
def oneOffer : List Happening :=
  [.request 5 (.join "room") [1], .request 6 (.join "room") [1],
    .request 6 (.signal .offer "room" 1 "sdp") [2]]

theorem conversation_delivered_one_offer :
    ∃ after notices,
      SignalingClient.receiveAll offerParse SignalingClient.allEars [[3], [4], [5]] =
        .ok (after, notices) ∧
      notices.filterMap SignalingClient.Notification.signal = [⟨.offer, 2, "sdp"⟩] ∧
      ∃ view, notices.foldl SignalingClient.see none = some view ∧ 2 ∈ view := by
  have written : ∀ happening ∈ oneOffer, happening.Written offerParse := by
    intro happening member
    simp only [oneOffer, List.mem_cons, List.not_mem_nil, or_false] at member
    rcases member with rfl | rfl | rfl
    · exact ⟨_, rfl, _, rfl, fun _ => rfl⟩
    · exact ⟨_, rfl, _, rfl, fun _ => rfl⟩
    · exact ⟨_, rfl, _, rfl, fun _ => rfl⟩
  have came : List.Forall₂ (SignalingClient.Received offerParse)
      (framesTo 5 ((conversation offerParse).produced oneOffer)) [[3], [4], [5]] :=
    .cons ⟨_, rfl, _, rfl, fun _ => rfl⟩ (.cons ⟨_, rfl, _, rfl, fun _ => rfl⟩
      (.cons ⟨_, rfl, _, rfl, fun _ => rfl⟩ .nil))
  rcases conversation_delivered offerParse written (by decide) 5 SignalingClient.allEars
    (List.prefix_refl _) came with
    ⟨_, after, notices, loop, _, _, all⟩
  rcases all rfl with ⟨signals, sees⟩
  rcases sees rfl rfl rfl "room" rfl with ⟨view, seen, _, lists⟩
  refine ⟨after, notices, loop, signals.trans rfl, view, seen, ?_⟩
  exact (lists 2).mpr ⟨{ id := 2, conn := 6 }, by decide, by decide, rfl⟩

end SignalingServer

end Vela
