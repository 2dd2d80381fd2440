import Vela.SignalingServer.Server

/-! # Relayed messages

An offer, an answer or a candidate goes to the room of its sender and nowhere
else, under the id the registry has for the sender. -/

namespace Vela

open Foundation UnorderedMap

namespace SignalingServer

open RoomManager

/-- The participants a message is for: the one with the id it names, or without
one everybody else in the sender's room. -/
def recipients (manager : RoomManager) (ws : ConnectionHandle)
    (target : RoomManager.ParticipantId) :
    List RoomManager.Participant :=
  match manager.connRoom.lookup ws with
  | none => []
  | some name =>
      (manager.roster name).filter fun p => if target = 0 then p.conn ≠ ws else p.id = target

/-- The messages that are sent onward, with where they go. -/
def relays (sent : List Sent) : List (ConnectionHandle × Document) :=
  sent.filterMap fun delivery =>
    match delivery.frame with
    | .relayed rawJson => some (delivery.conn, rawJson)
    | _ => none

theorem relays_append (earlier later : List Sent) :
    relays (earlier ++ later) = relays earlier ++ relays later :=
  List.filterMap_append

theorem relays_sendError (ws : ConnectionHandle) (reason : String) :
    relays (sendError ws reason) = [] := rfl

theorem relays_map (participants : List RoomManager.Participant) (rawJson : Document) :
    relays (participants.map fun p => { conn := p.conn, frame := .relayed rawJson }) =
      participants.map fun p => (p.conn, rawJson) := by
  rw [relays, List.filterMap_map]
  exact List.filterMap_eq_map_iff_forall_eq_some.mpr fun _ _ => rfl

/-- The first participant under an id is the only one. -/
theorem filter_id_eq {participants : List RoomManager.Participant}
    {target : RoomManager.ParticipantId}
    (unique : (participants.map RoomManager.Participant.id).Nodup) :
    participants.filter (fun p => p.id = target) =
      (participants.find? fun p => p.id = target).toList := by
  induction participants with
  | nil => rfl
  | cons p rest induction =>
      rw [List.map_cons, List.nodup_cons] at unique
      by_cases here : p.id = target
      · have restEmpty : rest.filter (fun q => q.id = target) = [] := by
          apply List.filter_eq_nil_iff.mpr
          intro q member
          simp only [decide_eq_true_eq]
          intro same
          exact unique.1 (List.mem_map.mpr ⟨q, member, same.trans here.symm⟩)
        rw [List.filter_cons_of_pos (by simpa using here), restEmpty,
          List.find?_cons_of_pos (by simpa using here)]
        rfl
      · rw [List.filter_cons_of_neg (by simpa using here),
          List.find?_cons_of_neg (by simpa using here)]
        exact induction unique.2

variable {manager : RoomManager} {ws : ConnectionHandle} {name type : String}

/-- What the room manager sends for a message of somebody in a room. -/
theorem relays_relay {count : Nat} (consistent : Consistent manager)
    (identified : Identified count manager) {sender : RoomManager.Participant}
    (member : sender ∈ manager.roster name)
    (kind : type = "offer" ∨ type = "answer" ∨ type = "ice") (target : RoomManager.ParticipantId)
    (rawJson : Document) :
    relays (manager.relay sender.conn type target rawJson).1 =
      (recipients manager sender.conn target).map fun p => (p.conn, rawJson) := by
  have home := (consistent.bound sender.conn name).mpr (List.mem_map.mpr ⟨sender, member, rfl⟩)
  rcases lookup_of_mem_roster member with ⟨room, found, participants⟩
  have entry : room.entryOf sender.conn = some sender := by
    apply find?_entry
    · rw [participants]
      exact consistent.once name
    · rw [participants]
      exact member
  have located : manager.roomOf sender.conn = some (room, sender.id) := by
    simp only [roomOf, home, found, entry, Option.map_some, Option.getD_some]
  have known : ¬ (type ≠ "offer" ∧ type ≠ "answer" ∧ type ≠ "ice") := by
    rcases kind with rfl | rfl | rfl <;> decide
  rw [relay, if_neg known, located, recipients, home]
  simp only [if_neg (identified.ne_zero member), participants]
  by_cases broadcast : target = 0
  · simp only [broadcast, ne_eq, not_true_eq_false, if_false, if_true]
    exact relays_map _ rawJson
  · simp only [broadcast, ne_eq, not_false_eq_true, if_true, if_false]
    rw [filter_id_eq (nodup_ids consistent identified name)]
    cases (manager.roster name).find? fun p => p.id = target <;> rfl

/-- The handler on an offer, an answer or a candidate: the registry stays as it
is, and what is sent onward is what the room manager sends for the stamped
message. -/
theorem onObject_relays {fields : Fields} {target : RoomManager.ParticipantId}
    (isType : fields.lookup "type" = some (.string type))
    (kind : type = "offer" ∨ type = "answer" ∨ type = "ice")
    (addressed : Document.value fields "to" Document.getUInt64 0 = .ok target) :
    ∃ sent, onObject manager ws fields = .ok (manager, sent) ∧
      relays sent = if manager.idFor ws = 0 then [] else
        relays (manager.relay ws type target (stamp fields (manager.idFor ws))).1 := by
  have typed : Document.value fields "type" Document.getString "" = .ok type :=
    Document.value_of_lookup isType
  have notJoin : type ≠ "join" := by
    rcases kind with rfl | rfl | rfl <;> decide
  have notLeave : type ≠ "leave" := by
    rcases kind with rfl | rfl | rfl <;> decide
  rw [onObject, typed, ok_bind, if_neg notJoin, if_neg notLeave, if_pos kind]
  simp only
  by_cases outsider : manager.idFor ws = 0
  · rw [if_pos outsider, if_pos outsider]
    exact ⟨_, rfl, relays_sendError ws _⟩
  · rw [if_neg outsider, if_neg outsider, addressed, ok_bind]
    rcases manager.relay ws type target (stamp fields (manager.idFor ws)) with ⟨sent, status⟩
    cases status with
    | ok => exact ⟨sent, rfl, rfl⟩
    | error error =>
        refine ⟨sent ++ sendError ws "relay target not found", rfl, ?_⟩
        rw [relays_append, relays_sendError, List.append_nil]

/-- The numbers that name a participant, or nobody when missing. -/
theorem target_of_addressed {fields : Fields} {target : RoomManager.ParticipantId}
    (addressed : fields.lookup "to" = none ∧ target = 0 ∨
      ∃ number, fields.lookup "to" = some (.number number) ∧ number.toRat = target.toNat) :
    Document.value fields "to" Document.getUInt64 0 = .ok target := by
  rcases addressed with ⟨missing, zero⟩ | ⟨number, found, written⟩
  · rw [Document.value_of_missing missing, zero]
  · rw [Document.value_of_lookup found, Document.getUInt64,
      JsonNumber.toUInt64_of_toRat written]

/-- In every state the server can reach while fewer than `2 ^ 64` joins have
succeeded, an offer, an answer or a candidate leaves the registry as it is and is
sent onward exactly once to each of its recipients, all in the sender's room. The
sender's own id stands in its `from`, whatever the client put there, and its other
fields are as received. -/
theorem relay_isolated (parse : Bytes → Option Document) (events : List Event)
    (bounded : issued ((machine parse).outputs events).flatten < 2 ^ 64)
    (ws : ConnectionHandle) (msg : Bytes) (fields : Fields) (type : String)
    (target : RoomManager.ParticipantId)
    (parsed : parse msg = some (.object fields))
    (isType : fields.lookup "type" = some (.string type))
    (kind : type = "offer" ∨ type = "answer" ∨ type = "ice")
    (addressed : fields.lookup "to" = none ∧ target = 0 ∨
      ∃ number, fields.lookup "to" = some (.number number) ∧ number.toRat = target.toNat) :
    ∃ sent stamped,
      onMessage parse ((machine parse).run events).manager ws .text msg =
        .ok (((machine parse).run events).manager, sent) ∧
      relays sent = (recipients ((machine parse).run events).manager ws target).map
        (fun p => (p.conn, .object stamped)) ∧
      ((recipients ((machine parse).run events).manager ws target).map
        RoomManager.Participant.conn).Nodup ∧
      (target ≠ 0 → (recipients ((machine parse).run events).manager ws target).length ≤ 1) ∧
      stamped.lookup "from" =
        some (.number (.unsigned (((machine parse).run events).manager.idFor ws))) ∧
      (∀ key, key ≠ "from" → stamped.lookup key = fields.lookup key) ∧
      ∀ name p, p ∈ ((machine parse).run events).manager.roster name → p.conn = ws →
        ((machine parse).run events).manager.idFor ws = p.id := by
  have consistent : Consistent ((machine parse).run events).manager := consistent_run events
  have identified := identified_run events bounded
  generalize ((machine parse).run events).manager = manager at consistent identified ⊢
  have read := target_of_addressed addressed
  rcases @onObject_relays manager ws type fields target isType kind read with
    ⟨sent, returned, onward⟩
  refine ⟨sent, Json.setMember fields "from" (.number (.unsigned (manager.idFor ws))), ?_, ?_, ?_,
    fun directed => ?_, ?_, fun key different => ?_, fun name p member same => ?_⟩
  · simp only [onMessage, parsed, ne_eq, not_true_eq_false, if_false]
    exact returned
  · rw [onward]
    cases home : manager.connRoom.lookup ws with
    | none =>
        rw [if_pos (idFor_of_unbound home), recipients, home]
        rfl
    | some name =>
        rcases List.mem_map.mp ((consistent.bound ws name).mp home) with ⟨sender, member, rfl⟩
        have known : manager.idFor sender.conn ≠ 0 := by
          rw [idFor_of_mem consistent member]
          exact identified.ne_zero member
        rw [if_neg known]
        exact relays_relay consistent identified member kind target _
  · rw [recipients]
    split
    · exact List.nodup_nil
    · exact (consistent.once _).sublist (List.filter_sublist.map RoomManager.Participant.conn)
  · rw [recipients]
    split
    · exact Nat.zero_le 1
    · simp only [if_neg directed]
      rw [filter_id_eq (nodup_ids consistent identified _)]
      exact Option.length_toList_le
  · rw [Json.lookup_setMember, if_pos rfl]
  · rw [Json.lookup_setMember, if_neg different]
  · rw [← same]
    exact idFor_of_mem consistent member

/-! ## Two clients in a room -/

/-- A parser for the two messages used below. -/
def sampleParse : Bytes → Option Document
  | [1] => some (.object [("type", .string "join"), ("room", .string "room")])
  | [2] => some (.object [("type", .string "offer"), ("to", .number (.unsigned 1)),
      ("from", .number (.unsigned 9))])
  | _ => none

/-- The offer of a client that claims another id. -/
theorem relay_isolated_spoofed :
    ∃ sent stamped,
      onMessage sampleParse ((machine sampleParse).run
        [.message 5 .text [1], .message 6 .text [1]]).manager 6 .text [2] =
          .ok (((machine sampleParse).run
            [.message 5 .text [1], .message 6 .text [1]]).manager, sent) ∧
      relays sent = [(5, .object stamped)] ∧
      stamped.lookup "from" = some (.number (.unsigned 2)) := by
  rcases relay_isolated sampleParse [.message 5 .text [1], .message 6 .text [1]] (by decide) 6 [2] _
    "offer" 1 rfl rfl (Or.inl rfl) (Or.inr ⟨.unsigned 1, rfl, rfl⟩) with
    ⟨sent, stamped, returned, onward, _, _, sender, _, _⟩
  exact ⟨sent, stamped, returned, onward, sender⟩

/-- One client stays in the room while another joins it again and again. -/
def joining (count : Nat) : List Event :=
  .message 1 .text [1] :: List.replicate count (.message 2 .text [1])

theorem onMessage_join (manager : RoomManager) (ws : ConnectionHandle) :
    ∃ sent, onMessage sampleParse manager ws .text [1] =
      .ok ((manager.call (.join "room" ws)).1, sent) := by
  have typed : Document.value [("type", .string "join"), ("room", .string "room")] "type"
      Document.getString "" = .ok "join" := rfl
  have named : Document.value [("type", .string "join"), ("room", .string "room")] "room"
      Document.getString "" = .ok "room" := rfl
  change ∃ sent, onObject manager ws [("type", .string "join"), ("room", .string "room")] = _
  rw [onObject, typed, ok_bind, if_pos rfl, named, ok_bind, call]
  rcases manager.join "room" ws with ⟨after, sent, result⟩
  cases result with
  | ok id => exact ⟨sent, rfl⟩
  | error error => exact ⟨_, rfl⟩

theorem run_joining (count : Nat) :
    (machine sampleParse).run (joining count) =
      { manager := RoomManager.machine.run (rejoining count), running := true } := by
  induction count with
  | zero => rfl
  | succ count induction =>
      have oneMore : joining (count + 1) = joining count ++ [.message 2 .text [1]] := by
        rw [joining, List.replicate_succ', joining, List.cons_append]
      rcases onMessage_join (RoomManager.machine.run (rejoining count)) 2 with ⟨sent, joined⟩
      rw [oneMore, Machine.run_snoc, induction, rejoining_succ, Machine.run_snoc]
      change (step sampleParse _ _).1 = _
      simp only [step, if_true, joined]
      rfl

/-- A client in the room under the id that stands for nobody is refused. -/
theorem onMessage_refused {manager : RoomManager} (zero : manager.idFor 2 = 0) :
    onMessage sampleParse manager 2 .text [2] =
      .ok (manager, sendError 2 "must join a room before signaling") := by
  have typed : Document.value [("type", .string "offer"), ("to", .number (.unsigned 1)),
      ("from", .number (.unsigned 9))] "type" Document.getString "" = .ok "offer" := rfl
  change onObject manager 2 [("type", .string "offer"), ("to", .number (.unsigned 1)),
    ("from", .number (.unsigned 9))] = _
  rw [onObject, typed, ok_bind, if_neg (by decide), if_neg (by decide), if_pos (.inl rfl)]
  exact if_pos zero

/-- The id counter has gone round: the offer of one client in the room to the
other one is refused. -/
theorem relay_refused_after_wrap :
    onMessage sampleParse ((machine sampleParse).run (joining (2 ^ 64 - 1))).manager 2 .text [2] =
        .ok (((machine sampleParse).run (joining (2 ^ 64 - 1))).manager,
          sendError 2 "must join a room before signaling") ∧
      ((machine sampleParse).run (joining (2 ^ 64 - 1))).manager.connRoom.lookup 2 = some "room" ∧
      ∃ p ∈ ((machine sampleParse).run (joining (2 ^ 64 - 1))).manager.roster "room", p.id = 1 := by
  have roster := roster_rejoining (by omega : 1 ≤ 2 ^ 64 - 1)
  have wrapped : BitVec.ofNat 64 (2 ^ 64 - 1 + 1) = 0 := by decide
  rw [wrapped] at roster
  rw [run_joining]
  dsimp only
  have consistent := RoomManager.consistent_run (rejoining (2 ^ 64 - 1))
  have second : ({ id := 0, conn := 2 } : RoomManager.Participant) ∈
      (RoomManager.machine.run (rejoining (2 ^ 64 - 1))).roster "room" := by
    rw [roster]
    exact List.mem_cons_of_mem _ List.mem_cons_self
  have zero := idFor_of_mem consistent second
  dsimp only at zero
  refine ⟨onMessage_refused zero, ?_, { id := 1, conn := 1 }, ?_, rfl⟩
  · exact (consistent.bound 2 "room").mpr (List.mem_map.mpr ⟨_, second, rfl⟩)
  · rw [roster]
    exact List.mem_cons_self

end SignalingServer

end Vela
