import Vela.Web.Farewells

/-! # The client of the mesh

The page of one participant: its map of peers, and the handlers of its frames. A
handler runs up to its next `await` before anything else does; what it waits for is
settled in any order, or never. -/

namespace Vela

open Foundation

namespace MeshClient

/-- What the map of peers has under an id, besides the peer connection. -/
structure Peer (Number : Type) where
  name : Json Number
  hasTile : Bool := false

/-- Where a handler is suspended, with what it still needs. The `joined` handler
holds the peers that it has yet to make an offer to. -/
inductive Wait (Number : Type) where
  | createOffer (id : String) (rest : List String)
  | setLocalOffer (id : String) (rest : List String)
  | setRemote (sender : String) (description : Json Number)
  | createAnswer (sender : String)
  | setLocalAnswer (sender : String)
  | addCandidate (sender : String)

/-- How the browser settles what a handler waits for. Where the handler reads
`pc.localDescription` next, it reads the one given here. -/
inductive Outcome (Number : Type) where
  | fulfilled (localDescription : Json Number)
  | rejected

inductive Message (Number : Type) where
  | join (room : String)
  | description (target : String) (description : Json Number) (name : String)
  | candidate (target : String) (candidate : Json Number)

inductive Event (Number : Type) where
  | opened
  | message (frame : WebServer.Frame Number)
  | settled (position : Nat) (outcome : Outcome Number)
  | iceCandidate (id : String) (candidate : Option (Json Number))
  | track (id : String)

end MeshClient

open MeshClient in
structure MeshClient (Number : Type) where
  room : String
  myName : String
  myId : Option String := none
  peers : InsertionMap String (Peer Number) := ∅
  /-- The handlers that have not come to their end. -/
  waiting : List (Wait Number) := []

namespace MeshClient

variable {Number : Type}

def getPeer (client : MeshClient Number) (id : String) : MeshClient Number :=
  if id ∈ client.peers then client
  else { client with peers := client.peers.set id { name := .string ("Peer " ++ id) } }

/-- `initialOf` trims the name, and throws on one that is no string. -/
def hasInitial : Json Number → Bool
  | .string _ => true
  | _ => false

/-- The exception, if there is one, leaves the name set. -/
def setPeerName (engine : ScriptEngine Number) (client : MeshClient Number) (id : String)
    (name : Json Number) : MeshClient Number × Option ScriptError :=
  match client.peers.lookup id with
  | none => (client, none)
  | some p =>
      if Json.isTruthy engine name then
        ({ client with peers := client.peers.set id { p with name := name } },
          if p.hasTile ∧ hasInitial name = false then some .typeError else none)
      else (client, none)

/-- The iterations of the `joined` handler that are left: the next one runs to its
first `await`. -/
def makeOffers (client : MeshClient Number) :
    List String → MeshClient Number × Option (Wait Number)
  | [] => (client, none)
  | id :: rest => (client.getPeer id, some (.createOffer id rest))

/-- `if (data.name) setPeerName(from, data.name)` -/
def nameSender (engine : ScriptEngine Number) (client : MeshClient Number) (sender : String)
    (data : Json Number) : MeshClient Number × Option ScriptError :=
  match Json.truthyMember engine data "name" with
  | some name => client.setPeerName engine sender name
  | none => (client, none)

/-- Where `onSignal` is suspended first, if it does not end or throw before. -/
def onSignal (engine : ScriptEngine Number) (client : MeshClient Number) (sender : String)
    (data : Option (Json Number)) : MeshClient Number × Option (Wait Number) :=
  match data with
  | none => (client, none)
  | some .null => (client, none)
  | some value =>
      match client.nameSender engine sender value with
      | (client, some _) => (client, none)
      | (client, none) =>
          let client := client.getPeer sender
          match Json.truthyMember engine value "description" with
          | some description => (client, some (.setRemote sender description))
          | none =>
              if (Json.truthyMember engine value "candidate").isSome then
                (client, some (.addCandidate sender))
              else (client, none)

def onMessage (engine : ScriptEngine Number) (client : MeshClient Number) :
    WebServer.Frame Number → MeshClient Number × Option (Wait Number)
  | .joined id peers => { client with myId := some id }.makeOffers peers
  | .peerLeft id => ({ client with peers := client.peers.erase id }, none)
  | .signal sender data => client.onSignal engine sender data
  | .peerJoined _ => (client, none)

/-- A handler goes on to its next `await` or to its end. -/
def resume (client : MeshClient Number) :
    Wait Number → Outcome Number →
      (MeshClient Number × Option (Wait Number)) × List (Message Number)
  | _, .rejected => ((client, none), [])
  | .createOffer id rest, .fulfilled _ => ((client, some (.setLocalOffer id rest)), [])
  | .setLocalOffer id rest, .fulfilled localDescription =>
      (client.makeOffers rest, [.description id localDescription client.myName])
  | .setRemote sender description, .fulfilled _ =>
      if WebServer.typeOf (description.member "type") = some "offer" then
        ((client, some (.createAnswer sender)), [])
      else ((client, none), [])
  | .createAnswer sender, .fulfilled _ => ((client, some (.setLocalAnswer sender)), [])
  | .setLocalAnswer sender, .fulfilled localDescription =>
      ((client, none), [.description sender localDescription client.myName])
  | .addCandidate _, .fulfilled _ => ((client, none), [])

def onTrack (client : MeshClient Number) (id : String) : MeshClient Number :=
  match client.peers.lookup id with
  | none => client
  | some p =>
      if p.hasTile = false ∧ hasInitial p.name = true then
        { client with peers := client.peers.set id { p with hasTile := true } }
      else client

/-! ## Runs -/

def step (engine : ScriptEngine Number) (client : MeshClient Number) :
    Event Number → MeshClient Number × List (Message Number)
  | .opened => (client, [.join client.room])
  | .message frame =>
      match client.onMessage engine frame with
      | (after, wait) => ({ after with waiting := client.waiting ++ wait.toList }, [])
  | .settled position outcome =>
      match client.waiting[position]? with
      | none => (client, [])
      | some wait =>
          match client.resume wait outcome with
          | ((after, none), sent) =>
              ({ after with waiting := client.waiting.eraseIdx position }, sent)
          | ((after, some next), sent) =>
              ({ after with waiting := client.waiting.set position next }, sent)
  | .iceCandidate id candidate =>
      (client, (candidate.map fun candidate => .candidate id candidate).toList)
  | .track id => (client.onTrack id, [])

def machine (engine : ScriptEngine Number) (room myName : String) :
    Machine (MeshClient Number) (Event Number) (List (Message Number)) where
  initial := { room := room, myName := myName }
  step := step engine

/-! ## Who has left -/

def frameOf : Event Number → Option (WebServer.Frame Number)
  | .message frame => some frame
  | _ => none

/-- The frames that came in, in order. -/
def received (events : List (Event Number)) : List (WebServer.Frame Number) :=
  events.filterMap frameOf

def HasLeft (events : List (Event Number)) (id : String) : Prop :=
  .peerLeft id ∈ received events

/-- No key of the map is the id of a peer whose departure was told. -/
def NoGhosts (events : List (Event Number)) (client : MeshClient Number) : Prop :=
  ∀ id, HasLeft events id → id ∉ client.peers

/-- The listed peer that the `joined` handler turns to: the first when the frame
comes, each other when the offer before it is made. -/
def turnsTo (client : MeshClient Number) : Event Number → Option String
  | .message (.joined _ (id :: _)) => some id
  | .settled position (.fulfilled _) =>
      match client.waiting[position]? with
      | some (.setLocalOffer _ (id :: _)) => some id
      | _ => none
  | _ => none

theorem received_snoc (past : List (Event Number)) (event : Event Number) :
    received (past ++ [event]) = received past ++ (frameOf event).toList := by
  rw [received, List.filterMap_append]
  cases event <;> rfl

/-! ## The keys of the map -/

variable {client : MeshClient Number} {id other : String}

theorem mem_getPeer : other ∈ (client.getPeer id).peers ↔ other = id ∨ other ∈ client.peers := by
  rw [getPeer]
  by_cases present : id ∈ client.peers
  · rw [if_pos present]
    constructor
    · exact .inr
    · intro either
      rcases either with same | held
      · rw [same]
        exact present
      · exact held
  · rw [if_neg present]
    exact InsertionMap.mem_set

/-- Setting a key that is there keeps the keys. -/
theorem mem_set_present {Value : Type} {map : InsertionMap String Value} {old value : Value}
    (found : map.lookup id = some old) : other ∈ map.set id value ↔ other ∈ map := by
  rw [InsertionMap.mem_set, or_iff_right_iff_imp]
  intro same
  rw [same]
  exact UnorderedMap.mem_iff_exists_lookup.mpr ⟨old, found⟩

theorem mem_setPeerName (engine : ScriptEngine Number) (name : Json Number) :
    other ∈ (client.setPeerName engine id name).1.peers ↔ other ∈ client.peers := by
  rw [setPeerName]
  split
  · rfl
  · rename_i old found
    split
    · exact mem_set_present found
    · rfl

/-- A name changes no key, whether its handler goes on or throws. -/
theorem mem_nameSender (engine : ScriptEngine Number) (data : Json Number) :
    other ∈ (client.nameSender engine id data).1.peers ↔ other ∈ client.peers := by
  rw [nameSender]
  split
  · exact mem_setPeerName engine _
  · rfl

theorem mem_onTrack : other ∈ (client.onTrack id).peers ↔ other ∈ client.peers := by
  rw [onTrack]
  split
  · rfl
  · rename_i old found
    split
    · exact mem_set_present found
    · rfl

theorem mem_makeOffers (ids : List String) :
    other ∈ (client.makeOffers ids).1.peers ↔ ids.head? = some other ∨ other ∈ client.peers := by
  cases ids with
  | nil => simp [makeOffers]
  | cons id rest =>
      rw [makeOffers, mem_getPeer, List.head?_cons, Option.some_inj]
      exact or_congr_left eq_comm

/-- A signal adds its sender at most. -/
theorem mem_onSignal (engine : ScriptEngine Number) (data : Option (Json Number)) :
    (other ∈ client.peers → other ∈ (client.onSignal engine id data).1.peers) ∧
      (other ∈ (client.onSignal engine id data).1.peers → other = id ∨ other ∈ client.peers) := by
  unfold onSignal
  split
  · exact ⟨fun held => held, .inr⟩
  · exact ⟨fun held => held, .inr⟩
  · rename_i value notNull
    have keys := @mem_nameSender _ client id other engine value
    split
    · rename_i after error named
      rw [named] at keys
      exact ⟨keys.mpr, fun held => .inr (keys.mp held)⟩
    · rename_i after named
      rw [named] at keys
      have added : other ∈ (after.getPeer id).peers ↔ other = id ∨ other ∈ client.peers :=
        mem_getPeer.trans (or_congr_right keys)
      have both : (other ∈ client.peers → other ∈ (after.getPeer id).peers) ∧
          (other ∈ (after.getPeer id).peers → other = id ∨ other ∈ client.peers) :=
        ⟨fun held => added.mpr (.inr held), added.mp⟩
      dsimp only
      split
      · exact both
      · split
        · exact both
        · exact both

/-- What a handler that goes on does to the keys: it adds the peer that it turns to. -/
theorem mem_resume (wait : Wait Number) (outcome : Outcome Number) :
    other ∈ (client.resume wait outcome).1.1.peers ↔
      (∃ id rest localDescription, wait = .setLocalOffer id (other :: rest) ∧
        outcome = .fulfilled localDescription) ∨ other ∈ client.peers := by
  cases outcome with
  | rejected => cases wait <;> simp [resume]
  | fulfilled localDescription =>
      cases wait with
      | setLocalOffer id rest =>
          rw [resume, mem_makeOffers]
          cases rest <;> simp
      | setRemote sender description =>
          rw [resume]
          split <;> simp
      | _ => simp [resume]

/-- All that an event can do to a key: only the notice of a departure removes it,
and only the `joined` handler or a signal from that peer adds it. -/
structure KeyStep (client next : MeshClient Number) (event : Event Number) (id : String) :
    Prop where
  kept : id ∈ client.peers → event ≠ .message (.peerLeft id) → id ∈ next.peers
  turned : turnsTo client event = some id → id ∈ next.peers
  added : id ∈ next.peers → id ∈ client.peers ∧ event ≠ .message (.peerLeft id) ∨
    turnsTo client event = some id ∨ ∃ data, event = .message (.signal id data)

/-- An event that the `joined` handler has no part in, and that leaves the keys. -/
theorem KeyStep.still {next : MeshClient Number} {event : Event Number}
    (same : id ∈ next.peers ↔ id ∈ client.peers) (away : turnsTo client event = none)
    (noNotice : event ≠ .message (.peerLeft id)) : KeyStep client next event id where
  kept := fun held _ => same.mpr held
  turned := fun turns => by rw [away] at turns; cases turns
  added := fun held => .inl ⟨same.mp held, noNotice⟩

theorem keyStep_message (engine : ScriptEngine Number) (frame : WebServer.Frame Number) :
    KeyStep client (step engine client (.message frame)).1 (.message frame) id := by
  change KeyStep client { (client.onMessage engine frame).1 with
    waiting := client.waiting ++ (client.onMessage engine frame).2.toList } (.message frame) id
  cases frame with
  | joined own listed =>
      have keys : id ∈ (client.onMessage engine (.joined own listed)).1.peers ↔
          listed.head? = some id ∨ id ∈ client.peers := mem_makeOffers listed
      have turns : turnsTo client (.message (.joined own listed) : Event Number) =
        listed.head? := by
        cases listed <;> rfl
      refine ⟨fun held _ => keys.mpr (.inr held), fun first => keys.mpr (.inl ?_), ?_⟩
      · rw [← turns]
        exact first
      · intro held
        rcases keys.mp held with first | old
        · exact .inr (.inl (turns.trans first))
        · exact .inl ⟨old, by simp⟩
  | peerJoined newcomer => exact KeyStep.still Iff.rfl rfl (by simp)
  | peerLeft leaver =>
      have keys : id ∈ (client.onMessage engine (.peerLeft leaver)).1.peers ↔
          id ≠ leaver ∧ id ∈ client.peers := AList.mem_erase
      refine ⟨?_, fun turns => absurd turns (by simp [turnsTo]), ?_⟩
      · intro held other
        exact keys.mpr ⟨fun same => other (by rw [same]), held⟩
      · intro held
        rcases keys.mp held with ⟨different, old⟩
        refine .inl ⟨old, ?_⟩
        intro same
        cases same
        exact different rfl
  | signal sender data =>
      have keys := @mem_onSignal _ client sender id engine data
      refine ⟨fun held _ => keys.1 held, fun turns => absurd turns (by simp [turnsTo]), ?_⟩
      intro held
      rcases keys.2 held with same | old
      · rw [same]
        exact .inr (.inr ⟨data, rfl⟩)
      · exact .inl ⟨old, by simp⟩

theorem turnsTo_settled {position : Nat} {wait : Wait Number} {outcome : Outcome Number}
    (found : client.waiting[position]? = some wait) :
    turnsTo client (.settled position outcome) = some id ↔
      ∃ before rest localDescription, wait = .setLocalOffer before (id :: rest) ∧
        outcome = .fulfilled localDescription := by
  cases outcome with
  | rejected => simp [turnsTo]
  | fulfilled localDescription =>
      rw [turnsTo, found]
      cases wait with
      | setLocalOffer before rest => cases rest <;> simp
      | _ => simp

theorem keyStep_settled (engine : ScriptEngine Number) (position : Nat)
    (outcome : Outcome Number) :
    KeyStep client (step engine client (.settled position outcome)).1 (.settled position outcome)
      id := by
  rw [step]
  cases found : client.waiting[position]? with
  | none =>
      apply KeyStep.still Iff.rfl _ (by simp)
      cases outcome with
      | rejected => rfl
      | fulfilled localDescription => rw [turnsTo, found]
  | some wait =>
      have keys := (@mem_resume _ client id wait outcome).trans
        (or_congr_left (turnsTo_settled found).symm)
      have resumed : ∀ next : MeshClient Number,
          (id ∈ next.peers ↔ id ∈ (client.resume wait outcome).1.1.peers) →
          KeyStep client next (.settled position outcome) id := by
        intro next same
        refine ⟨fun held _ => same.mpr (keys.mpr (.inr held)),
          fun turns => same.mpr (keys.mpr (.inl turns)), ?_⟩
        intro held
        rcases keys.mp (same.mp held) with turns | old
        · exact .inr (.inl turns)
        · exact .inl ⟨old, by simp⟩
      dsimp only
      split
      · rename_i after sent ended
        exact resumed _ (by rw [ended])
      · rename_i after next sent went
        exact resumed _ (by rw [went])

theorem keyStep (engine : ScriptEngine Number) (client : MeshClient Number)
    (event : Event Number) (id : String) :
    KeyStep client (step engine client event).1 event id := by
  cases event with
  | opened => exact KeyStep.still Iff.rfl rfl (by simp)
  | message frame => exact keyStep_message engine frame
  | settled position outcome => exact keyStep_settled engine position outcome
  | iceCandidate target candidate => exact KeyStep.still Iff.rfl rfl (by simp)
  | track target => exact KeyStep.still mem_onTrack rfl (by simp)

/-! ## Whole runs -/

section Run

variable (engine : ScriptEngine Number) (room myName : String)

/-- No peer that the `joined` handler turned to had left, as far as the client was
told. -/
def TurnsToPresent (events : List (Event Number)) : Prop :=
  ∀ past event, past ++ [event] <+: events → ∀ id,
    turnsTo ((machine engine room myName).run past) event = some id → ¬ HasLeft past id

variable {engine room myName}

theorem turnsToPresent_snoc {events : List (Event Number)} {event : Event Number} :
    TurnsToPresent engine room myName (events ++ [event]) ↔
      TurnsToPresent engine room myName events ∧
        ∀ id, turnsTo ((machine engine room myName).run events) event = some id →
          ¬ HasLeft events id :=
  Machine.forall_steps_snoc

theorem hasLeft_snoc {past : List (Event Number)} {event : Event Number} {id : String} :
    HasLeft (past ++ [event]) id ↔ HasLeft past id ∨ event = .message (.peerLeft id) := by
  rw [HasLeft, received_snoc, List.mem_append, Option.mem_toList]
  apply or_congr_right
  cases event <;> simp [frameOf]

/-- Nothing comes from a peer after the notice that it has left. -/
theorem quiet_of_final {past : List (Event Number)} {event : Event Number} {id : String}
    (final : (received (past ++ [event])).Pairwise WebServer.Final) (left : HasLeft past id) :
    event ≠ .message (.peerLeft id) ∧ ∀ data, event ≠ .message (.signal id data) := by
  rw [received_snoc] at final
  have later := (List.pairwise_append.mp final).2.2 _ left
  constructor
  · intro same
    rw [same] at later
    exact later (.peerLeft id) (by simp [frameOf]) id rfl rfl
  · intro data same
    rw [same] at later
    exact later (.signal id data) (by simp [frameOf]) id rfl rfl

/-- The map is free of ghosts exactly when the `joined` handler never turned to a
peer that had left. -/
theorem noGhosts_iff {events : List (Event Number)}
    (final : (received events).Pairwise WebServer.Final) :
    NoGhosts events ((machine engine room myName).run events) ↔
      TurnsToPresent engine room myName events := by
  induction events using List.reverseRecOn with
  | nil =>
      constructor
      · intro _ past event isPrefix
        simp at isPrefix
      · intro _ id left
        cases left
  | append_singleton past event induction =>
      have earlierFinal : (received past).Pairwise WebServer.Final := by
        rw [received_snoc] at final
        exact (List.pairwise_append.mp final).1
      have before := induction earlierFinal
      have oneStep := keyStep engine ((machine engine room myName).run past) event
      rw [Machine.run_snoc, turnsToPresent_snoc, ← before]
      constructor
      · intro clean
        constructor
        · intro id left held
          -- a ghost would stay, since no second notice comes
          have stays := (oneStep id).kept held (quiet_of_final final left).1
          exact clean id (hasLeft_snoc.mpr (.inl left)) stays
        · intro id turns left
          exact clean id (hasLeft_snoc.mpr (.inl left)) ((oneStep id).turned turns)
      · intro ⟨clean, present⟩ id left held
        rcases hasLeft_snoc.mp left with before | now
        · rcases (oneStep id).added held with ⟨old, _⟩ | turns | ⟨data, signalled⟩
          · exact clean id before old
          · exact present id turns before
          · exact (quiet_of_final final before).2 data signalled
        · rcases (oneStep id).added held with ⟨_, other⟩ | turns | ⟨data, signalled⟩
          · exact other now
          · rw [now] at turns
            cases turns
          · rw [now] at signalled
            cases signalled

/-- Whatever the server sent to a connection, and however its frames and the settled
waits of its handlers come in: each time no handler is suspended, the map has no key of
a peer that has left exactly when the `joined` handler has not turned to one. -/
theorem idle_noGhosts_iff (serverEngine engine : ScriptEngine Number) (room myName : String)
    (serverEvents : List WebServer.Event) (listener : WebServer.ConnectionNumber)
    (events : List (Event Number))
    (delivered : received events <+:
      WebServer.framesTo listener ((WebServer.machine serverEngine).transcript serverEvents)) :
    (∀ past, past <+: events → ((machine engine room myName).run past).waiting = [] →
      NoGhosts past ((machine engine room myName).run past)) ↔
    ∀ past, past <+: events → ((machine engine room myName).run past).waiting = [] →
      TurnsToPresent engine room myName past := by
  have final := ((WebServer.told_run serverEngine serverEvents).final listener).sublist
    delivered.sublist
  have exactly : ∀ past, past <+: events →
      (NoGhosts past ((machine engine room myName).run past) ↔
        TurnsToPresent engine room myName past) := by
    intro past isPrefix
    exact noGhosts_iff (final.sublist (isPrefix.sublist.filterMap frameOf))
  constructor
  · intro clean past isPrefix idle
    exact (exactly past isPrefix).mp (clean past isPrefix idle)
  · intro present past isPrefix idle
    exact (exactly past isPrefix).mpr (present past isPrefix idle)

end Run

/-- The third to join a room, after two others of whom the second leaves. -/
def departure : List WebServer.Event :=
  [.connection, .connection, .connection, .message 1 [0x41], .message 2 [0x41],
    .message 3 [0x41], .close 2]

/-- The notice comes in while the offer to the first is being made. -/
def lateOffers : List (Event Nat) :=
  [.opened, .message (.joined "3" ["1", "2"]), .message (.peerLeft "2"),
    .settled 0 (.fulfilled .null), .settled 0 (.fulfilled .null),
    .settled 0 (.fulfilled .null), .settled 0 (.fulfilled .null)]

theorem lateOffers_delivered : received lateOffers <+: WebServer.framesTo 3
    ((WebServer.machine WebServer.letterEngine).transcript departure) :=
  ⟨[], rfl⟩

theorem idle_noGhosts_iff_lateOffers :
    (∀ past, past <+: lateOffers →
      ((machine WebServer.letterEngine "A" "Guest").run past).waiting = [] →
        NoGhosts past ((machine WebServer.letterEngine "A" "Guest").run past)) ↔
    ∀ past, past <+: lateOffers →
      ((machine WebServer.letterEngine "A" "Guest").run past).waiting = [] →
        TurnsToPresent WebServer.letterEngine "A" "Guest" past :=
  idle_noGhosts_iff WebServer.letterEngine WebServer.letterEngine "A" "Guest" departure 3
    lateOffers lateOffers_delivered

/-- Both offers are made after the notice, and the second peer's entry stays. -/
theorem departed_peer_stays :
    received lateOffers <+: WebServer.framesTo 3
        ((WebServer.machine WebServer.letterEngine).transcript departure) ∧
      ((machine WebServer.letterEngine "A" "Guest").run lateOffers).waiting = [] ∧
      ¬ NoGhosts lateOffers ((machine WebServer.letterEngine "A" "Guest").run lateOffers) := by
  refine ⟨lateOffers_delivered, rfl, ?_⟩
  intro clean
  have left : HasLeft lateOffers "2" := by
    rw [HasLeft]
    exact List.mem_cons_of_mem _ (List.mem_singleton_self _)
  have held : "2" ∈ ((machine WebServer.letterEngine "A" "Guest").run lateOffers).peers := by
    decide +kernel
  exact clean "2" left held

end MeshClient

end Vela
