import Mathlib
import Vela.Sfu.Forwarding
import Vela.SfuApp.Server

/-! # Lifecycle of registrations

Registration is deferred from the transport's thread and may run after the
socket has closed. Whatever the order of sockets, callbacks and tasks, only
clients with an open socket and a living transport are registered. -/

namespace Vela

open Foundation UnorderedMap

namespace SfuApp

/-! ## The invariant -/

/-- The number that the counter has at a join. -/
def numberOf (client : ClientRef) : BitVec 32 := BitVec.ofNat 32 client

def idOf (client : ClientRef) : ParticipantId := toString (numberOf client).toNat

/-- As long as the counter does not wrap, the ids are different. -/
theorem idOf_injective {client other : ClientRef} (few : client < 2 ^ 32)
    (otherFew : other < 2 ^ 32) (same : idOf client = idOf other) : client = other := by
  have sameNumber : (numberOf client).toNat = (numberOf other).toNat := Nat.repr_injective same
  rwa [numberOf, numberOf, BitVec.toNat_ofNat, BitVec.toNat_ofNat, Nat.mod_eq_of_lt few,
    Nat.mod_eq_of_lt otherFew] at sameNumber

theorem idOf_mod (client : ClientRef) : idOf (client % 2 ^ 32) = idOf client := by
  rw [idOf, idOf, numberOf, numberOf, BitVec.toNat_ofNat, BitVec.toNat_ofNat, Nat.mod_mod]

/-- What a join gave its transport's callbacks. -/
def captureOf (client : ClientRef) (st : ClientState) : Captured :=
  { weak := client, room := st.room, id := st.id, transport := st.transport }

/-- Sockets, client states, callbacks, tasks and registrations fit together. -/
structure Consistent (app : SfuApp) : Prop where
  counted : app.nextId = numberOf app.nextRef
  socketOwns : ∀ socket client, app.sockets.lookup socket = some (some client) →
    ∃ st, app.clients.lookup client = some st ∧ st.ws = socket
  owned : ∀ client st, app.clients.lookup client = some st →
    app.sockets.lookup st.ws = some (some client) ∧ st.alive = true ∧ st.id = idOf client ∧
      app.callbacks.lookup client = some (captureOf client st)
  captured : ∀ client captured, app.callbacks.lookup client = some captured →
    client < app.nextRef ∧ captured.weak = client ∧ captured.id = idOf client
  flagged : ∀ client flag, app.joinedSfu.lookup client = some flag → client < app.nextRef
  queued : ∀ captured, .register captured ∈ app.deferred →
    app.callbacks.lookup captured.weak = some captured
  members : ∀ room id sink seqs, app.sfu.egress room id = some (sink, seqs) →
    ∃ client st, app.clients.lookup client = some st ∧ st.room = room ∧ st.id = id ∧
      sink = some st.transport ∧ app.joinedSfu.lookup client = some true
  numbered : ∀ client st, app.clients.lookup client = some st → st.transport = client

namespace Consistent

variable {app : SfuApp}

theorem create : Consistent SfuApp.create where
  counted := rfl
  socketOwns := fun _ _ found => nomatch found
  owned := fun _ _ found => nomatch found
  captured := fun _ _ found => nomatch found
  flagged := fun _ _ found => nomatch found
  queued := fun _ member => nomatch member
  members := fun _ _ _ _ found => nomatch found
  numbered := fun _ _ found => nomatch found

theorem lt_nextRef (consistent : Consistent app) {client : ClientRef} {st : ClientState}
    (found : app.clients.lookup client = some st) : client < app.nextRef :=
  (consistent.captured client _ (consistent.owned client st found).2.2.2).1

theorem onOpen (consistent : Consistent app) (socket : SocketId) :
    Consistent (app.onOpen socket).1 := by
  rw [SfuApp.onOpen]
  split
  · exact consistent
  · rename_i unused
    refine ⟨consistent.counted, fun other client found => ?_, fun client st found => ?_,
      consistent.captured, consistent.flagged, consistent.queued, consistent.members,
      consistent.numbered⟩
    · rw [lookup_insert_eq] at found
      split at found
      · cases found
      · exact consistent.socketOwns other client found
    · rcases consistent.owned client st found with ⟨isOpen, rest⟩
      refine ⟨?_, rest⟩
      rw [lookup_insert_eq, if_neg]
      · exact isOpen
      · intro same
        rw [same] at isOpen
        exact unused (mem_iff_exists_lookup.mpr ⟨_, isOpen⟩)

theorem counted_succ (consistent : Consistent app) :
    app.nextId + 1 = numberOf (app.nextRef + 1) := by
  rw [consistent.counted, numberOf, numberOf, BitVec.ofNat_add]
  rfl

/-- A join that fails early uses up its number. -/
theorem useNumber (consistent : Consistent app) :
    Consistent { app with nextId := app.nextId + 1, nextRef := app.nextRef + 1 } where
  counted := consistent.counted_succ
  socketOwns := consistent.socketOwns
  owned := consistent.owned
  captured := by
    intro client captured found
    rcases consistent.captured client captured found with ⟨below, rest⟩
    exact ⟨Nat.lt_succ_of_lt below, rest⟩
  flagged := fun client flag found => Nat.lt_succ_of_lt (consistent.flagged client flag found)
  queued := consistent.queued
  members := consistent.members
  numbered := consistent.numbered

/-- Callbacks are installed under the number just taken. -/
theorem install (consistent : Consistent app) (st : ClientState)
    (named : st.id = idOf app.nextRef) :
    Consistent
      { app with
        nextId := app.nextId + 1
        nextRef := app.nextRef + 1
        callbacks := app.callbacks.insert app.nextRef (captureOf app.nextRef st)
        joinedSfu := app.joinedSfu.insert app.nextRef false } where
  counted := consistent.counted_succ
  socketOwns := consistent.socketOwns
  owned := by
    intro client other found
    rcases consistent.owned client other found with ⟨isOpen, alive, id, callback⟩
    refine ⟨isOpen, alive, id, ?_⟩
    rw [lookup_insert_eq, if_neg (Nat.ne_of_lt (consistent.lt_nextRef found))]
    exact callback
  captured := by
    intro client captured found
    rw [lookup_insert_eq] at found
    split at found
    · rename_i same
      cases found
      rw [same]
      exact ⟨Nat.lt_succ_self _, rfl, named⟩
    · rcases consistent.captured client captured found with ⟨below, rest⟩
      exact ⟨Nat.lt_succ_of_lt below, rest⟩
  flagged := by
    intro client flag found
    rw [lookup_insert_eq] at found
    split at found
    · rename_i same
      rw [same]
      exact Nat.lt_succ_self _
    · exact Nat.lt_succ_of_lt (consistent.flagged client flag found)
  queued := by
    intro captured member
    have known := consistent.queued captured member
    rw [lookup_insert_eq, if_neg (Nat.ne_of_lt (consistent.captured _ _ known).1)]
    exact known
  members := by
    intro room id sink seqs found
    rcases consistent.members room id sink seqs found with ⟨client, other, known, rest⟩
    refine ⟨client, other, known, ?_⟩
    rw [lookup_insert_eq, if_neg (Nat.ne_of_lt (consistent.lt_nextRef known))]
    exact rest
  numbered := consistent.numbered

/-- The client state goes to its idle socket. -/
theorem connect (consistent : Consistent app) {client : ClientRef} {st : ClientState}
    (idle : app.sockets.lookup st.ws = some none) (unused : app.clients.lookup client = none)
    (alive : st.alive = true) (named : st.id = idOf client) (numbered : st.transport = client)
    (installed : app.callbacks.lookup client = some (captureOf client st)) :
    Consistent
      { app with
        clients := app.clients.insert client st
        sockets := app.sockets.insert st.ws (some client) } where
  counted := consistent.counted
  socketOwns := by
    intro socket owner found
    rw [lookup_insert_eq] at found
    split at found
    · rename_i same
      cases found
      exact ⟨st, AList.lookup_insert _, same.symm⟩
    · rcases consistent.socketOwns socket owner found with ⟨other, known, ws⟩
      refine ⟨other, ?_, ws⟩
      rw [lookup_insert_eq, if_neg]
      · exact known
      · intro same
        rw [same, unused] at known
        cases known
  owned := by
    intro owner other found
    rw [lookup_insert_eq] at found
    split at found
    · rename_i same
      cases found
      rw [same]
      exact ⟨AList.lookup_insert _, alive, named, installed⟩
    · rcases consistent.owned owner other found with ⟨isOpen, rest⟩
      refine ⟨?_, rest⟩
      rw [lookup_insert_eq, if_neg]
      · exact isOpen
      · intro same
        rw [same, idle] at isOpen
        cases isOpen
  captured := consistent.captured
  flagged := consistent.flagged
  queued := consistent.queued
  members := by
    intro room id sink seqs found
    rcases consistent.members room id sink seqs found with ⟨owner, other, known, rest⟩
    refine ⟨owner, other, ?_, rest⟩
    rw [lookup_insert_eq, if_neg]
    · exact known
    · intro same
      rw [same, unused] at known
      cases known
  numbered := by
    intro owner other found
    rw [lookup_insert_eq] at found
    split at found
    · rename_i same
      cases found
      rw [same]
      exact numbered
    · exact consistent.numbered owner other found

theorem onJoin (consistent : Consistent app) (socket : SocketId) (room : String)
    (initialized : Bool) : Consistent (app.onJoin socket room initialized).1 := by
  rw [SfuApp.onJoin]
  split
  · rename_i idle
    have installed := consistent.install
      { id := toString app.nextId.toNat, room, transport := app.nextRef, ws := socket }
      (by rw [idOf, consistent.counted])
    simp only
    split
    · exact consistent.useNumber
    · split
      · have unused : app.clients.lookup app.nextRef = none := by
          cases found : app.clients.lookup app.nextRef with
          | none => rfl
          | some st => exact absurd (consistent.lt_nextRef found) (Nat.lt_irrefl _)
        refine installed.connect idle unused rfl ?_ rfl (AList.lookup_insert _)
        rw [idOf, consistent.counted]
      · exact installed
  · exact consistent

theorem eraseIdle (consistent : Consistent app) {socket : SocketId}
    (idle : app.sockets.lookup socket = some none) :
    Consistent { app with sockets := app.sockets.erase socket } where
  counted := consistent.counted
  socketOwns := by
    intro other client found
    rw [lookup_erase_eq] at found
    split at found
    · cases found
    · exact consistent.socketOwns other client found
  owned := by
    intro client st found
    rcases consistent.owned client st found with ⟨isOpen, rest⟩
    refine ⟨?_, rest⟩
    rw [lookup_erase_eq, if_neg]
    · exact isOpen
    · intro same
      rw [same, idle] at isOpen
      cases isOpen
  captured := consistent.captured
  flagged := consistent.flagged
  queued := consistent.queued
  members := consistent.members
  numbered := consistent.numbered

/-- The client of a closing socket is taken out everywhere at once. -/
theorem disconnect (consistent : Consistent app) {client : ClientRef} {st : ClientState}
    (found : app.clients.lookup client = some st) {clients : UnorderedMap ClientRef ClientState}
    (left : ∀ other, clients.lookup other =
      if other = client then none else app.clients.lookup other) :
    Consistent
      { app with
        sfu := (app.sfu.removeParticipant st.room st.id).1
        clients := clients
        sockets := app.sockets.erase st.ws } where
  counted := consistent.counted
  socketOwns := by
    intro socket owner owns
    rw [lookup_erase_eq] at owns
    split at owns
    · cases owns
    · rename_i different
      rcases consistent.socketOwns socket owner owns with ⟨other, known, ws⟩
      refine ⟨other, ?_, ws⟩
      rw [left, if_neg]
      · exact known
      · intro same
        rw [same, found] at known
        cases known
        exact different ws.symm
  owned := by
    intro owner other known
    rw [left] at known
    split at known
    · cases known
    · rename_i different
      rcases consistent.owned owner other known with ⟨isOpen, rest⟩
      refine ⟨?_, rest⟩
      rw [lookup_erase_eq, if_neg]
      · exact isOpen
      · intro same
        rw [same, (consistent.owned client st found).1] at isOpen
        cases isOpen
        exact different rfl
  captured := consistent.captured
  flagged := consistent.flagged
  queued := consistent.queued
  members := by
    intro room id sink seqs member
    rw [SFUServer.egress_removeParticipant] at member
    split at member
    · cases member
    · rename_i elsewhere
      rcases consistent.members room id sink seqs member with
        ⟨owner, other, known, sameRoom, sameId, rest⟩
      refine ⟨owner, other, ?_, sameRoom, sameId, rest⟩
      rw [left, if_neg]
      · exact known
      · intro same
        rw [same, found] at known
        cases known
        exact elsewhere ⟨sameRoom.symm, sameId.symm⟩
  numbered := by
    intro owner other known
    rw [left] at known
    split at known
    · cases known
    · exact consistent.numbered owner other known

theorem onClose (consistent : Consistent app) (socket : SocketId) :
    Consistent (app.onClose socket).1 := by
  rw [SfuApp.onClose]
  split
  · exact consistent
  · rename_i idle
    exact consistent.eraseIdle idle
  · rename_i client owns
    rcases consistent.socketOwns socket client owns with ⟨st, found, rfl⟩
    simp only [found]
    apply consistent.disconnect found
    intro other
    rw [lookup_erase_eq, lookup_insert_eq]
    split <;> rfl

/-- Queueing a task of an installed callback. -/
theorem queue (consistent : Consistent app) (task : Task)
    (known : ∀ captured, task = .register captured →
      app.callbacks.lookup captured.weak = some captured) :
    Consistent { app with deferred := app.deferred ++ [task] } where
  counted := consistent.counted
  socketOwns := consistent.socketOwns
  owned := consistent.owned
  captured := consistent.captured
  flagged := consistent.flagged
  queued := by
    intro captured member
    rcases List.mem_append.mp member with before | added
    · exact consistent.queued captured before
    · exact known captured (List.mem_singleton.mp added).symm
  members := consistent.members
  numbered := consistent.numbered

theorem onStateChanged (consistent : Consistent app) (client : ClientRef) (state : IceState) :
    Consistent (app.onStateChanged client state).1 := by
  rw [SfuApp.onStateChanged]
  split
  · rename_i captured installed
    split
    · exact consistent
    · apply consistent.queue
      intro other same
      cases same
      rw [(consistent.captured client captured installed).2.1]
      exact installed
  · exact consistent

theorem onLocalCandidate (consistent : Consistent app) (client : ClientRef) (candidate : String) :
    Consistent (app.onLocalCandidate client candidate).1 := by
  rw [SfuApp.onLocalCandidate]
  split
  · apply consistent.queue
    exact fun _ same => nomatch same
  · exact consistent

/-- Routing leaves every member its sink. -/
theorem onPacket (consistent : Consistent app) (client : ClientRef) (packet : RtpPacket) :
    Consistent (app.onPacket client packet).1 := by
  rw [SfuApp.onPacket]
  split
  · refine ⟨consistent.counted, consistent.socketOwns, consistent.owned, consistent.captured,
      consistent.flagged, consistent.queued, fun room id sink seqs member => ?_,
      consistent.numbered⟩
    simp only [SFUServer.egress_routePacket] at member
    split at member
    · rcases Option.map_eq_some_iff.mp member with ⟨⟨oldSink, oldSeqs⟩, before, same⟩
      cases same
      exact consistent.members room id oldSink oldSeqs before
    · exact consistent.members room id sink seqs member
  · exact consistent

theorem dequeue (consistent : Consistent app) (index : Nat) :
    Consistent { app with deferred := app.deferred.eraseIdx index } where
  counted := consistent.counted
  socketOwns := consistent.socketOwns
  owned := consistent.owned
  captured := consistent.captured
  flagged := consistent.flagged
  queued := fun captured member => consistent.queued captured (List.mem_of_mem_eraseIdx member)
  members := consistent.members
  numbered := consistent.numbered

/-- Setting the flag of a client that has been captured. -/
theorem flag (consistent : Consistent app) {client : ClientRef} (known : client < app.nextRef) :
    Consistent { app with joinedSfu := app.joinedSfu.insert client true } where
  counted := consistent.counted
  socketOwns := consistent.socketOwns
  owned := consistent.owned
  captured := consistent.captured
  flagged := by
    intro other value found
    rw [lookup_insert_eq] at found
    split at found
    · rename_i same
      rw [same]
      exact known
    · exact consistent.flagged other value found
  queued := consistent.queued
  members := by
    intro room id sink seqs member
    rcases consistent.members room id sink seqs member with ⟨owner, st, found, sameRoom, sameId,
      sameSink, joined⟩
    refine ⟨owner, st, found, sameRoom, sameId, sameSink, ?_⟩
    rw [lookup_insert_eq, joined]
    split <;> rfl
  numbered := consistent.numbered

/-- Registering a living client whose flag is set. -/
theorem register (consistent : Consistent app) {client : ClientRef} {st : ClientState}
    (found : app.clients.lookup client = some st)
    (joined : app.joinedSfu.lookup client = some true) :
    Consistent
      { app with sfu := (app.sfu.addParticipant st.room st.id (some st.transport)).1 } where
  counted := consistent.counted
  socketOwns := consistent.socketOwns
  owned := consistent.owned
  captured := consistent.captured
  flagged := consistent.flagged
  queued := consistent.queued
  members := by
    intro room id sink seqs member
    rcases SfuResponse.status_cases
      (app.sfu.addParticipant st.room st.id (some st.transport)).2 with
      ⟨success, _⟩ | ⟨⟨error, failed⟩, _⟩
    · rw [SFUServer.egress_addParticipant_ok success] at member
      split at member
      · rename_i here
        cases member
        exact ⟨client, st, found, here.1.symm, here.2.symm, rfl, joined⟩
      · exact consistent.members room id sink seqs member
    · rw [SFUServer.egress_addParticipant_error failed] at member
      exact consistent.members room id sink seqs member
  numbered := consistent.numbered

theorem lockAlive_eq {weak : ClientRef} {st : ClientState} (locked : app.lockAlive weak = some st) :
    app.clients.lookup weak = some st := by
  rw [SfuApp.lockAlive] at locked
  split at locked
  · rename_i known
    split at locked
    · cases locked
      exact known
    · cases locked
  · cases locked

/-- A queued registration is that of the client it locks. -/
theorem captured_of_lock (consistent : Consistent app) {captured : Captured} {st : ClientState}
    (installed : app.callbacks.lookup captured.weak = some captured)
    (locked : app.lockAlive captured.weak = some st) :
    captured = captureOf captured.weak st := by
  have owned := (consistent.owned captured.weak st (lockAlive_eq locked)).2.2.2
  rw [installed] at owned
  exact Option.some.inj owned

theorem runTask (consistent : Consistent app) {task : Task}
    (known : ∀ captured, task = .register captured →
      app.callbacks.lookup captured.weak = some captured) :
    Consistent (app.runTask task).1 := by
  cases task with
  | sendCandidate weak candidate =>
      simp only [SfuApp.runTask]
      split <;> exact consistent
  | register captured =>
      have installed := known captured rfl
      simp only [SfuApp.runTask]
      split
      · exact consistent
      · rename_i st locked
        have flagged := consistent.flag (consistent.captured _ _ installed).1
        split
        · exact flagged
        · have same := consistent.captured_of_lock installed locked
          rw [same]
          exact flagged.register (lockAlive_eq locked) (AList.lookup_insert _)

theorem runDeferred (consistent : Consistent app) (index : Nat) :
    Consistent (app.runDeferred index).1 := by
  rw [SfuApp.runDeferred]
  split
  · rename_i task queued
    apply (consistent.dequeue index).runTask
    intro captured same
    apply consistent.queued captured
    rw [← same]
    exact List.mem_of_getElem? queued
  · exact consistent

theorem step (consistent : Consistent app) (event : Event) : Consistent (app.step event).1 := by
  cases event with
  | opened socket => exact consistent.onOpen socket
  | join socket room initialized => exact consistent.onJoin socket room initialized
  | offer socket accepted answer =>
      simp only [SfuApp.step, SfuApp.onOffer]
      split
      · split
        · split <;> exact consistent
        · exact consistent
      · exact consistent
  | ice socket candidate => exact consistent
  | leave socket =>
      simp only [SfuApp.step, SfuApp.onLeave]
      split <;> exact consistent
  | close socket => exact consistent.onClose socket
  | stateChanged client state => exact consistent.onStateChanged client state
  | localCandidate client candidate => exact consistent.onLocalCandidate client candidate
  | packet client packet => exact consistent.onPacket client packet
  | deferred index => exact consistent.runDeferred index

end Consistent

/-! ## Effects -/

/-- What has a step cause an effect. -/
def Cause (app : SfuApp) (event : Event) : Effect → Prop
  | .sendJson socket (.joined room _) => event = .join socket room true
  | .sendJson socket (.answer payload) => event = .offer socket true (some payload)
  | .sendJson _ (.ice _) => ∃ index, event = .deferred index
  | .sendJson socket (.error _) => (∃ room initialized, event = .join socket room initialized) ∨
      ∃ answer, event = .offer socket false answer
  | .endSocket socket => event = .leave socket
  | .addParticipant _ _ _ => ∃ index, event = .deferred index
  | .transportSend call => ∃ client captured packet, event = .packet client packet ∧
      app.callbacks.lookup client = some captured ∧
      call ∈ (app.sfu.routePacket captured.room captured.id packet).2.sinkCalls

theorem cause_of_effect {app : SfuApp} {event : Event} {effect : Effect}
    (made : effect ∈ (app.step event).2) : app.Cause event effect := by
  cases event with
  | opened socket =>
      simp only [step, onOpen] at made
      split at made <;> cases made
  | join socket room initialized =>
      simp only [step, onJoin] at made
      split at made
      · split at made
        · cases List.mem_singleton.mp made
          exact .inl ⟨room, initialized, rfl⟩
        · split at made
          · rename_i isInitialized
            cases List.mem_singleton.mp made
            rw [isInitialized]
            rfl
          · cases List.mem_singleton.mp made
            exact .inl ⟨room, initialized, rfl⟩
      · cases made
  | offer socket accepted answer =>
      simp only [step, onOffer] at made
      split at made
      · split at made
        · rename_i isAccepted
          split at made
          · cases List.mem_singleton.mp made
            rw [isAccepted]
            rfl
          · cases made
        · rename_i refused
          cases List.mem_singleton.mp made
          exact .inr ⟨answer, by rw [Bool.eq_false_iff.mpr refused]⟩
      · cases made
  | ice socket candidate => cases made
  | leave socket =>
      simp only [step, onLeave] at made
      split at made
      · cases List.mem_singleton.mp made
        rfl
      · cases made
  | close socket =>
      simp only [step, onClose] at made
      repeat' split at made
      all_goals cases made
  | stateChanged client state =>
      simp only [step, onStateChanged] at made
      repeat' split at made
      all_goals cases made
  | localCandidate client candidate =>
      simp only [step, onLocalCandidate] at made
      split at made <;> cases made
  | packet client packet =>
      simp only [step, onPacket] at made
      split at made
      · rename_i captured known
        rcases List.mem_map.mp made with ⟨call, isCall, rfl⟩
        exact ⟨client, captured, packet, rfl, known, isCall⟩
      · cases made
  | deferred index =>
      simp only [step, runDeferred] at made
      split at made
      · rename_i task _
        cases task with
        | sendCandidate weak candidate =>
            simp only [runTask] at made
            split at made
            · cases List.mem_singleton.mp made
              exact ⟨index, rfl⟩
            · cases made
        | register captured =>
            simp only [runTask] at made
            split at made
            · cases made
            · split at made
              · cases made
              · cases List.mem_singleton.mp made
                exact ⟨index, rfl⟩
      · cases made

/-! ## Registrations -/

/-- A registration call made for one id. -/
def Effect.registers (id : ParticipantId) : Effect → Bool
  | .addParticipant _ participantId _ => participantId = id
  | _ => false

def registrations (id : ParticipantId) (effects : List Effect) : Nat :=
  (effects.filter (Effect.registers id)).length

theorem registrations_append (id : ParticipantId) (earlier later : List Effect) :
    registrations id (earlier ++ later) = registrations id earlier + registrations id later := by
  simp [registrations]

/-- Frames, and packets that the router hands to its sinks: no registration. -/
def Routine (app : SfuApp) (effects : List Effect) : Prop :=
  ∀ effect ∈ effects,
    match effect with
    | .addParticipant _ _ _ => False
    | .transportSend call => ∃ room id packet,
        call ∈ (app.sfu.routePacket room id packet).2.sinkCalls
    | .sendJson _ _ => True
    | .endSocket _ => True

theorem Routine.nil {app : SfuApp} : Routine app [] := fun _ member => nomatch member

theorem Routine.sendJson {app : SfuApp} (socket : SocketId) (frame : Frame) :
    Routine app [.sendJson socket frame] := by
  intro effect member
  rw [List.mem_singleton.mp member]
  trivial

theorem Routine.unregistered {app : SfuApp} {effects : List Effect} (routine : Routine app effects)
    (id : ParticipantId) : registrations id effects = 0 := by
  rw [registrations, List.length_eq_zero_iff, List.filter_eq_nil_iff]
  intro effect member
  have allowed := routine effect member
  cases effect with
  | addParticipant room pid status => cases allowed
  | sendJson socket frame => exact Bool.false_ne_true
  | endSocket socket => exact Bool.false_ne_true
  | transportSend call => exact Bool.false_ne_true

/-- A join message, whether or not it takes a number. -/
def Event.joins : Event → Bool
  | .join _ _ _ => true
  | _ => false

def joinsIn (events : List Event) : Nat := events.countP Event.joins

/-- What one step can do to numbers, client states, flags and registrations. -/
inductive Change (app : SfuApp) (event : Event) (after : SfuApp)
    (effects : List Effect) : Prop where
  /-- Nothing, or a client leaves. -/
  | quiet (sameNumber : after.nextRef = app.nextRef) (sameFlags : after.joinedSfu = app.joinedSfu)
      (noNewClient : ∀ client, app.clients.lookup client = none →
        after.clients.lookup client = none)
      (routine : Routine app effects)
  /-- A join takes the next number. -/
  | numbered (joins : event.joins = true) (number : after.nextRef = app.nextRef + 1)
      (sameFlags : ∀ client, client ≠ app.nextRef →
        after.joinedSfu.lookup client = app.joinedSfu.lookup client)
      (sameClients : ∀ client, client ≠ app.nextRef →
        after.clients.lookup client = app.clients.lookup client)
      (routine : Routine app effects)
  /-- The registration task of a living client runs: it registers the first time. -/
  | registered (captured : Captured) (st : ClientState)
      (queued : .register captured ∈ app.deferred)
      (living : app.clients.lookup captured.weak = some st)
      (sameNumber : after.nextRef = app.nextRef)
      (flags : after.joinedSfu = app.joinedSfu.insert captured.weak true)
      (sameClients : after.clients = app.clients)
      (once : app.joinedSfu.lookup captured.weak = some true ∧ effects = [] ∨
        app.joinedSfu.lookup captured.weak ≠ some true ∧ ∃ status,
          effects = [.addParticipant captured.room captured.id status])

theorem Change.unchanged {app : SfuApp} {event : Event} {effects : List Effect}
    (routine : Routine app effects) : Change app event app effects :=
  .quiet rfl rfl (fun _ absent => absent) routine

theorem registrations_addParticipant (id pid : ParticipantId) (room : String) (status : Status) :
    registrations id [.addParticipant room pid status] = if pid = id then 1 else 0 := by
  by_cases same : pid = id
  · simp [registrations, Effect.registers, same]
  · simp [registrations, Effect.registers, same]

theorem change_onJoin (app : SfuApp) (socket : SocketId) (room : String) (initialized : Bool) :
    Change app (.join socket room initialized) (app.onJoin socket room initialized).1
      (app.onJoin socket room initialized).2 := by
  rw [onJoin]
  split
  · simp only
    split
    · exact .numbered rfl rfl (fun _ _ => rfl) (fun _ _ => rfl) (.sendJson _ _)
    · have sameFlags : ∀ client, client ≠ app.nextRef →
          (app.joinedSfu.insert app.nextRef false).lookup client = app.joinedSfu.lookup client :=
        fun client different => by rw [lookup_insert_eq, if_neg different]
      split
      · refine Change.numbered rfl rfl sameFlags (fun client different => ?_) (.sendJson _ _)
        rw [lookup_insert_eq, if_neg different]
      · exact .numbered rfl rfl sameFlags (fun _ _ => rfl) (.sendJson _ _)
  · exact .unchanged .nil

theorem change_onClose (app : SfuApp) (socket : SocketId) :
    Change app (.close socket) (app.onClose socket).1 (app.onClose socket).2 := by
  rw [onClose]
  split
  · exact .unchanged .nil
  · exact .quiet rfl rfl (fun _ absent => absent) .nil
  · split
    · exact .quiet rfl rfl (fun _ absent => absent) .nil
    · refine Change.quiet rfl rfl (fun other absent => ?_) .nil
      rw [lookup_erase_eq, lookup_insert_eq]
      split
      · rfl
      · exact absent

theorem change_onPacket (app : SfuApp) (client : ClientRef) (packet : RtpPacket) :
    Change app (.packet client packet) (app.onPacket client packet).1
      (app.onPacket client packet).2 := by
  rw [onPacket]
  split
  · refine Change.quiet rfl rfl (fun _ absent => absent) fun effect member => ?_
    rcases List.mem_map.mp member with ⟨call, routed, same⟩
    rw [← same]
    exact ⟨_, _, packet, routed⟩
  · exact .unchanged .nil

theorem change_runDeferred (app : SfuApp) (index : Nat) :
    Change app (.deferred index) (app.runDeferred index).1 (app.runDeferred index).2 := by
  rw [runDeferred]
  split
  · rename_i task queued
    cases task with
    | sendCandidate weak candidate =>
        simp only [runTask]
        split
        · exact .quiet rfl rfl (fun _ absent => absent) (.sendJson _ _)
        · exact .quiet rfl rfl (fun _ absent => absent) .nil
    | register captured =>
        simp only [runTask]
        split
        · exact .quiet rfl rfl (fun _ absent => absent) .nil
        · rename_i st locked
          have living := Consistent.lockAlive_eq locked
          have inQueue := List.mem_of_getElem? queued
          split
          · rename_i already
            exact .registered captured st inQueue living rfl rfl rfl (Or.inl ⟨already, rfl⟩)
          · rename_i first
            exact .registered captured st inQueue living rfl rfl rfl (Or.inr ⟨first, _, rfl⟩)
  · exact .unchanged .nil

theorem change_step (app : SfuApp) (event : Event) :
    Change app event (app.step event).1 (app.step event).2 := by
  cases event with
  | opened socket =>
      simp only [step, onOpen]
      split <;> exact .quiet rfl rfl (fun _ absent => absent) .nil
  | join socket room initialized => exact change_onJoin app socket room initialized
  | offer socket accepted answer =>
      simp only [step, onOffer]
      split
      · split
        · split
          · exact .unchanged (.sendJson _ _)
          · exact .unchanged .nil
        · exact .unchanged (.sendJson _ _)
      · exact .unchanged .nil
  | ice socket candidate => exact .unchanged .nil
  | leave socket =>
      simp only [step, onLeave]
      split
      · apply Change.unchanged
        intro effect member
        rw [List.mem_singleton.mp member]
        trivial
      · exact .unchanged .nil
  | close socket => exact change_onClose app socket
  | stateChanged client state =>
      simp only [step, onStateChanged]
      split
      · split <;> exact .quiet rfl rfl (fun _ absent => absent) .nil
      · exact .unchanged .nil
  | localCandidate client candidate =>
      simp only [step, onLocalCandidate]
      split <;> exact .quiet rfl rfl (fun _ absent => absent) .nil
  | packet client packet => exact change_onPacket app client packet
  | deferred index => exact change_runDeferred app index

/-- At most one registration call was made for each client, and none while its flag
is clear. -/
def RegisteredOnce (app : SfuApp) (effects : List Effect) : Prop :=
  ∀ client < 2 ^ 32, registrations (idOf client) effects ≤
    if app.joinedSfu.lookup client = some true then 1 else 0

section Step

variable {app : SfuApp}

theorem registeredOnce_step {effects : List Effect} (consistent : Consistent app)
    (few : app.nextRef ≤ 2 ^ 32) (once : RegisteredOnce app effects) (event : Event) :
    RegisteredOnce (app.step event).1 (effects ++ (app.step event).2) := by
  intro client small
  have before := once client small
  rw [registrations_append]
  cases app.change_step event with
  | quiet sameNumber sameFlags noNewClient routine =>
      rw [routine.unregistered, sameFlags, Nat.add_zero]
      exact before
  | numbered joins number sameFlags sameClients routine =>
      rw [routine.unregistered, Nat.add_zero]
      by_cases same : client = app.nextRef
      · -- The new number was not flagged before, so nothing was registered under it.
        have unflagged : app.joinedSfu.lookup client ≠ some true := by
          intro flagged
          exact Nat.lt_irrefl _ (same ▸ consistent.flagged client true flagged)
        rw [if_neg unflagged] at before
        exact before.trans (Nat.zero_le _)
      · rw [sameFlags client same]
        exact before
  | registered captured st queued living sameNumber flags sameClients first =>
      rcases consistent.captured _ _ (consistent.queued captured queued) with ⟨below, _, named⟩
      rw [flags, lookup_insert_eq]
      rcases first with ⟨already, nothing⟩ | ⟨unflagged, status, registration⟩
      · rw [nothing]
        by_cases same : client = captured.weak
        · rw [same, already, if_pos rfl] at before
          rw [same, if_pos rfl, if_pos rfl]
          exact before
        · rw [if_neg same]
          exact before
      · rw [registration]
        by_cases same : client = captured.weak
        · rw [same, if_neg unflagged] at before
          rw [same, if_pos rfl, if_pos rfl]
          rw [registrations_addParticipant, if_pos named]
          exact Nat.succ_le_succ before
        · have different : captured.id ≠ idOf client := by
            rw [named]
            exact fun equal => same (idOf_injective (below.trans_le few) small equal).symm
          rw [registrations_addParticipant, if_neg different, if_neg same]
          exact before

/-- A client state that is gone under a used number never comes back. -/
def Gone (app : SfuApp) (client : ClientRef) : Prop :=
  client < app.nextRef ∧ app.clients.lookup client = none

theorem gone_step {client : ClientRef} (gone : Gone app client) (event : Event) :
    Gone (app.step event).1 client := by
  rcases gone with ⟨below, absent⟩
  cases app.change_step event with
  | quiet sameNumber sameFlags noNewClient routine =>
      exact ⟨sameNumber ▸ below, noNewClient client absent⟩
  | numbered joins number sameFlags sameClients routine =>
      refine ⟨number ▸ Nat.lt_succ_of_lt below, ?_⟩
      rw [sameClients client (Nat.ne_of_lt below)]
      exact absent
  | registered captured st queued living sameNumber flags sameClients first =>
      exact ⟨sameNumber ▸ below, sameClients ▸ absent⟩

/-- Nobody is registered, or gets registered, under the id of a client that is
gone. -/
theorem gone_unregistered (consistent : Consistent app) (few : app.nextRef ≤ 2 ^ 32)
    {client : ClientRef} (gone : Gone app client) :
    (∀ room, app.sfu.participant room (idOf client) = none) ∧
      ∀ event, registrations (idOf client) (app.step event).2 = 0 := by
  have small := gone.1.trans_le few
  constructor
  · intro room
    rw [← Option.not_isSome_iff_eq_none, ← SFUServer.egress_isSome]
    intro present
    rcases Option.isSome_iff_exists.mp present with ⟨⟨sink, seqs⟩, member⟩
    rcases consistent.members room _ sink seqs member with ⟨owner, st, known, _, sameId, _⟩
    rw [(consistent.owned owner st known).2.2.1] at sameId
    have ownerSmall := (consistent.lt_nextRef known).trans_le few
    rw [idOf_injective ownerSmall small sameId, gone.2] at known
    cases known
  · intro event
    cases app.change_step event with
    | quiet sameNumber sameFlags noNewClient routine => exact routine.unregistered _
    | numbered joins number sameFlags sameClients routine => exact routine.unregistered _
    | registered captured st queued living sameNumber flags sameClients first =>
        rcases first with ⟨_, nothing⟩ | ⟨_, status, registration⟩
        · rw [nothing]
          rfl
        · rcases consistent.captured _ _ (consistent.queued captured queued) with ⟨below, _, named⟩
          have different : captured.id ≠ idOf client := by
            rw [named]
            intro equal
            rw [idOf_injective (below.trans_le few) small equal, gone.2] at living
            cases living
          rw [registration, registrations_addParticipant, if_neg different]

/-- The close handler of a joined socket leaves its client gone. -/
theorem gone_onClose (consistent : Consistent app) {socket : SocketId} {client : ClientRef}
    (owns : app.sockets.lookup socket = some (some client)) :
    Gone (app.onClose socket).1 client := by
  rcases consistent.socketOwns socket client owns with ⟨st, known, _⟩
  rw [onClose]
  simp only [owns, known]
  refine ⟨consistent.lt_nextRef known, ?_⟩
  rw [lookup_erase_eq, if_pos rfl]

/-- The transport of a client state that still exists. -/
def TransportAlive (app : SfuApp) (transport : TransportRef) : Prop :=
  ∃ client st, app.clients.lookup client = some st ∧ st.transport = transport

/-- Every packet that is forwarded goes to a living transport. -/
theorem transportSend_alive (consistent : Consistent app) {event : Event}
    {call : SinkCall TransportRef} (made : .transportSend call ∈ (app.step event).2) :
    TransportAlive app call.sink := by
  have ofRouting : ∀ room id packet, call ∈ (app.sfu.routePacket room id packet).2.sinkCalls →
      TransportAlive app call.sink := by
    intro room id packet routed
    have isCall : call ∈ (app.sfu.call (.routePacket room id packet)).2.sinkCalls := routed
    rcases SFUServer.call_is_due isCall with ⟨_, _, _, _, onSink⟩
    rcases Option.map_eq_some_iff.mp onSink with ⟨⟨sink, seqs⟩, member, sameSink⟩
    rcases consistent.members _ _ sink seqs member with ⟨client, st, known, _, _, isTransport, _⟩
    exact ⟨client, st, known, Option.some.inj (isTransport.symm.trans sameSink)⟩
  cases app.change_step event with
  | quiet sameNumber sameFlags noNewClient routine =>
      rcases routine _ made with ⟨room, id, packet, routed⟩
      exact ofRouting room id packet routed
  | numbered joins number sameFlags sameClients routine =>
      rcases routine _ made with ⟨room, id, packet, routed⟩
      exact ofRouting room id packet routed
  | registered captured st queued living sameNumber flags sameClients first =>
      rcases first with ⟨_, nothing⟩ | ⟨_, status, registration⟩
      · rw [nothing] at made
        cases made
      · rw [registration] at made
        cases List.mem_singleton.mp made

end Step

/-! ## Whole runs -/

theorem consistent_run (events : List Event) : Consistent (machine.run events) :=
  Machine.invariant Consistent.create (fun _ event consistent => consistent.step event) events

/-- Each join takes one number at most. -/
theorem nextRef_run (events : List Event) : (machine.run events).nextRef ≤ joinsIn events + 1 := by
  induction events using List.reverseRecOn with
  | nil => exact Nat.le_refl 1
  | append_singleton past event induction =>
      rw [Machine.run_snoc, joinsIn, List.countP_append, List.countP_singleton]
      cases (machine.run past).change_step event with
      | quiet sameNumber sameFlags noNewClient routine =>
          exact sameNumber.le.trans (induction.trans (Nat.succ_le_succ (Nat.le_add_right _ _)))
      | numbered joins number sameFlags sameClients routine =>
          rw [joins, if_pos rfl]
          exact number.le.trans (Nat.succ_le_succ induction)
      | registered captured st queued living sameNumber flags sameClients first =>
          exact sameNumber.le.trans (induction.trans (Nat.succ_le_succ (Nat.le_add_right _ _)))

theorem registeredOnce_run {events : List Event} (few : joinsIn events < 2 ^ 32) :
    RegisteredOnce (machine.run events) (machine.outputs events).flatten := by
  induction events using List.reverseRecOn with
  | nil => exact fun _ _ => Nat.zero_le _
  | append_singleton past event induction =>
      have fewPast : joinsIn past < 2 ^ 32 :=
        ((List.sublist_append_left past [event]).countP_le).trans_lt few
      rw [Machine.run_snoc, Machine.outputs_snoc, List.flatten_append, List.flatten_singleton]
      exact registeredOnce_step (consistent_run past) ((nextRef_run past).trans fewPast)
        (induction fewPast) event

theorem gone_run {past : List Event} {client : ClientRef} (gone : Gone (machine.run past) client)
    (during : List Event) : Gone (machine.run (past ++ during)) client := by
  induction during using List.reverseRecOn with
  | nil =>
      rw [List.append_nil]
      exact gone
  | append_singleton during event induction =>
      rw [← List.append_assoc, Machine.run_snoc]
      exact gone_step induction event

/-- In every state that sockets, transports and deferred tasks can reach while the
id counter does not wrap, each registered participant is the client of a socket
that is still open, with a living transport behind its sink, and in one room
only; every id is registered at most once; packets are only sent on living
transports; and once the close handler of a joined socket has run, its id is in
no room and is never registered again. -/
theorem registrations_live (events : List Event) (few : joinsIn events < 2 ^ 32) :
    (∀ room id p, (machine.run events).sfu.participant room id = some p →
      ∃ client st, (machine.run events).clients.lookup client = some st ∧
        (machine.run events).sockets.lookup st.ws = some (some client) ∧ st.alive = true ∧
        st.room = room ∧ st.id = id ∧ id = idOf client ∧ p.sink = some st.transport) ∧
    (∀ client : ClientRef,
      registrations (idOf client) (machine.outputs events).flatten ≤ 1) ∧
    (∀ event call, .transportSend call ∈ ((machine.run events).step event).2 →
      TransportAlive (machine.run events) call.sink) ∧
    ∀ past socket client during, events = past ++ .close socket :: during →
      (machine.run past).sockets.lookup socket = some (some client) →
      (∀ room, (machine.run events).sfu.participant room (idOf client) = none) ∧
        ∀ event, registrations (idOf client) ((machine.run events).step event).2 = 0 := by
  have consistent := consistent_run events
  refine ⟨fun room id p member => ?_, fun client => ?_, ?_, ?_⟩
  · have onEgress : (machine.run events).sfu.egress room id = some (p.sink, p.forwardedSeqs) := by
      rw [SFUServer.egress, member]
      rfl
    rcases consistent.members room id _ _ onEgress with
      ⟨client, st, known, sameRoom, sameId, sink, _⟩
    rcases consistent.owned client st known with ⟨isOpen, alive, named, _⟩
    exact ⟨client, st, known, isOpen, alive, sameRoom, sameId, sameId.symm.trans named, sink⟩
  · rw [← idOf_mod]
    apply (registeredOnce_run few _ (Nat.mod_lt _ (Nat.two_pow_pos 32))).trans
    split
    · exact Nat.le_refl 1
    · exact Nat.zero_le 1
  · exact fun event call made => transportSend_alive consistent made
  · intro past socket client during isRun owns
    have goneAfterClose : Gone (machine.run (past ++ [.close socket])) client := by
      rw [Machine.run_snoc]
      exact gone_onClose (consistent_run past) owns
    have goneLater := gone_run goneAfterClose during
    rw [List.append_assoc, List.singleton_append, ← isRun] at goneLater
    exact gone_unregistered consistent ((nextRef_run events).trans few) goneLater

/-- A client that is connected twice over, and whose socket closes before the
second task has run. -/
theorem registrations_live_connected_twice :
    (∃ client st, (machine.run [.opened 0, .join 0 "room" true, .stateChanged 1 .connected,
        .stateChanged 1 .completed, .deferred 0]).clients.lookup client = some st ∧
      "1" = idOf client ∧ some 1 = some st.transport) ∧
    (machine.run [.opened 0, .join 0 "room" true, .stateChanged 1 .connected,
        .stateChanged 1 .completed, .deferred 0, .close 0, .deferred 0]).sfu.participant
      "room" (idOf 1) = none := by
  have live := registrations_live [.opened 0, .join 0 "room" true, .stateChanged 1 .connected,
    .stateChanged 1 .completed, .deferred 0] (by decide)
  have closed := registrations_live [.opened 0, .join 0 "room" true, .stateChanged 1 .connected,
    .stateChanged 1 .completed, .deferred 0, .close 0, .deferred 0] (by decide)
  rcases live.1 "room" "1" { id := "1", sink := some 1, needsKeyframe := true } rfl with
    ⟨client, st, known, _, _, _, _, named, sink⟩
  refine ⟨⟨client, st, known, named, sink⟩, ?_⟩
  exact (closed.2.2.2 [.opened 0, .join 0 "room" true, .stateChanged 1 .connected,
    .stateChanged 1 .completed, .deferred 0] 0 1 [.deferred 0] rfl (by decide)).1 "room"

end SfuApp

end Vela
