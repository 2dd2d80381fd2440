import Vela.SfuApp.Negotiation

/-! # Agreement

A negotiation in which every agent does its part comes to its end: there is always
something on its way that takes it on, until both ends have been told. -/

namespace Vela

open Foundation Document UnorderedMap

open DtlsSrtp (Role packDescription unpackDescription fpMarker)

namespace Negotiation

variable {crypto : Crypto}

/-! ## Progress -/

/-- An event in which every agent does its part, and the socket stays open. -/
def Willing (setup : Setup) : Event crypto → Prop
  | .serverReceives initialized accepted description _ =>
      initialized = true ∧ accepted = true ∧
        (bundle description (setup.fingerprint .server)).isSome
  | .clientReceives description _ => (bundle description (setup.fingerprint .client)).isSome
  | .process event => event ≠ .close setup.socket
  | _ => True

def IsTold (role : Role) (told : Told crypto) : Prop :=
  ∃ fingerprint sslNew, (role, .setRemoteFingerprint fingerprint sslNew) ∈ told

/-- How far the negotiation has come: the next thing to happen is on its way. -/
inductive Stage (setup : Setup) (negotiation : Negotiation crypto) (told : Told crypto) : Prop where
  | joining (opened : negotiation.app.sockets.lookup setup.socket = some none)
      (sent : SignalingClient.joinMessage setup.room ∈ negotiation.up)
  | joined {client : ClientRef}
      (owned : negotiation.app.sockets.lookup setup.socket = some (some client))
      {room : String} {id : BitVec 32} (sent : (Frame.joined room id).fields ∈ negotiation.down)
  | offered {client : ClientRef}
      (owned : negotiation.app.sockets.lookup setup.socket = some (some client))
      {payload : String} {fields : Fields}
      (sends : SignalingClient.sendOffer true setup.room 0 payload = .ok fields)
      (sent : fields ∈ negotiation.up)
  | answered {client : ClientRef}
      (owned : negotiation.app.sockets.lookup setup.socket = some (some client))
      (server : IsTold .server told)
      {payload : String} (sent : (Frame.answer payload).fields ∈ negotiation.down)
  | agreed {client : ClientRef}
      (owned : negotiation.app.sockets.lookup setup.socket = some (some client))
      (server : IsTold .server told) (client : IsTold .client told)

structure Progress (setup : Setup) (negotiation : Negotiation crypto)
    (told : Told crypto) : Prop where
  idle : negotiation.connected = false →
    negotiation.announced = false ∧ negotiation.app.sockets.lookup setup.socket = none ∧
      SignalingClient.joinMessage setup.room ∉ negotiation.up
  opened : negotiation.connected = true → negotiation.announced = false →
    negotiation.app.sockets.lookup setup.socket = some none ∧
      SignalingClient.joinMessage setup.room ∉ negotiation.up
  started : negotiation.announced = true → Stage setup negotiation told

section Progress

variable {setup : Setup} {negotiation : Negotiation crypto} {told : Told crypto}

/-- What does not come over the socket leaves its place in the table alone. -/
theorem lookup_foreign {app : SfuApp} {event : SfuApp.Event}
    (foreign : isOwn setup app event ≠ true)
    (notClosed : event ≠ .close setup.socket) :
    (app.step event).1.sockets.lookup setup.socket = app.sockets.lookup setup.socket := by
  cases event with
  | opened socket =>
      have other : setup.socket ≠ socket := fun same => foreign (decide_eq_true same.symm)
      simp only [SfuApp.step, SfuApp.onOpen]
      split
      · rfl
      · rw [lookup_insert_eq, if_neg other]
  | join socket room initialized =>
      have other : setup.socket ≠ socket := fun same => foreign (decide_eq_true same.symm)
      simp only [SfuApp.step, SfuApp.onJoin]
      repeat' split
      · rfl
      · rw [lookup_insert_eq, if_neg other]
      · rfl
      · rfl
  | offer socket accepted answer =>
      simp only [SfuApp.step, SfuApp.onOffer]
      repeat' split
      all_goals rfl
  | ice socket candidate => rfl
  | leave socket =>
      simp only [SfuApp.step, SfuApp.onLeave]
      split <;> rfl
  | close socket =>
      have other : setup.socket ≠ socket := fun same => notClosed (by rw [same])
      simp only [SfuApp.step, SfuApp.onClose]
      repeat' split
      · rfl
      all_goals rw [lookup_erase_eq, if_neg other]
  | stateChanged client state =>
      simp only [SfuApp.step, SfuApp.onStateChanged]
      repeat' split
      all_goals rfl
  | localCandidate client candidate =>
      simp only [SfuApp.step, SfuApp.onLocalCandidate]
      split <;> rfl
  | packet client packet =>
      simp only [SfuApp.step, SfuApp.onPacket]
      split <;> rfl
  | deferred index =>
      simp only [SfuApp.step, SfuApp.runDeferred]
      split
      · rename_i task _
        cases task with
        | sendCandidate weak candidate =>
            simp only [SfuApp.runTask]
            split <;> rfl
        | register captured =>
            simp only [SfuApp.runTask]
            repeat' split
            all_goals rfl
      · rfl

theorem IsTold.append_left {role : Role} (isTold : IsTold role told) (more : Told crypto) :
    IsTold role (told ++ more) := by
  rcases isTold with ⟨fingerprint, sslNew, member⟩
  exact ⟨fingerprint, sslNew, List.mem_append_left _ member⟩

/-- A step that keeps what is on its way keeps the stage. -/
theorem Stage.keep (stage : Stage setup negotiation told) {after : Negotiation crypto}
    (more : Told crypto)
    (sameSocket : after.app.sockets.lookup setup.socket =
      negotiation.app.sockets.lookup setup.socket)
    (joins : negotiation.app.sockets.lookup setup.socket = some none →
      SignalingClient.joinMessage setup.room ∈ negotiation.up →
        SignalingClient.joinMessage setup.room ∈ after.up)
    (offers : ∀ payload fields, SignalingClient.sendOffer true setup.room 0 payload = .ok fields →
      fields ∈ negotiation.up → fields ∈ after.up)
    (frames : ∀ frame : Frame, frame.type = "joined" ∨ frame.type = "answer" →
      frame.fields ∈ negotiation.down → frame.fields ∈ after.down) :
    Stage setup after (told ++ more) := by
  cases stage with
  | joining opened sent => exact .joining (sameSocket.trans opened) (joins opened sent)
  | joined owned sent => exact .joined (sameSocket.trans owned) (frames _ (.inl rfl) sent)
  | offered owned sends sent =>
      exact .offered (sameSocket.trans owned) sends (offers _ _ sends sent)
  | answered owned server sent =>
      exact .answered (sameSocket.trans owned) (server.append_left more) (frames _ (.inr rfl) sent)
  | agreed owned server client =>
      exact .agreed (sameSocket.trans owned) (server.append_left more) (client.append_left more)

/-- Nothing gets lost by adding to it. -/
theorem Stage.later (stage : Stage setup negotiation told) {after : Negotiation crypto}
    (more : Told crypto)
    (sameSocket : after.app.sockets.lookup setup.socket =
      negotiation.app.sockets.lookup setup.socket)
    (up : ∀ fields ∈ negotiation.up, fields ∈ after.up)
    (down : ∀ fields ∈ negotiation.down, fields ∈ after.down) :
    Stage setup after (told ++ more) :=
  stage.keep more sameSocket (fun _ sent => up _ sent) (fun _ _ _ sent => up _ sent)
    fun _ _ sent => down _ sent

/-- Messages of the client differ by their type. -/
theorem lookup_type (fields : Fields) (upward : Upward setup fields) :
    fields.lookup "type" = some (.string "join") ∧ fields = SignalingClient.joinMessage setup.room ∨
      (fields.lookup "type" = some (.string "offer") ∧ ∃ payload,
        SignalingClient.sendOffer true setup.room 0 payload = .ok fields) ∨
      (fields.lookup "type" = some (.string "ice") ∧ ∃ candidate,
        SignalingClient.sendIceCandidate true setup.room 0 candidate = .ok fields) := by
  cases upward with
  | join => exact .inl ⟨rfl, rfl⟩
  | offer _ sends =>
      exact .inr (.inl ⟨(SignalingClient.lookup_sendMessage sends).1, _, sends⟩)
  | ice sends => exact .inr (.inr ⟨(SignalingClient.lookup_sendMessage sends).1, _, sends⟩)

theorem offered_of_owned {app : SfuApp} {client : ClientRef}
    (owned : app.sockets.lookup setup.socket = some (some client)) {payload : String}
    {fields : Fields} (sends : SignalingClient.sendOffer true setup.room 0 payload = .ok fields) :
    offered? setup app fields = some payload := by
  rcases SignalingClient.lookup_sendMessage sends with ⟨isType, isPayload, _⟩
  rw [offered?, joinedAs, owned, isPayload]
  simp [kindOf, isType]

theorem mem_rest {fields other : Fields} {rest : List Fields} (member : other ∈ fields :: rest)
    (different : other.lookup "type" ≠ fields.lookup "type") : other ∈ rest := by
  rcases List.mem_cons.mp member with same | later
  · exact absurd (congrArg (List.lookup "type") same) different
  · exact later

/-- The server gets the next message of the client's. -/
theorem Stage.serverReceives {app : SfuApp} {server client : RtpTransport crypto}
    {signaling : SignalingClient} {connected announced : Bool} {fields : Fields}
    {rest down : List Fields}
    (stage : Stage setup (⟨app, server, client, signaling, connected, announced, fields :: rest,
      down⟩ : Negotiation crypto) told)
    (upward : Upward setup fields) (named : setup.room.isEmpty = false) {answer : String}
    {after : SfuApp} {effects : List SfuApp.Effect}
    (handled : app.onObject setup.socket fields true (fun _ => (true, some answer)) =
      .ok (after, effects)) (sslNew : Bool) :
    Stage setup (⟨after, server, client, signaling, connected, announced, rest,
        down ++ sentTo setup.socket effects⟩ : Negotiation crypto)
      (told ++ toldServer setup app fields true sslNew) := by
  have frames : ∀ frame : Frame, frame.fields ∈ down →
      frame.fields ∈ down ++ sentTo setup.socket effects :=
    fun _ sent => List.mem_append_left _ sent
  have joinType : (SignalingClient.joinMessage setup.room).lookup "type" = some (.string "join") :=
    rfl
  rcases lookup_type fields upward with
    ⟨isType, isJoin⟩ | ⟨isType, payload, sends⟩ | ⟨isType, candidate, sends⟩
  · -- A join is taken from a socket that has not joined.
    rw [isJoin, onObject_join] at handled
    have isAfter := congrArg Prod.fst (Except.ok.inj handled)
    have isEffects := congrArg Prod.snd (Except.ok.inj handled)
    simp only [SfuApp.step, SfuApp.onJoin, named] at isAfter isEffects
    by_cases waiting : app.sockets.lookup setup.socket = some none
    · simp only [waiting, Bool.false_eq_true, if_false, if_true] at isAfter isEffects
      have owned : after.sockets.lookup setup.socket = some (some app.nextRef) := by
        rw [← isAfter, lookup_insert_eq, if_pos rfl]
      have sent : (Frame.joined setup.room app.nextId).fields ∈
          down ++ sentTo setup.socket effects := by
        rw [← isEffects]
        simp [sentTo]
      exact .joined owned sent
    · have unchanged : after = app := by
        rw [← isAfter]
        split
        · rename_i opened
          exact absurd opened waiting
        · rfl
      refine stage.keep _ (by rw [unchanged]) (fun opened => absurd opened waiting) ?_
        fun _ _ sent => frames _ sent
      intro payload offer sends sent
      apply mem_rest sent
      rw [(SignalingClient.lookup_sendMessage sends).1, isType]
      simp
  · -- An offer is answered on a socket that has joined.
    rw [onObject_offer app sends] at handled
    have isAfter := congrArg Prod.fst (Except.ok.inj handled)
    have isEffects := congrArg Prod.snd (Except.ok.inj handled)
    simp only [SfuApp.step, SfuApp.onOffer, if_true] at isAfter isEffects
    have unchanged : after = app := by
      rw [← isAfter]
      split <;> rfl
    rw [unchanged]
    by_cases owned : ∃ number, app.sockets.lookup setup.socket = some (some number)
    · rcases owned with ⟨number, owned⟩
      simp only [owned] at isEffects
      have isTold : IsTold .server (told ++ toldServer setup app fields true sslNew) := by
        refine ⟨fingerprintIn payload, sslNew, List.mem_append_right _ ?_⟩
        rw [toldServer, offered_of_owned owned sends]
        exact List.mem_singleton_self _
      have answered : (Frame.answer answer).fields ∈ down ++ sentTo setup.socket effects := by
        rw [← isEffects]
        simp [sentTo]
      cases stage with
      | joining opened sent =>
          rw [owned] at opened
          cases opened
      | joined owned sent => exact .joined owned (frames _ sent)
      | offered owned sends sent => exact .answered owned isTold answered
      | answered owned server sent => exact .answered owned isTold answered
      | agreed owned server client => exact .agreed owned isTold (client.append_left _)
    · cases stage with
      | joining opened sent =>
          refine .joining opened (mem_rest sent ?_)
          rw [joinType, isType]
          simp
      | joined isOwned sent => exact absurd ⟨_, isOwned⟩ owned
      | offered isOwned sends sent => exact absurd ⟨_, isOwned⟩ owned
      | answered isOwned server sent => exact absurd ⟨_, isOwned⟩ owned
      | agreed isOwned server client => exact absurd ⟨_, isOwned⟩ owned
  · rw [onObject_ice app sends] at handled
    have isAfter := congrArg Prod.fst (Except.ok.inj handled)
    simp only at isAfter
    refine stage.keep _ (by rw [isAfter]) (fun _ sent => mem_rest sent ?_) ?_
      fun _ _ sent => frames _ sent
    · rw [joinType, isType]
      simp
    · intro payload offer offers sent
      apply mem_rest sent
      rw [(SignalingClient.lookup_sendMessage offers).1, isType]
      simp

/-- The client gets the next frame of the server's. -/
theorem Stage.clientReceives {app : SfuApp} {server client : RtpTransport crypto}
    {signaling after : SignalingClient} {announced : Bool} {frame : Frame} {rest up : List Fields}
    (stage : Stage setup (⟨app, server, client, signaling, true, announced, up,
      frame.fields :: rest⟩ : Negotiation crypto) told)
    (callbacks : signaling.callbacks = (create crypto).signaling.callbacks)
    {description : Option Bytes}
    (described : (bundle description (setup.fingerprint .client)).isSome) (sslNew : Bool) :
    Stage setup (⟨app, server, client, after, true, announced,
        up ++ ((noticesOf signaling frame).map
          (@callback crypto setup true description sslNew)).flatMap Prod.fst, rest⟩ :
        Negotiation crypto)
      (told ++ ((noticesOf signaling frame).map
        (callback setup true description sslNew)).flatMap Prod.snd) := by
  have inRest : ∀ other : Frame, other.type ≠ frame.type → other.fields ∈ frame.fields :: rest →
      other.fields ∈ rest := by
    intro other different sent
    apply mem_rest sent
    rw [other.lookup_type, frame.lookup_type]
    simpa using different
  cases frame with
  | joined room id =>
      rcases Option.isSome_iff_exists.mp described with ⟨payload, isBundle⟩
      have sends : ∃ fields, SignalingClient.sendOffer true setup.room 0 payload = .ok fields :=
        ⟨_, rfl⟩
      rcases sends with ⟨fields, sends⟩
      have called : @callback crypto setup true description sslNew (.joined id.toNat) =
          ([fields], []) := by
        simp only [callback, isBundle, sends]
      have notices : noticesOf signaling (.joined room id) = [.joined id.toNat] := by
        rw [noticesOf, callbacks]
        rfl
      simp only [notices, List.map_cons, List.map_nil, called, List.flatMap_cons, List.flatMap_nil,
        List.append_nil]
      cases stage with
      | joining opened sent => exact .joining opened (List.mem_append_left _ sent)
      | joined owned sent =>
          exact .offered owned sends (List.mem_append_right _ (List.mem_singleton_self _))
      | offered owned sends sent => exact .offered owned sends (List.mem_append_left _ sent)
      | answered owned server sent =>
          exact .answered owned server (inRest (.answer _) (by simp [Frame.type]) sent)
      | agreed owned server client => exact .agreed owned server client
  | answer payload =>
      have notices : noticesOf signaling (.answer payload) = [.answer 0 payload] := by
        rw [noticesOf, callbacks]
        rfl
      have isTold : IsTold .client (told ++
          [(Role.client, .setRemoteFingerprint (fingerprintIn payload) sslNew)] : Told crypto) :=
        ⟨_, _, List.mem_append_right _ (List.mem_singleton_self _)⟩
      simp only [notices, List.map_cons, List.map_nil, callback, List.flatMap_cons,
        List.flatMap_nil, List.append_nil]
      cases stage with
      | joining opened sent => exact .joining opened sent
      | joined owned sent => exact .joined owned (inRest (.joined _ _) (by simp [Frame.type]) sent)
      | offered owned sends sent => exact .offered owned sends sent
      | answered owned server sent => exact .agreed owned (server.append_left _) isTold
      | agreed owned server client => exact .agreed owned (server.append_left _) isTold
  | ice payload =>
      refine stage.keep _ rfl (fun _ sent => List.mem_append_left _ sent)
        (fun _ _ _ sent => List.mem_append_left _ sent) fun other isStep sent => ?_
      refine inRest other (fun same => ?_) sent
      rw [same] at isStep
      exact absurd isStep (by simp [Frame.type])
  | error reason =>
      refine stage.keep _ rfl (fun _ sent => List.mem_append_left _ sent)
        (fun _ _ _ sent => List.mem_append_left _ sent) fun other isStep sent => ?_
      refine inRest other (fun same => ?_) sent
      rw [same] at isStep
      exact absurd isStep (by simp [Frame.type])

/-- Only a join on a socket that has not joined changes anything in the process. -/
theorem unchanged_of_handled {app after : SfuApp} {fields : Fields} {initialized : Bool}
    {offered : String → Bool × Option String} {effects : List SfuApp.Effect}
    (upward : Upward setup fields)
    (handled : app.onObject setup.socket fields initialized offered = .ok (after, effects))
    (notJoining : fields = SignalingClient.joinMessage setup.room →
      app.sockets.lookup setup.socket ≠ some none) : after = app := by
  cases upward with
  | join =>
      rw [onObject_join] at handled
      have isAfter := congrArg Prod.fst (Except.ok.inj handled)
      simp only [SfuApp.step, SfuApp.onJoin] at isAfter
      rw [← isAfter]
      split
      · rename_i opened
        exact absurd opened (notJoining rfl)
      · rfl
  | offer _ sends =>
      rw [onObject_offer app sends] at handled
      have isAfter := congrArg Prod.fst (Except.ok.inj handled)
      simp only [SfuApp.step, SfuApp.onOffer] at isAfter
      rw [← isAfter]
      repeat' split
      all_goals rfl
  | ice sends =>
      rw [onObject_ice app sends] at handled
      exact (congrArg Prod.fst (Except.ok.inj handled)).symm

theorem reported_sockets (setup : Setup) (app : SfuApp) (role : Role) (state : IceState) :
    (reported setup app role state).sockets = app.sockets := by
  unfold reported
  split
  · rw [SfuApp.onStateChanged]
    repeat' split
    all_goals rfl
  · rfl

theorem Progress.next (progress : Progress setup negotiation told) {after : Negotiation crypto}
    {toldAfter : Told crypto} (sameConnected : after.connected = negotiation.connected)
    (sameAnnounced : after.announced = negotiation.announced)
    (sameSocket : SignalingClient.joinMessage setup.room ∉ negotiation.up →
      after.app.sockets.lookup setup.socket = negotiation.app.sockets.lookup setup.socket)
    (noJoin : SignalingClient.joinMessage setup.room ∉ negotiation.up →
      SignalingClient.joinMessage setup.room ∉ after.up)
    (stage : negotiation.announced = true → Stage setup after toldAfter) :
    Progress setup after toldAfter where
  idle := by
    rw [sameConnected, sameAnnounced]
    intro notConnected
    rcases progress.idle notConnected with ⟨fresh, unknown, notSent⟩
    exact ⟨fresh, (sameSocket notSent).trans unknown, noJoin notSent⟩
  opened := by
    rw [sameConnected, sameAnnounced]
    intro connected fresh
    rcases progress.opened connected fresh with ⟨opened, notSent⟩
    exact ⟨(sameSocket notSent).trans opened, noJoin notSent⟩
  started := by
    rw [sameAnnounced]
    exact stage

/-- Adding to what is on its way. -/
theorem Progress.later (progress : Progress setup negotiation told) {after : Negotiation crypto}
    (more : Told crypto) (sameConnected : after.connected = negotiation.connected)
    (sameAnnounced : after.announced = negotiation.announced)
    (sameSocket : after.app.sockets.lookup setup.socket =
      negotiation.app.sockets.lookup setup.socket)
    {added : List Fields} (up : after.up = negotiation.up ++ added)
    (noJoin : SignalingClient.joinMessage setup.room ∉ added)
    (down : ∀ fields ∈ negotiation.down, fields ∈ after.down) :
    Progress setup after (told ++ more) := by
  refine progress.next sameConnected sameAnnounced (fun _ => sameSocket) ?_ fun announced => ?_
  · rw [up]
    exact fun notSent sent => (List.mem_append.mp sent).elim notSent noJoin
  · refine (progress.started announced).later more sameSocket ?_ down
    rw [up]
    exact fun _ sent => List.mem_append_left _ sent

theorem Progress.tell (progress : Progress setup negotiation told) (more : Told crypto) :
    Progress setup (negotiation.tell more) told := by
  have kept : Progress setup (negotiation.tell more) (told ++ []) := by
    refine progress.later [] (tell_connected _ _) (tell_announced _ _) ?_
      ((tell_up _ _).trans (List.append_nil _).symm) List.not_mem_nil ?_
    · rw [tell_app]
    · rw [tell_down]
      exact fun _ sent => sent
  rwa [List.append_nil] at kept

/-- The client's program never joins again. -/
theorem join_not_called (connected : Bool) (description : Option Bytes) (sslNew : Bool)
    (notifications : List SignalingClient.Notification) :
    SignalingClient.joinMessage setup.room ∉ (notifications.map
      (@callback crypto setup connected description sslNew)).flatMap Prod.fst := by
  intro member
  rcases List.mem_flatMap.mp member with ⟨called, isCall, isSent⟩
  rcases List.mem_map.mp isCall with ⟨notification, _, rfl⟩
  cases notification with
  | joined self =>
      simp only [callback] at isSent
      split at isSent
      · split at isSent
        · rename_i fields sends
          cases connected with
          | false => cases sends
          | true =>
              have isType := (SignalingClient.lookup_sendMessage sends).1
              rw [← List.mem_singleton.mp isSent] at isType
              exact absurd isType (by simp [SignalingClient.joinMessage])
        · cases isSent
      · cases isSent
  | _ => cases isSent

theorem Progress.step (progress : Progress setup negotiation told)
    (sound : Sound setup negotiation) {event : Event crypto} (unmarked : Unmarked event)
    (willing : Willing setup event) (named : setup.room.isEmpty = false) :
    Progress setup (Negotiation.step setup negotiation event).1
      (told ++ (Negotiation.step setup negotiation event).2) := by
  have same : Progress setup negotiation (told ++ []) := by rwa [List.append_nil]
  have nothing : SignalingClient.joinMessage setup.room ∉ ([] : List Fields) := List.not_mem_nil
  cases event with
  | connect =>
      simp only [Negotiation.step]
      split
      · exact same
      · rename_i fresh
        rcases progress.idle (Bool.eq_false_iff.mpr fresh) with ⟨silent, unknown, notSent⟩
        have absent : setup.socket ∉ negotiation.app.sockets := AList.lookup_eq_none.mp unknown
        refine ⟨fun impossible => Bool.noConfusion impossible, fun _ _ => ⟨?_, notSent⟩,
          fun announced => ?_⟩
        · rw [SfuApp.onOpen, if_neg absent, lookup_insert_eq, if_pos rfl]
        · simp only at announced
          rw [silent] at announced
          cases announced
  | announce =>
      simp only [Negotiation.step]
      split
      · rename_i ready
        rcases Bool.and_eq_true_iff.mp ready with ⟨connected, fresh⟩
        have opened := (progress.opened connected (by simpa using fresh)).1
        refine ⟨fun notConnected => ?_, fun _ impossible => Bool.noConfusion impossible,
          fun _ => ?_⟩
        · simp only at notConnected
          rw [connected] at notConnected
          cases notConnected
        · exact .joining opened (List.mem_append_right _ (List.mem_singleton_self _))
      · exact same
  | serverReceives initialized accepted description sslNew =>
      rcases willing with ⟨isInitialized, isAccepted, isDescribed⟩
      rcases Option.isSome_iff_exists.mp isDescribed with ⟨answer, isBundle⟩
      simp only [Negotiation.step]
      split
      · exact same
      · rename_i fields rest waiting
        have upward : Upward setup fields := sound.up fields (waiting ▸ List.mem_cons_self)
        rcases @onObject_upward setup negotiation.app fields upward initialized accepted
          (bundle description (setup.fingerprint .server))
          (fun payload isBundle => fingerprintIn_bundle unmarked isBundle) with
          ⟨after, effects, handled, _⟩
        rw [handled]
        rw [isInitialized, isAccepted, isBundle] at handled
        rw [isAccepted]
        simp only
        apply Progress.tell
        have unchanged : SignalingClient.joinMessage setup.room ∉ negotiation.up →
            after = negotiation.app := by
          intro notSent
          refine unchanged_of_handled upward handled fun isJoin => ?_
          rw [waiting, ← isJoin] at notSent
          exact absurd List.mem_cons_self notSent
        refine progress.next rfl rfl (fun notSent => ?_) (fun notSent sent => notSent ?_)
          fun announced => ?_
        · rw [unchanged notSent]
        · rw [waiting]
          exact List.mem_cons_of_mem _ sent
        · have stage := progress.started announced
          rcases negotiation with ⟨app, server, client, signaling, connected, announced, up, down⟩
          simp only at waiting
          rw [waiting] at stage
          exact stage.serverReceives upward named handled sslNew
  | clientReceives description sslNew =>
      simp only [Negotiation.step]
      split
      · exact same
      · rename_i fields rest waiting
        rcases sound.down fields (waiting ▸ List.mem_cons_self) with ⟨frame, isFrame, _⟩
        have alone : negotiation.signaling.callbacks.onPeerJoined = false := by
          rw [sound.callbacks]
          rfl
        rcases dispatchObject_frame alone frame with ⟨signaling, dispatched, _⟩
        rw [isFrame] at waiting
        rw [isFrame, dispatched]
        simp only
        apply Progress.tell
        refine progress.next rfl rfl (fun _ => rfl) (fun notSent sent => ?_) fun announced => ?_
        · exact (List.mem_append.mp sent).elim notSent (join_not_called _ _ _ _)
        · have connected : negotiation.connected = true := by
            by_contra notConnected
            rw [(progress.idle (Bool.eq_false_iff.mpr notConnected)).1] at announced
            cases announced
          have stage := progress.started announced
          have callbacks := sound.callbacks
          rcases negotiation with ⟨app, server, client, before, linked, announced, up, down⟩
          simp only at waiting connected
          rw [waiting, connected] at stage
          rw [connected]
          exact stage.clientReceives callbacks willing sslNew
  | clientCandidate candidate =>
      simp only [Negotiation.step]
      split
      · rename_i fields sends
        refine progress.later [] rfl rfl rfl rfl (fun member => ?_) fun _ sent => sent
        cases connected : negotiation.connected with
        | false =>
            rw [connected] at sends
            cases sends
        | true =>
            rw [connected] at sends
            have isType := (SignalingClient.lookup_sendMessage sends).1
            rw [← List.mem_singleton.mp member] at isType
            exact absurd isType (by simp [SignalingClient.joinMessage])
      · exact same
  | process event =>
      simp only [Negotiation.step]
      split
      · exact same
      · rename_i foreign
        exact progress.later [] rfl rfl (lookup_foreign foreign willing) (List.append_nil _).symm
          nothing fun _ sent => List.mem_append_left _ sent
  | transport role event =>
      have kept : ∀ (app : SfuApp) (more : Told crypto),
          app.sockets = negotiation.app.sockets →
          Progress setup ({ negotiation with app }.tell more) (told ++ more) := by
        intro app more sameSockets
        apply Progress.tell
        exact progress.later more rfl rfl (congrArg (AList.lookup setup.socket) sameSockets)
          (List.append_nil _).symm nothing fun _ sent => sent
      cases event with
      | setRemoteFingerprint fingerprint sslNew => exact same
      | iceState state sslNew => exact kept _ _ (reported_sockets setup _ role state)
      | data datagram => exact kept negotiation.app _ rfl
      | handshakeEnd handshake => exact kept negotiation.app _ rfl
      | send packet => exact kept negotiation.app _ rfl

theorem progress_run {events : List (Event crypto)} (named : setup.room.isEmpty = false)
    (unmarked : ∀ event ∈ events, Unmarked event)
    (willing : ∀ event ∈ events, Willing setup event) :
    Progress setup ((machine crypto setup).run events) (history setup events) := by
  induction events using List.reverseRecOn with
  | nil =>
      refine ⟨fun _ => ⟨rfl, rfl, List.not_mem_nil⟩, ?_, ?_⟩
      · exact fun impossible => Bool.noConfusion impossible
      · exact fun impossible => Bool.noConfusion impossible
  | append_singleton past event induction =>
      have before : ∀ earlier ∈ past, earlier ∈ past ++ [event] :=
        fun earlier member => List.mem_append_left _ member
      have last : event ∈ past ++ [event] := List.mem_append_right _ (List.mem_singleton_self _)
      have progress := induction (fun earlier member => unmarked earlier (before earlier member))
        fun earlier member => willing earlier (before earlier member)
      have sound := (@sound_run crypto setup past
        fun earlier member => unmarked earlier (before earlier member)).1
      rw [Machine.run_snoc, history, Machine.produced_snoc]
      exact progress.step sound (unmarked event last) (willing event last) named

end Progress

/-! ## Agreement -/

section Agreement

variable {setup : Setup} {events : List (Event crypto)}

/-- When nothing is on its way any more, both ends have been told. -/
theorem told_at_rest (named : setup.room.isEmpty = false)
    (unmarked : ∀ event ∈ events, Unmarked event) (willing : ∀ event ∈ events, Willing setup event)
    (announced : ((machine crypto setup).run events).announced = true)
    (up : ((machine crypto setup).run events).up = [])
    (down : ((machine crypto setup).run events).down = []) (role : Role) :
    IsTold role (history setup events) := by
  cases (progress_run named unmarked willing).started announced with
  | joining opened sent =>
      rw [up] at sent
      cases sent
  | joined owned sent =>
      rw [down] at sent
      cases sent
  | offered owned sends sent =>
      rw [up] at sent
      cases sent
  | answered owned server sent =>
      rw [down] at sent
      cases sent
  | agreed owned server client => cases role <;> assumption

theorem lastFingerprint_eq {calls : List (RtpTransport.Event crypto)} {fingerprint : Bytes}
    (only : ∀ other sslNew, .setRemoteFingerprint other sslNew ∈ calls → other = fingerprint)
    (isSet : ∃ other sslNew, .setRemoteFingerprint other sslNew ∈ calls) :
    RtpTransport.lastFingerprint calls = fingerprint := by
  induction calls using List.reverseRecOn with
  | nil =>
      rcases isSet with ⟨_, _, member⟩
      cases member
  | append_singleton past call induction =>
      have onlyPast : ∀ other sslNew, .setRemoteFingerprint other sslNew ∈ past →
          other = fingerprint :=
        fun other sslNew member => only other sslNew (List.mem_append_left _ member)
      have earlier : (∀ other sslNew, call ≠ .setRemoteFingerprint other sslNew) →
          RtpTransport.lastFingerprint past = fingerprint := by
        intro notSet
        rcases isSet with ⟨other, sslNew, member⟩
        rcases List.mem_append.mp member with before | now
        · exact induction onlyPast ⟨other, sslNew, before⟩
        · exact absurd (List.mem_singleton.mp now).symm (notSet other sslNew)
      rw [RtpTransport.lastFingerprint_snoc]
      cases call with
      | setRemoteFingerprint other sslNew =>
          exact only other sslNew (List.mem_append_right _ (List.mem_singleton_self _))
      | _ => exact earlier fun _ _ => nofun

/-- An end that has seen its ICE connection and knows one fingerprint has started the
one handshake. -/
theorem one_start {calls : List (RtpTransport.Event crypto)} {role : Role} {fingerprint : Bytes}
    (known : fingerprint ≠ [])
    (only : ∀ other sslNew, .setRemoteFingerprint other sslNew ∈ calls → other = fingerprint)
    (isSet : ∃ other sslNew, .setRemoteFingerprint other sslNew ∈ calls)
    (iceUp : ((RtpTransport.securedMachine crypto (SecureLink.asClient role) true).run
      calls).iceConnected = true) :
    ((RtpTransport.securedMachine crypto (SecureLink.asClient role) true).run
        calls).handshakeStarted = true ∧
      (RtpTransport.effects (SecureLink.asClient role) true calls).filter
        RtpTransport.Effect.isStart = [.dtlsStart role fingerprint] := by
  rcases RtpTransport.reflects_run (SecureLink.asClient role) true calls with
    ⟨triggered, dtls, reflects⟩
  have isLast := lastFingerprint_eq only isSet
  have started := triggered iceUp (by rw [reflects.remoteFp, isLast]; exact known)
  refine ⟨started, ?_⟩
  have one := reflects.starts
  rw [started, if_pos rfl] at one
  rcases List.length_eq_one_iff.mp one with ⟨effect, isOne⟩
  have member : effect ∈ (RtpTransport.effects (SecureLink.asClient role) true calls).filter
      RtpTransport.Effect.isStart := by
    rw [isOne]
    exact List.mem_singleton_self _
  rcases List.mem_filter.mp member with ⟨made, isStart⟩
  cases effect with
  | dtlsStart startedRole startedWith =>
      rcases (RtpTransport.started_run _ true calls).2 _ _ made with ⟨isRole, told⟩
      rcases List.mem_filterMap.mp told with ⟨call, called, isSetting⟩
      cases call with
      | setRemoteFingerprint other sslNew =>
          cases isSetting
          rw [isOne, only _ sslNew called, isRole]
          cases role <;> rfl
      | _ => cases isSetting
  | _ => cases isStart

/-- In any interleaving each end is told the fingerprint of the other and no other.
When every agent does its part and the socket stays open, then as soon as nothing is
on its way any more and both ICE connections have been seen, each end has started
one handshake, in its own role and with the other's fingerprint. -/
theorem negotiated (named : setup.room.isEmpty = false)
    (known : ∀ role, setup.fingerprint role ≠ []) (unmarked : ∀ event ∈ events, Unmarked event) :
    (∀ role fingerprint sslNew,
      (role, .setRemoteFingerprint fingerprint sslNew) ∈ history setup events →
        fingerprint = setup.fingerprint role.peer) ∧
    ((∀ event ∈ events, Willing setup event) →
      ((machine crypto setup).run events).announced = true →
      ((machine crypto setup).run events).up = [] →
      ((machine crypto setup).run events).down = [] →
      (∀ role, (((machine crypto setup).run events).atEnd role).iceConnected = true) →
      ∀ role, (((machine crypto setup).run events).atEnd role).handshakeStarted = true ∧
        (RtpTransport.effects (SecureLink.asClient role) true
            (SecureLink.own role (history setup events))).filter RtpTransport.Effect.isStart =
          [.dtlsStart role (setup.fingerprint role.peer)]) := by
  have genuine := (@sound_run crypto setup events unmarked).2
  refine ⟨genuine, fun willing announced up down iceUp role => ?_⟩
  rcases told_at_rest named unmarked willing announced up down role with
    ⟨fingerprint, sslNew, told⟩
  have isUp := iceUp role
  rw [atEnd_run] at isUp ⊢
  exact one_start (known role.peer)
    (fun other sslNew member => genuine role other sslNew (SecureLink.mem_own.mp member))
    ⟨fingerprint, sslNew, SecureLink.mem_own.mpr told⟩ isUp

end Agreement

/-! ## One client -/

open SecureLink (markingCrypto)

def iceDescription : Bytes := octets "v=0"

def oneSetup : Setup where
  socket := 0
  room := "room"
  fingerprint := DtlsSrtp.fingerprintOf markingCrypto

/-- Connects, joins, offers and is answered, with a candidate in between. -/
def oneClient : List (Event markingCrypto) :=
  [.connect, .announce, .process (.opened 1),
    .serverReceives true true (some iceDescription) true,
    .clientReceives (some iceDescription) true,
    .transport .client (.iceState .connected true),
    .clientCandidate "candidate",
    .serverReceives true true (some iceDescription) true,
    .transport .server (.iceState .completed true),
    .clientReceives (some iceDescription) true,
    .serverReceives true true (some iceDescription) true]

theorem oneClient_willing : ∀ event ∈ oneClient, Willing oneSetup event := by
  have described : ∀ role, (bundle (some iceDescription) (oneSetup.fingerprint role)).isSome := by
    intro role
    cases role <;> decide +kernel
  intro event member
  simp only [oneClient, List.mem_cons, List.not_mem_nil, or_false] at member
  rcases member with rfl | rfl | rfl | rfl | rfl | rfl | rfl | rfl | rfl | rfl | rfl
  all_goals first
    | exact described _
    | exact ⟨rfl, rfl, described _⟩
    | simp [Willing]

theorem oneClient_unmarked : ∀ event ∈ oneClient, Unmarked event := by
  have plain : ¬fpMarker <:+: iceDescription := by decide +kernel
  intro event member
  simp only [oneClient, List.mem_cons, List.not_mem_nil, or_false] at member
  rcases member with rfl | rfl | rfl | rfl | rfl | rfl | rfl | rfl | rfl | rfl | rfl
  all_goals simp [Unmarked, Event.description?, plain]

theorem negotiated_one :
    ((machine markingCrypto oneSetup).run oneClient).announced = true ∧ ∀ role,
    (((machine markingCrypto oneSetup).run oneClient).atEnd role).handshakeStarted = true ∧
      (RtpTransport.effects (SecureLink.asClient role) true
          (SecureLink.own role (history oneSetup oneClient))).filter RtpTransport.Effect.isStart =
        [.dtlsStart role (DtlsSrtp.fingerprintOf markingCrypto role.peer)] := by
  have known : ∀ role, oneSetup.fingerprint role ≠ [] := by
    intro role
    cases role <;> decide
  have iceUp : ∀ role,
      (((machine markingCrypto oneSetup).run oneClient).atEnd role).iceConnected = true := by
    intro role
    cases role <;> rfl
  exact ⟨rfl,
    (negotiated (by decide) known oneClient_unmarked).2 oneClient_willing rfl rfl rfl iceUp⟩

end Negotiation

end Vela
