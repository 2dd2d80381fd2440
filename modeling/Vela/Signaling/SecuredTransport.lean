import Vela.Signaling.RtpTransport

/-! # No media without authentication

For a transport that was secured before it was initialized: what it sends and
what it hands up went through sessions keyed by a handshake whose peer matches
the fingerprint given on starting, and it starts once both the path and the
fingerprint are there. -/

namespace Vela

open Foundation

namespace RtpTransport

variable {crypto : Crypto}

/-! ## What a history says -/

/-- The history of events and effects holds a handshake that exported `material`
and whose peer matches the fingerprint it was started with. -/
def Authenticated (events : List (Event crypto)) (effects : List Effect)
    (role : DtlsSrtp.Role) (material : DtlsSrtp.KeyingMaterial) : Prop :=
  ∃ remoteFp handshake certificate,
    .dtlsStart role remoteFp ∈ effects ∧ remoteFp ≠ [] ∧
    .handshakeEnd handshake ∈ events ∧ handshake.initFinished = true ∧
    handshake.peer = some certificate ∧ handshake.material = some material ∧
    DtlsSrtp.normalizeFp (DtlsSrtp.fingerprintOf crypto certificate) =
      DtlsSrtp.normalizeFp remoteFp

/-- An ICE state change to Connected or Completed. -/
def Event.isIceUp : Event crypto → Bool
  | .iceState .connected _ => true
  | .iceState .completed _ => true
  | _ => false

/-- The fingerprint set last. -/
def lastFingerprint (events : List (Event crypto)) : Bytes :=
  events.foldl
    (fun fingerprint event =>
      match event with
      | .setRemoteFingerprint fingerprint _ => fingerprint
      | _ => fingerprint)
    []

def Effect.isStart : Effect → Bool
  | .dtlsStart _ _ => true
  | _ => false

/-- The effects of a run, oldest first. -/
def effects (asClient onPacket : Bool) (events : List (Event crypto)) : List Effect :=
  ((securedMachine crypto asClient onPacket).outputs events).flatten

theorem effects_snoc (asClient onPacket : Bool) (events : List (Event crypto))
    (event : Event crypto) :
    effects asClient onPacket (events ++ [event]) =
      effects asClient onPacket events ++
        (((securedMachine crypto asClient onPacket).run events).step event).2 := by
  simp [effects, Machine.output, securedMachine]

theorem lastFingerprint_snoc (events : List (Event crypto)) (event : Event crypto) :
    lastFingerprint (events ++ [event]) =
      match event with
      | .setRemoteFingerprint fingerprint _ => fingerprint
      | _ => lastFingerprint events := by
  simp [lastFingerprint]

theorem Authenticated.mono {events more : List (Event crypto)} {effects moreEffects : List Effect}
    {role : DtlsSrtp.Role} {material : DtlsSrtp.KeyingMaterial}
    (authenticated : Authenticated events effects role material) :
    Authenticated (events ++ more) (effects ++ moreEffects) role material := by
  rcases authenticated with ⟨remoteFp, handshake, certificate, started, nonempty, ended, rest⟩
  exact ⟨remoteFp, handshake, certificate, List.mem_append_left _ started, nonempty,
    List.mem_append_left _ ended, rest⟩

/-! ## The invariant -/

/-- The transport as the history left it. -/
structure Reflects (events : List (Event crypto)) (effects : List Effect)
    (transport : RtpTransport crypto) (dtls : DtlsSrtp crypto) : Prop where
  hasDtls : transport.dtls = some dtls
  secured : transport.secured = true
  iceConnected : transport.iceConnected = events.any Event.isIceUp
  remoteFp : transport.remoteFp = lastFingerprint events
  starts : (effects.filter Effect.isStart).length = if transport.handshakeStarted then 1 else 0
  idle : transport.handshakeStarted = false → dtls.running = false ∧ dtls.ready = false
  startedWith : dtls.running = true → .dtlsStart dtls.role dtls.remoteFp ∈ effects
  unfinished : dtls.running = true → dtls.ready = false
  keyed : dtls.ready = true → ∃ material,
    Authenticated events effects dtls.role material ∧ dtls.KeyedBy material

/-- Both triggers together have started the handshake. -/
def Triggered (transport : RtpTransport crypto) : Prop :=
  transport.iceConnected = true → transport.remoteFp ≠ [] → transport.handshakeStarted = true

section Step

variable {events : List (Event crypto)} {effects : List Effect} {transport : RtpTransport crypto}
  {dtls : DtlsSrtp crypto}

/-- Starting is the one thing that `maybeStartHandshake` does, and it does it when
both triggers are there. -/
theorem Reflects.maybeStart (reflects : Reflects events effects transport dtls) (sslNew : Bool) :
    Triggered (transport.maybeStartHandshake sslNew).1 ∧
      ∃ dtls', Reflects events (effects ++ (transport.maybeStartHandshake sslNew).2)
        (transport.maybeStartHandshake sslNew).1 dtls' := by
  simp only [maybeStartHandshake, reflects.hasDtls, reflects.secured, Bool.not_true, Bool.false_or]
  cases started : transport.handshakeStarted with
  | true =>
      simp only [if_true, List.append_nil]
      exact ⟨fun _ _ => started, dtls, reflects⟩
  | false =>
      simp only [Bool.false_eq_true, if_false]
      cases up : transport.iceConnected with
      | false =>
          simp only [Bool.not_false, Bool.true_or, if_true, List.append_nil]
          refine ⟨fun connected _ => ?_, dtls, reflects⟩
          rw [up] at connected
          cases connected
      | true =>
          by_cases missing : transport.remoteFp = []
          · simp only [missing, List.isEmpty_nil, Bool.or_true, if_true, List.append_nil]
            exact ⟨fun _ known => absurd missing known, dtls, reflects⟩
          · have known : transport.remoteFp.isEmpty = false := List.isEmpty_eq_false_iff.mpr missing
            simp only [Bool.not_true, known, Bool.or_self, Bool.false_eq_true, if_false]
            rcases reflects.idle started with ⟨notRunning, notReady⟩
            have noStart : (effects.filter Effect.isStart).length = 0 := by
              rw [reflects.starts, started]
              rfl
            refine ⟨fun _ _ => rfl, _, rfl, rfl, ?_, reflects.remoteFp, ?_, ?_, ?_, ?_, ?_⟩
            · exact up.symm.trans reflects.iceConnected
            · rw [List.filter_append, List.length_append, noStart]
              rfl
            · exact fun impossible => nomatch impossible
            · intro running
              rcases DtlsSrtp.running_start notRunning running with ⟨role, remoteFp⟩
              rw [role, remoteFp]
              exact List.mem_append_right _ (List.mem_singleton_self _)
            · exact fun _ => (DtlsSrtp.ready_start _ _ _ _).trans notReady
            · intro ready
              rw [DtlsSrtp.ready_start, notReady] at ready
              cases ready

/-- Adding an event and effects without a start, when the transport keeps all
its fields but the security layer's queue and sessions. -/
theorem Reflects.append (reflects : Reflects events effects transport dtls)
    (event : Event crypto) (newEffects : List Effect)
    (silent : newEffects.filter Effect.isStart = [])
    (notUp : event.isIceUp = false)
    (notFingerprint : lastFingerprint (events ++ [event]) = lastFingerprint events)
    {transport' : RtpTransport crypto} {dtls' : DtlsSrtp crypto}
    (shape : transport' = { transport with dtls := some dtls' }) (sameRole : dtls'.role = dtls.role)
    (sameFp : dtls'.remoteFp = dtls.remoteFp) (sameRunning : dtls'.running = dtls.running)
    (sameReady : dtls'.ready = dtls.ready)
    (keeps : ∀ material, dtls.KeyedBy material → dtls'.KeyedBy material) :
    Reflects (events ++ [event]) (effects ++ newEffects) transport' dtls' where
  hasDtls := by rw [shape]
  secured := by
    rw [shape]
    exact reflects.secured
  iceConnected := by
    rw [shape, List.any_append, ← reflects.iceConnected]
    simp [notUp]
  remoteFp := by
    rw [shape]
    exact reflects.remoteFp.trans notFingerprint.symm
  starts := by
    rw [shape, List.filter_append, silent, List.append_nil]
    exact reflects.starts
  idle := by
    rw [shape, sameRunning, sameReady]
    exact reflects.idle
  startedWith := by
    rw [sameRunning, sameRole, sameFp]
    exact fun running => List.mem_append_left _ (reflects.startedWith running)
  unfinished := by
    rw [sameRunning, sameReady]
    exact reflects.unfinished
  keyed := by
    rw [sameReady, sameRole]
    intro ready
    rcases reflects.keyed ready with ⟨material, authenticated, keyed⟩
    exact ⟨material, authenticated.mono, keeps material keyed⟩

/-- An event that changes nothing. -/
theorem Reflects.unchanged (reflects : Reflects events effects transport dtls)
    (event : Event crypto) (newEffects : List Effect)
    (silent : newEffects.filter Effect.isStart = [])
    (notUp : event.isIceUp = false)
    (notFingerprint : lastFingerprint (events ++ [event]) = lastFingerprint events) :
    Reflects (events ++ [event]) (effects ++ newEffects) transport dtls := by
  apply reflects.append event newEffects silent notUp notFingerprint _ rfl rfl rfl rfl
  · exact fun _ keyed => keyed
  · rw [← reflects.hasDtls]

theorem starts_deliver (buffer : Bytes) : (deliver buffer).filter Effect.isStart = [] := by
  rw [deliver]
  split <;> rfl

theorem Reflects.onData (reflects : Reflects events effects transport dtls) (data : Bytes) :
    (transport.onData data).1.handshakeStarted = transport.handshakeStarted ∧
      ∃ dtls', Reflects (events ++ [.data data]) (effects ++ (transport.onData data).2)
        (transport.onData data).1 dtls' := by
  have same : lastFingerprint (events ++ [.data data]) = lastFingerprint events := by
    rw [lastFingerprint_snoc]
  have dropped := reflects.unchanged (.data data) [] rfl rfl same
  cases data with
  | nil => exact ⟨rfl, dtls, dropped⟩
  | cons first rest =>
      simp only [RtpTransport.onData, reflects.secured, if_true, reflects.hasDtls]
      split
      · exact ⟨rfl, dtls.feedDtls (first :: rest), reflects.append _ _ rfl rfl same
          (by rw [reflects.secured]) rfl rfl rfl rfl fun _ keyed =>
            ⟨keyed.outbound, keyed.inbound⟩⟩
      · split
        · split
          · exact ⟨rfl, dtls, dropped⟩
          · rcases dtls.unprotect_frame (first :: rest) with ⟨srtpIn, frame⟩
            refine ⟨rfl, (dtls.unprotect (first :: rest)).1, reflects.append _ _ ?_ rfl same
              (by rw [reflects.secured]) ?_ ?_ ?_ ?_ fun _ keyed => keyed.unprotect _⟩
            · split
              · exact starts_deliver _
              · rfl
            all_goals rw [frame]
        · exact ⟨rfl, dtls, dropped⟩

theorem Reflects.send (reflects : Reflects events effects transport dtls) (packet : RtpPacket) :
    (transport.send packet).1.handshakeStarted = transport.handshakeStarted ∧
      ∃ dtls', Reflects (events ++ [.send packet]) (effects ++ (transport.send packet).2)
        (transport.send packet).1 dtls' := by
  have same : lastFingerprint (events ++ [.send packet]) = lastFingerprint events := by
    rw [lastFingerprint_snoc]
  simp only [RtpTransport.send, reflects.secured, if_true, reflects.hasDtls]
  split
  · exact ⟨rfl, dtls, reflects.unchanged _ _ rfl rfl same⟩
  · rcases dtls.protect_frame packet.serialize with ⟨srtpOut, frame⟩
    refine ⟨rfl, (dtls.protect packet.serialize).1, reflects.append _ _ ?_ rfl same
      (by rw [reflects.secured]) ?_ ?_ ?_ ?_ fun _ keyed => keyed.protect _⟩
    · split <;> rfl
    all_goals rw [frame]

theorem Reflects.run (reflects : Reflects events effects transport dtls)
    (handshake : DtlsSrtp.HandshakeEnd crypto) :
    Reflects (events ++ [.handshakeEnd handshake]) (effects ++ [])
      { transport with dtls := transport.dtls.map fun dtls => dtls.run handshake }
      (dtls.run handshake) := by
  have same : lastFingerprint (events ++ [.handshakeEnd handshake]) = lastFingerprint events := by
    rw [lastFingerprint_snoc]
  rcases dtls.run_frame handshake with ⟨role, remoteFp, ended⟩
  cases running : dtls.running with
  | false =>
      have nothing : dtls.run handshake = dtls := by
        rw [DtlsSrtp.run, if_neg (Bool.eq_false_iff.mp running)]
      rw [nothing]
      apply reflects.append _ [] rfl rfl same _ rfl rfl rfl rfl fun _ keyed => keyed
      rw [reflects.hasDtls, Option.map_some, nothing]
  | true =>
      have kept := reflects.unchanged (.handshakeEnd handshake) [] rfl rfl same
      refine ⟨?_, reflects.secured, kept.iceConnected, kept.remoteFp, kept.starts, ?_, ?_, ?_, ?_⟩
      · rw [reflects.hasDtls]
        rfl
      · intro notStarted
        rw [(reflects.idle notStarted).1] at running
        cases running
      · intro stillRunning
        rw [ended] at stillRunning
        cases stillRunning
      · intro stillRunning
        rw [ended] at stillRunning
        cases stillRunning
      · intro ready
        rcases DtlsSrtp.ready_run running (reflects.unfinished running) ready with
          ⟨finished, verified, material, exported, keyed⟩
        rcases DtlsSrtp.verified_peer verified with ⟨nonempty, certificate, peer, matching⟩
        refine ⟨material, ?_, keyed⟩
        rw [role]
        exact ⟨dtls.remoteFp, handshake, certificate,
          List.mem_append_left _ (reflects.startedWith running), nonempty,
          List.mem_append_right _ (List.mem_singleton_self _), finished, peer, exported, matching⟩

/-- Recording a trigger, before it is acted on. -/
theorem Reflects.trigger (reflects : Reflects events effects transport dtls)
    (event : Event crypto) {transport' : RtpTransport crypto}
    (sameDtls : transport'.dtls = transport.dtls)
    (sameSecured : transport'.secured = transport.secured)
    (sameStarted : transport'.handshakeStarted = transport.handshakeStarted)
    (iceConnected : transport'.iceConnected = (transport.iceConnected || event.isIceUp))
    (remoteFp : transport'.remoteFp = lastFingerprint (events ++ [event])) :
    Reflects (events ++ [event]) effects transport' dtls where
  hasDtls := sameDtls.trans reflects.hasDtls
  secured := sameSecured.trans reflects.secured
  iceConnected := by
    rw [iceConnected, reflects.iceConnected, List.any_append]
    simp
  remoteFp := remoteFp
  starts := by
    rw [sameStarted]
    exact reflects.starts
  idle := by
    rw [sameStarted]
    exact reflects.idle
  startedWith := reflects.startedWith
  unfinished := reflects.unfinished
  keyed := by
    intro ready
    rcases reflects.keyed ready with ⟨material, authenticated, keyed⟩
    refine ⟨material, ?_, keyed⟩
    have later := @Authenticated.mono _ events [event] effects [] _ _ authenticated
    rwa [List.append_nil] at later

/-- An event that is no trigger cannot make the two triggers meet. -/
theorem Triggered.of_after (triggered : Triggered transport)
    (reflects : Reflects events effects transport dtls) {event : Event crypto}
    {effects' : List Effect} {transport' : RtpTransport crypto} {dtls' : DtlsSrtp crypto}
    (after : Reflects (events ++ [event]) effects' transport' dtls')
    (sameStarted : transport'.handshakeStarted = transport.handshakeStarted)
    (notUp : event.isIceUp = false)
    (notFingerprint : lastFingerprint (events ++ [event]) = lastFingerprint events) :
    Triggered transport' := by
  have sameIce : transport'.iceConnected = transport.iceConnected := by
    rw [after.iceConnected, reflects.iceConnected, List.any_append]
    simp [notUp]
  have sameFp : transport'.remoteFp = transport.remoteFp :=
    after.remoteFp.trans (notFingerprint.trans reflects.remoteFp.symm)
  rw [Triggered, sameIce, sameFp, sameStarted]
  exact triggered

theorem Reflects.step (reflects : Reflects events effects transport dtls)
    (triggered : Triggered transport) (event : Event crypto) :
    Triggered (transport.step event).1 ∧
      ∃ dtls', Reflects (events ++ [event]) (effects ++ (transport.step event).2)
        (transport.step event).1 dtls' := by
  cases event with
  | iceState state sslNew =>
      simp only [RtpTransport.step, onStateChanged]
      split
      · rename_i up
        have isUp : (Event.iceState state sslNew : Event crypto).isIceUp = true := by
          rcases up with rfl | rfl <;> rfl
        have recorded : Reflects (events ++ [.iceState state sslNew]) effects
            { transport with iceConnected := true } dtls := by
          refine reflects.trigger _ rfl rfl rfl ?_ ?_
          · rw [isUp, Bool.or_true]
          · rw [lastFingerprint_snoc]
            exact reflects.remoteFp
        exact recorded.maybeStart sslNew
      · rename_i notUp
        have isDown : (Event.iceState state sslNew : Event crypto).isIceUp = false := by
          cases state <;> simp at notUp <;> rfl
        refine ⟨triggered, dtls, reflects.unchanged _ [] rfl isDown ?_⟩
        rw [lastFingerprint_snoc]
  | setRemoteFingerprint fingerprint sslNew =>
      have recorded : Reflects (events ++ [.setRemoteFingerprint fingerprint sslNew]) effects
          { transport with remoteFp := fingerprint } dtls := by
        refine reflects.trigger _ rfl rfl rfl (Bool.or_false _).symm ?_
        rw [lastFingerprint_snoc]
      exact recorded.maybeStart sslNew
  | data datagram =>
      rcases reflects.onData datagram with ⟨sameStarted, dtls', after⟩
      refine ⟨triggered.of_after reflects after sameStarted rfl ?_, dtls', after⟩
      rw [lastFingerprint_snoc]
  | handshakeEnd handshake => exact ⟨triggered, _, reflects.run handshake⟩
  | send packet =>
      rcases reflects.send packet with ⟨sameStarted, dtls', after⟩
      refine ⟨triggered.of_after reflects after sameStarted rfl ?_, dtls', after⟩
      rw [lastFingerprint_snoc]

/-! ## What leaves the transport -/

theorem maybeStart_effects {effect : Effect} {sslNew : Bool}
    (made : effect ∈ (transport.maybeStartHandshake sslNew).2) : effect.isStart = true := by
  rw [maybeStartHandshake] at made
  split at made
  · cases made
  · split at made
    · cases made
    · split at made
      · cases made
      · rw [List.mem_singleton.mp made]
        rfl

theorem onStateChanged_effects {effect : Effect} {state : IceState} {sslNew : Bool}
    (made : effect ∈ (transport.onStateChanged state sslNew).2) : effect.isStart = true := by
  rw [onStateChanged] at made
  split at made
  · exact maybeStart_effects made
  · cases made

theorem mem_deliver {effect : Effect} {buffer : Bytes} (made : effect ∈ deliver buffer) :
    ∃ packet, effect = .onPacket packet ∧ RtpPacket.parse buffer = .ok packet := by
  rw [deliver] at made
  split at made
  · rename_i packet parsed
    exact ⟨packet, List.mem_singleton.mp made, parsed⟩
  · cases made

theorem Reflects.onData_effects (reflects : Reflects events effects transport dtls)
    {effect : Effect} {data : Bytes} (made : effect ∈ (transport.onData data).2) :
    effect = .feedDtls data ∨ dtls.ready = true ∧ ∃ buffer,
      (dtls.unprotect data).2 = some buffer ∧ effect ∈ deliver buffer := by
  cases data with
  | nil => cases made
  | cons first rest =>
      simp only [RtpTransport.onData, reflects.secured, if_true, reflects.hasDtls] at made
      split at made
      · exact Or.inl (List.mem_singleton.mp made)
      · split at made
        · split at made
          · cases made
          · rename_i usable
            rw [Bool.or_eq_true, not_or, Bool.not_eq_true, Bool.not_eq_false'] at usable
            simp only at made
            split at made
            · rename_i buffer unprotected
              exact Or.inr ⟨usable.1, buffer, unprotected, made⟩
            · cases made
        · cases made

theorem Reflects.send_effects (reflects : Reflects events effects transport dtls)
    {effect : Effect} {packet : RtpPacket} (made : effect ∈ (transport.send packet).2) :
    (∃ error, effect = .refused error) ∨ dtls.ready = true ∧ ∃ datagram,
      (dtls.protect packet.serialize).2 = some datagram ∧ effect = .natSend datagram := by
  simp only [RtpTransport.send, reflects.secured, if_true, reflects.hasDtls] at made
  split at made
  · exact Or.inl ⟨_, List.mem_singleton.mp made⟩
  · rename_i usable
    rw [Bool.not_eq_true, Bool.not_eq_false'] at usable
    simp only at made
    split at made
    · rename_i datagram protectedEq
      exact Or.inr ⟨usable, datagram, protectedEq, List.mem_singleton.mp made⟩
    · exact Or.inl ⟨_, List.mem_singleton.mp made⟩

/-- A datagram given to the ICE agent by `send` is the packet, protected by a
session keyed from the authenticated handshake. -/
theorem Reflects.natSend (reflects : Reflects events effects transport dtls)
    {event : Event crypto} {datagram : Bytes}
    (made : .natSend datagram ∈ (transport.step event).2) :
    ∃ packet role material session, event = .send packet ∧
      Authenticated events effects role material ∧
      Crypto.Keyed (DtlsSrtp.outKey role material) .outbound session ∧
      (crypto.protect session packet.serialize).2 = some datagram := by
  cases event with
  | iceState state sslNew => cases onStateChanged_effects made
  | setRemoteFingerprint fingerprint sslNew => cases maybeStart_effects made
  | handshakeEnd handshake => cases made
  | data data =>
      rcases reflects.onData_effects made with fed | ⟨_, buffer, _, delivered⟩
      · cases fed
      · rcases mem_deliver delivered with ⟨packet, isPacket, _⟩
        cases isPacket
  | send packet =>
      rcases reflects.send_effects made with ⟨error, refused⟩ | ⟨ready, bytes, result, isSend⟩
      · cases refused
      · cases isSend
        rcases reflects.keyed ready with ⟨material, authenticated, keyed⟩
        rcases keyed.outbound with ⟨session, sessionEq, isKeyed⟩
        rw [DtlsSrtp.protect, sessionEq] at result
        exact ⟨packet, dtls.role, material, session, rfl, authenticated, isKeyed, result⟩

/-- A packet handed up came out of a session keyed from the authenticated
handshake. -/
theorem Reflects.onPacket (reflects : Reflects events effects transport dtls)
    {event : Event crypto} {packet : RtpPacket}
    (made : .onPacket packet ∈ (transport.step event).2) :
    ∃ datagram role material session buffer, event = .data datagram ∧
      Authenticated events effects role material ∧
      Crypto.Keyed (DtlsSrtp.inKey role material) .inbound session ∧
      (crypto.unprotect session datagram).2 = some buffer ∧
      RtpPacket.parse buffer = .ok packet := by
  cases event with
  | iceState state sslNew => cases onStateChanged_effects made
  | setRemoteFingerprint fingerprint sslNew => cases maybeStart_effects made
  | handshakeEnd handshake => cases made
  | send sent =>
      rcases reflects.send_effects made with ⟨error, refused⟩ | ⟨_, datagram, _, isSend⟩
      · cases refused
      · cases isSend
  | data data =>
      rcases reflects.onData_effects made with fed | ⟨ready, buffer, result, delivered⟩
      · cases fed
      · rcases mem_deliver delivered with ⟨parsed, isPacket, parsedEq⟩
        cases isPacket
        rcases reflects.keyed ready with ⟨material, authenticated, keyed⟩
        rcases keyed.inbound with ⟨session, sessionEq, isKeyed⟩
        rw [DtlsSrtp.unprotect, sessionEq] at result
        exact ⟨data, dtls.role, material, session, buffer, rfl, authenticated, isKeyed, result,
          parsedEq⟩

end Step

/-! ## Whole runs -/

/-- Every reachable transport is what its history says. -/
theorem reflects_run (asClient onPacket : Bool) (events : List (Event crypto)) :
    Triggered ((securedMachine crypto asClient onPacket).run events) ∧
      ∃ dtls, Reflects events (effects asClient onPacket events)
        ((securedMachine crypto asClient onPacket).run events) dtls := by
  induction events using List.reverseRecOn with
  | nil =>
      refine ⟨(fun up => nomatch up), {}, rfl, rfl, rfl, rfl, rfl, fun _ => ⟨rfl, rfl⟩, ?_, ?_, ?_⟩
      · exact fun running => nomatch running
      · exact fun running => nomatch running
      · exact fun ready => nomatch ready
  | append_singleton past event induction =>
      rcases induction with ⟨triggered, dtls, reflects⟩
      rw [Machine.run_snoc, effects_snoc]
      exact reflects.step triggered event

/-- A secured transport carries no unauthenticated media in any run: what `send`
gives to the agent was protected, and what is handed up was unprotected, by a
session keyed from a handshake whose peer matches the fingerprint it was started
with; the handshake is started at most once, and has been started as soon as an
ICE connection was seen and the last fingerprint set is not empty. -/
theorem media_authenticated (asClient onPacket : Bool) (events : List (Event crypto)) :
    (∀ event datagram,
      .natSend datagram ∈ (((securedMachine crypto asClient onPacket).run events).step event).2 →
      ∃ packet role material session, event = .send packet ∧
        Authenticated events (effects asClient onPacket events) role material ∧
        Crypto.Keyed (DtlsSrtp.outKey role material) .outbound session ∧
        (crypto.protect session packet.serialize).2 = some datagram) ∧
    (∀ event packet,
      .onPacket packet ∈ (((securedMachine crypto asClient onPacket).run events).step event).2 →
      ∃ datagram role material session buffer, event = .data datagram ∧
        Authenticated events (effects asClient onPacket events) role material ∧
        Crypto.Keyed (DtlsSrtp.inKey role material) .inbound session ∧
        (crypto.unprotect session datagram).2 = some buffer ∧
        RtpPacket.parse buffer = .ok packet) ∧
    ((effects asClient onPacket events).filter Effect.isStart).length ≤ 1 ∧
    (events.any Event.isIceUp = true → lastFingerprint events ≠ [] →
      ((effects asClient onPacket events).filter Effect.isStart).length = 1) := by
  rcases reflects_run asClient onPacket events with ⟨triggered, dtls, reflects⟩
  refine ⟨fun event datagram made => reflects.natSend made,
    fun event packet made => reflects.onPacket made, ?_, ?_⟩
  · rw [reflects.starts]
    split
    · exact Nat.le_refl 1
    · exact Nat.zero_le 1
  · intro up known
    rw [← reflects.iceConnected] at up
    rw [← reflects.remoteFp] at known
    rw [reflects.starts, triggered up known]
    rfl

/-- A library whose sessions count their packets and whose protection is a tag
byte at the end. -/
def taggingCrypto : Crypto where
  Certificate := Unit
  digest := fun _ => some [0xAB]
  Session := Nat
  create := fun _ _ => some 0
  protect := fun count packet => (count + 1, some (packet ++ [0x54]))
  unprotect := fun count packet =>
    (count + 1, if packet.getLast? = some 0x54 then some packet.dropLast else none)

/-- The fingerprint arrives first, in lower case and with a trailing newline; the
handshake succeeds and the packet leaves protected. -/
theorem media_authenticated_send :
    let material : DtlsSrtp.KeyingMaterial := ⟨List.replicate 60 0, rfl⟩
    let events : List (Event taggingCrypto) :=
      [.setRemoteFingerprint
          [0x73, 0x68, 0x61, 0x2D, 0x32, 0x35, 0x36, 0x20, 0x61, 0x62, 0x0A] true,
        .iceState .connected true,
        .handshakeEnd { initFinished := true, peer := some (), material := some material }]
    ∃ role material, Authenticated events (effects false true events) role material := by
  intro material events
  have sent := (media_authenticated false true events).1 (.send {})
    (({} : RtpPacket).serialize ++ [0x54]) (List.mem_singleton.mpr rfl)
  rcases sent with ⟨_, role, material, _, _, authenticated, _⟩
  exact ⟨role, material, authenticated⟩

end RtpTransport

end Vela
