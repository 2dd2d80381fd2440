import Vela.Foundation.Parts
import Vela.Network.Hops
import Vela.Signaling.SecuredTransport

/-! # A secured link

The transports at both ends of an ICE connection, and between them a path on which
datagrams are lost, delayed, repeated and made up. What one end hands up is what the
other end was given to send, once. -/

namespace Vela

open Foundation

/-- What libsrtp documents of its sessions. -/
structure Crypto.Contract (crypto : Crypto) where
  /-- A session accepts nothing but what its master key protects. -/
  authentic : ∀ {master datagram buffer : Bytes} {session : crypto.Session},
    Crypto.Keyed master .inbound session →
    (crypto.unprotect session datagram).2 = some buffer →
    ∃ sender packet, Crypto.Keyed master .outbound sender ∧
      (crypto.protect sender packet).2 = some datagram
  /-- What it accepts comes out as it was protected. -/
  recovers : ∀ {master packet datagram buffer : Bytes} {sender session : crypto.Session},
    Crypto.Keyed master .outbound sender → (crypto.protect sender packet).2 = some datagram →
    Crypto.Keyed master .inbound session →
    (crypto.unprotect session datagram).2 = some buffer → buffer = packet
  /-- The replay list. -/
  seen : crypto.Session → Bytes → Prop
  remembers : ∀ {session datagram buffer},
    (crypto.unprotect session datagram).2 = some buffer →
      seen (crypto.unprotect session datagram).1 datagram
  keeps : ∀ {session datagram} other, seen session datagram →
    seen (crypto.unprotect session other).1 datagram
  rejects : ∀ {session datagram}, seen session datagram →
    (crypto.unprotect session datagram).2 = none

namespace RtpTransport

variable {crypto : Crypto} {transport : RtpTransport crypto}

/-! ## What a handshake is started with -/

def Event.fingerprint? : Event crypto → Option Bytes
  | .setRemoteFingerprint fingerprint _ => some fingerprint
  | _ => none

theorem lastFingerprint_mem {events : List (Event crypto)} (known : lastFingerprint events ≠ []) :
    lastFingerprint events ∈ events.filterMap Event.fingerprint? := by
  induction events using List.reverseRecOn with
  | nil => exact absurd rfl known
  | append_singleton past event induction =>
      rw [lastFingerprint_snoc] at known ⊢
      rw [List.filterMap_append]
      cases event with
      | setRemoteFingerprint fingerprint sslNew =>
          exact List.mem_append_right _ (by simp [Event.fingerprint?])
      | _ => exact List.mem_append_left _ (induction known)

/-- The role that an end takes. -/
def startRole (asClient : Bool) : DtlsSrtp.Role := if asClient then .client else .server

theorem maybeStart_started {sslNew : Bool} {role : DtlsSrtp.Role} {fingerprint : Bytes}
    (started : .dtlsStart role fingerprint ∈ (transport.maybeStartHandshake sslNew).2) :
    role = startRole transport.asClient ∧ fingerprint = transport.remoteFp ∧ fingerprint ≠ [] := by
  rw [maybeStartHandshake] at started
  split at started
  · cases started
  · split at started
    · cases started
    · split at started
      · cases started
      · rename_i ready
        cases List.mem_singleton.mp started
        rw [Bool.or_eq_true, not_or, List.isEmpty_iff] at ready
        exact ⟨rfl, rfl, ready.2⟩

theorem maybeStart_asClient (transport : RtpTransport crypto) (sslNew : Bool) :
    (transport.maybeStartHandshake sslNew).1.asClient = transport.asClient := by
  rw [maybeStartHandshake]
  split
  · rfl
  · split
    · rfl
    · split <;> rfl

theorem step_asClient (transport : RtpTransport crypto) (event : Event crypto) :
    (transport.step event).1.asClient = transport.asClient := by
  cases event with
  | iceState state sslNew =>
      rw [step, onStateChanged]
      split
      · exact maybeStart_asClient _ sslNew
      · rfl
  | setRemoteFingerprint fingerprint sslNew => exact maybeStart_asClient _ sslNew
  | handshakeEnd handshake => rfl
  | data datagram =>
      simp only [step]
      unfold onData
      repeat' split
      all_goals rfl
  | send packet =>
      simp only [step]
      unfold send
      simp only
      repeat' split
      all_goals rfl

variable {events : List (Event crypto)} {history : List Effect} {dtls : DtlsSrtp crypto}

/-- One step starts a handshake with a fingerprint that was set by then. -/
theorem Reflects.started (reflects : Reflects events history transport dtls)
    {event : Event crypto} {role : DtlsSrtp.Role} {fingerprint : Bytes}
    (started : .dtlsStart role fingerprint ∈ (transport.step event).2) :
    role = startRole transport.asClient ∧
      fingerprint ∈ (events ++ [event]).filterMap Event.fingerprint? := by
  rw [List.filterMap_append]
  cases event with
  | iceState state sslNew =>
      rw [RtpTransport.step, onStateChanged] at started
      split at started
      · rcases maybeStart_started started with ⟨isRole, isLast, known⟩
        rw [isLast] at known ⊢
        simp only [reflects.remoteFp] at known ⊢
        exact ⟨isRole, List.mem_append_left _ (lastFingerprint_mem known)⟩
      · cases started
  | setRemoteFingerprint set sslNew =>
      rcases maybeStart_started started with ⟨isRole, isSet, _⟩
      rw [isSet]
      exact ⟨isRole, List.mem_append_right _ (List.mem_singleton_self set)⟩
  | handshakeEnd handshake => cases started
  | data datagram =>
      rcases reflects.onData_effects started with fed | ⟨_, _, _, delivered⟩
      · cases fed
      · rcases mem_deliver delivered with ⟨_, isPacket, _⟩
        cases isPacket
  | send packet =>
      rcases reflects.send_effects started with ⟨_, refused⟩ | ⟨_, _, _, isSend⟩
      · cases refused
      · cases isSend

theorem started_run (asClient onPacket : Bool) (events : List (Event crypto)) :
    ((securedMachine crypto asClient onPacket).run events).asClient = asClient ∧
      ∀ role fingerprint, .dtlsStart role fingerprint ∈ effects asClient onPacket events →
        role = startRole asClient ∧ fingerprint ∈ events.filterMap Event.fingerprint? := by
  induction events using List.reverseRecOn with
  | nil => exact ⟨rfl, fun _ _ started => nomatch started⟩
  | append_singleton past event induction =>
      rcases induction with ⟨sameRole, earlier⟩
      rcases reflects_run asClient onPacket past with ⟨_, dtls, reflects⟩
      refine ⟨?_, fun role fingerprint started => ?_⟩
      · rw [Machine.run_snoc]
        exact (step_asClient _ event).trans sameRole
      · rw [effects_snoc] at started
        rcases List.mem_append.mp started with before | now
        · rcases earlier role fingerprint before with ⟨isRole, isSet⟩
          rw [List.filterMap_append]
          exact ⟨isRole, List.mem_append_left _ isSet⟩
        · rcases reflects.started now with ⟨isRole, isSet⟩
          rw [sameRole] at isRole
          exact ⟨isRole, isSet⟩

/-! ## What an end sends and hands up -/

def Event.sent : Event crypto → List Effect → List (RtpPacket × Bytes)
  | .send packet, effects => effects.filterMap fun effect =>
      match effect with
      | .natSend datagram => some (packet, datagram)
      | _ => none
  | _, _ => []

def Event.handedUp : Event crypto → List Effect → List (Bytes × RtpPacket)
  | .data datagram, effects => effects.filterMap fun effect =>
      match effect with
      | .onPacket packet => some (datagram, packet)
      | _ => none
  | _, _ => []

/-- The packets that leave an end, each with its datagram. -/
def sentBy (asClient onPacket : Bool) (events : List (Event crypto)) : List (RtpPacket × Bytes) :=
  ((securedMachine crypto asClient onPacket).transcript events).flatMap fun entry =>
    entry.1.sent entry.2

/-- The packets that an end hands up, each with the datagram it came in. -/
def handedUpBy (asClient onPacket : Bool) (events : List (Event crypto)) :
    List (Bytes × RtpPacket) :=
  ((securedMachine crypto asClient onPacket).transcript events).flatMap fun entry =>
    entry.1.handedUp entry.2

theorem handedUpBy_snoc (asClient onPacket : Bool) (events : List (Event crypto))
    (event : Event crypto) :
    handedUpBy asClient onPacket (events ++ [event]) =
      handedUpBy asClient onPacket events ++ event.handedUp
        (((securedMachine crypto asClient onPacket).run events).step event).2 := by
  simp [handedUpBy, Machine.output, securedMachine]

theorem Event.mem_sent {event : Event crypto} {effects : List Effect} {packet : RtpPacket}
    {datagram : Bytes} (member : (packet, datagram) ∈ event.sent effects) :
    event = .send packet ∧ .natSend datagram ∈ effects := by
  cases event with
  | send other =>
      rcases List.mem_filterMap.mp member with ⟨effect, made, same⟩
      cases effect with
      | natSend bytes =>
          cases same
          exact ⟨rfl, made⟩
      | _ => cases same
  | _ => cases member

theorem Event.mem_handedUp {event : Event crypto} {effects : List Effect} {datagram : Bytes}
    {packet : RtpPacket} (member : (datagram, packet) ∈ event.handedUp effects) :
    event = .data datagram ∧ .onPacket packet ∈ effects := by
  cases event with
  | data other =>
      rcases List.mem_filterMap.mp member with ⟨effect, made, same⟩
      cases effect with
      | onPacket received =>
          cases same
          exact ⟨rfl, made⟩
      | _ => cases same
  | _ => cases member

theorem mem_sentBy {asClient onPacket : Bool} {packet : RtpPacket} {datagram : Bytes}
    (member : (packet, datagram) ∈ sentBy asClient onPacket events) :
    ∃ past, past ++ [.send packet] <+: events ∧ .natSend datagram ∈
      (((securedMachine crypto asClient onPacket).run past).step (.send packet)).2 := by
  rcases List.mem_flatMap.mp member with ⟨⟨event, made⟩, entry, isSent⟩
  rcases Event.mem_sent isSent with ⟨isSend, leaves⟩
  rcases Machine.mem_transcript entry with ⟨past, isPrefix, isOutput⟩
  simp only at isSend isOutput isPrefix leaves
  rw [isSend] at isPrefix isOutput
  rw [isOutput] at leaves
  exact ⟨past, isPrefix, leaves⟩

/-! ## The replay list -/

/-- Each datagram that was handed up is on the replay list of the session that is
in use. -/
def Remembered (contract : crypto.Contract) (transport : RtpTransport crypto)
    (handedUp : List (Bytes × RtpPacket)) : Prop :=
  ∀ entry ∈ handedUp, ∃ dtls session, transport.dtls = some dtls ∧ dtls.ready = true ∧
    dtls.srtpIn = some session ∧ contract.seen session entry.1

/-- What a step does to an inbound session that is in use: nothing, or it gives the
session one datagram. -/
def Uses (session session' : crypto.Session) (handedUp : List (Bytes × RtpPacket)) : Prop :=
  session' = session ∧ handedUp = [] ∨
    ∃ datagram, session' = (crypto.unprotect session datagram).1 ∧
      (handedUp = [] ∨ ∃ packet buffer, handedUp = [(datagram, packet)] ∧
        (crypto.unprotect session datagram).2 = some buffer)

theorem maybeStart_of_started (started : transport.handshakeStarted = true) (sslNew : Bool) :
    transport.maybeStartHandshake sslNew = (transport, []) := by
  rw [maybeStartHandshake]
  split
  · rfl
  · rw [started, Bool.or_true, if_pos rfl]

theorem handedUp_deliver (datagram buffer : Bytes) :
    (Event.data datagram : Event crypto).handedUp (deliver buffer) = [] ∨
      ∃ packet, (Event.data datagram : Event crypto).handedUp (deliver buffer) =
        [(datagram, packet)] := by
  rw [deliver]
  split
  · exact Or.inr ⟨_, rfl⟩
  · exact Or.inl rfl

/-- The session of an end that is ready stays in use. -/
theorem Reflects.uses (reflects : Reflects events history transport dtls)
    (ready : dtls.ready = true) {session : crypto.Session} (inUse : dtls.srtpIn = some session)
    (event : Event crypto) :
    ∃ dtls' session', (transport.step event).1.dtls = some dtls' ∧ dtls'.ready = true ∧
      dtls'.srtpIn = some session' ∧
        Uses session session' (event.handedUp (transport.step event).2) := by
  have started : transport.handshakeStarted = true := by
    by_contra notStarted
    rw [(reflects.idle (Bool.eq_false_iff.mpr notStarted)).2] at ready
    cases ready
  have kept : Uses session session [] := Or.inl ⟨rfl, rfl⟩
  cases event with
  | iceState state sslNew =>
      refine ⟨dtls, session, ?_, ready, inUse, kept⟩
      rw [RtpTransport.step, onStateChanged]
      split
      · rw [@maybeStart_of_started _ { transport with iceConnected := true } started]
        exact reflects.hasDtls
      · exact reflects.hasDtls
  | setRemoteFingerprint fingerprint sslNew =>
      refine ⟨dtls, session, ?_, ready, inUse, kept⟩
      rw [RtpTransport.step, RtpTransport.setRemoteFingerprint,
        @maybeStart_of_started _ { transport with remoteFp := fingerprint } started]
      exact reflects.hasDtls
  | handshakeEnd handshake =>
      have ended : dtls.running = false := by
        by_contra running
        rw [reflects.unfinished (Bool.eq_true_of_not_eq_false running)] at ready
        cases ready
      refine ⟨dtls, session, ?_, ready, inUse, kept⟩
      rw [RtpTransport.step, reflects.hasDtls, Option.map_some, DtlsSrtp.run, ended,
        if_neg Bool.false_ne_true]
  | send packet =>
      rcases dtls.protect_frame packet.serialize with ⟨srtpOut, frame⟩
      refine ⟨{ dtls with srtpOut }, session, ?_, ready, inUse, kept⟩
      simp only [RtpTransport.step, RtpTransport.send, reflects.secured, if_true,
        reflects.hasDtls, ready, Bool.not_true, Bool.false_eq_true, if_false, frame]
  | data datagram =>
      have dropped : ∃ dtls' session', transport.dtls = some dtls' ∧ dtls'.ready = true ∧
          dtls'.srtpIn = some session' ∧ Uses session session' [] :=
        ⟨dtls, session, reflects.hasDtls, ready, inUse, kept⟩
      cases datagram with
      | nil => exact dropped
      | cons first rest =>
          simp only [RtpTransport.step, RtpTransport.onData, reflects.secured, if_true,
            reflects.hasDtls]
          split
          · exact ⟨dtls.feedDtls (first :: rest), session, rfl, ready, inUse, kept⟩
          · split
            · split
              · exact dropped
              · have now : dtls.unprotect (first :: rest) =
                    ({ dtls with srtpIn := some (crypto.unprotect session (first :: rest)).1 },
                      (crypto.unprotect session (first :: rest)).2) := by
                  rw [DtlsSrtp.unprotect, inUse]
                rw [now]
                refine ⟨_, _, rfl, ready, rfl, Or.inr ⟨first :: rest, rfl, ?_⟩⟩
                simp only
                split
                · rename_i buffer unprotected
                  rcases handedUp_deliver (first :: rest) buffer with nothing | ⟨packet, one⟩
                  · exact Or.inl nothing
                  · exact Or.inr ⟨packet, buffer, one, unprotected⟩
                · exact Or.inl rfl
            · exact dropped

/-- An end that is not ready hands nothing up. -/
theorem Reflects.handedUp_ready (reflects : Reflects events history transport dtls)
    {event : Event crypto} {entry : Bytes × RtpPacket}
    (member : entry ∈ event.handedUp (transport.step event).2) : dtls.ready = true := by
  rcases Event.mem_handedUp member with ⟨isData, made⟩
  rw [isData] at made
  rcases reflects.onData_effects made with fed | ⟨ready, _⟩
  · cases fed
  · exact ready

theorem Remembered.step {contract : crypto.Contract} {handedUp : List (Bytes × RtpPacket)}
    (reflects : Reflects events history transport dtls)
    (remembered : Remembered contract transport handedUp)
    (once : (handedUp.map Prod.fst).Nodup) (event : Event crypto) :
    Remembered contract (transport.step event).1
        (handedUp ++ event.handedUp (transport.step event).2) ∧
      ((handedUp ++ event.handedUp (transport.step event).2).map Prod.fst).Nodup := by
  cases isReady : dtls.ready with
  | false =>
      have noneNow : event.handedUp (transport.step event).2 = [] := by
        refine List.eq_nil_iff_forall_not_mem.mpr fun entry member => ?_
        rw [reflects.handedUp_ready member] at isReady
        cases isReady
      have noneBefore : handedUp = [] := by
        refine List.eq_nil_iff_forall_not_mem.mpr fun entry member => ?_
        rcases remembered entry member with ⟨same, _, isSame, ready, _⟩
        rw [reflects.hasDtls] at isSame
        cases isSame
        rw [ready] at isReady
        cases isReady
      rw [noneNow, noneBefore]
      exact ⟨fun _ member => absurd member List.not_mem_nil, List.nodup_nil⟩
  | true =>
      rcases reflects.keyed isReady with ⟨_, _, keyed⟩
      rcases keyed.inbound with ⟨session, inUse, _⟩
      rcases reflects.uses isReady inUse event with
        ⟨dtls', session', hasDtls, ready, inUse', uses⟩
      have seenBefore : ∀ entry ∈ handedUp, contract.seen session entry.1 := by
        intro entry member
        rcases remembered entry member with ⟨same, used, isSame, _, isUsed, seen⟩
        rw [reflects.hasDtls] at isSame
        cases isSame
        rw [inUse] at isUsed
        cases isUsed
        exact seen
      have seenAfter : ∀ entry ∈ handedUp, contract.seen session' entry.1 := by
        intro entry member
        rcases uses with ⟨same, _⟩ | ⟨datagram, taken, _⟩
        · rw [same]
          exact seenBefore entry member
        · rw [taken]
          exact contract.keeps datagram (seenBefore entry member)
      rcases uses with ⟨_, nothing⟩ | ⟨datagram, taken, nothing | ⟨packet, buffer, one, came⟩⟩
      · rw [nothing, List.append_nil]
        exact ⟨fun entry member =>
          ⟨dtls', session', hasDtls, ready, inUse', seenAfter entry member⟩,
          once⟩
      · rw [nothing, List.append_nil]
        exact ⟨fun entry member =>
          ⟨dtls', session', hasDtls, ready, inUse', seenAfter entry member⟩,
          once⟩
      · rw [one]
        constructor
        · intro entry member
          refine ⟨dtls', session', hasDtls, ready, inUse', ?_⟩
          rcases List.mem_append.mp member with earlier | now
          · exact seenAfter entry earlier
          · rw [List.mem_singleton.mp now, taken]
            exact contract.remembers came
        · rw [List.map_append]
          refine List.nodup_append'.mpr ⟨once, List.nodup_singleton _, fun again earlier now => ?_⟩
          rcases List.mem_map.mp earlier with ⟨entry, member, isEntry⟩
          have rejected := contract.rejects (seenBefore entry member)
          rw [isEntry, List.mem_singleton.mp now, came] at rejected
          cases rejected

theorem remembered_run (contract : crypto.Contract) (asClient onPacket : Bool)
    (events : List (Event crypto)) :
    Remembered contract ((securedMachine crypto asClient onPacket).run events)
        (handedUpBy asClient onPacket events) ∧
      ((handedUpBy asClient onPacket events).map Prod.fst).Nodup := by
  induction events using List.reverseRecOn with
  | nil => exact ⟨fun _ member => absurd member List.not_mem_nil, List.nodup_nil⟩
  | append_singleton past event induction =>
      rcases reflects_run asClient onPacket past with ⟨_, dtls, reflects⟩
      rw [Machine.run_snoc, handedUpBy_snoc]
      exact Remembered.step reflects induction.1 induction.2 event

end RtpTransport

/-! ## Both ends -/

namespace SecureLink

open RtpTransport (Effect Event)

variable {crypto : Crypto}

/-- What happens at either end, in the order in which it happens. -/
abbrev History (crypto : Crypto) := List (DtlsSrtp.Role × Event crypto)

/-- What happens at one end. -/
def own (role : DtlsSrtp.Role) (history : History crypto) : List (Event crypto) :=
  history.filterMap fun entry => if entry.1 = role then some entry.2 else none

def asClient : DtlsSrtp.Role → Bool
  | .client => true
  | .server => false

def sent (role : DtlsSrtp.Role) (history : History crypto) : List (RtpPacket × Bytes) :=
  RtpTransport.sentBy (asClient role) true (own role history)

def handedUp (role : DtlsSrtp.Role) (history : History crypto) : List (Bytes × RtpPacket) :=
  RtpTransport.handedUpBy (asClient role) true (own role history)

/-- Each end was told the fingerprint of the other over signaling, and a handshake
with the holder of that certificate exports the same material at both ends. -/
structure Trust (identity : DtlsSrtp.Role → crypto.Certificate)
    (material : DtlsSrtp.KeyingMaterial) (history : History crypto) : Prop where
  signaled : ∀ {role fingerprint sslNew},
    (role, .setRemoteFingerprint fingerprint sslNew) ∈ history →
      DtlsSrtp.normalizeFp fingerprint =
        DtlsSrtp.normalizeFp (DtlsSrtp.fingerprintOf crypto (identity role.peer))
  exported : ∀ {role handshake certificate exported},
    (role, .handshakeEnd handshake) ∈ history → handshake.initFinished = true →
      handshake.peer = some certificate →
      DtlsSrtp.normalizeFp (DtlsSrtp.fingerprintOf crypto certificate) =
        DtlsSrtp.normalizeFp (DtlsSrtp.fingerprintOf crypto (identity role.peer)) →
      handshake.material = some exported → exported = material

/-- Datagrams are lost, delayed and repeated on the way, and strangers send some, but
nobody else protects with the key of an end. -/
def NoForgery (material : DtlsSrtp.KeyingMaterial) (history : History crypto) : Prop :=
  ∀ past role datagram, past ++ [(role, .data datagram)] <+: history →
    datagram ∈ (sent role.peer past).map Prod.snd ∨
      ∀ session packet, Crypto.Keyed (DtlsSrtp.outKey role.peer material) .outbound session →
        (crypto.protect session packet).2 ≠ some datagram

variable {identity : DtlsSrtp.Role → crypto.Certificate} {material : DtlsSrtp.KeyingMaterial}
variable {history past : History crypto} {role : DtlsSrtp.Role}

theorem mem_own {event : Event crypto} :
    event ∈ own role history ↔ (role, event) ∈ history := by
  rw [own, List.mem_filterMap]
  constructor
  · rintro ⟨⟨other, same⟩, member, isOwn⟩
    simp only at isOwn
    split at isOwn
    · rename_i isRole
      cases isOwn
      rw [← isRole]
      exact member
    · cases isOwn
  · exact fun member => ⟨(role, event), member, if_pos rfl⟩

/-- The moment of a history at which something happens. -/
theorem moment_of_isPrefix {entry : DtlsSrtp.Role × Event crypto}
    (isPrefix : past ++ [entry] <+: history) :
    ∃ moment, past = history.take moment ∧ history[moment]? = some entry := by
  rcases isPrefix with ⟨rest, whole⟩
  refine ⟨past.length, ?_, ?_⟩
  · rw [← whole, List.append_assoc, List.take_left]
  · rw [← whole, List.append_assoc, List.getElem?_append_right (Nat.le_refl _), Nat.sub_self]
    rfl

theorem own_isPrefix (isPrefix : past <+: history) : own role past <+: own role history :=
  isPrefix.filterMap _

/-- An end knows of no handshake but the one with the other end. -/
theorem Trust.material_eq (trust : Trust identity material history)
    {events : List (Event crypto)} (isOwn : ∀ event ∈ events, (role, event) ∈ history)
    {used : DtlsSrtp.Role} {exported : DtlsSrtp.KeyingMaterial}
    (authenticated : RtpTransport.Authenticated events
      (RtpTransport.effects (asClient role) true events) used exported) :
    used = role ∧ exported = material := by
  rcases authenticated with
    ⟨fingerprint, handshake, certificate, started, _, ended, finished, peer, exports, matching⟩
  rcases (RtpTransport.started_run (asClient role) true events).2 _ _ started with ⟨isRole, told⟩
  rcases List.mem_filterMap.mp told with ⟨event, member, isSet⟩
  cases event with
  | setRemoteFingerprint set sslNew =>
      cases isSet
      refine ⟨?_, trust.exported (isOwn _ ended) finished peer ?_ exports⟩
      · rw [isRole]
        cases role <;> rfl
      · exact matching.trans (trust.signaled (isOwn _ member))
  | _ => cases isSet

theorem owned_of_isPrefix {events : List (Event crypto)} (isPrefix : events <+: own role history) :
    ∀ event ∈ events, (role, event) ∈ history :=
  fun _ member => mem_own.mp (isPrefix.subset member)

/-- What one end hands up, the other end was given to send. -/
theorem handedUp_sent (contract : crypto.Contract) (trust : Trust identity material history)
    (network : NoForgery material history) {datagram : Bytes} {packet : RtpPacket}
    (isPrefix : past ++ [(role, .data datagram)] <+: history)
    (made : .onPacket packet ∈ (((RtpTransport.securedMachine crypto (asClient role) true).run
      (own role past)).step (.data datagram)).2) :
    ∃ original, (original, datagram) ∈ sent role.peer past ∧ original.Hop packet := by
  have pastPrefix : past <+: history := (List.prefix_append _ _).trans isPrefix
  rcases RtpTransport.reflects_run (asClient role) true (own role past) with ⟨_, dtls, reflects⟩
  rcases reflects.onPacket made with
    ⟨_, used, exported, session, buffer, isData, authenticated, keyed, unprotected, parsed⟩
  cases isData
  rcases trust.material_eq (owned_of_isPrefix (own_isPrefix pastPrefix)) authenticated with
    ⟨isRole, isMaterial⟩
  rw [isRole, isMaterial] at keyed
  rcases contract.authentic keyed unprotected with ⟨sender, protectedPacket, outKeyed, protects⟩
  rcases network past role datagram isPrefix with member | forged
  · rcases List.mem_map.mp member with ⟨⟨original, bytes⟩, wasSent, isDatagram⟩
    cases isDatagram
    refine ⟨original, wasSent, ?_⟩
    rcases RtpTransport.mem_sentBy wasSent with ⟨before, beforePrefix, leaves⟩
    rcases RtpTransport.reflects_run (asClient role.peer) true before with ⟨_, peerDtls, peer⟩
    rcases peer.natSend leaves with
      ⟨_, peerRole, peerExported, peerSession, isSend, peerAuthenticated, peerKeyed, peerProtects⟩
    cases isSend
    have earlier : before <+: own role.peer history :=
      ((List.prefix_append _ _).trans beforePrefix).trans (own_isPrefix pastPrefix)
    rcases trust.material_eq (owned_of_isPrefix earlier) peerAuthenticated with
      ⟨isPeer, isSameMaterial⟩
    rw [isPeer, isSameMaterial] at peerKeyed
    rw [RtpPacket.Hop, ← contract.recovers peerKeyed peerProtects keyed unprotected]
    exact parsed
  · exact absurd protects (forged sender protectedPacket outKeyed)

/-- A step of an end is a moment of the whole history. -/
theorem own_moment {events : List (Event crypto)} {event : Event crypto}
    (isPrefix : events ++ [event] <+: own role history) :
    ∃ past, past ++ [(role, event)] <+: history ∧ own role past = events := by
  rcases isPrefix with ⟨later, whole⟩
  rw [List.append_assoc, own] at whole
  rcases List.filterMap_eq_append_iff.mp whole.symm with ⟨before, after, cut, isBefore, isAfter⟩
  rcases List.filterMap_eq_cons_iff.mp isAfter with
    ⟨others, ⟨other, same⟩, future, isCut, notOwn, isOwn, _⟩
  simp only at isOwn
  split at isOwn
  · rename_i isRole
    cases isOwn
    refine ⟨before ++ others, ⟨future, ?_⟩, ?_⟩
    · rw [cut, isCut, ← isRole]
      simp
    · rw [own, List.filterMap_append, isBefore, List.filterMap_eq_nil_iff.mpr notOwn,
        List.append_nil]
  · cases isOwn

theorem mem_handedUp {entry : Bytes × RtpPacket} (member : entry ∈ handedUp role history) :
    ∃ past, past ++ [(role, .data entry.1)] <+: history ∧
      .onPacket entry.2 ∈ (((RtpTransport.securedMachine crypto (asClient role) true).run
        (own role past)).step (.data entry.1)).2 := by
  rcases List.mem_flatMap.mp member with ⟨⟨event, effects⟩, step, isHandedUp⟩
  rcases RtpTransport.Event.mem_handedUp isHandedUp with ⟨isData, made⟩
  rcases Machine.mem_transcript step with ⟨events, isPrefix, isOutput⟩
  simp only at isData isOutput isPrefix made
  rw [isData] at isPrefix isOutput
  rw [isOutput] at made
  rcases own_moment isPrefix with ⟨past, moment, isPast⟩
  rw [← isPast] at made
  exact ⟨past, moment, made⟩

/-- Each datagram that an end hands up a packet of, it hands up once, and by then the
other end was given that packet to send: it is as it was sent, but for what
serialization loses. -/
theorem media_intact (contract : crypto.Contract) (trust : Trust identity material history)
    (network : NoForgery material history) (role : DtlsSrtp.Role) :
    ((handedUp role history).map Prod.fst).Nodup ∧
      ∀ entry ∈ handedUp role history,
        ∃ past, past ++ [(role, .data entry.1)] <+: history ∧
          ∃ original, (original, entry.1) ∈ sent role.peer past ∧ original.Hop entry.2 := by
  refine ⟨(RtpTransport.remembered_run contract (asClient role) true (own role history)).2,
    fun entry member => ?_⟩
  rcases mem_handedUp member with ⟨past, moment, made⟩
  exact ⟨past, moment, handedUp_sent contract trust network moment made⟩

/-! ### A history -/

/-- A library whose sessions hold their key and the datagrams they took, and whose
protection is the key at the end. -/
def markingCrypto : Crypto where
  Certificate := DtlsSrtp.Role
  digest := fun role => some [if role = .client then 0xAB else 0xCD]
  Session := Bytes × List Bytes
  create := fun master _ => some (master, [])
  protect := fun session packet => (session, some (packet ++ session.1))
  unprotect := fun session datagram =>
    if datagram ∈ session.2 then (session, none)
    else if session.1 <:+ datagram then
      ((session.1, datagram :: session.2),
        some (datagram.take (datagram.length - session.1.length)))
    else (session, none)

theorem markingCrypto_key {master : Bytes} {direction : Direction}
    {session : markingCrypto.Session} (keyed : Crypto.Keyed master direction session) :
    session.1 = master := by
  induction keyed with
  | created created =>
      cases created
      rfl
  | afterProtect packet _ induction => exact induction
  | afterUnprotect datagram _ induction =>
      rw [← induction]
      simp only [markingCrypto]
      repeat' split
      all_goals rfl

/-- What it takes out of a datagram. -/
theorem markingCrypto_unprotect {session : markingCrypto.Session} {datagram buffer : Bytes}
    (came : (markingCrypto.unprotect session datagram).2 = some buffer) :
    datagram = buffer ++ session.1 ∧ datagram ∉ session.2 ∧
      (markingCrypto.unprotect session datagram).1 = (session.1, datagram :: session.2) := by
  simp only [markingCrypto] at came ⊢
  split at came
  · cases came
  · rename_i fresh
    split at came
    · rename_i marked
      rcases marked with ⟨front, rfl⟩
      rw [if_neg fresh, if_pos (List.suffix_append _ _)]
      rw [List.length_append, Nat.add_sub_cancel, List.take_left' rfl] at came
      cases came
      exact ⟨rfl, fresh, rfl⟩
    · cases came

def markingContract : markingCrypto.Contract where
  authentic := by
    intro master datagram buffer session keyed came
    refine ⟨(master, []), buffer, .created rfl, ?_⟩
    rw [(markingCrypto_unprotect came).1, markingCrypto_key keyed]
    rfl
  recovers := by
    intro master packet datagram buffer sender session senderKeyed protects keyed came
    have marked := (markingCrypto_unprotect came).1
    rw [markingCrypto_key keyed] at marked
    have isDatagram : packet ++ sender.1 = datagram := Option.some.inj protects
    rw [markingCrypto_key senderKeyed, marked] at isDatagram
    exact (List.append_cancel_right isDatagram).symm
  seen := fun session datagram => datagram ∈ session.2
  remembers := by
    intro session datagram buffer came
    rw [(markingCrypto_unprotect came).2.2]
    exact List.mem_cons_self
  keeps := by
    intro session datagram other seen
    simp only [markingCrypto]
    repeat' split
    · exact seen
    · exact List.mem_cons_of_mem _ seen
    · exact seen
  rejects := by
    intro session datagram seen
    simp only [markingCrypto]
    rw [if_pos seen]

def sessionKeys : DtlsSrtp.KeyingMaterial := ⟨List.replicate 60 7, rfl⟩

def onePacket : RtpPacket := { sequenceNumber := 9, payload := [0x11, 0x22] }

def oneDatagram : Bytes := onePacket.serialize ++ DtlsSrtp.outKey .client sessionKeys

/-- One packet, that arrives twice, with a datagram of a stranger in between. -/
def oneTransfer : History markingCrypto :=
  [(.client, .setRemoteFingerprint (DtlsSrtp.fingerprintOf markingCrypto .server) true),
    (.client, .iceState .connected true),
    (.server, .iceState .completed true),
    (.server, .setRemoteFingerprint (DtlsSrtp.fingerprintOf markingCrypto .client) true),
    (.client, .handshakeEnd
      { initFinished := true, peer := some .server, material := some sessionKeys }),
    (.server, .handshakeEnd
      { initFinished := true, peer := some .client, material := some sessionKeys }),
    (.client, .send onePacket),
    (.server, .data oneDatagram),
    (.server, .data onePacket.serialize),
    (.server, .data oneDatagram)]

theorem oneTransfer_trust : Trust id sessionKeys oneTransfer where
  signaled := by
    intro role fingerprint sslNew member
    simp only [oneTransfer, List.mem_cons, Prod.mk.injEq, reduceCtorEq, and_false, false_or,
      List.not_mem_nil, or_false, Event.setRemoteFingerprint.injEq] at member
    rcases member with ⟨rfl, rfl, _⟩ | ⟨rfl, rfl, _⟩ <;> rfl
  exported := by
    intro role handshake certificate exported member _ _ _ isExported
    simp only [oneTransfer, List.mem_cons, Prod.mk.injEq, reduceCtorEq, and_false, false_or,
      List.not_mem_nil, or_false, Event.handshakeEnd.injEq] at member
    rcases member with ⟨_, rfl⟩ | ⟨_, rfl⟩ <;> exact (Option.some.inj isExported).symm

theorem oneTransfer_arrives : handedUp .server oneTransfer = [(oneDatagram, onePacket)] := by
  decide +kernel

/-- The stranger's datagram has no key at its end. -/
theorem oneTransfer_network : NoForgery sessionKeys oneTransfer := by
  intro past role datagram isPrefix
  rcases moment_of_isPrefix isPrefix with ⟨moment, isPast, isEntry⟩
  have short : moment < 10 := (List.getElem?_eq_some_iff.mp isEntry).1
  rw [isPast]
  have delivered : oneDatagram ∈ (sent .client (oneTransfer.take 7)).map Prod.snd := by
    decide +kernel
  have stillDelivered : oneDatagram ∈ (sent .client (oneTransfer.take 9)).map Prod.snd := by
    decide +kernel
  have unmarked : ¬DtlsSrtp.outKey .client sessionKeys <:+ onePacket.serialize := by decide +kernel
  match moment with
  | 0 | 1 | 2 | 3 | 4 | 5 | 6 => cases isEntry
  | 7 =>
      cases isEntry
      exact Or.inl delivered
  | 8 =>
      cases isEntry
      refine Or.inr fun session packet keyed protects => unmarked ⟨packet, ?_⟩
      have marked : packet ++ session.1 = onePacket.serialize := Option.some.inj protects
      rwa [markingCrypto_key keyed] at marked
  | 9 =>
      cases isEntry
      exact Or.inl stillDelivered
  | later + 10 => exact absurd short (Nat.not_lt.mpr (Nat.le_add_left 10 later))

theorem media_intact_one_transfer :
    ((handedUp .server oneTransfer).map Prod.fst).Nodup ∧
      ∃ past, past ++ [(.server, .data oneDatagram)] <+: oneTransfer ∧
        ∃ original, (original, oneDatagram) ∈ sent .client past ∧ original.Hop onePacket := by
  rcases media_intact markingContract oneTransfer_trust oneTransfer_network .server with
    ⟨once, origin⟩
  refine ⟨once, origin (oneDatagram, onePacket) ?_⟩
  rw [oneTransfer_arrives]
  exact List.mem_singleton_self _

end SecureLink

end Vela
