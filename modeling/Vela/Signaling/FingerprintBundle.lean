import Vela.Signaling.SecuredTransport

/-! # Descriptions with a fingerprint

An ICE description travels in one payload with the fingerprint of its sender. -/

namespace Vela

open Foundation

namespace DtlsSrtp

theorem fpMarker_borderless : Substring.Borderless fpMarker :=
  Substring.borderless_cons (by decide)

theorem unpack_packDescription {ice : Bytes} (unmarked : ¬fpMarker <:+: ice)
    (fingerprint : Bytes) :
    unpackDescription (packDescription ice fingerprint) = (ice, fingerprint) := by
  have found := fpMarker_borderless.find_append unmarked fingerprint
  rw [packDescription, List.append_assoc, unpackDescription, found]
  simp [fpMarker]

theorem pack_unpackDescription {payload : Bytes} (marked : fpMarker <:+: payload) :
    packDescription (unpackDescription payload).1 (unpackDescription payload).2 = payload := by
  cases found : Substring.find fpMarker payload with
  | none => exact absurd marked (Substring.find_eq_none_iff.mp found)
  | some pos =>
      rw [unpackDescription, found, packDescription, List.append_assoc]
      exact Substring.find_occurs found

theorem unpackDescription_unmarked {payload : Bytes} (unmarked : ¬fpMarker <:+: payload) :
    unpackDescription payload = (payload, []) := by
  rw [unpackDescription, Substring.find_eq_none_iff.mpr unmarked]

end DtlsSrtp

namespace RtpTransport

variable {crypto : Crypto} {transport : RtpTransport crypto} {sslNew : Bool}

/-! ## No handshake without a fingerprint -/

/-- A transport at any point of its life. -/
def resumed (transport : RtpTransport crypto) :
    Machine (RtpTransport crypto) (Event crypto) (List Effect) where
  initial := transport
  step := step

/-- The event does not make a fingerprint known. -/
def Event.Fingerprintless : Event crypto → Prop
  | .setRemoteFingerprint fingerprint _ => fingerprint = []
  | _ => True

theorem maybeStartHandshake_unknown (unknown : transport.remoteFp = []) :
    transport.maybeStartHandshake sslNew = (transport, []) := by
  rw [maybeStartHandshake]
  split
  · rfl
  · simp [unknown]

/-- What a call leaves and makes: the fingerprint is as before, and no handshake starts. -/
structure Idle (transport : RtpTransport crypto) (after : RtpTransport crypto × List Effect) :
    Prop where
  sameFp : after.1.remoteFp = transport.remoteFp
  silent : ∀ effect ∈ after.2, effect.isStart = false

theorem idle_nothing (transport : RtpTransport crypto) : Idle transport (transport, []) :=
  ⟨rfl, by simp⟩

theorem not_start_deliver (buffer : Bytes) : ∀ effect ∈ deliver buffer, effect.isStart = false := by
  intro effect made
  rcases mem_deliver made with ⟨packet, rfl, _⟩
  rfl

theorem idle_onData (transport : RtpTransport crypto) (data : Bytes) :
    Idle transport (transport.onData data) := by
  unfold onData
  split
  · exact idle_nothing transport
  · split
    · split
      · split
        · exact ⟨rfl, by simp [Effect.isStart]⟩
        · exact idle_nothing transport
      · split
        · split
          · exact idle_nothing transport
          · split
            · exact idle_nothing transport
            · refine ⟨rfl, ?_⟩
              simp only
              split
              · exact not_start_deliver _
              · simp
        · exact idle_nothing transport
    · split
      · exact ⟨rfl, not_start_deliver _⟩
      · exact idle_nothing transport

theorem idle_send (transport : RtpTransport crypto) (packet : RtpPacket) :
    Idle transport (transport.send packet) := by
  simp only [send]
  split
  · split
    · exact ⟨rfl, by simp [Effect.isStart]⟩
    · split
      · exact ⟨rfl, by simp [Effect.isStart]⟩
      · refine ⟨rfl, ?_⟩
        simp only
        split <;> simp [Effect.isStart]
  · exact ⟨rfl, by simp [Effect.isStart]⟩

/-- Without a known fingerprint an event starts no handshake. -/
theorem step_unknown {event : Event crypto} (unknown : transport.remoteFp = [])
    (fingerprintless : event.Fingerprintless) :
    (transport.step event).1.remoteFp = [] ∧
      ∀ effect ∈ (transport.step event).2, effect.isStart = false := by
  cases event with
  | iceState state sslNew =>
      rw [step, onStateChanged]
      split
      · have idle : { transport with iceConnected := true }.maybeStartHandshake sslNew =
            ({ transport with iceConnected := true }, []) :=
          maybeStartHandshake_unknown unknown
        rw [idle]
        exact ⟨unknown, by simp⟩
      · exact ⟨unknown, by simp⟩
  | setRemoteFingerprint fingerprint sslNew =>
      have empty : fingerprint = [] := fingerprintless
      have idle : { transport with remoteFp := fingerprint }.maybeStartHandshake sslNew =
          ({ transport with remoteFp := fingerprint }, []) :=
        maybeStartHandshake_unknown empty
      rw [step, setRemoteFingerprint, idle]
      exact ⟨empty, by simp⟩
  | data datagram =>
      have idle := idle_onData transport datagram
      exact ⟨idle.sameFp.trans unknown, idle.silent⟩
  | handshakeEnd handshake => exact ⟨unknown, by simp [step]⟩
  | send packet =>
      have idle := idle_send transport packet
      exact ⟨idle.sameFp.trans unknown, idle.silent⟩

theorem outputs_unknown {events : List (Event crypto)} (unknown : transport.remoteFp = [])
    (fingerprintless : ∀ event ∈ events, event.Fingerprintless) :
    ((resumed transport).run events).remoteFp = [] ∧
      ∀ effects ∈ (resumed transport).outputs events, ∀ effect ∈ effects,
        effect.isStart = false := by
  induction events using List.reverseRecOn with
  | nil => exact ⟨unknown, by simp⟩
  | append_singleton past event induction =>
      have earlier := induction fun other member =>
        fingerprintless other (List.mem_append_left _ member)
      have here := step_unknown earlier.1 (fingerprintless event (by simp))
      rw [Machine.run_snoc, Machine.outputs_snoc]
      refine ⟨here.1, ?_⟩
      intro effects member
      rcases List.mem_append.mp member with before | last
      · exact earlier.2 effects before
      · rw [List.mem_singleton.mp last]
        exact here.2

/-- Whatever was set before, after the empty fingerprint no handshake starts. -/
theorem outputs_cleared (transport : RtpTransport crypto) (sslNew : Bool)
    {later : List (Event crypto)} (fingerprintless : ∀ event ∈ later, event.Fingerprintless) :
    ∀ effects ∈ (transport.setRemoteFingerprint [] sslNew).2 ::
        (transport.setRemoteFingerprint [] sslNew).1.resumed.outputs later,
      ∀ effect ∈ effects, effect.isStart = false := by
  have idle : transport.setRemoteFingerprint [] sslNew = ({ transport with remoteFp := [] }, []) :=
    maybeStartHandshake_unknown rfl
  have unknown : ({ transport with remoteFp := [] } : RtpTransport crypto).remoteFp = [] := rfl
  rw [idle]
  intro effects member
  rcases List.mem_cons.mp member with now | afterwards
  · rw [now]
    simp
  · exact (outputs_unknown unknown fingerprintless).2 effects afterwards

end RtpTransport

namespace DtlsSrtp

/-- Bundling loses nothing, and a payload that bundles no fingerprint lets no
handshake start until a fingerprint comes from elsewhere. -/
theorem bundle_exact :
    (∀ ice fingerprint, ¬fpMarker <:+: ice →
      unpackDescription (packDescription ice fingerprint) = (ice, fingerprint)) ∧
    (∀ payload, fpMarker <:+: payload →
      packDescription (unpackDescription payload).1 (unpackDescription payload).2 = payload) ∧
    ∀ payload, ¬fpMarker <:+: payload →
      unpackDescription payload = (payload, []) ∧
      ∀ (crypto : Crypto) (transport : RtpTransport crypto) (sslNew : Bool)
        (later : List (RtpTransport.Event crypto)), (∀ event ∈ later, event.Fingerprintless) →
          let given := transport.setRemoteFingerprint (unpackDescription payload).2 sslNew
          ∀ effects ∈ given.2 :: given.1.resumed.outputs later,
            ∀ effect ∈ effects, effect.isStart = false := by
  refine ⟨fun ice fingerprint unmarked => unpack_packDescription unmarked fingerprint,
    fun payload marked => pack_unpackDescription marked, ?_⟩
  intro payload unmarked
  have unpacked := unpackDescription_unmarked unmarked
  refine ⟨unpacked, ?_⟩
  intro crypto transport sslNew later fingerprintless
  rw [unpacked]
  exact transport.outputs_cleared sslNew fingerprintless

/-- The description ends like the marker begins. -/
theorem bundle_exact_partial_marker :
    unpackDescription (packDescription [0x61, 0x0A, 0x23, 0x66, 0x70] [0x41]) =
      ([0x61, 0x0A, 0x23, 0x66, 0x70], [0x41]) :=
  bundle_exact.1 _ _ (by decide)

end DtlsSrtp

end Vela
