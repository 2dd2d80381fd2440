import Vela.Common.Types
import Vela.Foundation.Substring

/-! # DTLS-SRTP

The security layer of one transport: a handshake whose peer is accepted by the
fingerprint learned from signaling, and the two SRTP sessions keyed from it.
OpenSSL and libsrtp are a parameter. -/

namespace Vela

open Foundation

inductive Direction where
  | inbound
  | outbound
  deriving DecidableEq, Repr

/-- What is used of OpenSSL's certificates and of libsrtp's sessions. -/
structure Crypto where
  Certificate : Type
  digest : Certificate → Option Bytes
  Session : Type
  create : Bytes → Direction → Option Session
  protect : Session → Bytes → Session × Option Bytes
  unprotect : Session → Bytes → Session × Option Bytes

namespace Crypto

variable {crypto : Crypto}

/-- The sessions created with one master key, in any state of use. -/
inductive Keyed (master : Bytes) (direction : Direction) : crypto.Session → Prop where
  | created {session : crypto.Session} :
      crypto.create master direction = some session → Keyed master direction session
  | afterProtect {session : crypto.Session} (packet : Bytes) :
      Keyed master direction session → Keyed master direction (crypto.protect session packet).1
  | afterUnprotect {session : crypto.Session} (packet : Bytes) :
      Keyed master direction session → Keyed master direction (crypto.unprotect session packet).1

end Crypto

namespace DtlsSrtp

inductive Role where
  | client
  | server
  deriving DecidableEq, Repr

/-! ## Fingerprints -/

def hexDigit (nibble : Byte) : Byte :=
  if nibble < 10 then nibble + 0x30 else nibble - 10 + 0x41

def hexByte (byte : Byte) : Bytes := [hexDigit (byte >>> 4), hexDigit (byte &&& 0x0F)]

/-- The text "sha-256 " and the digest in upper-case hexadecimal, octets
separated by colons; empty when there is no digest. -/
def fingerprintOf (crypto : Crypto) (certificate : crypto.Certificate) : Bytes :=
  match crypto.digest certificate with
  | none => []
  | some digest =>
      [0x73, 0x68, 0x61, 0x2D, 0x32, 0x35, 0x36, 0x20] ++
        (List.intersperse [0x3A] (digest.map hexByte)).flatten

def isspace (char : Byte) : Bool := char == 0x20 || decide (0x09 ≤ char ∧ char ≤ 0x0D)

def toupper (char : Byte) : Byte :=
  if 0x61 ≤ char ∧ char ≤ 0x7A then char - 0x20 else char

/-- Trims white space at both ends and upper-cases. -/
def normalizeFp (fingerprint : Bytes) : Bytes :=
  let fingerprint := fingerprint.dropWhile isspace
  let fingerprint := (fingerprint.reverse.dropWhile isspace).reverse
  fingerprint.map toupper

/-- The text that stands between an ICE description and a fingerprint: a line break
and "#fp ". -/
def fpMarker : Bytes := [0x0A, 0x23, 0x66, 0x70, 0x20]

def packDescription (ice fingerprint : Bytes) : Bytes := ice ++ fpMarker ++ fingerprint

/-- The ICE description and the fingerprint, which is empty when there is none. -/
def unpackDescription (payload : Bytes) : Bytes × Bytes :=
  match Substring.find fpMarker payload with
  | none => (payload, [])
  | some pos => (payload.take pos, payload.drop (pos + 5))

/-! ## Keying -/

def kKeyLen : Nat := 16

def kSaltLen : Nat := 14

def kMasterLen : Nat := kKeyLen + kSaltLen

/-- What the handshake exports. -/
structure KeyingMaterial where
  bytes : Bytes
  length_eq : bytes.length = 2 * kMasterLen

/-- The layout is client key, server key, client salt, server salt. -/
def KeyingMaterial.master (material : KeyingMaterial) : Role → Bytes
  | .client =>
      material.bytes.take kKeyLen ++ (material.bytes.drop (2 * kKeyLen)).take kSaltLen
  | .server =>
      (material.bytes.drop kKeyLen).take kKeyLen ++
        (material.bytes.drop (2 * kKeyLen + kSaltLen)).take kSaltLen

def Role.peer : Role → Role
  | .client => .server
  | .server => .client

def outKey (role : Role) (material : KeyingMaterial) : Bytes := material.master role

def inKey (role : Role) (material : KeyingMaterial) : Bytes := material.master role.peer

/-- How the handshake thread leaves its loop, with what OpenSSL then reports. -/
structure HandshakeEnd (crypto : Crypto) where
  initFinished : Bool
  peer : Option crypto.Certificate
  material : Option KeyingMaterial

end DtlsSrtp

structure DtlsSrtp (crypto : Crypto) where
  role : DtlsSrtp.Role := .client
  remoteFp : Bytes := []
  ssl : Bool := false
  running : Bool := false
  srtpOut : Option crypto.Session := none
  srtpIn : Option crypto.Session := none
  inQ : List Bytes := []
  ready : Bool := false

namespace DtlsSrtp

variable {crypto : Crypto}

/-- `sslNew` says whether the SSL object could be allocated. -/
def start (dtls : DtlsSrtp crypto) (role : Role) (remoteFingerprint : Bytes) (sslNew : Bool) :
    DtlsSrtp crypto × Status :=
  if dtls.ssl then (dtls, .error .alreadyRunning)
  else
    let dtls := { dtls with role, remoteFp := remoteFingerprint }
    if sslNew then ({ dtls with ssl := true, running := true }, .ok ())
    else (dtls, .error .internal)

def feedDtls (dtls : DtlsSrtp crypto) (record : Bytes) : DtlsSrtp crypto :=
  { dtls with inQ := dtls.inQ ++ [record] }

def verifyPeerFingerprint (dtls : DtlsSrtp crypto) (peer : Option crypto.Certificate) : Bool :=
  match peer with
  | none => false
  | some certificate =>
      if dtls.remoteFp = [] then false
      else normalizeFp (fingerprintOf crypto certificate) == normalizeFp dtls.remoteFp

def deriveSrtpKeys (dtls : DtlsSrtp crypto) (material : Option KeyingMaterial) :
    DtlsSrtp crypto × Bool :=
  match material with
  | none => (dtls, false)
  | some material =>
      match crypto.create (outKey dtls.role material) .outbound with
      | none => (dtls, false)
      | some outSession =>
          let dtls := { dtls with srtpOut := some outSession }
          match crypto.create (inKey dtls.role material) .inbound with
          | none => (dtls, false)
          | some inSession => ({ dtls with srtpIn := some inSession }, true)

/-- The end of the handshake thread: keys and readiness only for a peer whose
fingerprint matches. -/
def run (dtls : DtlsSrtp crypto) (handshake : HandshakeEnd crypto) : DtlsSrtp crypto :=
  if dtls.running then
    let dtls := { dtls with running := false }
    if handshake.initFinished && dtls.verifyPeerFingerprint handshake.peer then
      let (dtls, derived) := dtls.deriveSrtpKeys handshake.material
      if derived then { dtls with ready := true } else dtls
    else dtls
  else dtls

def protect (dtls : DtlsSrtp crypto) (packet : Bytes) : DtlsSrtp crypto × Option Bytes :=
  match dtls.srtpOut with
  | none => (dtls, none)
  | some session =>
      let (session, result) := crypto.protect session packet
      ({ dtls with srtpOut := some session }, result)

def unprotect (dtls : DtlsSrtp crypto) (packet : Bytes) : DtlsSrtp crypto × Option Bytes :=
  match dtls.srtpIn with
  | none => (dtls, none)
  | some session =>
      let (session, result) := crypto.unprotect session packet
      ({ dtls with srtpIn := some session }, result)

/-! ## What the operations keep -/

theorem ready_start (dtls : DtlsSrtp crypto) (role : Role) (remoteFingerprint : Bytes)
    (sslNew : Bool) : (dtls.start role remoteFingerprint sslNew).1.ready = dtls.ready := by
  simp only [start]
  split
  · rfl
  · split <;> rfl

/-- A handshake thread that was not running before runs with what it was started
with. -/
theorem running_start {dtls : DtlsSrtp crypto} {role : Role} {remoteFingerprint : Bytes}
    {sslNew : Bool} (idle : dtls.running = false)
    (running : (dtls.start role remoteFingerprint sslNew).1.running = true) :
    (dtls.start role remoteFingerprint sslNew).1.role = role ∧
      (dtls.start role remoteFingerprint sslNew).1.remoteFp = remoteFingerprint := by
  simp only [start] at running ⊢
  split at running
  · rw [idle] at running
    cases running
  · rename_i absent
    rw [if_neg absent]
    split <;> exact ⟨rfl, rfl⟩

/-- A peer that passed is one whose fingerprint is, normalized, the expected one. -/
theorem verified_peer {dtls : DtlsSrtp crypto} {peer : Option crypto.Certificate}
    (verified : dtls.verifyPeerFingerprint peer = true) :
    dtls.remoteFp ≠ [] ∧ ∃ certificate, peer = some certificate ∧
      normalizeFp (fingerprintOf crypto certificate) = normalizeFp dtls.remoteFp := by
  cases peer with
  | none => cases verified
  | some certificate =>
      simp only [verifyPeerFingerprint] at verified
      split at verified
      · cases verified
      · rename_i nonempty
        exact ⟨nonempty, certificate, rfl, beq_iff_eq.mp verified⟩

/-- The two sessions are keyed from one handshake of this role. -/
structure KeyedBy (dtls : DtlsSrtp crypto) (material : KeyingMaterial) : Prop where
  outbound : ∃ session, dtls.srtpOut = some session ∧
    Crypto.Keyed (outKey dtls.role material) .outbound session
  inbound : ∃ session, dtls.srtpIn = some session ∧
    Crypto.Keyed (inKey dtls.role material) .inbound session

theorem derived_keys {dtls keyed : DtlsSrtp crypto} {material : Option KeyingMaterial}
    (derived : dtls.deriveSrtpKeys material = (keyed, true)) :
    ∃ exported, material = some exported ∧ keyed.KeyedBy exported := by
  cases material with
  | none =>
      rw [deriveSrtpKeys] at derived
      cases derived
  | some exported =>
      simp only [deriveSrtpKeys] at derived
      cases outEq : crypto.create (outKey dtls.role exported) .outbound with
      | none =>
          rw [outEq] at derived
          cases derived
      | some outSession =>
          rw [outEq] at derived
          simp only at derived
          cases inEq : crypto.create (inKey dtls.role exported) .inbound with
          | none =>
              rw [inEq] at derived
              cases derived
          | some inSession =>
              rw [inEq] at derived
              cases derived
              exact ⟨exported, rfl, ⟨outSession, rfl, .created outEq⟩,
                ⟨inSession, rfl, .created inEq⟩⟩

/-- Deriving keys touches the two sessions only. -/
theorem deriveSrtpKeys_frame (dtls : DtlsSrtp crypto) (material : Option KeyingMaterial) :
    (dtls.deriveSrtpKeys material).1.role = dtls.role ∧
      (dtls.deriveSrtpKeys material).1.remoteFp = dtls.remoteFp ∧
      (dtls.deriveSrtpKeys material).1.ssl = dtls.ssl ∧
      (dtls.deriveSrtpKeys material).1.running = dtls.running ∧
      (dtls.deriveSrtpKeys material).1.ready = dtls.ready := by
  unfold deriveSrtpKeys
  split
  · simp
  · split
    · simp
    · simp only
      split <;> simp

/-- The end of the handshake thread leaves role and expectation alone. -/
theorem run_frame (dtls : DtlsSrtp crypto) (handshake : HandshakeEnd crypto) :
    (dtls.run handshake).role = dtls.role ∧ (dtls.run handshake).remoteFp = dtls.remoteFp ∧
      (dtls.run handshake).running = false := by
  rcases { dtls with running := false }.deriveSrtpKeys_frame handshake.material with
    ⟨role, remoteFp, _, running, _⟩
  unfold run
  split
  · simp only
    split
    · split
      · exact ⟨role, remoteFp, running⟩
      · exact ⟨role, remoteFp, running⟩
    · exact ⟨rfl, rfl, rfl⟩
  · rename_i idle
    exact ⟨rfl, rfl, Bool.eq_false_iff.mpr idle⟩

/-- Readiness comes from a completed handshake with the expected peer, and then
both sessions are keyed. -/
theorem ready_run {dtls : DtlsSrtp crypto} {handshake : HandshakeEnd crypto}
    (running : dtls.running = true) (notReady : dtls.ready = false)
    (ready : (dtls.run handshake).ready = true) :
    handshake.initFinished = true ∧ dtls.verifyPeerFingerprint handshake.peer = true ∧
      ∃ material, handshake.material = some material ∧ (dtls.run handshake).KeyedBy material := by
  simp only [run, running, if_true] at ready ⊢
  split at ready
  · rename_i accepted
    rcases Bool.and_eq_true_iff.mp accepted with ⟨finished, verified⟩
    rw [if_pos accepted]
    cases outcome : { dtls with running := false }.deriveSrtpKeys handshake.material with
    | mk keyed derived =>
        cases derived with
        | true =>
            rcases derived_keys outcome with ⟨material, exported, isKeyed⟩
            exact ⟨finished, verified, material, exported, ⟨isKeyed.outbound, isKeyed.inbound⟩⟩
        | false =>
            have unkeyed := ({ dtls with running := false }.deriveSrtpKeys_frame
              handshake.material).2.2.2.2
            rw [outcome] at ready unkeyed
            rw [if_neg Bool.false_ne_true, unkeyed, notReady] at ready
            cases ready
  · rw [notReady] at ready
    cases ready

/-- The media calls touch their own session only. -/
theorem protect_frame (dtls : DtlsSrtp crypto) (packet : Bytes) :
    ∃ srtpOut, (dtls.protect packet).1 = { dtls with srtpOut } := by
  rw [DtlsSrtp.protect]
  split
  · exact ⟨dtls.srtpOut, rfl⟩
  · exact ⟨_, rfl⟩

theorem unprotect_frame (dtls : DtlsSrtp crypto) (packet : Bytes) :
    ∃ srtpIn, (dtls.unprotect packet).1 = { dtls with srtpIn } := by
  rw [DtlsSrtp.unprotect]
  split
  · exact ⟨dtls.srtpIn, rfl⟩
  · exact ⟨_, rfl⟩

theorem KeyedBy.protect {dtls : DtlsSrtp crypto} {material : KeyingMaterial}
    (keyed : dtls.KeyedBy material) (packet : Bytes) :
    (dtls.protect packet).1.KeyedBy material := by
  rcases keyed with ⟨⟨outSession, outEq, outKeyed⟩, inbound⟩
  rw [DtlsSrtp.protect, outEq]
  exact ⟨⟨_, rfl, .afterProtect packet outKeyed⟩, inbound⟩

theorem KeyedBy.unprotect {dtls : DtlsSrtp crypto} {material : KeyingMaterial}
    (keyed : dtls.KeyedBy material) (packet : Bytes) :
    (dtls.unprotect packet).1.KeyedBy material := by
  rcases keyed with ⟨outbound, ⟨inSession, inEq, inKeyed⟩⟩
  rw [DtlsSrtp.unprotect, inEq]
  exact ⟨outbound, ⟨_, rfl, .afterUnprotect packet inKeyed⟩⟩

end DtlsSrtp

end Vela
