import Vela.Foundation.Machine
import Vela.Network.RtpPacket
import Vela.Signaling.DtlsSrtp

/-! # The RTP transport

The bridge between the ICE channel and RTP packets, with the optional security
layer. Events are the calls into it: those of the application, those of the ICE
agent and the end of the handshake thread. -/

namespace Vela

open Foundation

inductive IceState where
  | disconnected
  | gathering
  | connecting
  | connected
  | completed
  | failed
  deriving DecidableEq, Repr

structure RtpTransport (crypto : Crypto) where
  onPacket : Bool := false
  dtls : Option (DtlsSrtp crypto) := none
  secured : Bool := false
  asClient : Bool := true
  remoteFp : Bytes := []
  iceConnected : Bool := false
  handshakeStarted : Bool := false

namespace RtpTransport

/-- What the transport does to its surroundings. -/
inductive Effect where
  | dtlsStart (role : DtlsSrtp.Role) (remoteFingerprint : Bytes)
  | feedDtls (record : Bytes)
  | natSend (datagram : Bytes)
  | onPacket (packet : RtpPacket)
  | refused (error : Error)
  deriving DecidableEq

variable {crypto : Crypto}

def init (transport : RtpTransport crypto) (onPacket : Bool) : RtpTransport crypto :=
  { transport with onPacket }

def enableSecurity (transport : RtpTransport crypto) (asClient : Bool) : RtpTransport crypto :=
  { transport with secured := true, asClient, dtls := some {} }

def secureReady (transport : RtpTransport crypto) : Bool :=
  match transport.dtls with
  | some dtls => dtls.ready
  | none => false

def maybeStartHandshake (transport : RtpTransport crypto) (sslNew : Bool) :
    RtpTransport crypto × List Effect :=
  match transport.dtls with
  | none => (transport, [])
  | some dtls =>
      if !transport.secured || transport.handshakeStarted then (transport, [])
      else if !transport.iceConnected || transport.remoteFp.isEmpty then (transport, [])
      else
        let role := if transport.asClient then DtlsSrtp.Role.client else .server
        ({ transport with
            handshakeStarted := true
            dtls := some (dtls.start role transport.remoteFp sslNew).1 },
          [.dtlsStart role transport.remoteFp])

def onStateChanged (transport : RtpTransport crypto) (state : IceState) (sslNew : Bool) :
    RtpTransport crypto × List Effect :=
  if state = .connected ∨ state = .completed then
    maybeStartHandshake { transport with iceConnected := true } sslNew
  else (transport, [])

def setRemoteFingerprint (transport : RtpTransport crypto) (fingerprint : Bytes)
    (sslNew : Bool) : RtpTransport crypto × List Effect :=
  maybeStartHandshake { transport with remoteFp := fingerprint } sslNew

/-- The packet of a buffer goes to the callback, a malformed one is dropped. -/
def deliver (buffer : Bytes) : List Effect :=
  match RtpPacket.parse buffer with
  | .ok packet => [.onPacket packet]
  | .error _ => []

def onData (transport : RtpTransport crypto) (data : Bytes) :
    RtpTransport crypto × List Effect :=
  match data with
  | [] => (transport, [])
  | first :: _ =>
      if transport.secured then
        if 20 ≤ first ∧ first ≤ 63 then
          match transport.dtls with
          | some dtls =>
              ({ transport with dtls := some (dtls.feedDtls data) }, [.feedDtls data])
          | none => (transport, [])
        else if 128 ≤ first ∧ first ≤ 191 then
          match transport.dtls with
          | none => (transport, [])
          | some dtls =>
              if !dtls.ready || !transport.onPacket then (transport, [])
              else
                let (dtls, result) := dtls.unprotect data
                ({ transport with dtls := some dtls },
                  match result with
                  | some buffer => deliver buffer
                  | none => [])
        else (transport, [])
      else if transport.onPacket then (transport, deliver data)
      else (transport, [])

def send (transport : RtpTransport crypto) (packet : RtpPacket) :
    RtpTransport crypto × List Effect :=
  let bytes := packet.serialize
  if transport.secured then
    match transport.dtls with
    | none => (transport, [.refused .notInitialized])
    | some dtls =>
        if !dtls.ready then (transport, [.refused .notInitialized])
        else
          let (dtls, result) := dtls.protect bytes
          ({ transport with dtls := some dtls },
            match result with
            | some srtp => [.natSend srtp]
            | none => [.refused .internal])
  else (transport, [.natSend bytes])

/-! ## Runs -/

inductive Event (crypto : Crypto) where
  | iceState (state : IceState) (sslNew : Bool)
  | setRemoteFingerprint (fingerprint : Bytes) (sslNew : Bool)
  | data (datagram : Bytes)
  | handshakeEnd (handshake : DtlsSrtp.HandshakeEnd crypto)
  | send (packet : RtpPacket)

def step (transport : RtpTransport crypto) : Event crypto → RtpTransport crypto × List Effect
  | .iceState state sslNew => transport.onStateChanged state sslNew
  | .setRemoteFingerprint fingerprint sslNew => transport.setRemoteFingerprint fingerprint sslNew
  | .data datagram => transport.onData datagram
  | .handshakeEnd handshake =>
      ({ transport with dtls := transport.dtls.map fun dtls => dtls.run handshake }, [])
  | .send packet => transport.send packet

/-- A transport secured before it was initialized. -/
def securedMachine (crypto : Crypto) (asClient onPacket : Bool) :
    Machine (RtpTransport crypto) (Event crypto) (List Effect) where
  initial := (({} : RtpTransport crypto).enableSecurity asClient).init onPacket
  step := step

end RtpTransport

end Vela
