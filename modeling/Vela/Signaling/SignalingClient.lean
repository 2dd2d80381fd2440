import Vela.Common.JsonFields

/-! # The signaling client

What its receive loop does with the text of one frame. -/

namespace Vela

open Foundation

abbrev PeerId := BitVec 64

/-- Which callbacks are set. -/
structure SignalingCallbacks where
  onJoined : Bool
  onPeerJoined : Bool
  onPeerLeft : Bool
  onOffer : Bool
  onAnswer : Bool
  onIceCandidate : Bool
  onError : Bool

structure SignalingClient where
  callbacks : SignalingCallbacks
  selfId : PeerId
  stopping : Bool

namespace SignalingClient

/-- One invocation of a callback. -/
inductive Notification where
  | joined (self : PeerId)
  | peerJoined (peer : PeerId)
  | peerLeft (peer : PeerId)
  | offer (sender : PeerId) (sdp : String)
  | answer (sender : PeerId) (sdp : String)
  | iceCandidate (sender : PeerId) (candidate : String)
  | error (error : Error) (detail : String)

def reportError (client : SignalingClient) (error : Error) (detail : String) : List Notification :=
  if client.callbacks.onError ∧ ¬ client.stopping then [.error error detail] else []

/-- A payload that is only read for a callback that is set. -/
def payloadFor (installed : Bool) (fields : Fields) (notify : String → Notification) :
    Except JsonException (List Notification) :=
  if installed then do
    let payload ← Document.value fields "payload" Document.getString ""
    return [notify payload]
  else .ok []

def dispatchObject (client : SignalingClient) (fields : Fields) :
    Except JsonException (SignalingClient × List Notification) := do
  let type ← Document.value fields "type" Document.getString ""
  let sender ← Document.value fields "from" Document.getUInt64 0
  if type = "joined" then
    let self ← Document.value fields "id" Document.getUInt64 0
    let client := { client with selfId := self }
    let acknowledged := if client.callbacks.onJoined then [.joined self] else []
    if client.callbacks.onPeerJoined then
      match fields.lookup "peers" with
      | some (.array elements) =>
          let peers ← elements.mapM Document.getUInt64
          return (client, acknowledged ++ peers.map .peerJoined)
      | _ => return (client, acknowledged)
    else return (client, acknowledged)
  else if type = "peer-joined" then
    return (client, if client.callbacks.onPeerJoined then [.peerJoined sender] else [])
  else if type = "peer-left" then
    return (client, if client.callbacks.onPeerLeft then [.peerLeft sender] else [])
  else if type = "offer" then
    let notifications ← payloadFor client.callbacks.onOffer fields (.offer sender)
    return (client, notifications)
  else if type = "answer" then
    let notifications ← payloadFor client.callbacks.onAnswer fields (.answer sender)
    return (client, notifications)
  else if type = "ice" then
    let notifications ← payloadFor client.callbacks.onIceCandidate fields (.iceCandidate sender)
    return (client, notifications)
  else if type = "error" then
    let reason ← Document.value fields "reason" Document.getString ""
    return (client, client.reportError .protocol reason)
  else return (client, [])

def dispatch (parse : Bytes → Option Document) (client : SignalingClient) (payload : Bytes) :
    Except JsonException (SignalingClient × List Notification) :=
  match parse payload with
  | some (.object fields) => dispatchObject client fields
  | _ => .ok (client, client.reportError .protocol "malformed server JSON")

end SignalingClient

end Vela
