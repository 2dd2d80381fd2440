import Vela.Common.JsonFields
import Vela.SfuApp.Server

/-! # The message handler of the SFU server process

Received text is parsed and dispatched on its `type` to the socket handlers. -/

namespace Vela

open Foundation UnorderedMap

namespace SfuApp

/-- `initialized` says whether a new transport's agent could be created, `offered`
what the transport makes of an offer. -/
def onObject (app : SfuApp) (socket : SocketId) (fields : Fields) (initialized : Bool)
    (offered : String → Bool × Option String) : Except JsonException (SfuApp × List Effect) := do
  let type ← Document.value fields "type" Document.getString ""
  if type = "join" then
    match app.sockets.lookup socket with
    | some none =>
        let room ← Document.value fields "room" Document.getString ""
        return app.onJoin socket room initialized
    -- Already joined.
    | _ => return (app, [])
  else
    match app.sockets.lookup socket with
    | some (some _) =>
        if type = "offer" then
          let payload ← Document.value fields "payload" Document.getString ""
          return app.onOffer socket (offered payload).1 (offered payload).2
        else if type = "ice" then
          let candidate ← Document.value fields "payload" Document.getString ""
          return app.step (.ice socket candidate)
        else if type = "leave" then
          return app.onLeave socket
        else return (app, [])
    -- Must join first.
    | _ => return (app, [])

def onMessage (parse : Bytes → Option Document) (app : SfuApp) (socket : SocketId) (op : OpCode)
    (msg : Bytes) (initialized : Bool) (offered : String → Bool × Option String) :
    Except JsonException (SfuApp × List Effect) :=
  if op ≠ .text then .ok (app, [])
  else
    match parse msg with
    | some (.object fields) => onObject app socket fields initialized offered
    | _ => .ok (app, [])

end SfuApp

end Vela
