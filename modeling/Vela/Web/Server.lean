import Vela.Foundation.InsertionMap
import Vela.Foundation.Machine
import Vela.Foundation.ScriptValues

/-! # The web meeting server

The WebSocket half of the server: rooms of peers, a reply to each join, a relay
for signals. The handlers of one connection run to their end before any other
event, and an exception that leaves one ends the process. -/

namespace Vela

open Foundation

namespace WebServer

/-- A WebSocket object, told from others by the number it was given. -/
abbrev ConnectionNumber := Nat

/-- The fields of a `ws` that its handlers read and write. -/
structure Socket where
  id : String
  room : Option String := none
  isOpen : Bool := true
  deriving DecidableEq

inductive Frame (Number : Type) where
  | joined (id : String) (peers : List String)
  | peerJoined (id : String)
  | peerLeft (id : String)
  | signal (sender : String) (data : Option (Json Number))

/-- What a handler does outside the server: a frame sent, a line logged, or the
exception that ends the process. -/
inductive Effect (Number : Type) where
  | send (target : ConnectionNumber) (frame : Frame Number)
  | logJoined (room : String) (id : String) (total : Nat)
  | logLeft (room : String) (id : String)
  | threw (error : ScriptError)

inductive Event where
  | connection
  | message (connection : ConnectionNumber) (raw : Bytes)
  /-- The socket's `readyState` leaves `OPEN` ahead of its `close` event. -/
  | closing (connection : ConnectionNumber)
  | close (connection : ConnectionNumber)

end WebServer

open WebServer in
structure WebServer where
  rooms : InsertionMap String (InsertionMap String ConnectionNumber) := ∅
  /-- A number of the language, so exact below 2^53. -/
  nextId : Nat := 1
  /-- The connections whose `close` event is still to come. -/
  sockets : UnorderedMap ConnectionNumber Socket := ∅
  isRunning : Bool := true

namespace WebServer

variable {Number : Type}

def create : WebServer := {}

/-- A frame goes out on a socket that is open, and is dropped on any other. -/
def send (server : WebServer) (target : ConnectionNumber) (frame : Frame Number) :
    List (Effect Number) :=
  match server.sockets.lookup target with
  | some ws => if ws.isOpen then [.send target frame] else []
  | none => []

/-- `rooms.get(ws.room)` -/
def peersOf (server : WebServer) (ws : Socket) : Option (InsertionMap String ConnectionNumber) :=
  ws.room.bind fun room => server.rooms.lookup room

def onConnection (server : WebServer) : WebServer :=
  { server with
    nextId := server.nextId + 1
    sockets := server.sockets.insert server.nextId { id := toString server.nextId } }

def join (server : WebServer) (connection : ConnectionNumber) (ws : Socket) (room : String) :
    WebServer × List (Effect Number) :=
  let peers := (server.rooms.lookup room).getD ∅
  -- the peers are listed and notified before the newcomer is among them
  let reply := server.send connection (.joined ws.id peers.keys)
  let notices :=
    (UnorderedMap.pairs peers).flatMap fun peer => server.send peer.2 (.peerJoined ws.id)
  let peers := peers.set ws.id connection
  ({ server with
      rooms := server.rooms.set room peers
      sockets := server.sockets.insert connection { ws with room := some room } },
    reply ++ notices ++ [.logJoined room ws.id (UnorderedMap.size peers)])

def relay (engine : ScriptEngine Number) (server : WebServer) (ws : Socket)
    (target : ConnectionNumber) (data : Option (Json Number)) :
    Except ScriptError (WebServer × List (Effect Number)) :=
  match server.send target (.signal ws.id data) with
  | [] => .ok (server, [])
  | sent =>
      if data.any engine.stringifyOverflows then .error .rangeError else .ok (server, sent)

/-- `msg.type`, where it is a string. -/
def typeOf : Option (Json Number) → Option String
  | some (.string type) => some type
  | _ => none

def onParsed (engine : ScriptEngine Number) (server : WebServer) (connection : ConnectionNumber)
    (ws : Socket) (msg : Json Number) : Except ScriptError (WebServer × List (Effect Number)) := do
  let type ← msg.property "type"
  if typeOf type = some "join" then
    let named ← msg.property "room"
    let room ← Json.toText engine (some (Json.orElse engine "demo" named))
    return server.join connection ws room
  else if typeOf type = some "signal" then
    match server.peersOf ws with
    | none => return (server, [])
    | some peers =>
        let addressed ← msg.property "to"
        let id ← Json.toText engine addressed
        match peers.lookup id with
        | none => return (server, [])
        | some target =>
            let data ← msg.property "data"
            server.relay engine ws target data
  else return (server, [])

def onMessage (engine : ScriptEngine Number) (server : WebServer) (connection : ConnectionNumber)
    (ws : Socket) (raw : Bytes) : Except ScriptError (WebServer × List (Effect Number)) :=
  match engine.parse raw with
  | none => .ok (server, [])
  | some msg => server.onParsed engine connection ws msg

def onClose (server : WebServer) (connection : ConnectionNumber) (ws : Socket) :
    WebServer × List (Effect Number) :=
  let closed := { server with sockets := server.sockets.erase connection }
  match ws.room with
  | none => (closed, [])
  | some room =>
      match server.rooms.lookup room with
      | none => (closed, [])
      | some peers =>
          let peers := peers.erase ws.id
          let notices := (UnorderedMap.pairs peers).flatMap fun peer =>
            closed.send peer.2 (.peerLeft ws.id)
          ({ closed with
              rooms := if UnorderedMap.size peers = 0 then server.rooms.erase room
                else server.rooms.set room peers },
            notices ++ [.logLeft room ws.id])

/-- The process has ended: no connections, no rooms. -/
def terminated (server : WebServer) : WebServer :=
  { server with rooms := ∅, sockets := ∅, isRunning := false }

/-! ## Runs -/

def step (engine : ScriptEngine Number) (server : WebServer) :
    Event → WebServer × List (Effect Number)
  | .connection => (if server.isRunning then server.onConnection else server, [])
  | .message connection raw =>
      match server.sockets.lookup connection with
      | none => (server, [])
      | some ws =>
          match server.onMessage engine connection ws raw with
          | .ok result => result
          | .error error => (server.terminated, [.threw error])
  | .closing connection =>
      match server.sockets.lookup connection with
      | none => (server, [])
      | some ws =>
          ({ server with sockets := server.sockets.insert connection { ws with isOpen := false } },
            [])
  | .close connection =>
      match server.sockets.lookup connection with
      | none => (server, [])
      | some ws => server.onClose connection ws

def machine (engine : ScriptEngine Number) : Machine WebServer Event (List (Effect Number)) where
  initial := create
  step := step engine

end WebServer

end Vela
