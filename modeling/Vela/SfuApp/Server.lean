import Vela.Sfu.SFUServer
import Vela.Signaling.RtpTransport

/-! # The SFU server process

One socket per client, one transport per joined socket, and the loop that runs
socket handlers and deferred tasks one at a time. Callbacks of a transport come
from its own thread and only queue tasks or route packets. The client's id counts
joins in 32 bits, so an id can come back while the objects of a join cannot. -/

namespace Vela

open Foundation UnorderedMap

abbrev SocketId := Nat

/-- The objects of one join, named by how many joins came before. -/
abbrev ClientRef := Nat

abbrev TransportRef := Nat

/-- Owned by its socket, and owner of its transport. -/
structure ClientState where
  id : ParticipantId
  room : String
  transport : TransportRef
  ws : SocketId
  alive : Bool := true
  deriving DecidableEq

/-- What the transport callbacks of one join hold: a weak pointer to the client
state, and copies of the rest. -/
structure Captured where
  weak : ClientRef
  room : String
  id : ParticipantId
  transport : TransportRef
  deriving DecidableEq

inductive Task where
  | register (captured : Captured)
  | sendCandidate (weak : ClientRef) (candidate : String)
  deriving DecidableEq

inductive Frame where
  | joined (room : String) (id : BitVec 32)
  | answer (payload : String)
  | ice (payload : String)
  | error (reason : String)
  deriving DecidableEq

structure SfuApp where
  sfu : SFUServer TransportRef
  nextId : BitVec 32
  nextRef : ClientRef
  sockets : UnorderedMap SocketId (Option ClientRef)
  clients : UnorderedMap ClientRef ClientState
  callbacks : UnorderedMap ClientRef Captured
  joinedSfu : UnorderedMap ClientRef Bool
  deferred : List Task

namespace SfuApp

def create : SfuApp where
  sfu := SFUServer.create
  nextId := 1
  nextRef := 1
  sockets := ∅
  clients := ∅
  callbacks := ∅
  joinedSfu := ∅
  deferred := []

inductive Effect where
  | sendJson (socket : SocketId) (frame : Frame)
  | endSocket (socket : SocketId)
  | addParticipant (room : String) (id : ParticipantId) (status : Status)
  | transportSend (call : SinkCall TransportRef)

/-! ## Socket handlers -/

def onOpen (app : SfuApp) (socket : SocketId) : SfuApp × List Effect :=
  if socket ∈ app.sockets then (app, [])
  else ({ app with sockets := app.sockets.insert socket none }, [])

/-- `initialized` says whether the transport's agent could be created. The number
is used up by a join that fails. -/
def onJoin (app : SfuApp) (socket : SocketId) (room : String) (initialized : Bool) :
    SfuApp × List Effect :=
  match app.sockets.lookup socket with
  | some none =>
      let numId := app.nextId
      let client := app.nextRef
      let app := { app with nextId := numId + 1, nextRef := client + 1 }
      let st : ClientState :=
        { id := toString numId.toNat, room, transport := client, ws := socket }
      if room.isEmpty then (app, [.sendJson socket (.error "missing room")])
      else
        let captured : Captured :=
          { weak := client, room := st.room, id := st.id, transport := st.transport }
        let app := { app with
          callbacks := app.callbacks.insert client captured
          joinedSfu := app.joinedSfu.insert client false }
        if initialized then
          ({ app with
              clients := app.clients.insert client st
              sockets := app.sockets.insert socket (some client) },
            [.sendJson socket (.joined st.room numId)])
        else (app, [.sendJson socket (.error "ICE init failed")])
  | _ => (app, [])

/-- `accepted` says whether the transport took the client's description, `answer`
is the packed description it then has to offer. -/
def onOffer (app : SfuApp) (socket : SocketId) (accepted : Bool) (answer : Option String) :
    SfuApp × List Effect :=
  match app.sockets.lookup socket with
  | some (some _) =>
      if accepted then
        match answer with
        | some payload => (app, [.sendJson socket (.answer payload)])
        | none => (app, [])
      else (app, [.sendJson socket (.error "bad offer")])
  | _ => (app, [])

def onLeave (app : SfuApp) (socket : SocketId) : SfuApp × List Effect :=
  match app.sockets.lookup socket with
  | some (some _) => (app, [.endSocket socket])
  | _ => (app, [])

/-- The client state is marked, taken out of its room and destroyed with its
transport. -/
def onClose (app : SfuApp) (socket : SocketId) : SfuApp × List Effect :=
  match app.sockets.lookup socket with
  | none => (app, [])
  | some none => ({ app with sockets := app.sockets.erase socket }, [])
  | some (some client) =>
      match app.clients.lookup client with
      | none => ({ app with sockets := app.sockets.erase socket }, [])
      | some st =>
          let clients := app.clients.insert client { st with alive := false }
          ({ app with
              sfu := (app.sfu.removeParticipant st.room st.id).1
              clients := clients.erase client
              sockets := app.sockets.erase socket }, [])

/-! ## Transport callbacks and the tasks they defer -/

def onStateChanged (app : SfuApp) (client : ClientRef) (state : IceState) : SfuApp × List Effect :=
  match app.callbacks.lookup client with
  | some captured =>
      if state ≠ .connected ∧ state ≠ .completed then (app, [])
      else ({ app with deferred := app.deferred ++ [.register captured] }, [])
  | none => (app, [])

def onLocalCandidate (app : SfuApp) (client : ClientRef) (candidate : String) :
    SfuApp × List Effect :=
  match app.callbacks.lookup client with
  | some captured =>
      ({ app with deferred := app.deferred ++ [.sendCandidate captured.weak candidate] }, [])
  | none => (app, [])

def onPacket (app : SfuApp) (client : ClientRef) (packet : RtpPacket) : SfuApp × List Effect :=
  match app.callbacks.lookup client with
  | some captured =>
      let (sfu, response) := app.sfu.routePacket captured.room captured.id packet
      ({ app with sfu }, response.sinkCalls.map .transportSend)
  | none => (app, [])

/-- `weak.lock()` and the alive test. -/
def lockAlive (app : SfuApp) (weak : ClientRef) : Option ClientState :=
  match app.clients.lookup weak with
  | some st => if st.alive then some st else none
  | none => none

def runTask (app : SfuApp) : Task → SfuApp × List Effect
  | .sendCandidate weak candidate =>
      match app.lockAlive weak with
      | some st => (app, [.sendJson st.ws (.ice candidate)])
      | none => (app, [])
  | .register captured =>
      match app.lockAlive captured.weak with
      | none => (app, [])
      | some _ =>
          let already := app.joinedSfu.lookup captured.weak = some true
          let app := { app with joinedSfu := app.joinedSfu.insert captured.weak true }
          if already then (app, [])
          else
            let (sfu, response) :=
              app.sfu.addParticipant captured.room captured.id (some captured.transport)
            ({ app with sfu }, [.addParticipant captured.room captured.id response.status])

/-- Takes one of the queued tasks, whichever it is, and runs it. -/
def runDeferred (app : SfuApp) (index : Nat) : SfuApp × List Effect :=
  match app.deferred[index]? with
  | some task => runTask { app with deferred := app.deferred.eraseIdx index } task
  | none => (app, [])

/-! ## Runs -/

inductive Event where
  | opened (socket : SocketId)
  | join (socket : SocketId) (room : String) (initialized : Bool)
  | offer (socket : SocketId) (accepted : Bool) (answer : Option String)
  | ice (socket : SocketId) (candidate : String)
  | leave (socket : SocketId)
  | close (socket : SocketId)
  | stateChanged (client : ClientRef) (state : IceState)
  | localCandidate (client : ClientRef) (candidate : String)
  | packet (client : ClientRef) (packet : RtpPacket)
  | deferred (index : Nat)

def step (app : SfuApp) : Event → SfuApp × List Effect
  | .opened socket => app.onOpen socket
  | .join socket room initialized => app.onJoin socket room initialized
  | .offer socket accepted answer => app.onOffer socket accepted answer
  -- The candidate goes to the client's transport.
  | .ice _ _ => (app, [])
  | .leave socket => app.onLeave socket
  | .close socket => app.onClose socket
  | .stateChanged client state => app.onStateChanged client state
  | .localCandidate client candidate => app.onLocalCandidate client candidate
  | .packet client packet => app.onPacket client packet
  | .deferred index => app.runDeferred index

def machine : Machine SfuApp Event (List Effect) where
  initial := create
  step := step

end SfuApp

end Vela
