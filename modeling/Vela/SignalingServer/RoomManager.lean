import Vela.Foundation.Machine
import Vela.Foundation.UnorderedMap
import Vela.Common.JsonFields

/-! # The room manager

The signaling server's registry of rooms: who is in which room, and what each
change tells the others. Every call runs on the one loop thread. -/

namespace Vela

open Foundation UnorderedMap

/-- An address; zero is the null pointer. -/
abbrev ConnectionHandle := Nat

namespace RoomManager

abbrev ParticipantId := BitVec 64

def kMaxParticipants : Nat := 8

structure Participant where
  id : ParticipantId
  conn : ConnectionHandle
  deriving DecidableEq

structure Room where
  name : String
  participants : List Participant
  deriving DecidableEq

/-- The frames of the server. A relayed one carries the sender's document. -/
inductive Frame where
  | joined (room : String) (id : ParticipantId) (peers : List ParticipantId)
  | peerJoined (room : String) (sender : ParticipantId)
  | peerLeft (room : String) (sender : ParticipantId)
  | relayed (rawJson : Document)
  | error (reason : String)

/-- One invocation of the send function. -/
structure Sent where
  conn : ConnectionHandle
  frame : Frame

end RoomManager

structure RoomManager where
  nextId : RoomManager.ParticipantId
  rooms : UnorderedMap String RoomManager.Room
  connRoom : UnorderedMap ConnectionHandle String

namespace RoomManager

def create : RoomManager where
  nextId := 1
  rooms := ∅
  connRoom := ∅

/-- The participant that a connection is registered under in a room. -/
def Room.entryOf (room : Room) (conn : ConnectionHandle) : Option Participant :=
  room.participants.find? fun p => p.conn = conn

/-- The room of a connection and the id it has there, zero if the room does not
list it. -/
def roomOf (manager : RoomManager) (conn : ConnectionHandle) : Option (Room × ParticipantId) :=
  match manager.connRoom.lookup conn with
  | none => none
  | some name =>
      match manager.rooms.lookup name with
      | none => none
      | some room => some (room, ((room.entryOf conn).map Participant.id).getD 0)

/-- The registry with the room in its place, without it if nobody is left. -/
def pruned (rooms : UnorderedMap String Room) (roomName : String) (room : Room) :
    UnorderedMap String Room :=
  if room.participants.isEmpty then rooms.erase roomName else rooms.insert roomName room

def leave (manager : RoomManager) (conn : ConnectionHandle) : RoomManager × List Sent :=
  match manager.connRoom.lookup conn with
  | none => (manager, [])
  | some roomName =>
      let manager := { manager with connRoom := manager.connRoom.erase conn }
      match manager.rooms.lookup roomName with
      | none => (manager, [])
      | some room =>
          let leavingId := ((room.entryOf conn).map Participant.id).getD 0
          let participants := room.participants.eraseP fun p => p.conn = conn
          let sent := if leavingId ≠ 0 then
              participants.map fun p => { conn := p.conn, frame := .peerLeft roomName leavingId }
            else []
          ({ manager with rooms := pruned manager.rooms roomName { room with participants } }, sent)

/-- The frames of a successful join: the newcomer is told who is there, the
others that it came. -/
def announce (roomName : String) (participants : List Participant) (id : ParticipantId)
    (conn : ConnectionHandle) : List Sent :=
  let peers := (participants.filter fun p => p.id ≠ id).map Participant.id
  { conn, frame := .joined roomName id peers } ::
    (participants.filter fun p => p.conn ≠ conn).map fun p =>
      { conn := p.conn, frame := .peerJoined roomName id }

def join (manager : RoomManager) (roomName : String) (conn : ConnectionHandle) :
    RoomManager × List Sent × Result ParticipantId :=
  if roomName.isEmpty ∨ conn = 0 then (manager, [], .error .invalidArgument)
  else
    let (manager, left) := if conn ∈ manager.connRoom then manager.leave conn else (manager, [])
    let room := (manager.rooms.lookup roomName).getD { name := "", participants := [] }
    let room := if room.name.isEmpty then { room with name := roomName } else room
    if room.participants.length ≥ kMaxParticipants then
      let rooms := manager.rooms.insert roomName room
      let rooms := if room.participants.isEmpty then rooms.erase roomName else rooms
      ({ manager with rooms }, left, .error .resourceExhausted)
    else
      let id := manager.nextId
      let room := { room with participants := room.participants ++ [{ id, conn }] }
      ({ nextId := manager.nextId + 1
         rooms := manager.rooms.insert roomName room
         connRoom := manager.connRoom.insert conn roomName },
        left ++ announce roomName room.participants id conn, .ok id)

/-- `rawJson` is forwarded as it is. -/
def relay (manager : RoomManager) (conn : ConnectionHandle) (type : String) (target : ParticipantId)
    (rawJson : Document) : List Sent × Status :=
  if type ≠ "offer" ∧ type ≠ "answer" ∧ type ≠ "ice" then ([], .error .protocol)
  else
    match manager.roomOf conn with
    | none => ([], .error .notFound)
    | some (room, fromId) =>
        if fromId = 0 then ([], .error .notFound)
        else if target ≠ 0 then
          match room.participants.find? fun p => p.id = target with
          | some p => ([{ conn := p.conn, frame := .relayed rawJson }], .ok ())
          | none => ([], .error .notFound)
        else
          ((room.participants.filter fun p => p.conn ≠ conn).map fun p =>
            { conn := p.conn, frame := .relayed rawJson }, .ok ())

def roomCount (manager : RoomManager) : Nat := size manager.rooms

def participantCount (manager : RoomManager) (roomName : String) : Nat :=
  match manager.rooms.lookup roomName with
  | some room => room.participants.length
  | none => 0

def idFor (manager : RoomManager) (conn : ConnectionHandle) : ParticipantId :=
  match manager.connRoom.lookup conn with
  | none => 0
  | some name =>
      match manager.rooms.lookup name with
      | none => 0
      | some room => ((room.entryOf conn).map Participant.id).getD 0

/-! ## Calls -/

inductive Call where
  | join (roomName : String) (conn : ConnectionHandle)
  | leave (conn : ConnectionHandle)
  | relay (conn : ConnectionHandle) (type : String) (target : ParticipantId) (rawJson : Document)

def call (manager : RoomManager) : Call → RoomManager × List Sent
  | .join roomName conn =>
      let (manager, sent, _) := manager.join roomName conn
      (manager, sent)
  | .leave conn => manager.leave conn
  | .relay conn type target rawJson => (manager, (manager.relay conn type target rawJson).1)

def machine : Machine RoomManager Call (List Sent) where
  initial := create
  step := call

end RoomManager

end Vela
