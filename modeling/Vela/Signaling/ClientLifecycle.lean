import Vela.Common.Types
import Vela.Foundation.Machine

/-! # The lifecycle of the signaling client

The socket, the receive thread and the two flags, as `connect`, `disconnect` and
the receive loop change them. Calls come one after another, from callbacks on
the receive thread or from another thread; what the loop does on its own happens
between them. -/

namespace Vela.SignalingClient

open Foundation

/-- How far the receive thread is. All but `none` are joinable. -/
inductive RecvThread where
  | none
  | looping
  /-- Out of the loop, with the last callback still to return. -/
  | leaving
  | ended
  deriving DecidableEq, Repr

namespace RecvThread

def joinable (thread : RecvThread) : Bool := thread != .none

/-- Whether callbacks can still be made on it. -/
def running (thread : RecvThread) : Bool := thread == .looping || thread == .leaving

end RecvThread

structure LinkState where
  /-- `fd_` is open. -/
  fd : Bool := false
  recvThread : RecvThread := .none
  connected : Bool := false
  stopping : Bool := false
  /-- An open `fd_` was overwritten. -/
  leaked : Bool := false
  /-- A joinable `recvThread_` was assigned to, which ends the process. -/
  terminated : Bool := false
  deriving DecidableEq, Repr

/-- The thread that a call is made on. -/
inductive CallingThread where
  | receive
  | other
  deriving DecidableEq, Repr

/-- How far the outside lets a `connect` come. -/
inductive Progress where
  | unreachable
  | handshakeFailed (error : Error)
  | joinUnsent (error : Error)
  | joined
  deriving DecidableEq, Repr

namespace Progress

def getsSocket (progress : Progress) : Bool := progress != .unreachable

def completesHandshake : Progress → Bool
  | .unreachable | .handshakeFailed _ => false
  | .joinUnsent _ | .joined => true

end Progress

namespace LinkState

def closeSocket (link : LinkState) : LinkState := { link with fd := false }

/-- `fd_ = fd` -/
def assignFd (link : LinkState) : LinkState :=
  { link with fd := true, leaked := link.leaked || link.fd }

/-- `recvThread_ = std::thread(…)` -/
def assignThread (link : LinkState) : LinkState :=
  { link with
    recvThread := .looping
    terminated := link.terminated || link.recvThread.joinable }

/-- Waits for the receive loop, which clears `connected_` on its way out. -/
def join (link : LinkState) : LinkState :=
  { link with recvThread := .none, connected := link.connected && link.recvThread != .looping }

def joinFrom (thread : CallingThread) (link : LinkState) : LinkState :=
  if link.recvThread.joinable && thread != .receive then link.join else link

def disconnect (link : LinkState) (thread : CallingThread) : LinkState :=
  if link.stopping then link.joinFrom thread
  else
    -- The leave message that may go out here changes nothing.
    let link := { link with stopping := true }
    let link := link.closeSocket.joinFrom thread
    { link with connected := false }

def connect (link : LinkState) (thread : CallingThread) (room : String) (progress : Progress) :
    LinkState × Status :=
  if link.connected then (link, .error .alreadyRunning)
  else if room.isEmpty then (link, .error .invalidArgument)
  else
    let link := { link with stopping := false }
    match progress with
    | .unreachable => (link, .error .networkError)
    | .handshakeFailed error => (link.assignFd.closeSocket, .error error)
    | .joinUnsent error =>
        let link := { link.assignFd with connected := true }.assignThread
        (link.disconnect thread, .error error)
    | .joined => ({ link.assignFd with connected := true }.assignThread, .ok ())

/-! ## Runs -/

inductive Event where
  | connect (thread : CallingThread) (room : String) (progress : Progress)
  | disconnect (thread : CallingThread)
  /-- The receive loop ends, because the server has dropped the connection or the
  client is stopping. -/
  | loopLeaves
  | threadEnds
  deriving DecidableEq

/-- Calls on the receive thread are made while it runs. -/
def runs (link : LinkState) : CallingThread → Bool
  | .receive => link.recvThread.running
  | .other => true

/-- One event, and what the call returned if it was one. What cannot happen in a
state changes nothing. -/
def step (link : LinkState) (event : Event) : LinkState × Option Status :=
  if link.terminated then (link, none)
  else
    match event with
    | .connect thread room progress =>
        if link.runs thread then
          let (link, status) := link.connect thread room progress
          (link, if link.terminated then none else some status)
        else (link, none)
    | .disconnect thread =>
        if link.runs thread then (link.disconnect thread, some (.ok ())) else (link, none)
    | .loopLeaves =>
        if link.recvThread = .looping then
          ({ link with recvThread := .leaving, connected := false }, none)
        else (link, none)
    | .threadEnds =>
        if link.recvThread = .leaving then ({ link with recvThread := .ended }, none)
        else (link, none)

def machine : Machine LinkState Event (Option Status) where
  initial := {}
  step := step

/-! ## The law and its condition -/

/-- Nothing was overwritten, and a disconnect on another thread than the receive
thread has left nothing behind. -/
structure Kept (link : LinkState) (event : Event) : Prop where
  alive : link.terminated = false
  noneLeaked : link.leaked = false
  released : event = .disconnect .other →
    link.fd = false ∧ link.recvThread = .none ∧ link.connected = false

abbrev Call := Event × Option Status

/-- A connect that succeeded. -/
def Opens (call : Call) : Prop :=
  ∃ thread room progress, call = (.connect thread room progress, some (.ok ()))

/-- A disconnect that was carried out. -/
def Closes (call : Call) : Prop := ∃ thread, call = (.disconnect thread, some (.ok ()))

def Joins (call : Call) : Prop := call = (.disconnect .other, some (.ok ()))

/-- A connection was opened and no `Ends` call was made since. -/
def Since (Ends : Call → Prop) (past : List Call) : Prop :=
  ∃ before opening after, past = before ++ opening :: after ∧ Opens opening ∧
    ∀ call ∈ after, ¬Ends call

/-- A connect that goes ahead and obtains a socket comes after a disconnect since
the last connection was opened, and if it completes the handshake too, after one
on another thread than the receive thread. -/
def Reclaimed (past : List Call) (link : LinkState) : Event → Prop
  | .connect thread room progress =>
      link.runs thread = true → link.connected = false → room ≠ "" →
        (progress.getsSocket = true → ¬Since Closes past) ∧
        (progress.completesHandshake = true → ¬Since Joins past)
  | _ => True

/-! ## What the calls do -/

variable {link : LinkState} {past : List Call} {Ends : Call → Prop} {call : Call}

theorem since_snoc :
    Since Ends (past ++ [call]) ↔ Opens call ∨ Since Ends past ∧ ¬Ends call := by
  constructor
  · rintro ⟨before, opening, after, split, opens, noEnd⟩
    rcases List.eq_nil_or_concat after with rfl | ⟨earlier, last, rfl⟩
    · rcases List.append_inj' split rfl with ⟨_, sameCall⟩
      cases sameCall
      exact .inl opens
    · rw [List.concat_eq_append, ← List.cons_append, ← List.append_assoc] at split
      rcases List.append_inj' split rfl with ⟨samePast, sameCall⟩
      cases sameCall
      right
      refine ⟨⟨before, opening, earlier, samePast, opens, fun other member => ?_⟩, ?_⟩
      · exact noEnd other (by simp [member])
      · exact noEnd call (by simp)
  · rintro (opens | ⟨⟨before, opening, after, split, opens, noEnd⟩, notEnd⟩)
    · exact ⟨past, call, [], rfl, opens, fun _ member => (nomatch member)⟩
    · refine ⟨before, opening, after ++ [call], by rw [split]; simp, opens, ?_⟩
      intro other member
      rcases List.mem_append.mp member with earlier | last
      · exact noEnd other earlier
      · rw [List.mem_singleton.mp last]
        exact notEnd

/-- After a disconnect everything is given back, except for the receive thread if
the call was made on it. -/
theorem disconnect_eq (stopped : link.stopping = true → link.fd = false ∧ link.connected = false)
    (thread : CallingThread) :
    link.disconnect thread =
      { link with
        fd := false
        connected := false
        stopping := true
        recvThread := if thread = .other then .none else link.recvThread } := by
  rcases link with ⟨fd, recvThread, connected, stopping, leaked, terminated⟩
  cases stopping with
  | true =>
      rcases stopped rfl with ⟨rfl, rfl⟩
      cases thread <;> cases recvThread <;> rfl
  | false => cases thread <;> cases recvThread <;> rfl

/-- How the state follows from the calls made so far, as long as nothing was
overwritten. -/
structure Tracked (past : List Call) (link : LinkState) : Prop where
  alive : link.terminated = false
  noneLeaked : link.leaked = false
  fd : link.fd = true ↔ Since Closes past
  recvThread : link.recvThread ≠ .none ↔ Since Joins past
  stopped : link.stopping = true → link.fd = false ∧ link.connected = false

theorem not_since_nil (Ends : Call → Prop) : ¬Since Ends [] := by
  rintro ⟨before, opening, after, split, _⟩
  cases before <;> cases split

theorem Tracked.initial : Tracked [] machine.initial where
  alive := rfl
  noneLeaked := rfl
  fd := iff_of_false (by decide) (not_since_nil Closes)
  recvThread := iff_of_false (by decide) (not_since_nil Joins)
  stopped := nofun

theorem not_opens_none (event : Event) : ¬Opens (event, none) := by
  simp [Opens]

theorem not_closes_none (event : Event) : ¬Closes (event, none) := by
  simp [Closes]

theorem not_opens_error (event : Event) (error : Error) : ¬Opens (event, some (.error error)) := by
  simp [Opens]

theorem not_closes_error (event : Event) (error : Error) :
    ¬Closes (event, some (.error error)) := by
  simp [Closes]

theorem Joins.closes (joins : Joins call) : Closes call := ⟨.other, joins⟩

/-- An event that neither opens a connection nor disconnects. -/
theorem Tracked.quiet (tracked : Tracked past link) (opens : ¬Opens call) (closes : ¬Closes call)
    {after : LinkState} (alive : after.terminated = false) (noneLeaked : after.leaked = false)
    (sameFd : after.fd = link.fd)
    (sameThread : after.recvThread = .none ↔ link.recvThread = .none)
    (stopped : after.stopping = true → after.fd = false ∧ after.connected = false) :
    Tracked (past ++ [call]) after := by
  have joins : ¬Joins call := fun joins => closes joins.closes
  refine ⟨alive, noneLeaked, ?_, ?_, stopped⟩
  · rw [since_snoc, sameFd, tracked.fd]
    simp [opens, closes]
  · rw [since_snoc, ne_eq, sameThread, ← ne_eq, tracked.recvThread]
    simp [opens, joins]

theorem kept_iff {event : Event} (notDisconnect : event ≠ .disconnect .other) :
    Kept link event ↔ link.terminated = false ∧ link.leaked = false :=
  ⟨fun kept => ⟨kept.alive, kept.noneLeaked⟩,
    fun clean => ⟨clean.1, clean.2, fun isDisconnect => absurd isDisconnect notDisconnect⟩⟩

/-- What one event does to the law and to what is tracked. -/
structure StepLaw (past : List Call) (link : LinkState) (event : Event) : Prop where
  kept_iff : Kept (link.step event).1 event ↔ Reclaimed past link event
  tracked : Kept (link.step event).1 event →
    Tracked (past ++ [(event, (link.step event).2)]) (link.step event).1

/-- An event that neither opens a connection nor disconnects, and leaves the socket
and the thread as they were unless something is overwritten. -/
theorem Tracked.uncounted (tracked : Tracked past link) {event : Event} {after : LinkState}
    {returned : Option Status} (outcome : link.step event = (after, returned))
    (opens : ¬Opens (event, returned)) (closes : ¬Closes (event, returned))
    (notDisconnect : event ≠ .disconnect .other)
    (law : after.terminated = false ∧ after.leaked = false ↔ Reclaimed past link event)
    (restored : after.terminated = false → after.leaked = false → after.fd = link.fd ∧
      (after.recvThread = .none ↔ link.recvThread = .none) ∧
      (after.stopping = true → after.fd = false ∧ after.connected = false)) :
    StepLaw past link event := by
  refine ⟨?_, ?_⟩
  · rw [outcome, LinkState.kept_iff notDisconnect]
    exact law
  · rw [outcome]
    intro kept
    rcases restored kept.alive kept.noneLeaked with ⟨sameFd, sameThread, stopped⟩
    exact tracked.quiet opens closes kept.alive kept.noneLeaked sameFd sameThread stopped

/-- An event that changes nothing. -/
theorem Tracked.idle (tracked : Tracked past link) {event : Event}
    (nothing : link.step event = (link, none)) (reclaimed : Reclaimed past link event)
    (notDisconnect : event ≠ .disconnect .other) : StepLaw past link event := by
  apply tracked.uncounted nothing (not_opens_none event) (not_closes_none event) notDisconnect
  · exact iff_of_true ⟨tracked.alive, tracked.noneLeaked⟩ reclaimed
  · exact fun _ _ => ⟨rfl, Iff.rfl, tracked.stopped⟩

theorem Tracked.disconnect (tracked : Tracked past link) (thread : CallingThread) :
    StepLaw past link (.disconnect thread) := by
  by_cases runs : link.runs thread = true
  · have outcome : link.step (.disconnect thread) = (link.disconnect thread, some (.ok ())) := by
      simp [step, tracked.alive, runs]
    have after := disconnect_eq tracked.stopped thread
    have notOpens : ¬Opens (.disconnect thread, some (.ok ())) := by simp [Opens]
    have closes : Closes (.disconnect thread, some (.ok ())) := ⟨thread, rfl⟩
    refine ⟨?_, ?_⟩
    · rw [outcome, after]
      refine iff_of_true ⟨tracked.alive, tracked.noneLeaked, ?_⟩ trivial
      intro isOther
      cases isOther
      exact ⟨rfl, rfl, rfl⟩
    · intro _
      rw [outcome, after]
      refine ⟨tracked.alive, tracked.noneLeaked, ?_, ?_, fun _ => ⟨rfl, rfl⟩⟩
      · rw [since_snoc]
        simp [notOpens, closes]
      · rw [since_snoc]
        cases thread with
        | other => simp [notOpens, Joins]
        | receive =>
            simp only [reduceCtorEq, if_false, notOpens, Joins, Prod.mk.injEq,
              Event.disconnect.injEq, not_false_eq_true, and_true, false_or]
            exact tracked.recvThread
  · apply tracked.idle
    · simp [step, runs]
    · trivial
    · rintro ⟨⟩
      exact runs rfl

theorem Tracked.loop (tracked : Tracked past link) {event : Event}
    (isLoop : event = .loopLeaves ∨ event = .threadEnds) : StepLaw past link event := by
  have reclaimed : Reclaimed past link event := by
    rcases isLoop with rfl | rfl <;> trivial
  have notDisconnect : event ≠ .disconnect .other := by
    rcases isLoop with rfl | rfl <;> nofun
  have outcome : (link.step event).2 = none ∧ (link.step event).1.terminated = false ∧
      (link.step event).1.leaked = false ∧ (link.step event).1.fd = link.fd ∧
      ((link.step event).1.recvThread = .none ↔ link.recvThread = .none) ∧
      (link.step event).1.stopping = link.stopping ∧
      ((link.step event).1.connected = true → link.connected = true) := by
    rcases isLoop with rfl | rfl
    · by_cases looping : link.recvThread = .looping
      · simp [step, tracked.alive, tracked.noneLeaked, looping]
      · simp [step, tracked.alive, tracked.noneLeaked, looping]
    · by_cases leaving : link.recvThread = .leaving
      · simp [step, tracked.alive, tracked.noneLeaked, leaving]
      · simp [step, tracked.alive, tracked.noneLeaked, leaving]
  rcases outcome with ⟨returnsNothing, alive, noneLeaked, sameFd, sameThread, sameStop, connects⟩
  have result : link.step event = ((link.step event).1, none) := by
    rw [← returnsNothing]
  apply tracked.uncounted result (not_opens_none event) (not_closes_none event) notDisconnect
  · exact iff_of_true ⟨alive, noneLeaked⟩ reclaimed
  · intro _ _
    refine ⟨sameFd, sameThread, fun stops => ?_⟩
    rw [sameStop] at stops
    rcases tracked.stopped stops with ⟨closed, notConnected⟩
    refine ⟨sameFd.trans closed, ?_⟩
    rw [Bool.eq_false_iff] at notConnected ⊢
    exact fun isConnected => notConnected (connects isConnected)

theorem Tracked.closed_iff (tracked : Tracked past link) :
    link.fd = false ↔ ¬Since Closes past := by
  rw [← tracked.fd, Bool.not_eq_true]

theorem Tracked.joined_iff (tracked : Tracked past link) :
    link.recvThread.joinable = false ↔ ¬Since Joins past := by
  rw [← tracked.recvThread, not_ne_iff, RecvThread.joinable, bne_eq_false_iff_eq]

/-- A connect that fails before it has a receive thread, or whose receive thread is
joined again, leaves the socket and the thread as they were. -/
theorem Tracked.connect_failed (tracked : Tracked past link) {thread : CallingThread}
    {room : String} {progress : Progress} {after : LinkState} {error : Error}
    (runs : link.runs thread = true)
    (outcome : link.connect thread room progress = (after, .error error))
    (law : after.terminated = false ∧ after.leaked = false ↔
      Reclaimed past link (.connect thread room progress))
    (restored : after.terminated = false → after.leaked = false → after.fd = link.fd ∧
      (after.recvThread = .none ↔ link.recvThread = .none) ∧
      (after.stopping = true → after.fd = false ∧ after.connected = false)) :
    StepLaw past link (.connect thread room progress) := by
  have stepped : link.step (.connect thread room progress) =
      (after, if after.terminated then none else some (.error error)) := by
    simp [step, tracked.alive, runs, outcome]
  apply tracked.uncounted stepped
  · split
    · exact not_opens_none _
    · exact not_opens_error _ error
  · split
    · exact not_closes_none _
    · exact not_closes_error _ error
  · nofun
  · exact law
  · exact restored

/-- A connect that goes ahead. -/
structure Ahead (past : List Call) (link : LinkState) (thread : CallingThread) (room : String) :
    Prop extends Tracked past link where
  runs : link.runs thread = true
  down : link.connected = false
  named : room ≠ ""

section Ahead

variable {thread : CallingThread} {room : String}

theorem Ahead.nonempty (ahead : Ahead past link thread room) : room.isEmpty = false := by
  simpa using ahead.named

theorem Ahead.reclaimed_iff (ahead : Ahead past link thread room) (progress : Progress) :
    Reclaimed past link (.connect thread room progress) ↔
      (progress.getsSocket = true → link.fd = false) ∧
      (progress.completesHandshake = true → link.recvThread.joinable = false) := by
  rw [ahead.closed_iff, ahead.joined_iff]
  exact ⟨fun reclaimed => reclaimed ahead.runs ahead.down ahead.named,
    fun reclaimed _ _ _ => reclaimed⟩

theorem Ahead.unreachable (ahead : Ahead past link thread room) :
    StepLaw past link (.connect thread room .unreachable) := by
  have outcome : link.connect thread room .unreachable =
      ({ link with stopping := false }, .error .networkError) := by
    simp [LinkState.connect, ahead.down, ahead.nonempty]
  apply ahead.connect_failed ahead.runs outcome
  · rw [ahead.reclaimed_iff]
    simp [ahead.alive, ahead.noneLeaked, Progress.getsSocket, Progress.completesHandshake]
  · exact fun _ _ => ⟨rfl, Iff.rfl, nofun⟩

theorem Ahead.handshakeFailed (ahead : Ahead past link thread room) (error : Error) :
    StepLaw past link (.connect thread room (.handshakeFailed error)) := by
  have outcome : link.connect thread room (.handshakeFailed error) =
      (({ link with stopping := false } : LinkState).assignFd.closeSocket, .error error) := by
    simp [LinkState.connect, ahead.down, ahead.nonempty]
  apply ahead.connect_failed ahead.runs outcome
  · rw [ahead.reclaimed_iff]
    simp [ahead.alive, ahead.noneLeaked, assignFd, closeSocket, Progress.getsSocket,
      Progress.completesHandshake]
  · intro _ kept
    have closed : link.fd = false := by
      simpa [assignFd, closeSocket, ahead.noneLeaked] using kept
    exact ⟨closed.symm, Iff.rfl, nofun⟩

/-- The state once the handshake is complete and the receive thread started. -/
def established (link : LinkState) : LinkState :=
  { { link with stopping := false }.assignFd with connected := true }.assignThread

/-- Nothing is overwritten exactly if the socket was closed and the thread joined. -/
theorem established_clean_iff (alive : link.terminated = false) (noneLeaked : link.leaked = false) :
    link.established.terminated = false ∧ link.established.leaked = false ↔
      link.fd = false ∧ link.recvThread.joinable = false := by
  simp [established, assignFd, assignThread, alive, noneLeaked, and_comm]

theorem Ahead.joinUnsent (ahead : Ahead past link thread room) (error : Error) :
    StepLaw past link (.connect thread room (.joinUnsent error)) := by
  have outcome : link.connect thread room (.joinUnsent error) =
      (link.established.disconnect thread, .error error) := by
    simp [LinkState.connect, ahead.down, ahead.nonempty, established]
  have closing := @disconnect_eq link.established nofun thread
  have clean := established_clean_iff ahead.alive ahead.noneLeaked
  apply ahead.connect_failed ahead.runs outcome
  · rw [ahead.reclaimed_iff, closing]
    simpa [Progress.getsSocket, Progress.completesHandshake] using clean
  · rw [closing]
    intro survives kept
    rcases clean.mp ⟨survives, kept⟩ with ⟨closed, joined⟩
    have noThread : link.recvThread = .none := by
      simpa [RecvThread.joinable] using joined
    have onOther : thread = .other := by
      cases thread with
      | other => rfl
      | receive =>
          have onReceive := ahead.runs
          rw [LinkState.runs, noThread] at onReceive
          cases onReceive
    refine ⟨closed.symm, ?_, fun _ => ⟨rfl, rfl⟩⟩
    simp [onOther, noThread]

theorem Ahead.joined (ahead : Ahead past link thread room) :
    StepLaw past link (.connect thread room .joined) := by
  have outcome : link.step (.connect thread room .joined) = (link.established,
      if link.established.terminated then none else some (.ok ())) := by
    simp [step, LinkState.connect, ahead.alive, ahead.runs, ahead.down, ahead.nonempty,
      established]
  have notDisconnect : Event.connect thread room .joined ≠ .disconnect .other := nofun
  refine ⟨?_, ?_⟩
  · rw [outcome, LinkState.kept_iff notDisconnect, ahead.reclaimed_iff,
      established_clean_iff ahead.alive ahead.noneLeaked]
    simp [Progress.getsSocket, Progress.completesHandshake]
  · rw [outcome]
    intro kept
    have opens : Opens (.connect thread room .joined,
        if link.established.terminated then none else some (.ok ())) := by
      rw [kept.alive]
      exact ⟨thread, room, .joined, rfl⟩
    refine ⟨kept.alive, kept.noneLeaked, ?_, ?_, nofun⟩
    · rw [since_snoc]
      exact iff_of_true rfl (.inl opens)
    · rw [since_snoc]
      exact iff_of_true nofun (.inl opens)

theorem Ahead.connect (ahead : Ahead past link thread room) (progress : Progress) :
    StepLaw past link (.connect thread room progress) := by
  cases progress with
  | unreachable => exact ahead.unreachable
  | handshakeFailed error => exact ahead.handshakeFailed error
  | joinUnsent error => exact ahead.joinUnsent error
  | joined => exact ahead.joined

end Ahead

theorem Tracked.connect (tracked : Tracked past link) (thread : CallingThread) (room : String)
    (progress : Progress) : StepLaw past link (.connect thread room progress) := by
  by_cases runs : link.runs thread = true
  · cases up : link.connected with
    | true =>
        have outcome : link.connect thread room progress = (link, .error .alreadyRunning) := by
          simp [LinkState.connect, up]
        apply tracked.connect_failed runs outcome
        · refine iff_of_true ⟨tracked.alive, tracked.noneLeaked⟩ ?_
          intro _ down
          rw [up] at down
          cases down
        · exact fun _ _ => ⟨rfl, Iff.rfl, tracked.stopped⟩
    | false =>
        by_cases named : room = ""
        · have outcome : link.connect thread room progress = (link, .error .invalidArgument) := by
            simp [LinkState.connect, up, named]
          apply tracked.connect_failed runs outcome
          · exact iff_of_true ⟨tracked.alive, tracked.noneLeaked⟩
              (fun _ _ nonempty => absurd named nonempty)
          · exact fun _ _ => ⟨rfl, Iff.rfl, tracked.stopped⟩
        · exact Ahead.connect ⟨tracked, runs, up, named⟩ progress
  · apply tracked.idle
    · simp [step, runs]
    · exact fun isRunning => absurd isRunning runs
    · nofun

end LinkState

end Vela.SignalingClient
