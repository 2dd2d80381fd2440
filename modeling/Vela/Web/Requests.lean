import Vela.Web.Server
import Vela.Web.StaticFiles

/-! # The process and its clients

The web server as one process: requests and sockets share it, and an exception
that leaves the handler of either ends it. Only the parse of a message is guarded,
so the results say exactly which requests and messages the process outlives. -/

namespace Vela

open Foundation StaticFiles

namespace WebServer

variable {Number : Type}

/-! ## Messages that are handled -/

/-- The data of a signal goes out, or nobody is there to get it. -/
def Deliverable (engine : ScriptEngine Number) (server : WebServer) (target : ConnectionNumber)
    (data : Option (Json Number)) : Prop :=
  ∀ ws, server.sockets.lookup target = some ws → ws.isOpen = true →
    data.any engine.stringifyOverflows = false

/-- What the type of a message makes the handler convert can be converted. -/
def FieldsConvert (engine : ScriptEngine Number) (server : WebServer) (ws : Socket)
    (msg : Json Number) : Prop :=
  (typeOf (msg.member "type") = some "join" →
    Json.Convertible engine (some (Json.orElse engine "demo" (msg.member "room")))) ∧
  (typeOf (msg.member "type") = some "signal" → ∀ peers, server.peersOf ws = some peers →
    Json.Convertible engine (msg.member "to") ∧
      ∀ id target, Json.toText engine (msg.member "to") = .ok id →
        peers.lookup id = some target → Deliverable engine server target (msg.member "data"))

/-- A message is no JSON, or it is not `null` and its fields convert. -/
def Answerable (engine : ScriptEngine Number) (server : WebServer) (ws : Socket) (raw : Bytes) :
    Prop :=
  ∀ msg, engine.parse raw = some msg → msg ≠ .null ∧ FieldsConvert engine server ws msg

theorem relay_ok_iff {engine : ScriptEngine Number} {server : WebServer} {ws : Socket}
    {target : ConnectionNumber} {data : Option (Json Number)} :
    (∃ result, server.relay engine ws target data = .ok result) ↔
      Deliverable engine server target data := by
  rw [relay, send, Deliverable]
  cases found : server.sockets.lookup target with
  | none =>
      apply iff_of_true
      · exact ⟨_, rfl⟩
      · intro _ same
        cases same
  | some other =>
      simp only [Option.some.injEq, forall_eq']
      cases opened : other.isOpen with
      | false =>
          apply iff_of_true
          · exact ⟨_, rfl⟩
          · intro same
            cases same
      | true => cases data.any engine.stringifyOverflows <;> simp

theorem onParsed_ok_iff {engine : ScriptEngine Number} {server : WebServer}
    {connection : ConnectionNumber} {ws : Socket} {msg : Json Number} (present : msg ≠ .null) :
    (∃ result, server.onParsed engine connection ws msg = .ok result) ↔
      FieldsConvert engine server ws msg := by
  rw [onParsed, FieldsConvert]
  simp only [Json.property_eq_member present, ok_bind]
  generalize typeOf (msg.member "type") = type
  by_cases isJoin : type = some "join"
  · rw [if_pos isJoin, exists_bind_eq_ok, Json.toText_ok_iff, isJoin]
    simp only [forall_const, Option.some.injEq, String.reduceEq, false_implies, and_true]
    exact and_iff_left fun room _ => ⟨_, rfl⟩
  · rw [if_neg isJoin]
    simp only [isJoin, false_implies, true_and]
    by_cases isSignal : type = some "signal"
    · rw [if_pos isSignal]
      simp only [isSignal, forall_const]
      cases inside : server.peersOf ws with
      | none =>
          apply iff_of_true
          · exact ⟨_, rfl⟩
          · intro _ same
            cases same
      | some peers =>
          simp only [Option.some.injEq, forall_eq']
          rw [exists_bind_eq_ok, Json.toText_ok_iff]
          apply and_congr_right
          intro _
          constructor
          · intro returns id target converted listed
            have relayed := returns id converted
            rw [listed] at relayed
            exact relay_ok_iff.mp relayed
          · intro delivers id converted
            cases listed : peers.lookup id with
            | none => exact ⟨_, rfl⟩
            | some target => exact relay_ok_iff.mpr (delivers id target converted listed)
    · rw [if_neg isSignal]
      simp only [isSignal, false_implies, iff_true]
      exact ⟨_, rfl⟩

theorem onMessage_ok_iff {engine : ScriptEngine Number} {server : WebServer}
    {connection : ConnectionNumber} {ws : Socket} {raw : Bytes} :
    (∃ result, server.onMessage engine connection ws raw = .ok result) ↔
      Answerable engine server ws raw := by
  rw [onMessage, Answerable]
  cases engine.parse raw with
  | none =>
      apply iff_of_true
      · exact ⟨_, rfl⟩
      · intro _ same
        cases same
  | some msg =>
      simp only [Option.some.injEq, forall_eq']
      by_cases isNull : msg = .null
      · subst isNull
        apply iff_of_false
        · intro returns
          rcases returns with ⟨_, returned⟩
          cases returned
        · intro answerable
          exact answerable.1 rfl
      · rw [onParsed_ok_iff isNull]
        simp only [isNull, ne_eq, not_false_eq_true, true_and]

/-! ## The process -/

inductive Arrival where
  | request (url : List Char)
  | socket (event : Event)

inductive Outcome (Number : Type) where
  | answered (action : Action)
  | ran (effects : List (Effect Number))

def serve (settings : Settings) (engine : ScriptEngine Number) (server : WebServer) :
    Arrival → WebServer × Outcome Number
  | .request url =>
      if server.isRunning then
        match handler settings url with
        | .ok action => (server, .answered action)
        | .error error => (server.terminated, .ran [.threw error])
      else (server, .ran [])
  | .socket event =>
      let (server, effects) := step engine server event
      (server, .ran effects)

def process (settings : Settings) (engine : ScriptEngine Number) :
    Machine WebServer Arrival (Outcome Number) where
  initial := create
  step := serve settings engine

/-- Neither handler throws at what arrives. -/
def Harmless (settings : Settings) (engine : ScriptEngine Number) (server : WebServer) :
    Arrival → Prop
  | .request url => Servable settings url
  | .socket (.message connection raw) =>
      ∀ ws, server.sockets.lookup connection = some ws → Answerable engine server ws raw
  | .socket _ => True

theorem isRunning_relay {engine : ScriptEngine Number} {server : WebServer} {ws : Socket}
    {target : ConnectionNumber} {data : Option (Json Number)}
    {result : WebServer × List (Effect Number)}
    (returned : server.relay engine ws target data = .ok result) :
    result.1.isRunning = server.isRunning := by
  rw [relay] at returned
  split at returned
  · cases returned
    rfl
  · split at returned
    · cases returned
    · cases returned
      rfl

theorem isRunning_onMessage {engine : ScriptEngine Number} {server : WebServer}
    {connection : ConnectionNumber} {ws : Socket} {raw : Bytes}
    {result : WebServer × List (Effect Number)}
    (returned : server.onMessage engine connection ws raw = .ok result) :
    result.1.isRunning = server.isRunning := by
  rw [onMessage] at returned
  split at returned
  · cases returned
    rfl
  · rw [onParsed] at returned
    rcases bind_eq_ok.mp returned with ⟨type, _, returned⟩
    split at returned
    · rcases bind_eq_ok.mp returned with ⟨named, _, returned⟩
      rcases bind_eq_ok.mp returned with ⟨room, _, returned⟩
      cases returned
      rfl
    · split at returned
      · split at returned
        · cases returned
          rfl
        · rcases bind_eq_ok.mp returned with ⟨addressed, _, returned⟩
          rcases bind_eq_ok.mp returned with ⟨id, _, returned⟩
          split at returned
          · cases returned
            rfl
          · rcases bind_eq_ok.mp returned with ⟨data, _, returned⟩
            exact isRunning_relay returned
      · cases returned
        rfl

theorem isRunning_onClose (server : WebServer) (connection : ConnectionNumber) (ws : Socket) :
    (server.onClose connection ws : _ × List (Effect Number)).1.isRunning = server.isRunning := by
  rw [onClose]
  split
  · rfl
  · split <;> rfl

theorem isRunning_message {engine : ScriptEngine Number} {server : WebServer}
    (running : server.isRunning = true) (connection : ConnectionNumber) (raw : Bytes) :
    (step engine server (.message connection raw)).1.isRunning = true ↔
      ∀ ws, server.sockets.lookup connection = some ws → Answerable engine server ws raw := by
  rw [step]
  cases found : server.sockets.lookup connection with
  | none =>
      apply iff_of_true running
      intro _ same
      cases same
  | some ws =>
      simp only [Option.some.injEq, forall_eq']
      rw [← @onMessage_ok_iff _ _ _ connection]
      cases returned : server.onMessage engine connection ws raw with
      | ok result =>
          apply iff_of_true
          · exact (isRunning_onMessage returned).trans running
          · exact ⟨result, rfl⟩
      | error error =>
          apply iff_of_false
          · intro impossible
            cases impossible
          · intro returns
            rcases returns with ⟨_, same⟩
            cases same

theorem isRunning_serve (settings : Settings) (engine : ScriptEngine Number) {server : WebServer}
    (running : server.isRunning = true) (arrival : Arrival) :
    (serve settings engine server arrival).1.isRunning = true ↔
      Harmless settings engine server arrival := by
  cases arrival with
  | request url =>
      rw [serve, if_pos running, Harmless, ← handler_ok_iff]
      cases handler settings url with
      | ok action => exact iff_of_true running ⟨action, rfl⟩
      | error error =>
          apply iff_of_false
          · intro impossible
            cases impossible
          · intro returns
            rcases returns with ⟨_, same⟩
            cases same
  | socket event =>
      change (step engine server event).1.isRunning = true ↔ _
      cases event with
      | message connection raw => exact isRunning_message running connection raw
      | connection =>
          apply iff_of_true _ trivial
          rw [step, if_pos running]
          exact running
      | closing connection =>
          apply iff_of_true _ trivial
          rw [step]
          split
          · exact running
          · exact running
      | close connection =>
          apply iff_of_true _ trivial
          rw [step]
          split
          · exact running
          · rw [isRunning_onClose]
            exact running

/-- A handler returns on a request or a message exactly when nothing in it fails to
convert, and the process lives through exactly the runs that meet nothing else. -/
theorem handlers_return_iff (settings : Settings) (engine : ScriptEngine Number) :
    (∀ url, (∃ action, handler settings url = .ok action) ↔ Servable settings url) ∧
      (∀ (server : WebServer) connection ws raw,
        (∃ result, server.onMessage engine connection ws raw = .ok result) ↔
          Answerable engine server ws raw) ∧
      ∀ arrivals,
        (∀ past, past <+: arrivals → ((process settings engine).run past).isRunning = true) ↔
          ∀ past arrival, past ++ [arrival] <+: arrivals →
            Harmless settings engine ((process settings engine).run past) arrival := by
  refine ⟨handler_ok_iff settings, fun server connection ws raw => onMessage_ok_iff, ?_⟩
  intro arrivals
  apply @Machine.always_iff_everyStep _ _ _ (process settings engine)
    (fun server => server.isRunning = true) (Harmless settings engine)
  · rfl
  · intro server arrival running
    exact isRunning_serve settings engine running arrival

/-- An engine that parses the text `null`. -/
def nullEngine : ScriptEngine Nat where
  parse := fun raw => if raw = [0x6E, 0x75, 0x6C, 0x6C] then some .null else none
  isTruthy := fun number => number ≠ 0
  numberText := toString
  textOverflows := fun _ => false
  stringifyOverflows := fun _ => false

def served : Settings where
  directory := "/srv/public".toList
  config := "\x7b\x7d"

/-- The request `/%` ends the process, and so does the message `null`. -/
theorem malformed_escape_and_null_throw :
    handler served "/%".toList = .error .uriError ∧
      ((process served nullEngine).run [.request "/%".toList]).isRunning = false ∧
      ((process served nullEngine).run [.socket .connection,
        .socket (.message 1 [0x6E, 0x75, 0x6C, 0x6C])]).isRunning = false := by
  decide +kernel

end WebServer

end Vela
