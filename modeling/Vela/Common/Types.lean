import Vela.Foundation.Octets

/-! # Shared value types

The error taxonomy and the media types that every module exchanges. -/

namespace Vela

open Foundation

inductive Error where
  | ok
  | notFound
  | invalidArgument
  | notInitialized
  | alreadyRunning
  | unsupported
  | deviceError
  | codecError
  | networkError
  | timeout
  | resourceExhausted
  | protocol
  | internal
  deriving DecidableEq, Repr

/-- `Result<T, Error>`; `Status` is the case without a value. -/
abbrev Result (α : Type u) := Except Error α

abbrev Status := Result Unit

/-- A computation that propagates errors succeeds exactly when both parts do. -/
theorem bind_eq_ok {failure : Type u} {α β : Type v} {first : Except failure α}
    {next : α → Except failure β} {result : β} :
    (first >>= next) = .ok result ↔ ∃ value, first = .ok value ∧ next value = .ok result := by
  cases first with
  | error failure => simp [bind, Except.bind]
  | ok value => simp [bind, Except.bind]

/-- It succeeds at all exactly when the first part does and the second does on
what the first gives. -/
theorem exists_bind_eq_ok {failure : Type u} {α β : Type v} {first : Except failure α}
    {next : α → Except failure β} :
    (∃ result, (first >>= next) = .ok result) ↔
      (∃ value, first = .ok value) ∧
        ∀ value, first = .ok value → ∃ result, next value = .ok result := by
  cases first with
  | error failure => simp [bind, Except.bind]
  | ok value => simp [bind, Except.bind]

/-- It never fails with `failure` when neither part does. -/
theorem bind_ne_error {fault : Type u} {failure : fault} {α β : Type v} {first : Except fault α}
    {next : α → Except fault β} (firstAvoids : first ≠ .error failure)
    (nextAvoids : ∀ value, first = .ok value → next value ≠ .error failure) :
    (first >>= next) ≠ .error failure := by
  cases first with
  | error other =>
      intro same
      cases same
      exact firstAvoids rfl
  | ok value => exact nextAvoids value rfl

@[simp] theorem ok_bind {failure : Type u} {α β : Type v} (value : α)
    (next : α → Except failure β) :
    ((Except.ok value : Except failure α) >>= next) = next value := rfl

inductive MediaKind where
  | video
  | audio
  deriving DecidableEq, Repr

inductive VideoCodec where
  | h264
  | unknown
  deriving DecidableEq, Repr

inductive AudioCodec where
  | opus
  | unknown
  deriving DecidableEq, Repr

/-- Instants and durations of the steady clock, in its own ticks. Arithmetic on them
that is not `checked` is taken to fit the clock's 64 bits. -/
abbrev SteadyTime := Int

/-- Compressed media between an encoder and the packetizer. A frame without a
payload buffer reads as an empty one. -/
structure EncodedFrame where
  kind : MediaKind := .video
  videoCodec : VideoCodec := .unknown
  audioCodec : AudioCodec := .unknown
  keyframe : Bool := false
  rtpTimestamp : BitVec 32 := 0
  captureTime : SteadyTime := 0
  payload : Bytes := []
  deriving DecidableEq, Repr

end Vela
