import Vela.Foundation.Json
import Vela.Foundation.Octets

/-! # Values of a script

What a script can do with a value that came from JSON text: read a property,
choose a fallback, convert it to a string. Such values have no functions in them,
so an own `toString` of an object only hides the inherited one, and the conversion
of that object throws. A property that is absent reads as `none`. -/

namespace Vela.Foundation

inductive ScriptError where
  | typeError
  | rangeError
  | uriError
  | invalidArgument
  deriving DecidableEq, Repr

/-- The engine that runs a script: its JSON parser, its numbers, and the values
that are nested too deep for its stack, or make too long a string, when they are
converted. -/
structure ScriptEngine (Number : Type u) where
  parse : Bytes → Option (Json Number)
  isTruthy : Number → Bool
  numberText : Number → String
  textOverflows : Json Number → Bool
  stringifyOverflows : Json Number → Bool

namespace Json

variable {Number : Type u}

/-- `value.key`, for a key that no prototype has. -/
def property (value : Json Number) (key : String) : Except ScriptError (Option (Json Number)) :=
  match value with
  | .null => .error .typeError
  | .object members => .ok (members.lookup key)
  | _ => .ok none

/-- The own property of an object; nothing else has any. -/
def member : Json Number → String → Option (Json Number)
  | .object members, key => members.lookup key
  | _, _ => none

theorem property_eq_member {value : Json Number} (present : value ≠ .null) (key : String) :
    property value key = .ok (member value key) := by
  cases value with
  | null => exact absurd rfl present
  | _ => rfl

/-- `value || fallback` -/
def orElse (engine : ScriptEngine Number) (fallback : String) :
    Option (Json Number) → Json Number
  | none => .string fallback
  | some .null => .string fallback
  | some (.boolean false) => .string fallback
  | some (.string "") => .string fallback
  | some (.number numeral) => if engine.isTruthy numeral then .number numeral else .string fallback
  | some value => value

/-- Whether `if (value)` takes its branch. -/
def isTruthy (engine : ScriptEngine Number) : Json Number → Bool
  | .null => false
  | .boolean value => value
  | .string text => text ≠ ""
  | .number numeral => engine.isTruthy numeral
  | _ => true

/-- `value.key`, where it is truthy. -/
def truthyMember (engine : ScriptEngine Number) (value : Json Number) (key : String) :
    Option (Json Number) :=
  (value.member key).filter (isTruthy engine)

mutual

/-- `String(value)`, with stack enough. -/
def text (engine : ScriptEngine Number) : Json Number → Except ScriptError String
  | .null => .ok "null"
  | .boolean value => .ok (if value then "true" else "false")
  | .number numeral => .ok (engine.numberText numeral)
  | .string value => .ok value
  | .array elements => (texts engine elements).map (",".intercalate ·)
  | .object members =>
      if (members.lookup "toString").isSome then .error .typeError else .ok "[object Object]"

/-- The elements of an array, as `join` takes them. -/
def texts (engine : ScriptEngine Number) : List (Json Number) → Except ScriptError (List String)
  | [] => .ok []
  | .null :: rest => (texts engine rest).map ("" :: ·)
  | element :: rest => do
      let first ← text engine element
      let others ← texts engine rest
      return first :: others

end

/-- `String(value)` -/
def toText (engine : ScriptEngine Number) : Option (Json Number) → Except ScriptError String
  | none => .ok "undefined"
  | some value => if engine.textOverflows value then .error .rangeError else text engine value

/-- The value itself, or one inside it that is reached through arrays alone. -/
inductive Within : Json Number → Json Number → Prop where
  | self (value : Json Number) : Within value value
  | element {inner element : Json Number} {elements : List (Json Number)}
      (member : element ∈ elements) (within : Within inner element) :
      Within inner (.array elements)

/-- No object that `String(value)` comes to has a `toString` of its own. -/
def HasText (value : Json Number) : Prop :=
  ∀ members, Within (.object members) value → members.lookup "toString" = none

theorem within_array {inner : Json Number} {elements : List (Json Number)}
    (different : inner ≠ .array elements) :
    Within inner (.array elements) ↔ ∃ element ∈ elements, Within inner element := by
  constructor
  · intro within
    cases within with
    | self => exact absurd rfl different
    | element member within => exact ⟨_, member, within⟩
  · intro inside
    rcases inside with ⟨element, member, within⟩
    exact .element member within

theorem hasText_array {elements : List (Json Number)} :
    HasText (.array elements) ↔ ∀ element ∈ elements, HasText element := by
  constructor
  · intro has element member members within
    exact has members (.element member within)
  · intro has members within
    rcases (within_array (fun same => by cases same)).mp within with ⟨element, member, inside⟩
    exact has element member members inside

theorem hasText_scalar {value : Json Number} (noArray : ∀ elements, value ≠ .array elements)
    (noObject : ∀ members, value ≠ .object members) : HasText value := by
  intro members within
  generalize same : Json.object members = inner at within
  cases within with
  | self => exact absurd same.symm (noObject members)
  | element member within => exact absurd rfl (noArray _)

mutual

theorem text_ok_iff (engine : ScriptEngine Number) : ∀ value : Json Number,
    (∃ result, text engine value = .ok result) ↔ HasText value
  | .null => by
      apply iff_of_true
      · exact ⟨_, rfl⟩
      · apply hasText_scalar <;> intro _ same <;> cases same
  | .boolean value => by
      apply iff_of_true
      · exact ⟨_, rfl⟩
      · apply hasText_scalar <;> intro _ same <;> cases same
  | .number numeral => by
      apply iff_of_true
      · exact ⟨_, rfl⟩
      · apply hasText_scalar <;> intro _ same <;> cases same
  | .string value => by
      apply iff_of_true
      · exact ⟨_, rfl⟩
      · apply hasText_scalar <;> intro _ same <;> cases same
  | .array elements => by
      rw [hasText_array, ← texts_ok_iff engine elements, text]
      cases texts engine elements with
      | error error => simp [Except.map]
      | ok parts => simp [Except.map]
  | .object members => by
      rw [text]
      constructor
      · intro returns others within
        cases within with
        | self =>
            rcases returns with ⟨result, returned⟩
            split at returned
            · cases returned
            · rename_i absent
              exact Option.not_isSome_iff_eq_none.mp absent
      · intro has
        have absent := has members (.self _)
        rw [absent]
        exact ⟨_, rfl⟩

theorem texts_ok_iff (engine : ScriptEngine Number) : ∀ elements : List (Json Number),
    (∃ result, texts engine elements = .ok result) ↔ ∀ element ∈ elements, HasText element
  | [] => by
      apply iff_of_true
      · exact ⟨_, rfl⟩
      · intro _ member
        cases member
  | element :: rest => by
      rw [List.forall_mem_cons, ← text_ok_iff engine element, ← texts_ok_iff engine rest]
      by_cases isNull : element = .null
      · subst isNull
        rw [texts, text]
        cases texts engine rest with
        | error error => simp [Except.map]
        | ok parts => simp [Except.map]
      · rw [texts]
        · cases text engine element with
          | error error => simp [bind, Except.bind]
          | ok first =>
              cases texts engine rest with
              | error error => simp [bind, Except.bind]
              | ok parts => simp [bind, Except.bind, pure, Except.pure]
        · exact isNull

end

/-- `String(value)` returns: the value is not too large, and no object in its way
hides `toString`. -/
def Convertible (engine : ScriptEngine Number) (value : Option (Json Number)) : Prop :=
  ∀ present, value = some present → engine.textOverflows present = false ∧ HasText present

theorem toText_ok_iff {engine : ScriptEngine Number} {value : Option (Json Number)} :
    (∃ result, toText engine value = .ok result) ↔ Convertible engine value := by
  rw [Convertible]
  cases value with
  | none =>
      apply iff_of_true
      · exact ⟨_, rfl⟩
      · intro present same
        cases same
  | some present =>
      rw [toText]
      simp only [Option.some.injEq, forall_eq']
      cases engine.textOverflows present with
      | false => simp [text_ok_iff]
      | true => simp

end Json

end Vela.Foundation
