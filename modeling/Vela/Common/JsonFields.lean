import Mathlib.Data.Rat.Floor
import Mathlib.Data.BitVec
import Vela.Foundation.Json
import Vela.Common.Types

/-! # Typed access to JSON fields

The endpoints read received documents through the typed accessors of their JSON
library. Parsing reports bad text as no document at all, but an accessor throws
when the field is there with another type. -/

namespace Vela

open Foundation

/-- Numbers as the parser keeps them: without a sign, with one, or with a fraction
or an exponent. The last are doubles, given here by their values. -/
inductive JsonNumber where
  | unsigned (value : BitVec 64)
  | integer (value : BitVec 64)
  | floating (value : ℚ)
  deriving DecidableEq

namespace JsonNumber

/-- The number that was written. -/
def toRat : JsonNumber → ℚ
  | .unsigned value => value.toNat
  | .integer value => value.toInt
  | .floating value => value

def truncate (value : ℚ) : Int := if 0 ≤ value then ⌊value⌋ else ⌈value⌉

/-- `static_cast<std::uint64_t>`. The source leaves doubles outside the range
undefined; here they wrap like the integers. -/
def toUInt64 : JsonNumber → BitVec 64
  | .unsigned value => value
  | .integer value => value
  | .floating value => BitVec.ofInt 64 (truncate value)

theorem toUInt64_of_toRat {number : JsonNumber} {value : BitVec 64}
    (written : number.toRat = value.toNat) : number.toUInt64 = value := by
  cases number with
  | unsigned stored =>
      simp only [toRat, Nat.cast_inj] at written
      exact BitVec.eq_of_toNat_eq written
  | integer stored =>
      simp only [toRat] at written
      have sameInt : stored.toInt = (value.toNat : Int) := by exact_mod_cast written
      have bits : BitVec.ofInt 64 stored.toInt = stored := BitVec.ofInt_toInt
      rw [sameInt, BitVec.ofInt_natCast, BitVec.ofNat_toNat, BitVec.setWidth_eq] at bits
      exact bits.symm
  | floating stored =>
      simp only [toRat] at written
      have nonneg : (0 : ℚ) ≤ stored := by
        rw [written]
        exact Nat.cast_nonneg _
      simp only [toUInt64, truncate]
      rw [if_pos nonneg, written, Int.floor_natCast, BitVec.ofInt_natCast, BitVec.ofNat_toNat,
        BitVec.setWidth_eq]

end JsonNumber

abbrev Document := Json JsonNumber

/-- The kinds of frame a handler is called for. -/
inductive OpCode where
  | text
  | binary
  deriving DecidableEq

/-- What the typed accessors throw. -/
inductive JsonException where
  | typeError
  deriving DecidableEq

abbrev Fields := Json.Members JsonNumber

namespace Document

def getString : Document → Except JsonException String
  | .string value => .ok value
  | _ => .error .typeError

def getUInt64 : Document → Except JsonException (BitVec 64)
  | .number value => .ok value.toUInt64
  | _ => .error .typeError

/-- `j.value(key, otherwise)`: the default only replaces a missing field. -/
def value {Value : Type} (fields : Fields) (key : String)
    (get : Document → Except JsonException Value) (otherwise : Value) :
    Except JsonException Value :=
  match fields.lookup key with
  | some field => get field
  | none => .ok otherwise

/-- The kind of a message, empty when its `type` is missing or not a string. -/
def kindOf (fields : Fields) : String :=
  match fields.lookup "type" with
  | some (.string kind) => kind
  | _ => ""

/-! ## When an accessor returns -/

def IsString (document : Document) : Prop := ∃ value, document = .string value

def IsNumber (document : Document) : Prop := ∃ value, document = .number value

/-- The field is missing or has the wanted type. -/
def Readable (Wanted : Document → Prop) (fields : Fields) (key : String) : Prop :=
  ∀ field, fields.lookup key = some field → Wanted field

theorem getString_ok_iff {document : Document} :
    (∃ value, getString document = .ok value) ↔ IsString document := by
  cases document <;> simp [getString, IsString]

theorem getUInt64_ok_iff {document : Document} :
    (∃ value, getUInt64 document = .ok value) ↔ IsNumber document := by
  cases document <;> simp [getUInt64, IsNumber]

theorem value_ok_iff {Value : Type} {get : Document → Except JsonException Value}
    {Wanted : Document → Prop}
    (getIff : ∀ {document}, (∃ value, get document = .ok value) ↔ Wanted document)
    {fields : Fields} {key : String} {otherwise : Value} :
    (∃ result, value fields key get otherwise = .ok result) ↔ Readable Wanted fields key := by
  rw [value, Readable]
  cases fields.lookup key with
  | none => simp
  | some field =>
      simp only [Option.some.injEq, forall_eq']
      exact getIff

theorem stringField_ok_iff {fields : Fields} {key otherwise : String} :
    (∃ result, value fields key getString otherwise = .ok result) ↔ Readable IsString fields key :=
  value_ok_iff getString_ok_iff

theorem numberField_ok_iff {fields : Fields} {key : String} {otherwise : BitVec 64} :
    (∃ result, value fields key getUInt64 otherwise = .ok result) ↔ Readable IsNumber fields key :=
  value_ok_iff getUInt64_ok_iff

theorem value_of_lookup {Value : Type} {get : Document → Except JsonException Value}
    {fields : Fields} {key : String} {field : Document} {otherwise : Value}
    (found : fields.lookup key = some field) : value fields key get otherwise = get field := by
  rw [value, found]

theorem value_of_missing {Value : Type} {get : Document → Except JsonException Value}
    {fields : Fields} {key : String} {otherwise : Value}
    (missing : fields.lookup key = none) : value fields key get otherwise = .ok otherwise := by
  rw [value, missing]

theorem value_type_eq {fields : Fields} {type : String}
    (read : value fields "type" getString "" = .ok type) : type = kindOf fields := by
  rw [value] at read
  rw [kindOf]
  cases found : fields.lookup "type" with
  | none =>
      rw [found] at read
      cases read
      rfl
  | some field =>
      rw [found] at read
      cases field with
      | string kind =>
          cases read
          rfl
      | _ => cases read

theorem value_type_of_readable {fields : Fields} (readable : Readable IsString fields "type") :
    value fields "type" getString "" = .ok (kindOf fields) := by
  have reads : ∃ type, value fields "type" getString "" = .ok type :=
    stringField_ok_iff.mpr readable
  rcases reads with ⟨type, read⟩
  rw [← value_type_eq read]
  exact read

/-- A handler that first reads the message's type. -/
theorem typed_ok_iff {Value : Type} {fields : Fields} {next : String → Except JsonException Value} :
    (∃ result, (value fields "type" getString "" >>= next) = .ok result) ↔
      Readable IsString fields "type" ∧ ∃ result, next (kindOf fields) = .ok result := by
  rw [exists_bind_eq_ok, stringField_ok_iff]
  apply and_congr_right
  intro readable
  rw [value_type_of_readable readable]
  simp only [Except.ok.injEq, forall_eq']

/-- Reading an array of numbers. -/
theorem mapM_getUInt64_ok_iff {elements : List Document} :
    (∃ values, elements.mapM getUInt64 = .ok values) ↔ ∀ element ∈ elements, IsNumber element := by
  induction elements with
  | nil => simp [pure, Except.pure]
  | cons first rest induction =>
      rw [List.mapM_cons, exists_bind_eq_ok, getUInt64_ok_iff, List.forall_mem_cons, ← induction]
      apply and_congr_right
      intro isNumber
      rcases isNumber with ⟨number, rfl⟩
      simp only [getUInt64, Except.ok.injEq, forall_eq']
      rw [exists_bind_eq_ok]
      exact and_iff_left fun values _ => ⟨_, rfl⟩

end Document

end Vela
