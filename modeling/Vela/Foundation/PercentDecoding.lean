import Mathlib.Data.List.Basic

/-! # Percent encoding

Text in which a character may stand as it is, or as the octets of its UTF-8
encoding, each written as `%` and two hexadecimal digits. Decoding gathers octets
until they are a whole character. -/

namespace Vela.Foundation

namespace Utf8

/-- The character that some octets are the whole encoding of. -/
def characterOf (octets : List UInt8) : Option Char :=
  match ByteArray.utf8DecodeChar? octets.toByteArray 0 with
  | some character => if String.utf8EncodeChar character = octets then some character else none
  | none => none

theorem decode_encode_append (character : Char) (rest : List UInt8) :
    ByteArray.utf8DecodeChar? (String.utf8EncodeChar character ++ rest).toByteArray 0 =
      some character := by
  rw [List.toByteArray_append]
  exact ByteArray.utf8DecodeChar?_utf8EncodeChar_append

theorem characterOf_eq_some {octets : List UInt8} {character : Char} :
    characterOf octets = some character ↔ octets = String.utf8EncodeChar character := by
  constructor
  · intro decoded
    rw [characterOf] at decoded
    split at decoded
    · split at decoded
      · rename_i whole
        cases decoded
        exact whole.symm
      · cases decoded
    · cases decoded
  · intro whole
    have decoded := decode_encode_append character []
    rw [List.append_nil] at decoded
    rw [characterOf, whole, decoded]
    exact if_pos rfl

/-- No encoding of a character continues that of another. -/
theorem encode_append_inj {first second : Char} {rest others : List UInt8}
    (same : String.utf8EncodeChar first ++ rest = String.utf8EncodeChar second ++ others) :
    first = second ∧ rest = others := by
  have decoded := decode_encode_append first rest
  rw [same, decode_encode_append second others] at decoded
  cases decoded
  exact ⟨rfl, List.append_cancel_left same⟩

end Utf8

namespace Percent

def digit (character : Char) : Option Nat :=
  if '0' ≤ character ∧ character ≤ '9' then some (character.toNat - '0'.toNat)
  else if 'A' ≤ character ∧ character ≤ 'F' then some (character.toNat - 'A'.toNat + 10)
  else if 'a' ≤ character ∧ character ≤ 'f' then some (character.toNat - 'a'.toNat + 10)
  else none

def octet (high low : Char) : Option UInt8 :=
  (digit high).bind fun upper => (digit low).map fun lower => UInt8.ofNat (upper * 16 + lower)

/-- The rest of a text, where the octets of a character have begun. -/
def decodeFrom (pending : List UInt8) : List Char → Option (List Char)
  | [] => if pending = [] then some [] else none
  | '%' :: high :: low :: rest =>
      match octet high low with
      | none => none
      | some next =>
          match Utf8.characterOf (pending ++ [next]) with
          | some character => (decodeFrom [] rest).map (character :: ·)
          | none => decodeFrom (pending ++ [next]) rest
  | character :: rest =>
      if character = '%' ∨ pending ≠ [] then none
      else (decodeFrom [] rest).map (character :: ·)

def decode (text : List Char) : Option (List Char) := decodeFrom [] text

/-! ## What texts encode -/

inductive Octets : List Char → List UInt8 → Prop where
  | nil : Octets [] []
  | cons {high low : Char} {next : UInt8} {text : List Char} {octets : List UInt8}
      (written : octet high low = some next) (rest : Octets text octets) :
      Octets ('%' :: high :: low :: text) (next :: octets)

/-- A text is a way to write some characters. -/
inductive Encodes : List Char → List Char → Prop where
  | nil : Encodes [] []
  | plain {character : Char} {text characters : List Char} (different : character ≠ '%')
      (rest : Encodes text characters) : Encodes (character :: text) (character :: characters)
  | escaped {character : Char} {written text characters : List Char}
      (octets : Octets written (String.utf8EncodeChar character))
      (rest : Encodes text characters) : Encodes (written ++ text) (character :: characters)

/-- A text goes on with the octets that pending ones lack. -/
def Completes (pending : List UInt8) (text characters : List Char) : Prop :=
  ∃ written octets rest character others, Octets written octets ∧
    pending ++ octets = String.utf8EncodeChar character ∧ text = written ++ rest ∧
    characters = character :: others ∧ Encodes rest others

theorem Completes.encodes {text characters : List Char} (completes : Completes [] text characters) :
    Encodes text characters := by
  rcases completes with
    ⟨written, octets, rest, character, others, spelled, whole, split, same, encodes⟩
  rw [List.nil_append] at whole
  rw [split, same]
  rw [whole] at spelled
  exact .escaped spelled encodes

theorem encodes_of_decodeFrom (pending : List UInt8) (text : List Char) :
    ∀ characters, decodeFrom pending text = some characters →
      pending = [] ∧ Encodes text characters ∨ Completes pending text characters := by
  fun_induction decodeFrom pending text with
  | case1 =>
      intro characters decoded
      cases decoded
      exact .inl ⟨rfl, .nil⟩
  | case2 =>
      intro characters decoded
      cases decoded
  | case3 =>
      intro characters decoded
      cases decoded
  | case4 pending high low rest next written character whole induction =>
      intro characters decoded
      rcases Option.map_eq_some_iff.mp decoded with ⟨others, decodedRest, same⟩
      right
      refine ⟨['%', high, low], [next], rest, character, others, .cons written .nil,
        Utf8.characterOf_eq_some.mp whole, rfl, same.symm, ?_⟩
      rcases induction others decodedRest with ⟨_, encodes⟩ | completes
      · exact encodes
      · exact completes.encodes
  | case5 pending high low rest next written partly induction =>
      intro characters decoded
      rcases induction characters decoded with ⟨impossible, _⟩ | completes
      · simp at impossible
      · rcases completes with
          ⟨spelling, octets, rest, character, others, spelled, whole, split, same, encodes⟩
        right
        refine ⟨'%' :: high :: low :: spelling, next :: octets, rest, character, others,
          .cons written spelled, ?_, ?_, same, encodes⟩
        · rw [← whole, List.append_assoc]
          rfl
        · rw [split]
          rfl
  | case6 =>
      intro characters decoded
      cases decoded
  | case7 pending character rest _ plain induction =>
      intro characters decoded
      rcases Option.map_eq_some_iff.mp decoded with ⟨others, decodedRest, same⟩
      rcases not_or.mp plain with ⟨different, nothing⟩
      left
      refine ⟨not_not.mp nothing, ?_⟩
      rw [← same]
      apply Encodes.plain different
      rcases induction others decodedRest with ⟨_, encodes⟩ | completes
      · exact encodes
      · exact completes.encodes

/-- Octets that complete a character are read up to it. -/
theorem decodeFrom_octets {written : List Char} {octets : List UInt8}
    (spelled : Octets written octets) :
    ∀ (pending : List UInt8) (character : Char) (rest : List Char), octets ≠ [] →
      pending ++ octets = String.utf8EncodeChar character →
        decodeFrom pending (written ++ rest) = (decodeFrom [] rest).map (character :: ·) := by
  induction spelled with
  | nil => exact fun _ _ _ nonempty => absurd rfl nonempty
  | @cons high low next text octets written spelled induction =>
      intro pending character rest _ whole
      change decodeFrom pending ('%' :: high :: low :: (text ++ rest)) = _
      rw [decodeFrom, written]
      dsimp only
      by_cases last : octets = []
      · rw [last] at whole
        cases spelled with
        | cons => cases last
        | nil =>
            rw [Utf8.characterOf_eq_some.mpr whole]
            rfl
      · have partly : Utf8.characterOf (pending ++ [next]) = none := by
          apply Option.eq_none_iff_forall_ne_some.mpr
          intro other early
          have encoded := Utf8.characterOf_eq_some.mp early
          have same : String.utf8EncodeChar other ++ octets =
              String.utf8EncodeChar character ++ [] := by
            rw [← encoded, List.append_assoc, List.append_nil]
            exact whole
          exact last (Utf8.encode_append_inj same).2
        rw [partly]
        dsimp only
        apply induction (pending ++ [next]) character rest last
        rw [List.append_assoc]
        exact whole

theorem decode_of_encodes {text characters : List Char} (encodes : Encodes text characters) :
    decode text = some characters := by
  rw [decode]
  induction encodes with
  | nil => rfl
  | @plain character text characters different rest induction =>
      rw [decodeFrom, if_neg, induction]
      · rfl
      · intro either
        rcases either with same | nothing
        · exact different same
        · exact nothing rfl
      · intro _ _ _ same
        exact absurd same different
  | @escaped character written text characters octets rest induction =>
      rw [decodeFrom_octets octets [] character text, induction]
      · rfl
      · intro empty
        have length := String.length_utf8EncodeChar character
        rw [empty] at length
        exact absurd character.utf8Size_pos (length ▸ Nat.lt_irrefl 0)
      · rfl

theorem decode_eq_some {text characters : List Char} :
    decode text = some characters ↔ Encodes text characters := by
  constructor
  · intro decoded
    rcases encodes_of_decodeFrom [] text characters decoded with ⟨_, encodes⟩ | completes
    · exact encodes
    · exact completes.encodes
  · exact decode_of_encodes

/-- `%C3%A9` is one character, and so is a plain one. -/
example : decode ['%', 'C', '3', '%', 'a', '9', '/', 'é'] = some ['é', '/', 'é'] := by
  decide +kernel

/-- An encoding that breaks off is no character. -/
example : decode ['%', 'C', '3', '/'] = none := by
  decide +kernel

end Percent

end Vela.Foundation
