import Vela.Foundation.UnorderedMap

/-! # Maps in insertion order

Maps with distinct keys that iterate in the order in which the keys came. Setting
a key that is there leaves it in its place. -/

namespace Vela.Foundation

abbrev InsertionMap (Key : Type u) (Value : Type v) := AList fun _ : Key => Value

namespace InsertionMap

variable {Key : Type u} {Value : Type v} [DecidableEq Key]

def set (map : InsertionMap Key Value) (key : Key) (value : Value) : InsertionMap Key Value :=
  if key ∈ map then UnorderedMap.mapValues (fun other old => if other = key then value else old) map
  else map ∪ AList.singleton key value

theorem lookup_set (map : InsertionMap Key Value) (key : Key) (value : Value) (other : Key) :
    (map.set key value).lookup other = if other = key then some value else map.lookup other := by
  rw [set]
  by_cases present : key ∈ map
  · rw [if_pos present, UnorderedMap.lookup_mapValues]
    by_cases same : other = key
    · rcases UnorderedMap.mem_iff_exists_lookup.mp present with ⟨old, found⟩
      rw [same, found, if_pos rfl]
      simp
    · rw [if_neg same]
      simp [same]
  · rw [if_neg present, ← AList.insert_empty]
    by_cases same : other = key
    · rw [same, if_pos rfl, AList.lookup_union_right present, AList.lookup_insert]
    · rw [if_neg same]
      by_cases held : other ∈ map
      · rw [AList.lookup_union_left held]
      · rw [AList.lookup_union_right held, AList.lookup_insert_ne same, AList.lookup_empty,
          AList.lookup_eq_none.mpr held]

theorem mem_set {map : InsertionMap Key Value} {key other : Key} {value : Value} :
    other ∈ map.set key value ↔ other = key ∨ other ∈ map := by
  rw [UnorderedMap.mem_iff_exists_lookup, lookup_set, UnorderedMap.mem_iff_exists_lookup]
  by_cases same : other = key <;> simp [same]

end InsertionMap

end Vela.Foundation
