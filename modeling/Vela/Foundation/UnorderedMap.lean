import Mathlib.Data.List.AList

/-! # Unordered maps

Maps with distinct keys and no promise about iteration order, as Mathlib's
association lists, with the one operation those lack: rewriting every value in
place. -/

namespace Vela.Foundation

abbrev UnorderedMap (Key : Type u) (Value : Type v) := AList fun _ : Key => Value

namespace UnorderedMap

variable {Key : Type u} {Value : Type v} {Result : Type w}

/-- The map as a list of pairs, in iteration order. -/
def pairs (map : UnorderedMap Key Value) : List (Key × Value) :=
  map.entries.map fun entry => (entry.1, entry.2)

def size (map : UnorderedMap Key Value) : Nat := map.entries.length

def mapValues (transform : Key → Value → Result) (map : UnorderedMap Key Value) :
    UnorderedMap Key Result where
  entries := map.entries.map fun entry => ⟨entry.1, transform entry.1 entry.2⟩
  nodupKeys := by
    have nodup := map.nodupKeys
    unfold List.NodupKeys List.keys at nodup ⊢
    simpa [Function.comp_def] using nodup

variable {map : UnorderedMap Key Value} {key : Key}

@[simp] theorem size_mapValues (transform : Key → Value → Result) :
    size (mapValues transform map) = size map := by
  simp [size, mapValues]

theorem pairs_mapValues (transform : Key → Value → Result) :
    pairs (mapValues transform map) =
      (pairs map).map fun pair => (pair.1, transform pair.1 pair.2) := by
  simp [pairs, mapValues]

/-- No key is iterated over twice. -/
theorem nodup_fst_pairs : ((pairs map).map Prod.fst).Nodup := by
  have nodup := AList.keys_nodup map
  rw [AList.keys, List.keys] at nodup
  rw [pairs, List.map_map]
  exact nodup

variable [DecidableEq Key]

theorem mem_pairs {value : Value} :
    (key, value) ∈ pairs map ↔ map.lookup key = some value := by
  rw [← Option.mem_def, AList.mem_lookup_iff]
  simp [pairs]

@[simp] theorem lookup_mapValues (transform : Key → Value → Result) :
    (mapValues transform map).lookup key = (map.lookup key).map (transform key) := by
  apply Option.ext
  intro result
  rw [← Option.mem_def, AList.mem_lookup_iff, Option.map_eq_some_iff]
  simp only [← Option.mem_def, AList.mem_lookup_iff]
  constructor
  · intro member
    rcases List.mem_map.mp member with ⟨⟨other, value⟩, inside, equal⟩
    cases equal
    exact ⟨value, inside, rfl⟩
  · rintro ⟨value, inside, rfl⟩
    exact List.mem_map.mpr ⟨⟨key, value⟩, inside, rfl⟩

theorem mem_iff_exists_lookup : key ∈ map ↔ ∃ value, map.lookup key = some value := by
  rw [← AList.lookup_isSome, Option.isSome_iff_exists]

theorem not_mem_iff_lookup : key ∉ map ↔ map.lookup key = none :=
  AList.lookup_eq_none.symm

theorem size_eq_zero : size map = 0 ↔ ∀ key, map.lookup key = none := by
  rw [size, List.length_eq_zero_iff]
  constructor
  · intro empty key
    rw [AList.lookup_eq_none, AList.mem_keys, AList.keys, empty]
    simp
  · intro absent
    rw [List.eq_nil_iff_forall_not_mem]
    rintro ⟨key, value⟩ member
    have found := AList.mem_lookup_iff.mpr member
    rw [absent key] at found
    cases found

theorem size_erase_le (key : Key) : size (map.erase key) ≤ size map := by
  change (map.entries.kerase key).length ≤ map.entries.length
  exact List.Sublist.length_le (List.kerase_sublist key map.entries)

theorem size_insert_le (key : Key) (value : Value) :
    size (map.insert key value) ≤ size map + 1 := by
  rw [size, AList.entries_insert, List.length_cons]
  exact Nat.succ_le_succ (List.Sublist.length_le (List.kerase_sublist key map.entries))

theorem lookup_insert_eq (other : Key) (value : Value) :
    (map.insert key value).lookup other = if other = key then some value else map.lookup other := by
  by_cases same : other = key
  · subst same
    rw [if_pos rfl, AList.lookup_insert]
  · rw [if_neg same, AList.lookup_insert_ne same]

theorem lookup_erase_eq (other : Key) :
    (map.erase key).lookup other = if other = key then none else map.lookup other := by
  by_cases same : other = key
  · subst same
    rw [if_pos rfl, AList.lookup_erase]
  · rw [if_neg same, AList.lookup_erase_ne same]

/-- The pairs under one key: the looked-up one, once. -/
theorem filter_pairs (key : Key) :
    (pairs map).filter (fun pair => pair.1 = key) =
      ((map.lookup key).map fun value => (key, value)).toList := by
  rcases map with ⟨entries, nodupKeys⟩
  induction entries with
  | nil => rfl
  | cons entry rest induction =>
      rcases entry with ⟨first, value⟩
      rcases List.nodupKeys_cons.mp nodupKeys with ⟨fresh, restNodup⟩
      have restEq := induction restNodup
      simp only [pairs, AList.lookup] at restEq ⊢
      by_cases same : first = key
      · subst same
        rw [List.dlookup_eq_none.mpr fresh] at restEq
        simp [restEq, List.dlookup_cons_eq]
      · rw [List.dlookup_cons_ne _ _ (Ne.symm same)]
        simp [same, restEq]

/-- A list built from the pairs in turn, where only one key's pair adds anything. -/
theorem flatMap_pairs {Part : Type w} (key : Key) (parts : Key × Value → List Part)
    (others : ∀ pair ∈ pairs map, pair.1 ≠ key → parts pair = []) :
    (pairs map).flatMap parts =
      (map.lookup key).toList.flatMap fun value => parts (key, value) := by
  have narrowed : ∀ list : List (Key × Value), (∀ pair ∈ list, pair.1 ≠ key → parts pair = []) →
      list.flatMap parts = (list.filter fun pair => pair.1 = key).flatMap parts := by
    intro list
    induction list with
    | nil => exact fun _ => rfl
    | cons pair rest induction =>
        intro silent
        have later := induction fun other member => silent other (List.mem_cons_of_mem _ member)
        by_cases here : pair.1 = key
        · rw [List.filter_cons_of_pos (by simpa using here), List.flatMap_cons, List.flatMap_cons,
            later]
        · rw [List.filter_cons_of_neg (by simpa using here), List.flatMap_cons,
            silent pair List.mem_cons_self here, later, List.nil_append]
  rw [narrowed _ others, filter_pairs]
  cases map.lookup key <;> simp

/-- Results that name the key they come from: those of one key come from the
looked-up value alone. -/
theorem filter_filterMap_pairs {select : Key × Value → Option Result} {source : Result → Key}
    (named : ∀ pair result, select pair = some result → source result = pair.1) (key : Key) :
    ((pairs map).filterMap select).filter (fun result => source result = key) =
      ((map.lookup key).bind fun value => select (key, value)).toList := by
  have swap : ∀ list : List (Key × Value),
      (list.filterMap select).filter (fun result => source result = key) =
        (list.filter fun pair => pair.1 = key).filterMap select := by
    intro list
    induction list with
    | nil => rfl
    | cons pair rest induction =>
        cases selected : select pair with
        | none =>
            rw [List.filterMap_cons_none selected, induction]
            by_cases here : pair.1 = key
            · rw [List.filter_cons_of_pos (by simpa using here), List.filterMap_cons_none selected]
            · rw [List.filter_cons_of_neg (by simpa using here)]
        | some result =>
            have sourceEq := named pair result selected
            rw [List.filterMap_cons_some selected]
            by_cases here : pair.1 = key
            · rw [List.filter_cons_of_pos (by simpa [sourceEq] using here),
                List.filter_cons_of_pos (by simpa using here),
                List.filterMap_cons_some selected, induction]
            · rw [List.filter_cons_of_neg (by simpa [sourceEq] using here),
                List.filter_cons_of_neg (by simpa using here), induction]
  rw [swap, filter_pairs]
  cases map.lookup key with
  | none => rfl
  | some value => cases selected : select (key, value) <;> simp [selected]

end UnorderedMap

end Vela.Foundation
