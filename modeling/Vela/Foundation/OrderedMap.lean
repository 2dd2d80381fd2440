import Mathlib.Algebra.GroupWithZero.Nat
import Mathlib.Data.List.Basic
import Mathlib.Data.List.Nodup
import Mathlib.Data.List.Pairwise

/-! # Ordered maps over a comparator

A map kept as its in-order list of entries. Nothing is assumed about the
comparator. On keys that it orders strictly a search ends where it should, and
the laws of a map hold; on others the end of a search is left open, but for an
entry that is found to be equivalent to the key. -/

namespace Vela.Foundation

/-! ## Comparators -/

/-- `less` orders the members of `keys` strictly: irreflexive, exactly one
direction between different keys, and transitive. -/
structure StrictOrderOn {Key : Type u} (less : Key → Key → Bool) (keys : List Key) : Prop where
  irreflexive : ∀ key ∈ keys, less key key = false
  exactlyOne : ∀ left ∈ keys, ∀ right ∈ keys, left ≠ right →
    (less left right = true ↔ less right left = false)
  transitive : ∀ first ∈ keys, ∀ second ∈ keys, ∀ third ∈ keys,
    less first second = true → less second third = true → less first third = true

namespace StrictOrderOn

variable {Key : Type u} {less : Key → Key → Bool} {keys : List Key}

theorem subset {smaller : List Key} (ordered : StrictOrderOn less keys)
    (included : smaller ⊆ keys) : StrictOrderOn less smaller :=
  ⟨fun key member => ordered.irreflexive key (included member),
    fun left leftMem right rightMem =>
      ordered.exactlyOne left (included leftMem) right (included rightMem),
    fun first firstMem second secondMem third thirdMem =>
      ordered.transitive first (included firstMem) second (included secondMem)
        third (included thirdMem)⟩

/-- Keys compared by a number of their own. -/
theorem of_measure (measure : Key → Nat) (injective : Function.Injective measure)
    (compares : ∀ left right, less left right = true ↔ measure left < measure right)
    (keys : List Key) : StrictOrderOn less keys where
  irreflexive := by
    intro key _
    apply Bool.eq_false_iff.mpr
    intro before
    exact Nat.lt_irrefl _ ((compares key key).mp before)
  exactlyOne := by
    intro left _ right _ different
    have apart : measure left ≠ measure right := injective.ne different
    rw [Bool.eq_false_iff, ne_eq, compares, compares]
    omega
  transitive := by
    intro first _ second _ third _ before after
    rw [compares] at before after ⊢
    omega

/-- Keys that the comparator cannot tell apart are equal. -/
theorem eq_of_equivalent (ordered : StrictOrderOn less keys) {left right : Key}
    (leftMem : left ∈ keys) (rightMem : right ∈ keys)
    (notLess : less left right = false) (notGreater : less right left = false) :
    left = right := by
  by_contra different
  have comparable := (ordered.exactlyOne left leftMem right rightMem different).mpr notGreater
  rw [notLess] at comparable
  cases comparable

/-- A nonempty list has a least key. -/
theorem exists_least (ordered : StrictOrderOn less keys) (nonempty : keys ≠ []) :
    ∃ least ∈ keys, ∀ key ∈ keys, key ≠ least → less least key = true := by
  induction keys with
  | nil => exact absurd rfl nonempty
  | cons head tail induction =>
      by_cases single : tail = []
      · subst single
        refine ⟨head, List.mem_cons_self, fun key member different => ?_⟩
        exact absurd (List.mem_singleton.mp member) different
      · have tailOrdered := ordered.subset (List.subset_cons_self head tail)
        rcases induction tailOrdered single with ⟨least, leastMem, isLeast⟩
        have leastMem' : least ∈ head :: tail := List.mem_cons_of_mem _ leastMem
        by_cases headFirst : less head least = true
        · refine ⟨head, List.mem_cons_self, fun key member different => ?_⟩
          rcases List.mem_cons.mp member with equal | inTail
          · exact absurd equal different
          · by_cases same : key = least
            · rw [same]; exact headFirst
            · exact ordered.transitive head List.mem_cons_self least leastMem'
                key member headFirst (isLeast key inTail same)
        · refine ⟨least, leastMem', fun key member different => ?_⟩
          rcases List.mem_cons.mp member with equal | inTail
          · subst equal
            rw [ordered.exactlyOne least leastMem' key member (Ne.symm different)]
            simpa using headFirst
          · exact isLeast key inTail different

end StrictOrderOn

/-! ## Searches -/

/-- Where a search for a key ends: at an entry, or at the place for a new one. -/
inductive Slot where
  | found (index : Nat)
  | fresh (index : Nat)
  deriving DecidableEq

/-- A change of a map: a new entry at an index, or an erase that leaves some keys. -/
inductive Change (Key : Type u) where
  | inserted (index : Nat)
  | erased (left : List Key)

/-- How maps are searched: the slot of a key among the keys in their order, after the
changes that the map has seen. What a tree finds depends on its shape, and that on
these changes alone. -/
structure Search {Key : Type u} (less : Key → Key → Bool) where
  slot : List (Change Key) → List Key → Key → Slot
  equivalent : ∀ {changes : List (Change Key)} {keys : List Key} {key : Key} {index : Nat},
    slot changes keys key = .found index →
      ∃ held, keys[index]? = some held ∧ less held key = false ∧ less key held = false
  placed : ∀ {changes : List (Change Key)} {keys : List Key} {key : Key} {index : Nat},
    slot changes keys key = .fresh index → StrictOrderOn less (key :: keys) →
      keys.Pairwise (fun left right => less left right = true) →
        (∀ held ∈ keys.take index, less held key = true) ∧
          ∀ held ∈ keys.drop index, less key held = true

namespace Search

/-- Lower bound, key by key. -/
def linear {Key : Type u} (less : Key → Key → Bool) : Search less where
  slot _ keys key :=
    let index := keys.findIdx fun held => !less held key
    match keys[index]? with
    | none => .fresh index
    | some held => if less key held then .fresh index else .found index
  equivalent := by
    intro changes keys key index ends
    simp only at ends
    split at ends
    · cases ends
    · rename_i held isHeld
      split at ends
      · cases ends
      · rename_i notGreater
        cases ends
        refine ⟨held, isHeld, ?_, by simpa using notGreater⟩
        rcases List.getElem?_eq_some_iff.mp isHeld with ⟨within, rfl⟩
        simpa using List.findIdx_getElem (w := within)
  placed := by
    intro changes keys key index ends ordered sorted
    simp only at ends
    have isIndex : keys.findIdx (fun held => !less held key) = index := by
      split at ends
      · exact Slot.fresh.inj ends
      · split at ends
        · exact Slot.fresh.inj ends
        · cases ends
    rw [isIndex] at ends
    constructor
    · intro held member
      rcases List.mem_take_iff_getElem.mp member with ⟨position, within, rfl⟩
      rw [← isIndex] at within
      simpa using List.not_of_lt_findIdx (Nat.lt_of_lt_of_le within (Nat.min_le_left _ _))
    · intro held member
      split at ends
      · rename_i beyond
        rw [List.drop_eq_nil_of_le (List.getElem?_eq_none_iff.mp beyond)] at member
        cases member
      · rename_i next isNext
        split at ends
        · rename_i greater
          rcases List.getElem?_eq_some_iff.mp isNext with ⟨within, rfl⟩
          rw [List.drop_eq_getElem_cons within] at member
          rcases List.mem_cons.mp member with isHeld | later
          · rw [isHeld]
            exact greater
          · have after := List.pairwise_cons.mp
              ((List.drop_eq_getElem_cons within ▸ sorted.drop (i := index)))
            exact ordered.transitive key List.mem_cons_self keys[index]
              (List.mem_cons_of_mem _ (List.getElem_mem within)) held
              (List.mem_cons_of_mem _ (List.mem_of_mem_drop later)) greater (after.1 held later)
        · cases ends

end Search

/-! ## Maps -/

structure OrderedMap (Key : Type u) (Value : Type v) (less : Key → Key → Bool) where
  search : Search less
  entries : List (Key × Value) := []
  changes : List (Change Key) := []

namespace OrderedMap

variable {Key : Type u} {Value : Type v} {less : Key → Key → Bool}

def empty : OrderedMap Key Value less := { search := .linear less }

def emptyWith (search : Search less) : OrderedMap Key Value less := { search }

def keys (map : OrderedMap Key Value less) : List Key := map.entries.map Prod.fst

def size (map : OrderedMap Key Value less) : Nat := map.entries.length

def slot (map : OrderedMap Key Value less) (key : Key) : Slot :=
  map.search.slot map.changes map.keys key

/-- The value in the slot found for `key`. -/
def find? (map : OrderedMap Key Value less) (key : Key) : Option Value :=
  match map.slot key with
  | .found index => map.entries[index]?.map Prod.snd
  | .fresh _ => none

/-- Overwrite the slot found for `key`, or insert a new one. -/
def store (map : OrderedMap Key Value less) (key : Key) (value : Value) :
    OrderedMap Key Value less :=
  match map.slot key with
  | .found index =>
      { map with entries := map.entries.modify index fun entry => (entry.1, value) }
  | .fresh index =>
      { map with
        entries := map.entries.take index ++ (key, value) :: map.entries.drop index
        changes := map.changes ++ [.inserted index] }

/-- The map of the entries that an erase leaves. -/
def leave (map : OrderedMap Key Value less) (rest : List (Key × Value)) :
    OrderedMap Key Value less :=
  { map with entries := rest, changes := map.changes ++ [.erased (rest.map Prod.fst)] }

@[simp] theorem leave_entries (map : OrderedMap Key Value less) (rest : List (Key × Value)) :
    (map.leave rest).entries = rest := rfl

theorem mem_keys {map : OrderedMap Key Value less} {key : Key} :
    key ∈ map.keys ↔ ∃ value, (key, value) ∈ map.entries := by
  simp [keys]

/-- What `find?` and `store` do, for any comparator: either one slot matches
and `store` overwrites it, or none does and `store` inserts a new one, at its
place if the comparator orders the keys. -/
theorem store_cases (map : OrderedMap Key Value less) (key : Key) :
    (∃ before slot old after,
      map.entries = before ++ (slot, old) :: after ∧
      map.find? key = some old ∧
      less slot key = false ∧ less key slot = false ∧
      ∀ value, (map.store key value).entries = before ++ (slot, value) :: after) ∨
    (∃ before after,
      map.entries = before ++ after ∧
      map.find? key = none ∧
      (StrictOrderOn less (key :: map.keys) →
        map.entries.Pairwise (fun left right => less left.1 right.1 = true) →
        (∀ entry ∈ before, less entry.1 key = true) ∧
          ∀ entry ∈ after, less key entry.1 = true) ∧
      ∀ value, (map.store key value).entries = before ++ (key, value) :: after) := by
  cases ends : map.slot key with
  | found index =>
      left
      rcases map.search.equivalent ends with ⟨slot, isSlot, notLess, notGreater⟩
      rw [keys, List.getElem?_map, Option.map_eq_some_iff] at isSlot
      rcases isSlot with ⟨entry, isEntry, rfl⟩
      rcases List.getElem?_eq_some_iff.mp isEntry with ⟨within, isOld⟩
      have split : map.entries =
          map.entries.take index ++ entry :: map.entries.drop (index + 1) := by
        rw [← isOld, List.getElem_cons_drop, List.take_append_drop]
      refine ⟨_, entry.1, entry.2, _, split, ?_, notLess, notGreater, fun value => ?_⟩
      · rw [find?, ends]
        simp only [isEntry, Option.map_some]
      · rw [store, ends]
        simp only [List.modify_eq_take_cons_drop within, isOld]
  | fresh index =>
      right
      refine ⟨_, _, (List.take_append_drop index map.entries).symm, ?_, ?_, fun value => ?_⟩
      · rw [find?, ends]
      · intro ordered sorted
        rcases map.search.placed ends ordered (List.pairwise_map.mpr sorted) with
          ⟨allLess, allGreater⟩
        constructor
        · intro entry member
          apply allLess
          rw [keys, ← List.map_take]
          exact List.mem_map_of_mem member
        · intro entry member
          apply allGreater
          rw [keys, ← List.map_drop]
          exact List.mem_map_of_mem member
      · rw [store, ends]

theorem exists_mem_of_find? {map : OrderedMap Key Value less} {key : Key} {value : Value}
    (found : map.find? key = some value) : ∃ slot, (slot, value) ∈ map.entries := by
  rcases map.store_cases key with
    ⟨before, slot, old, after, split, found', _⟩ | ⟨_, _, _, missing, _⟩
  · rw [found'] at found
    cases found
    exact ⟨slot, by rw [split]; simp⟩
  · rw [missing] at found
    cases found

/-- Entries after a `store`: untouched ones, and the slot it wrote. -/
theorem mem_store_cases {map : OrderedMap Key Value less} {key : Key} {value : Value}
    {entry : Key × Value} (member : entry ∈ (map.store key value).entries) :
    entry ∈ map.entries ∨
      (map.find? key = none ∧ entry = (key, value)) ∨
      ∃ slot old, (slot, old) ∈ map.entries ∧ map.find? key = some old ∧
        less slot key = false ∧ less key slot = false ∧ entry = (slot, value) := by
  rcases map.store_cases key with
    ⟨before, slot, old, after, split, found, notLess, notGreater, stored⟩ |
    ⟨before, after, split, missing, _, stored⟩
  · rw [stored] at member
    rw [split]
    rcases List.mem_append.mp member with inBefore | atSlot
    · exact .inl (List.mem_append_left _ inBefore)
    · rcases List.mem_cons.mp atSlot with equal | inAfter
      · exact .inr (.inr ⟨slot, old, by simp, found, notLess, notGreater, equal⟩)
      · exact .inl (by simp [inAfter])
  · rw [stored] at member
    rw [split]
    rcases List.mem_append.mp member with inBefore | atSlot
    · exact .inl (List.mem_append_left _ inBefore)
    · rcases List.mem_cons.mp atSlot with equal | inAfter
      · exact .inr (.inl ⟨missing, equal⟩)
      · exact .inl (by simp [inAfter])

/-- The slot a `store` wrote is in the map afterwards. -/
theorem exists_mem_store (map : OrderedMap Key Value less) (key : Key) (value : Value) :
    ∃ slot, (slot, value) ∈ (map.store key value).entries ∧
      (slot = key ∨ (slot ∈ map.keys ∧ less slot key = false ∧ less key slot = false)) := by
  rcases map.store_cases key with
    ⟨before, slot, old, after, split, _, notLess, notGreater, stored⟩ |
    ⟨before, after, _, _, _, stored⟩
  · refine ⟨slot, by rw [stored]; simp, .inr ⟨?_, notLess, notGreater⟩⟩
    exact mem_keys.mpr ⟨old, by rw [split]; simp⟩
  · exact ⟨key, by rw [stored]; simp, .inl rfl⟩

theorem keys_subset_store (map : OrderedMap Key Value less) (key : Key) (value : Value) :
    map.keys ⊆ (map.store key value).keys := by
  intro other member
  rcases mem_keys.mp member with ⟨old, inMap⟩
  rw [mem_keys]
  rcases map.store_cases key with
    ⟨before, slot, _, after, split, _, _, _, stored⟩ | ⟨before, after, split, _, _, stored⟩
  · rw [split] at inMap
    rw [stored]
    rcases List.mem_append.mp inMap with inBefore | atSlot
    · exact ⟨old, List.mem_append_left _ inBefore⟩
    · rcases List.mem_cons.mp atSlot with equal | inAfter
      · cases equal
        exact ⟨value, List.mem_append_right _ List.mem_cons_self⟩
      · exact ⟨old, by simp [inAfter]⟩
  · rw [split] at inMap
    rw [stored]
    rcases List.mem_append.mp inMap with inBefore | inAfter
    · exact ⟨old, List.mem_append_left _ inBefore⟩
    · exact ⟨old, by simp [inAfter]⟩

/-- What a `store` adds to the total of a measure of the values: the value takes
the place of the one found, if there was one. -/
theorem sum_store (measure : Value → Nat) (map : OrderedMap Key Value less) (key : Key)
    (value : Value) :
    ((map.store key value).entries.map fun entry => measure entry.2).sum +
        ((map.find? key).map measure).getD 0 =
      (map.entries.map fun entry => measure entry.2).sum + measure value := by
  rcases map.store_cases key with
    ⟨before, slot, old, after, split, found, _, _, stored⟩ |
    ⟨before, after, split, missing, _, stored⟩
  · rw [stored, split, found]
    simp only [List.map_append, List.map_cons, List.sum_append_nat, List.sum_cons, Option.map_some,
      Option.getD_some]
    omega
  · rw [stored, split, missing]
    simp only [List.map_append, List.map_cons, List.sum_append_nat, List.sum_cons, Option.map_none,
      Option.getD_none]
    omega

/-- A `store` takes a new slot exactly if none was found. -/
theorem size_store (map : OrderedMap Key Value less) (key : Key) (value : Value) :
    (map.store key value).size = map.size + if (map.find? key).isSome then 0 else 1 := by
  rcases map.store_cases key with
    ⟨before, slot, old, after, split, found, _, _, stored⟩ |
    ⟨before, after, split, missing, _, stored⟩
  · simp [size, stored, split, found]
  · simp [size, stored, split, missing]
    omega

/-- Storing back what was found changes nothing. -/
theorem store_found {map : OrderedMap Key Value less} {key : Key} {value : Value}
    (found : map.find? key = some value) : map.store key value = map := by
  rcases map with ⟨search, entries, changes⟩
  rw [find?] at found
  rw [store]
  split at found
  · rcases Option.map_eq_some_iff.mp found with ⟨entry, isEntry, rfl⟩
    rcases List.getElem?_eq_some_iff.mp isEntry with ⟨within, isOld⟩
    simp only at within isOld
    simp only [List.modify_eq_take_cons_drop within, isOld]
    rw [← isOld, List.getElem_cons_drop, List.take_append_drop]
  · cases found

theorem find?_of_nil {map : OrderedMap Key Value less} (vacant : map.entries = []) (key : Key) :
    map.find? key = none := by
  rcases map.store_cases key with ⟨before, slot, old, after, split, _⟩ | ⟨_, _, _, missing, _⟩
  · rw [vacant] at split
    exact absurd split.symm (List.append_ne_nil_of_right_ne_nil _ (List.cons_ne_nil _ _))
  · exact missing

@[simp] theorem find?_empty (key : Key) :
    (empty : OrderedMap Key Value less).find? key = none := find?_of_nil rfl key

/-! ## Maps whose keys are strictly ordered -/

def Sorted (map : OrderedMap Key Value less) : Prop :=
  map.entries.Pairwise fun left right => less left.1 right.1 = true

variable {map : OrderedMap Key Value less} {key : Key}

theorem sorted_empty : (empty : OrderedMap Key Value less).Sorted := List.Pairwise.nil

theorem Sorted.nodup_keys (sorted : map.Sorted) (ordered : StrictOrderOn less map.keys) :
    map.keys.Nodup := by
  refine List.pairwise_map.mpr (List.Pairwise.imp_of_mem ?_ sorted)
  intro left right leftMem _ before same
  rw [← same, ordered.irreflexive left.1 (mem_keys.mpr ⟨left.2, leftMem⟩)] at before
  cases before

/-- A sorted map holds one entry for each key. -/
theorem Sorted.value_unique (sorted : map.Sorted) (ordered : StrictOrderOn less map.keys)
    {left right : Value} (leftMem : (key, left) ∈ map.entries)
    (rightMem : (key, right) ∈ map.entries) : left = right :=
  congrArg Prod.snd (List.inj_on_of_nodup_map (sorted.nodup_keys ordered) leftMem rightMem rfl)

/-- A list built from the entries in turn, where only one key's entry adds
anything. -/
theorem Sorted.flatMap_entries {Part : Type w} (sorted : map.Sorted)
    (ordered : StrictOrderOn less map.keys) {value : Value} (member : (key, value) ∈ map.entries)
    (parts : Key × Value → List Part)
    (others : ∀ entry ∈ map.entries, entry.1 ≠ key → parts entry = []) :
    map.entries.flatMap parts = parts (key, value) := by
  have once := sorted.nodup_keys ordered
  rcases List.mem_iff_append.mp member with ⟨before, after, split⟩
  rw [keys, split, List.map_append, List.map_cons, List.nodup_middle, List.nodup_cons] at once
  rw [split] at others ⊢
  have silent : ∀ entry ∈ before ++ after, parts entry = [] := by
    intro entry inside
    apply others entry
    · rw [List.mem_append, List.mem_cons]
      rcases List.mem_append.mp inside with inBefore | inAfter
      · exact .inl inBefore
      · exact .inr (.inr inAfter)
    · intro same
      apply once.1
      rw [← List.map_append]
      exact List.mem_map.mpr ⟨entry, inside, same⟩
  rw [List.flatMap_append, List.flatMap_cons,
    List.flatMap_eq_nil_iff.mpr fun entry inside => silent entry (List.mem_append_left _ inside),
    List.flatMap_eq_nil_iff.mpr fun entry inside => silent entry (List.mem_append_right _ inside)]
  simp

theorem Sorted.split (sorted : map.Sorted) {before after : List (Key × Value)}
    (split : map.entries = before ++ after) :
    (before.Pairwise fun left right => less left.1 right.1 = true) ∧
      (after.Pairwise fun left right => less left.1 right.1 = true) ∧
      ∀ left ∈ before, ∀ right ∈ after, less left.1 right.1 = true := by
  unfold Sorted at sorted
  rw [split] at sorted
  exact List.pairwise_append.mp sorted

theorem find?_eq_some_iff (sorted : map.Sorted)
    (ordered : StrictOrderOn less (key :: map.keys)) {value : Value} :
    map.find? key = some value ↔ (key, value) ∈ map.entries := by
  have inner := ordered.subset (List.subset_cons_self key map.keys)
  have keyMem : key ∈ key :: map.keys := List.mem_cons_self
  rcases map.store_cases key with
    ⟨before, slot, old, after, split, found, notLess, notGreater, _⟩ |
    ⟨before, after, split, missing, placed, _⟩
  · have slotIn : (slot, old) ∈ map.entries := by rw [split]; simp
    have slotMem : slot ∈ map.keys := mem_keys.mpr ⟨old, slotIn⟩
    have same : slot = key := ordered.eq_of_equivalent
      (List.mem_cons_of_mem _ slotMem) keyMem notLess notGreater
    subst same
    rw [found, Option.some.injEq]
    refine ⟨fun same => by rw [← same]; exact slotIn, fun member => ?_⟩
    exact sorted.value_unique inner slotIn member
  · rw [missing]
    refine ⟨nofun, fun member => ?_⟩
    rcases placed ordered sorted with ⟨allLess, allGreater⟩
    have irreflexive := ordered.irreflexive key keyMem
    rw [split] at member
    rcases List.mem_append.mp member with inBefore | inAfter
    · have less := allLess _ inBefore
      rw [irreflexive] at less
      cases less
    · have greater := allGreater _ inAfter
      rw [irreflexive] at greater
      cases greater

theorem find?_eq_none_iff (sorted : map.Sorted)
    (ordered : StrictOrderOn less (key :: map.keys)) :
    map.find? key = none ↔ key ∉ map.keys := by
  rw [Option.eq_none_iff_forall_ne_some, mem_keys]
  simp [find?_eq_some_iff sorted ordered]

/-- A list built from the entries in turn, where only one key's entry can add
anything: what that key's value adds, if it is there. -/
theorem Sorted.flatMap_find? {Part : Type w} (sorted : map.Sorted)
    (ordered : StrictOrderOn less (key :: map.keys)) (parts : Key × Value → List Part)
    (others : ∀ entry ∈ map.entries, entry.1 ≠ key → parts entry = []) :
    map.entries.flatMap parts =
      match map.find? key with
      | none => []
      | some value => parts (key, value) := by
  cases found : map.find? key with
  | none =>
      have absent := (find?_eq_none_iff sorted ordered).mp found
      apply List.flatMap_eq_nil_iff.mpr
      intro entry inside
      apply others entry inside
      intro same
      exact absent (same ▸ mem_keys.mpr ⟨entry.2, inside⟩)
  | some value =>
      have member := (find?_eq_some_iff sorted ordered).mp found
      exact sorted.flatMap_entries
        (ordered.subset (List.subset_cons_self key map.keys)) member parts
        others

theorem Sorted.store (sorted : map.Sorted)
    (ordered : StrictOrderOn less (key :: map.keys)) (value : Value) :
    (map.store key value).Sorted := by
  unfold Sorted
  rcases map.store_cases key with
    ⟨before, slot, old, after, split, _, _, _, stored⟩ |
    ⟨before, after, split, _, placed, stored⟩
  · rw [stored]
    unfold Sorted at sorted
    rw [split] at sorted
    simpa [List.pairwise_append, List.pairwise_cons] using sorted
  · rw [stored]
    rcases sorted.split split with ⟨beforeSorted, afterSorted, across⟩
    rcases placed ordered sorted with ⟨allLess, allGreater⟩
    refine List.pairwise_append.mpr ⟨beforeSorted,
      List.pairwise_cons.mpr ⟨allGreater, afterSorted⟩, ?_⟩
    intro left leftMem right rightMem
    rcases List.mem_cons.mp rightMem with equal | inAfter
    · rw [equal]; exact allLess left leftMem
    · exact across left leftMem right inAfter

theorem mem_store_iff (sorted : map.Sorted)
    (ordered : StrictOrderOn less (key :: map.keys)) {value : Value} {entry : Key × Value} :
    entry ∈ (map.store key value).entries ↔
      entry = (key, value) ∨ (entry.1 ≠ key ∧ entry ∈ map.entries) := by
  have keyMem : key ∈ key :: map.keys := List.mem_cons_self
  have inner := ordered.subset (List.subset_cons_self key map.keys)
  have others : ∀ before after, map.entries = before ++ after →
      ∀ left ∈ before, ∀ right ∈ after, left.1 ≠ right.1 := by
    intro before after split left leftMem right rightMem same
    have across := (sorted.split split).2.2 left leftMem right rightMem
    rw [same, inner.irreflexive right.1
      (mem_keys.mpr ⟨right.2, by rw [split]; exact List.mem_append_right _ rightMem⟩)] at across
    cases across
  rcases map.store_cases key with
    ⟨before, slot, old, after, split, _, notLess, notGreater, stored⟩ |
    ⟨before, after, split, missing, _, stored⟩
  · have slotMem : slot ∈ map.keys := mem_keys.mpr ⟨old, by rw [split]; simp⟩
    have same : slot = key := ordered.eq_of_equivalent
      (List.mem_cons_of_mem _ slotMem) keyMem notLess notGreater
    subst same
    have beforeOther : ∀ left ∈ before, left.1 ≠ slot := fun left member =>
      others before ((slot, old) :: after) split left member (slot, old) List.mem_cons_self
    have afterOther : ∀ right ∈ after, right.1 ≠ slot := fun right member same =>
      others (before ++ [(slot, old)]) after (by simp [split]) (slot, old) (by simp) right member
        same.symm
    rw [stored, split]
    simp only [List.mem_append, List.mem_cons]
    constructor
    · rintro (inBefore | equal | inAfter)
      · exact .inr ⟨beforeOther _ inBefore, .inl inBefore⟩
      · exact .inl equal
      · exact .inr ⟨afterOther _ inAfter, .inr (.inr inAfter)⟩
    · rintro (equal | ⟨different, inBefore | equal | inAfter⟩)
      · exact .inr (.inl equal)
      · exact .inl inBefore
      · exact absurd (by rw [equal]) different
      · exact .inr (.inr inAfter)
  · have absent := (find?_eq_none_iff sorted ordered).mp missing
    have allOther : ∀ other ∈ map.entries, other.1 ≠ key := by
      rintro ⟨_, old⟩ member rfl
      exact absent (mem_keys.mpr ⟨old, member⟩)
    rw [stored, split]
    rw [split] at allOther
    simp only [List.mem_append, List.mem_cons] at allOther ⊢
    constructor
    · rintro (inBefore | equal | inAfter)
      · exact .inr ⟨allOther _ (.inl inBefore), .inl inBefore⟩
      · exact .inl equal
      · exact .inr ⟨allOther _ (.inr inAfter), .inr inAfter⟩
    · rintro (equal | ⟨_, inBefore | inAfter⟩)
      · exact .inr (.inl equal)
      · exact .inl inBefore
      · exact .inr (.inr inAfter)

/-- A `store` changes what is found for its own key only. -/
theorem find?_store [DecidableEq Key] (sorted : map.Sorted)
    (ordered : ∀ keys, StrictOrderOn less keys) (value : Value) (other : Key) :
    (map.store key value).find? other = if other = key then some value else map.find? other := by
  have stored := sorted.store (ordered (key :: map.keys)) value
  apply Option.ext
  intro found
  rw [find?_eq_some_iff stored (ordered _), mem_store_iff sorted (ordered _), Prod.mk.injEq]
  split
  · rename_i same
    simp [same, eq_comm]
  · rename_i different
    simp [different, find?_eq_some_iff sorted (ordered (other :: map.keys))]

theorem mem_keys_store (sorted : map.Sorted)
    (ordered : StrictOrderOn less (key :: map.keys)) {value : Value} {other : Key} :
    other ∈ (map.store key value).keys ↔ other = key ∨ other ∈ map.keys := by
  simp only [mem_keys, mem_store_iff sorted ordered, Prod.mk.injEq]
  constructor
  · rintro ⟨_, ⟨same, _⟩ | ⟨_, member⟩⟩
    · exact .inl same
    · exact .inr ⟨_, member⟩
  · rintro (same | ⟨old, member⟩)
    · exact ⟨value, .inl ⟨same, rfl⟩⟩
    · by_cases same : other = key
      · exact ⟨value, .inl ⟨same, rfl⟩⟩
      · exact ⟨old, .inr ⟨same, member⟩⟩

end OrderedMap

end Vela.Foundation
