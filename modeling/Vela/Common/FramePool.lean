import Mathlib.Data.BitVec
import Mathlib.Data.List.Perm.Basic
import Mathlib.Data.List.Range
import Vela.Foundation.Machine

/-! # Frame pools

One block of storage that is cut into slots. A buffer holds its slot until the last
reference to it is destroyed. -/

namespace Vela

open Foundation

structure FramePool where
  bufferSize : BitVec 64
  count : BitVec 64
  /-- The size of the storage, in bytes. -/
  storage : BitVec 64
  /-- Slots to hand out, the next one last. -/
  freeSlots : List Nat
  deriving DecidableEq, Repr

namespace FramePool

/-- A view of the storage. -/
structure Buffer where
  /-- Where it begins in the storage. -/
  data : BitVec 64
  capacity : BitVec 64
  slot : Nat
  deriving DecidableEq, Repr

/-- A pool, unless the allocator refuses: `granted` says which requests, in bytes, it
grants. Sizes are computed in 64 bits. -/
def create (granted : Nat → Bool) (bufferSize count : BitVec 64) : Option FramePool :=
  let storage := bufferSize * count
  if granted storage.toNat && granted (count.toNat * 8) then
    some { bufferSize, count, storage, freeSlots := List.range count.toNat }
  else none

def bufferAt (pool : FramePool) (slot : Nat) : Buffer where
  data := BitVec.ofNat 64 slot * pool.bufferSize
  capacity := pool.bufferSize
  slot := slot

/-- The memory of the reference itself is taken to be granted. -/
def acquire (pool : FramePool) : FramePool × Option Buffer :=
  match pool.freeSlots.getLast? with
  | none => (pool, none)
  | some slot =>
      ({ pool with freeSlots := pool.freeSlots.dropLast }, some (pool.bufferAt slot))

def available (pool : FramePool) : Nat := pool.freeSlots.length

def release (pool : FramePool) (slot : Nat) : FramePool :=
  { pool with freeSlots := pool.freeSlots ++ [slot] }

/-! ## References -/

/-- A buffer that is referred to, with the number of its further references. -/
structure Shared where
  buffer : Buffer
  others : Nat := 0
  deriving DecidableEq, Repr

/-- A pool with the live buffers. -/
structure InUse where
  pool : FramePool
  live : List Shared := []
  deriving DecidableEq, Repr

/-- Calls of the users of a pool; live buffers are named by their place in the list. -/
inductive Event where
  | acquire
  | copy (index : Nat)
  | destroy (index : Nat)
  deriving DecidableEq, Repr

/-- The deleter runs with the last reference. -/
def destroy (use : InUse) (index : Nat) : InUse :=
  match use.live[index]? with
  | none => use
  | some shared =>
      match shared.others with
      | 0 => { pool := use.pool.release shared.buffer.slot, live := use.live.eraseIdx index }
      | others + 1 => { use with live := use.live.set index { shared with others } }

def copy (use : InUse) (index : Nat) : InUse :=
  match use.live[index]? with
  | none => use
  | some shared =>
      { use with live := use.live.set index { shared with others := shared.others + 1 } }

def step (use : InUse) : Event → InUse × Option Buffer
  | .acquire =>
      match use.pool.acquire with
      | (pool, none) => ({ use with pool }, none)
      | (pool, some buffer) => ({ pool, live := use.live ++ [{ buffer }] }, some buffer)
  | .copy index => (copy use index, none)
  | .destroy index => (destroy use index, none)

def machine (pool : FramePool) : Machine InUse Event (Option Buffer) where
  initial := { pool }
  step := step

/-! ## What every run keeps -/

/-- No byte belongs to both buffers. -/
def Buffer.Apart (buffer other : Buffer) : Prop :=
  buffer.data.toNat + buffer.capacity.toNat ≤ other.data.toNat ∨
    other.data.toNat + other.capacity.toNat ≤ buffer.data.toNat

/-- The slots in use. -/
def InUse.slots (use : InUse) : List Nat := use.live.map fun shared => shared.buffer.slot

/-- Each slot of `pool` is free or in use, and in use by a buffer that lies there. -/
structure Accounted (pool : FramePool) (use : InUse) : Prop where
  sameSize : use.pool.bufferSize = pool.bufferSize
  sameCount : use.pool.count = pool.count
  sameStorage : use.pool.storage = pool.storage
  slots : (use.slots ++ use.pool.freeSlots).Perm (List.range pool.count.toNat)
  buffers : ∀ shared ∈ use.live, shared.buffer = pool.bufferAt shared.buffer.slot

variable {pool : FramePool} {use : InUse}

theorem Accounted.total (accounted : Accounted pool use) :
    use.live.length + use.pool.freeSlots.length = pool.count.toNat := by
  have total := accounted.slots.length_eq
  rwa [List.length_append, InUse.slots, List.length_map, List.length_range] at total

theorem bufferAt_congr {other : FramePool} (sameSize : other.bufferSize = pool.bufferSize)
    (slot : Nat) : other.bufferAt slot = pool.bufferAt slot := by
  rw [bufferAt, bufferAt, sameSize]

theorem Accounted.acquire (accounted : Accounted pool use) :
    Accounted pool (step use .acquire).1 := by
  rw [step, FramePool.acquire]
  cases last : use.pool.freeSlots.getLast? with
  | none => exact accounted
  | some slot =>
      rcases List.getLast?_eq_some_iff.mp last with ⟨rest, free⟩
      refine ⟨accounted.sameSize, accounted.sameCount, accounted.sameStorage, ?_, ?_⟩
      · have slots := accounted.slots
        rw [free] at slots
        simp only [InUse.slots, free, List.dropLast_concat, List.map_append, List.map_singleton,
          List.append_assoc]
        exact (List.Perm.append_left _ List.perm_append_comm).trans slots
      · intro shared member
        rcases List.mem_append.mp member with old | new
        · exact accounted.buffers shared old
        · rw [List.mem_singleton.mp new]
          exact bufferAt_congr accounted.sameSize slot

/-- Only the number of references of a buffer changes. -/
theorem Accounted.set (accounted : Accounted pool use) {index : Nat} {shared : Shared}
    (found : use.live[index]? = some shared) (others : Nat) :
    Accounted pool { use with live := use.live.set index { shared with others } } := by
  have sameSlots : (use.live.set index { shared with others }).map
      (fun shared => shared.buffer.slot) = use.slots := by
    rcases List.getElem?_eq_some_iff.mp found with ⟨inside, here⟩
    have bound : index < (use.live.map fun shared => shared.buffer.slot).length := by
      rwa [List.length_map]
    have unchanged : shared.buffer.slot =
        (use.live.map fun shared => shared.buffer.slot)[index] := by
      rw [List.getElem_map, here]
    rw [List.map_set, InUse.slots]
    conv => lhs; arg 3; rw [unchanged]
    exact List.set_getElem_self bound
  refine ⟨accounted.sameSize, accounted.sameCount, accounted.sameStorage, ?_, ?_⟩
  · rw [InUse.slots, sameSlots]
    exact accounted.slots
  · intro other member
    rcases List.mem_or_eq_of_mem_set member with old | new
    · exact accounted.buffers other old
    · rw [new]
      exact accounted.buffers shared (List.mem_of_getElem? found)

theorem Accounted.last (accounted : Accounted pool use) {index : Nat} {shared : Shared}
    (found : use.live[index]? = some shared) :
    Accounted pool { pool := use.pool.release shared.buffer.slot
                     live := use.live.eraseIdx index } := by
  rcases List.getElem?_eq_some_iff.mp found with ⟨inside, here⟩
  refine ⟨accounted.sameSize, accounted.sameCount, accounted.sameStorage, ?_, ?_⟩
  · have without : (shared.buffer.slot ::
        (use.live.eraseIdx index).map fun shared => shared.buffer.slot).Perm use.slots := by
      have split := (List.getElem_cons_eraseIdx_perm inside).map fun shared => shared.buffer.slot
      rwa [here] at split
    calc (use.live.eraseIdx index).map (fun shared => shared.buffer.slot) ++
          (use.pool.freeSlots ++ [shared.buffer.slot])
        |>.Perm (shared.buffer.slot :: ((use.live.eraseIdx index).map
          (fun shared => shared.buffer.slot) ++ use.pool.freeSlots)) := by
            rw [← List.append_assoc]
            exact List.perm_append_singleton _ _
      _ |>.Perm (use.slots ++ use.pool.freeSlots) := without.append_right _
      _ |>.Perm (List.range pool.count.toNat) := accounted.slots
  · intro other member
    exact accounted.buffers other (List.mem_of_mem_eraseIdx member)

theorem Accounted.step (accounted : Accounted pool use) (event : Event) :
    Accounted pool (FramePool.step use event).1 := by
  cases event with
  | acquire => exact accounted.acquire
  | copy index =>
      rw [FramePool.step, copy]
      cases found : use.live[index]? with
      | none => exact accounted
      | some shared => exact accounted.set found (shared.others + 1)
  | destroy index =>
      rw [FramePool.step, destroy]
      cases found : use.live[index]? with
      | none => exact accounted
      | some shared =>
          cases count : shared.others with
          | zero => simpa only [count] using accounted.last found
          | succ others => simpa only [count] using accounted.set found others

theorem accounted_run (fresh : pool.freeSlots = List.range pool.count.toNat)
    (events : List Event) : Accounted pool (pool.machine.run events) := by
  refine Machine.invariant ?_ (fun use event accounted => accounted.step event) events
  refine ⟨rfl, rfl, rfl, ?_, by simp [machine]⟩
  show ([] ++ pool.freeSlots).Perm _
  rw [List.nil_append, fresh]

/-! ## Where the buffers lie -/

/-- The pool hands out its slots and nothing else, to one user each. -/
structure Exclusive (use : InUse) : Prop where
  slots : (use.slots ++ use.pool.freeSlots).Perm (List.range use.pool.count.toNat)
  apart : use.live.Pairwise fun shared other => shared.buffer.Apart other.buffer
  inside : ∀ shared ∈ use.live,
    shared.buffer.data.toNat + shared.buffer.capacity.toNat ≤ use.pool.storage.toNat
  exhausted : use.pool.acquire.2 = none ↔ use.live.length = use.pool.count.toNat
  available : use.pool.available + use.live.length = use.pool.count.toNat

theorem Accounted.lt_count (accounted : Accounted pool use) {shared : Shared}
    (member : shared ∈ use.live) : shared.buffer.slot < pool.count.toNat := by
  have isSlot : shared.buffer.slot ∈ use.slots ++ use.pool.freeSlots :=
    List.mem_append_left _ (List.mem_map_of_mem member)
  exact List.mem_range.mp (accounted.slots.mem_iff.mp isSlot)

theorem Accounted.distinct (accounted : Accounted pool use) : use.slots.Nodup :=
  (List.nodup_append.mp (accounted.slots.nodup_iff.mpr List.nodup_range)).1

/-- No buffer comes out exactly when every slot is in use. -/
theorem Accounted.exhausted (accounted : Accounted pool use) :
    use.pool.acquire.2 = none ↔ use.live.length = pool.count.toNat := by
  have total := accounted.total
  rw [FramePool.acquire]
  cases last : use.pool.freeSlots.getLast? with
  | none =>
      rw [List.getLast?_eq_none_iff.mp last, List.length_nil] at total
      simp only [true_iff]
      omega
  | some slot =>
      rcases List.getLast?_eq_some_iff.mp last with ⟨rest, free⟩
      rw [free, List.length_append, List.length_singleton] at total
      simp only [reduceCtorEq, false_iff]
      omega

/-- As long as the storage has no more than 2^64 bytes, the slots follow each other. -/
theorem toNat_data {slot : Nat} (below : slot * pool.bufferSize.toNat < 2 ^ 64)
    (small : slot < 2 ^ 64) : (pool.bufferAt slot).data.toNat = slot * pool.bufferSize.toNat := by
  rw [bufferAt, BitVec.toNat_mul, BitVec.toNat_ofNat, Nat.mod_eq_of_lt small,
    Nat.mod_eq_of_lt below]

section Whole

variable (whole : pool.bufferSize.toNat * pool.count.toNat < 2 ^ 64)

include whole

theorem Accounted.data (accounted : Accounted pool use) {shared : Shared}
    (member : shared ∈ use.live) :
    shared.buffer.data.toNat = shared.buffer.slot * pool.bufferSize.toNat ∧
      shared.buffer.capacity = pool.bufferSize := by
  have below := accounted.lt_count member
  have small := pool.count.isLt
  have product : shared.buffer.slot * pool.bufferSize.toNat ≤
      pool.bufferSize.toNat * pool.count.toNat := by
    rw [Nat.mul_comm pool.bufferSize.toNat]
    exact Nat.mul_le_mul_right _ (Nat.le_of_lt below)
  rw [accounted.buffers shared member]
  exact ⟨toNat_data (by omega) (by omega), rfl⟩

theorem Accounted.apart (accounted : Accounted pool use) {shared other : Shared}
    (member : shared ∈ use.live) (otherMember : other ∈ use.live)
    (different : shared.buffer.slot ≠ other.buffer.slot) : shared.buffer.Apart other.buffer := by
  rcases accounted.data whole member with ⟨data, capacity⟩
  rcases accounted.data whole otherMember with ⟨otherData, otherCapacity⟩
  rw [Buffer.Apart, data, capacity, otherData, otherCapacity, ← Nat.succ_mul, ← Nat.succ_mul]
  rcases Nat.lt_or_gt_of_ne different with below | above
  · exact Or.inl (Nat.mul_le_mul_right _ below)
  · exact Or.inr (Nat.mul_le_mul_right _ above)

theorem Accounted.inside (accounted : Accounted pool use)
    (storage : pool.storage = pool.bufferSize * pool.count) {shared : Shared}
    (member : shared ∈ use.live) :
    shared.buffer.data.toNat + shared.buffer.capacity.toNat ≤ use.pool.storage.toNat := by
  rcases accounted.data whole member with ⟨data, capacity⟩
  rw [accounted.sameStorage, storage, BitVec.toNat_mul, Nat.mod_eq_of_lt whole, data, capacity,
    ← Nat.succ_mul, Nat.mul_comm pool.bufferSize.toNat]
  exact Nat.mul_le_mul_right _ (accounted.lt_count member)

theorem Accounted.exclusive (accounted : Accounted pool use)
    (storage : pool.storage = pool.bufferSize * pool.count) : Exclusive use := by
  have total := accounted.total
  refine ⟨?_, ?_, ?_, ?_, ?_⟩
  · rw [accounted.sameCount]
    exact accounted.slots
  · have slots := List.pairwise_map.mp accounted.distinct
    refine slots.imp_of_mem ?_
    intro shared other member otherMember different
    exact accounted.apart whole member otherMember different
  · intro shared member
    exact accounted.inside whole storage member
  · rw [accounted.sameCount]
    exact accounted.exhausted
  · rw [accounted.sameCount, FramePool.available]
    omega

end Whole

/-! ## When the sizes overflow -/

/-- The highest free slot goes out first. -/
theorem step_acquire {left : Nat} (free : use.pool.freeSlots = List.range (left + 1)) :
    (step use .acquire).1 =
      { pool := { use.pool with freeSlots := List.range left }
        live := use.live ++ [{ buffer := use.pool.bufferAt left }] } := by
  rw [List.range_succ] at free
  rw [step, acquire, free, List.getLast?_concat, List.dropLast_concat]

theorem run_acquires (fresh : pool.freeSlots = List.range pool.count.toNat) {taken : Nat}
    (within : taken ≤ pool.count.toNat) :
    (pool.machine.run (List.replicate taken .acquire)).pool =
      { pool with freeSlots := List.range (pool.count.toNat - taken) } := by
  induction taken with
  | zero =>
      rw [Nat.sub_zero, ← fresh]
      rfl
  | succ taken induction =>
      have before := induction (by omega)
      have left : pool.count.toNat - taken = pool.count.toNat - (taken + 1) + 1 := by omega
      rw [left] at before
      rw [List.replicate_succ', Machine.run_snoc]
      have stepped := step_acquire (congrArg FramePool.freeSlots before)
      exact (congrArg InUse.pool stepped).trans (by rw [before])

/-- Every slot is in use at some time. -/
theorem slot_used (fresh : pool.freeSlots = List.range pool.count.toNat) {slot : Nat}
    (isSlot : slot < pool.count.toNat) :
    ∃ events, ∃ shared ∈ (pool.machine.run events).live, shared.buffer = pool.bufferAt slot := by
  have before := run_acquires fresh (Nat.sub_le pool.count.toNat (slot + 1))
  have left : pool.count.toNat - (pool.count.toNat - (slot + 1)) = slot + 1 := by omega
  rw [left] at before
  have stepped := step_acquire (congrArg FramePool.freeSlots before)
  refine ⟨List.replicate (pool.count.toNat - (slot + 1)) .acquire ++ [.acquire],
    { buffer := pool.bufferAt slot }, ?_, rfl⟩
  rw [Machine.run_snoc]
  have live := congrArg InUse.live stepped
  rw [before] at live
  exact live ▸ List.mem_append_right _ List.mem_cons_self

/-- When the slots do not all have an address, one of them lies beyond the storage. -/
theorem beyond_storage (pool : FramePool)
    (wrapped : 2 ^ 64 ≤ pool.bufferSize.toNat * pool.count.toNat) :
    ∃ slot < pool.count.toNat, pool.storage.toNat <
      (pool.bufferAt slot).data.toNat + (pool.bufferAt slot).capacity.toNat := by
  have small := pool.storage.isLt
  have countSmall := pool.count.isLt
  have positive : 0 < pool.bufferSize.toNat := by
    apply Nat.pos_of_ne_zero
    intro zero
    rw [zero, Nat.zero_mul] at wrapped
    omega
  let slot := pool.storage.toNat / pool.bufferSize.toNat
  have fits : slot * pool.bufferSize.toNat ≤ pool.storage.toNat := Nat.div_mul_le_self _ _
  have next : pool.storage.toNat < (slot + 1) * pool.bufferSize.toNat :=
    Nat.mul_comm _ _ ▸ Nat.lt_mul_div_succ _ positive
  have isSlot : slot < pool.count.toNat := by
    rw [Nat.div_lt_iff_lt_mul positive, Nat.mul_comm]
    omega
  refine ⟨slot, isSlot, ?_⟩
  rw [toNat_data (by omega) (by omega)]
  rw [Nat.succ_mul] at next
  exact next

/-! ## Exclusive slots -/

variable {granted : Nat → Bool} {bufferSize count : BitVec 64}

theorem create_eq (created : create granted bufferSize count = some pool) :
    pool = { bufferSize, count, storage := bufferSize * count
             freeSlots := List.range count.toNat } := by
  rw [create] at created
  split at created
  · exact (Option.some.inj created).symm
  · cases created

/-- In every run the slots are exclusive exactly if the storage has room for all of
them, so that its size does not wrap. -/
theorem exclusive_iff (created : create granted bufferSize count = some pool) :
    (∀ events, Exclusive (pool.machine.run events)) ↔
      bufferSize.toNat * count.toNat < 2 ^ 64 := by
  have size : pool.bufferSize = bufferSize ∧ pool.count = count ∧
      pool.storage = pool.bufferSize * pool.count ∧
      pool.freeSlots = List.range pool.count.toNat := by
    rw [create_eq created]
    exact ⟨rfl, rfl, rfl, rfl⟩
  rcases size with ⟨rfl, rfl, storage, fresh⟩
  constructor
  · intro exclusive
    by_contra wrapped
    rcases pool.beyond_storage (Nat.le_of_not_lt wrapped) with ⟨slot, isSlot, beyond⟩
    rcases slot_used fresh isSlot with ⟨events, shared, member, same⟩
    have inside := (exclusive events).inside shared member
    rw [same, (accounted_run fresh events).sameStorage] at inside
    omega
  · intro whole events
    exact (accounted_run fresh events).exclusive whole storage

/-- An allocator that grants what a vector of bytes can hold. -/
def vectorAllocator (bytes : Nat) : Bool := decide (bytes < 2 ^ 63)

/-- The sixteen buffers of the microphone, mono. -/
theorem exclusive_capture :
    create vectorAllocator 1920 16 = some ⟨1920, 16, 30720, List.range 16⟩ ∧
      ∀ events, Exclusive (machine ⟨1920, 16, 30720, List.range 16⟩ |>.run events) := by
  have created : create vectorAllocator 1920 16 = some ⟨1920, 16, 30720, List.range 16⟩ := by
    decide
  exact ⟨created, (exclusive_iff created).mpr (by decide)⟩

/-- Two buffers of 2^63 bytes have no storage at all, and the first one handed out
lies outside of it. -/
theorem outside_storage :
    ∃ pool events, create vectorAllocator 0x8000000000000000 2 = some pool ∧
      ¬Exclusive (pool.machine.run events) := by
  refine ⟨⟨0x8000000000000000, 2, 0, [0, 1]⟩, [.acquire], by decide, ?_⟩
  intro exclusive
  have inside := exclusive.inside
    ⟨⟨0x8000000000000000, 0x8000000000000000, 1⟩, 0⟩ (by decide)
  exact absurd inside (by decide)

end FramePool

end Vela
