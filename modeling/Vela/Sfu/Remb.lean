import Mathlib.Order.Bounds.Basic
import Vela.Foundation.Machine
import Vela.Sfu.Room

/-! # Bitrate targets of a room

A sender's target is meant to be the least estimate its receivers reported. The
stored target is a cache of that bound; the results say which calls keep it
up to date. -/

namespace Vela

open Foundation UnorderedMap

namespace Room

variable {Sink : Type}

/-! ## The bound a target stands for -/

/-- The non-zero estimates of everyone in the room but the sender. -/
def receiverEstimates (room : Room Sink) (senderId : ParticipantId) : Set Nat :=
  {estimate | estimate ≠ 0 ∧ ∃ receiver participant, receiver ≠ senderId ∧
    room.find receiver = some participant ∧ participant.rembEstimate.toNat = estimate}

/-- The least of a set of estimates, or zero when nobody reported one. -/
def IsBoundOf (estimates : Set Nat) (target : Nat) : Prop :=
  IsLeast estimates target ∨ estimates = ∅ ∧ target = 0

/-- Every member's target is the bound its receivers impose. -/
def TargetsExact (room : Room Sink) : Prop :=
  ∀ senderId ∈ room.participants,
    IsBoundOf (room.receiverEstimates senderId) (room.targetBitrate senderId).toNat

/-- The estimate on record for an id, zero when it is not in the room. -/
def estimateOf (room : Room Sink) (id : ParticipantId) : BitVec 32 :=
  ((room.find id).map Participant.rembEstimate).getD 0

theorem targetBitrate_eq (room : Room Sink) (id : ParticipantId) :
    room.targetBitrate id = ((room.find id).map Participant.targetBitrate).getD 0 := by
  rw [targetBitrate]
  cases room.find id <;> rfl

theorem receiverEstimates_eq (room : Room Sink) (senderId : ParticipantId) :
    room.receiverEstimates senderId =
      {estimate | estimate ≠ 0 ∧ ∃ receiver, receiver ≠ senderId ∧
        (room.estimateOf receiver).toNat = estimate} := by
  apply Set.ext
  intro estimate
  simp only [receiverEstimates, Set.mem_ofPred_eq, estimateOf]
  apply and_congr_right
  intro positive
  apply exists_congr
  intro receiver
  cases found : room.find receiver with
  | none =>
      simp only [reduceCtorEq, false_and, and_false, exists_false, false_iff, not_and]
      intro _ zero
      exact positive zero.symm
  | some participant => simp

theorem IsBoundOf.unique {estimates : Set Nat} {left right : Nat}
    (leftBound : IsBoundOf estimates left) (rightBound : IsBoundOf estimates right) :
    left = right := by
  rcases leftBound with leftLeast | ⟨empty, leftZero⟩
  · rcases rightBound with rightLeast | ⟨empty, _⟩
    · exact leftLeast.unique rightLeast
    · have member := leftLeast.1
      rw [empty] at member
      exact absurd member (Set.notMem_empty left)
  · rcases rightBound with rightLeast | ⟨_, rightZero⟩
    · have member := rightLeast.1
      rw [empty] at member
      exact absurd member (Set.notMem_empty right)
    · exact leftZero.trans rightZero.symm

/-! ## The loop over the receivers -/

/-- The estimates met so far by the loop. -/
def estimatesIn (senderId : ParticipantId) (receivers : List (ParticipantId × Participant Sink)) :
    Set Nat :=
  {estimate | estimate ≠ 0 ∧ ∃ pair ∈ receivers, pair.1 ≠ senderId ∧
    pair.2.rembEstimate.toNat = estimate}

theorem estimatesIn_nil (senderId : ParticipantId) :
    estimatesIn senderId ([] : List (ParticipantId × Participant Sink)) = ∅ := by
  simp [estimatesIn]

theorem estimatesIn_snoc (senderId : ParticipantId)
    (receivers : List (ParticipantId × Participant Sink))
    (pair : ParticipantId × Participant Sink) :
    estimatesIn senderId (receivers ++ [pair]) =
      if pair.1 = senderId ∨ pair.2.rembEstimate = 0 then estimatesIn senderId receivers
      else insert pair.2.rembEstimate.toNat (estimatesIn senderId receivers) := by
  apply Set.ext
  intro estimate
  have zero : pair.2.rembEstimate = 0 ↔ pair.2.rembEstimate.toNat = 0 := by
    rw [← BitVec.toNat_inj]
    rfl
  split
  · rename_i skipped
    simp only [estimatesIn, Set.mem_ofPred_eq, List.mem_append, List.mem_singleton]
    grind
  · rename_i counted
    simp only [estimatesIn, Set.mem_ofPred_eq, List.mem_append, List.mem_singleton,
      Set.mem_insert_iff]
    grind

/-- What the loop's two variables say about the estimates met so far. -/
def LoopInvariant (estimates : Set Nat) (least : BitVec 32) (any : Bool) : Prop :=
  if any then IsLeast estimates least.toNat else estimates = ∅ ∧ least = BitVec.allOnes 32

/-- Counting one more estimate. -/
theorem LoopInvariant.count {estimates : Set Nat} {least : BitVec 32} {any : Bool}
    (invariant : LoopInvariant estimates least any) (estimate : BitVec 32) :
    LoopInvariant (insert estimate.toNat estimates)
      (if estimate < least then estimate else least) true := by
  have minimum : (if estimate < least then estimate else least).toNat =
      min estimate.toNat least.toNat := by
    split
    · rename_i below
      exact (Nat.min_eq_left (Nat.le_of_lt (BitVec.lt_def.mp below))).symm
    · rename_i above
      exact (Nat.min_eq_right (Nat.le_of_not_lt fun below => above (BitVec.lt_def.mpr below))).symm
  rw [LoopInvariant, if_pos rfl, minimum]
  cases any with
  | true => exact IsLeast.insert estimate.toNat invariant
  | false =>
      rcases invariant with ⟨empty, unset⟩
      have below : estimate.toNat ≤ least.toNat := by
        rw [unset, BitVec.toNat_allOnes]
        exact Nat.le_sub_one_of_lt estimate.isLt
      rw [empty, Nat.min_eq_left below, insert_empty_eq]
      exact isLeast_singleton

theorem minEstimate_loop (senderId : ParticipantId)
    (receivers : List (ParticipantId × Participant Sink)) :
    LoopInvariant (estimatesIn senderId receivers)
      (minEstimate senderId receivers).1 (minEstimate senderId receivers).2 := by
  induction receivers using List.reverseRecOn with
  | nil => exact ⟨estimatesIn_nil senderId, rfl⟩
  | append_singleton receivers pair induction =>
      rcases pair with ⟨recvId, recv⟩
      rw [estimatesIn_snoc]
      simp only [minEstimate, List.foldl_append, List.foldl_cons, List.foldl_nil] at induction ⊢
      by_cases echo : recvId = senderId
      · rw [if_pos (Or.inl echo), if_pos echo]
        exact induction
      · rw [if_neg echo]
        by_cases silent : recv.rembEstimate = 0
        · rw [if_pos (Or.inr silent), if_pos silent]
          exact induction
        · rw [if_neg (not_or.mpr ⟨echo, silent⟩), if_neg silent]
          exact induction.count recv.rembEstimate

theorem estimatesIn_pairs (room : Room Sink) (senderId : ParticipantId) :
    estimatesIn senderId (pairs room.participants) = room.receiverEstimates senderId := by
  apply Set.ext
  intro estimate
  simp only [estimatesIn, receiverEstimates, Set.mem_ofPred_eq, Prod.exists, mem_pairs, find]
  grind

/-- A recomputed target is the bound. -/
theorem computeTarget_isBound (room : Room Sink) (senderId : ParticipantId) :
    IsBoundOf (room.receiverEstimates senderId) (room.computeTarget senderId).toNat := by
  have loop := minEstimate_loop senderId (pairs room.participants)
  rw [estimatesIn_pairs] at loop
  rw [computeTarget]
  cases any : (minEstimate senderId (pairs room.participants)).2 with
  | true =>
      rw [any] at loop
      simp only [any, if_true]
      exact Or.inl loop
  | false =>
      rw [any] at loop
      simp only [any]
      exact Or.inr ⟨loop.1, rfl⟩

/-! ## Which calls keep the targets exact -/

def machine (id : String) (hasKeyframeRequest : Bool) (maxParticipants : Nat) :
    Machine (Room Sink) (Event Sink) (SfuResponse Sink) where
  initial := create id hasKeyframeRequest maxParticipants
  step := call

/-- The call lets nobody into a room where an estimate is already on record. -/
def JoinsBeforeEstimates (room : Room Sink) : Event Sink → Prop
  | .add id sink => ∀ added requests, room.add id sink = .ok (added, requests) →
      ∀ other participant, room.find other = some participant → participant.rembEstimate = 0
  | _ => True

theorem targetsExact_create (id : String) (hasKeyframeRequest : Bool) (maxParticipants : Nat) :
    TargetsExact (create id hasKeyframeRequest maxParticipants : Room Sink) := by
  intro senderId member
  exact absurd member (not_mem_iff_find.mpr (find_create id hasKeyframeRequest maxParticipants))

theorem targetsExact_recompute (room : Room Sink) : TargetsExact room.recomputeTargetsLocked := by
  intro senderId member
  rcases mem_iff_find.mp member with ⟨participant, found⟩
  have stored := @find_recomputeTargetsLocked _ room senderId
  rw [found] at stored
  rcases Option.map_eq_some_iff.mp stored.symm with ⟨before, _, rfl⟩
  rw [targetBitrate, found]
  exact computeTarget_isBound _ senderId

theorem targetsExact_remove {room removed : Room Sink} {id : ParticipantId}
    (success : room.remove id = .ok removed) : TargetsExact removed := by
  rw [remove] at success
  split at success
  · cases success
    exact targetsExact_recompute _
  · cases success

theorem targetsExact_onRemb {room : Room Sink} (targetsExact : TargetsExact room)
    (id : ParticipantId) (bitrateBps : BitVec 32) : TargetsExact (room.onRemb id bitrateBps) := by
  rw [onRemb]
  split
  · exact targetsExact_recompute _
  · exact targetsExact

/-- Rooms with the same estimates and targets have the same bounds to meet. -/
theorem isBound_congr {left right : Room Sink}
    (sameEstimates : ∀ id, right.estimateOf id = left.estimateOf id)
    (sameTargets : ∀ id, right.targetBitrate id = left.targetBitrate id)
    (senderId : ParticipantId) :
    IsBoundOf (right.receiverEstimates senderId) (right.targetBitrate senderId).toNat ↔
      IsBoundOf (left.receiverEstimates senderId) (left.targetBitrate senderId).toNat := by
  simp only [receiverEstimates_eq, sameEstimates, sameTargets]

theorem targetsExact_forward {room : Room Sink} (targetsExact : TargetsExact room)
    (senderId : ParticipantId) (packet : RtpPacket) :
    TargetsExact (room.forward senderId packet).1 := by
  by_cases member : senderId ∈ room.participants
  · have sameEstimates : ∀ id,
        (room.forward senderId packet).1.estimateOf id = room.estimateOf id := by
      intro id
      rw [estimateOf, estimateOf, find_forward member]
      cases room.find id <;> simp [apply_ite]
    have sameTargets : ∀ id,
        (room.forward senderId packet).1.targetBitrate id = room.targetBitrate id := by
      intro id
      rw [targetBitrate_eq, targetBitrate_eq, find_forward member]
      cases room.find id <;> simp [apply_ite]
    intro id inside
    rw [isBound_congr sameEstimates sameTargets]
    apply targetsExact
    rcases mem_iff_find.mp inside with ⟨participant, found⟩
    rw [find_forward member] at found
    rcases Option.map_eq_some_iff.mp found with ⟨before, foundBefore, _⟩
    exact mem_iff_find.mpr ⟨before, foundBefore⟩
  · rw [forward, if_neg member]
    exact targetsExact

/-- Zero is the bound exactly when nobody reported an estimate. -/
theorem isBoundOf_zero (room : Room Sink) (senderId : ParticipantId) :
    IsBoundOf (room.receiverEstimates senderId) 0 ↔
      ∀ receiver participant, receiver ≠ senderId → room.find receiver = some participant →
        participant.rembEstimate = 0 := by
  have emptyIff : IsBoundOf (room.receiverEstimates senderId) 0 ↔
      room.receiverEstimates senderId = ∅ := by
    constructor
    · intro bound
      rcases bound with least | ⟨empty, _⟩
      · exact absurd rfl least.1.1
      · exact empty
    · intro empty
      exact Or.inr ⟨empty, rfl⟩
  rw [emptyIff, Set.eq_empty_iff_forall_notMem]
  constructor
  · intro silent receiver participant different found
    by_contra reported
    have positive : participant.rembEstimate.toNat ≠ 0 := fun zero =>
      reported (BitVec.eq_of_toNat_eq zero)
    exact silent _ ⟨positive, receiver, participant, different, found, rfl⟩
  · intro silent estimate member
    rcases member with ⟨positive, receiver, participant, different, found, equal⟩
    apply positive
    rw [← equal, silent receiver participant different found]
    rfl

/-- The newcomer starts with target zero, so the targets stay exact exactly
when no estimate was on record. -/
theorem targetsExact_add {room added : Room Sink} {id : ParticipantId} {sink : Option Sink}
    {requests : List ParticipantId} (targetsExact : TargetsExact room)
    (success : room.add id sink = .ok (added, requests)) :
    TargetsExact added ↔ ∀ other participant, room.find other = some participant →
      participant.rembEstimate = 0 := by
  rcases find_of_add success with ⟨unused, _, find_added⟩
  have sameEstimates : ∀ other, added.estimateOf other = room.estimateOf other := by
    intro other
    rw [estimateOf, estimateOf, find_added]
    split
    · rename_i same
      rw [same, unused]
      rfl
    · rfl
  have sameTargets : ∀ other, added.targetBitrate other = room.targetBitrate other := by
    intro other
    rw [targetBitrate_eq, targetBitrate_eq, find_added]
    split
    · rename_i same
      rw [same, unused]
      rfl
    · rfl
  have newcomerTarget : room.targetBitrate id = 0 := by
    rw [targetBitrate, unused]
  have newcomerBound : IsBoundOf (room.receiverEstimates id) (room.targetBitrate id).toNat ↔
      ∀ other participant, room.find other = some participant →
        participant.rembEstimate = 0 := by
    rw [newcomerTarget]
    apply Iff.trans (isBoundOf_zero room id)
    constructor
    · intro silent other participant found
      have different : other ≠ id := by
        intro same
        rw [same, unused] at found
        cases found
      exact silent other participant different found
    · intro silent other participant _ found
      exact silent other participant found
  rw [← newcomerBound]
  constructor
  · intro exactAfter
    have inside : id ∈ added.participants := by
      rw [mem_iff_find, find_added, if_pos rfl]
      exact ⟨_, rfl⟩
    exact (isBound_congr sameEstimates sameTargets id).mp (exactAfter id inside)
  · intro bound other inside
    rw [isBound_congr sameEstimates sameTargets]
    by_cases same : other = id
    · rw [same]
      exact bound
    · apply targetsExact
      rcases mem_iff_find.mp inside with ⟨participant, found⟩
      rw [find_added, if_neg same] at found
      exact mem_iff_find.mpr ⟨participant, found⟩

/-- One call keeps the targets exact exactly when it is no late join. -/
theorem targetsExact_call {room : Room Sink} (targetsExact : TargetsExact room)
    (event : Event Sink) :
    TargetsExact (room.call event).1 ↔ JoinsBeforeEstimates room event := by
  cases event with
  | add id sink =>
      rw [call]
      cases outcome : room.add id sink with
      | error error =>
          simp only [JoinsBeforeEstimates, outcome]
          simp [targetsExact]
      | ok result =>
          rcases result with ⟨added, requests⟩
          simp only [JoinsBeforeEstimates, outcome, targetsExact_add targetsExact outcome]
          simp
  | remove id =>
      rw [call]
      cases outcome : room.remove id with
      | error error => simp [JoinsBeforeEstimates, targetsExact]
      | ok removed => simp [JoinsBeforeEstimates, targetsExact_remove outcome]
  | forward senderId packet =>
      simp [call, JoinsBeforeEstimates, targetsExact_forward targetsExact]
  | onRemb id bitrateBps =>
      simp [call, JoinsBeforeEstimates, targetsExact_onRemb targetsExact]

/-- The stored targets are exact throughout a run exactly when nobody joins it
after an estimate was reported by somebody still in the room. -/
theorem targets_exact_iff (id : String) (hasKeyframeRequest : Bool) (maxParticipants : Nat)
    (events : List (Event Sink)) :
    (machine id hasKeyframeRequest maxParticipants).Always TargetsExact events ↔
      (machine id hasKeyframeRequest maxParticipants).EveryStep JoinsBeforeEstimates events := by
  apply Machine.always_iff_everyStep
  · exact targetsExact_create id hasKeyframeRequest maxParticipants
  · intro room event targetsExact
    exact targetsExact_call targetsExact event

/-- B joins after A reported 800 kbit/s: B's stored target is zero although its
one receiver asked for less than unlimited. -/
theorem late_join_target_stale :
    let room : Room Unit := (machine "room" false kMaxParticipants).run
      [.add "A" none, .onRemb "A" 800000, .add "B" none]
    ¬ TargetsExact room ∧ room.targetBitrate "B" = 0 ∧ "B" ∈ room.participants ∧
      room.estimateOf "A" = 800000 := by
  intro room
  refine ⟨?_, by decide, by decide, by decide⟩
  intro targetsExact
  have silent := (isBoundOf_zero room "B").mp (targetsExact "B" (by decide))
  have reported := silent "A" _ (by decide) rfl
  cases reported

end Room

end Vela
