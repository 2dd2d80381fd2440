import Mathlib.Data.Rat.Defs
import Mathlib.Order.Interval.Finset.Nat
import Vela.Foundation.Machine
import Vela.Foundation.SerialNumber

/-! # Packet loss

The loss estimator sees 16-bit sequence numbers only and recovers how many packets
were sent from the wraps of the highest one. -/

namespace Vela

open Foundation SerialNumber

structure LossEstimator where
  init : Bool := false
  baseSeq : BitVec 16 := 0
  maxSeq : BitVec 16 := 0
  /-- The number of 16-bit wraps observed. -/
  cycles : BitVec 64 := 0
  received : BitVec 64 := 0
  deriving DecidableEq, Repr

namespace LossEstimator

def observe (estimator : LossEstimator) (seq : BitVec 16) : LossEstimator :=
  if !estimator.init then
    { estimator with init := true, baseSeq := seq, maxSeq := seq, received := 1 }
  else
    let estimator := { estimator with received := estimator.received + 1 }
    let delta := seq - estimator.maxSeq
    if delta ≠ 0 ∧ delta < 0x8000 then
      { estimator with
        cycles := if seq < estimator.maxSeq then estimator.cycles + 1 else estimator.cycles
        maxSeq := seq }
    -- A late packet does not move the high-water mark.
    else estimator

def expected (estimator : LossEstimator) : BitVec 64 :=
  if !estimator.init then 0
  else
    let extendedMax := estimator.cycles * 65536 + estimator.maxSeq.setWidth 64
    extendedMax - estimator.baseSeq.setWidth 64 + 1

def lost (estimator : LossEstimator) : BitVec 64 :=
  let exp := estimator.expected
  if exp > estimator.received then exp - estimator.received else 0

/-- In exact arithmetic. -/
def lossPercent (estimator : LossEstimator) : Rat :=
  let exp := estimator.expected
  if exp = 0 then 0 else 100 * estimator.lost.toNat / exp.toNat

/-- The packets with these extended sequence numbers arrive, of which 16 bits are
seen. -/
def observeAll (numbers : List Nat) : LossEstimator :=
  numbers.foldl (fun estimator number => estimator.observe (BitVec.ofNat 16 number)) {}

/-! ## Arrivals -/

def highest (first : Nat) (rest : List Nat) : Nat := rest.foldl max first

/-- How many numbers there are from the first one to the highest one. -/
def span (first : Nat) (rest : List Nat) : Nat := highest first rest - first + 1

/-- How many of them never arrived. -/
def missing (first : Nat) (rest : List Nat) : Nat :=
  (Finset.Icc first (highest first rest) \ (first :: rest).toFinset).card

/-- No number arrives twice, none is below the first one, and none is half of the
16-bit circle away from the highest one so far. -/
structure Arrives (first : Nat) (rest : List Nat) : Prop where
  distinct : (first :: rest).Nodup
  notBelow : ∀ number ∈ rest, first ≤ number
  near : ∀ past number, past ++ [number] <+: rest →
    number < highest first past + 2 ^ 15 ∧ highest first past < number + 2 ^ 15

variable {first number : Nat} {rest : List Nat}

@[simp] theorem highest_snoc (first : Nat) (rest : List Nat) (number : Nat) :
    highest first (rest ++ [number]) = max (highest first rest) number := by
  simp [highest]

theorem le_highest (member : number ∈ first :: rest) : number ≤ highest first rest := by
  induction rest using List.reverseRecOn with
  | nil =>
      rw [List.mem_singleton.mp member]
      exact Nat.le_refl first
  | append_singleton rest last induction =>
      rw [← List.cons_append, List.mem_append, List.mem_singleton] at member
      rw [highest_snoc]
      rcases member with earlier | rfl
      · exact Nat.le_trans (induction earlier) (Nat.le_max_left _ _)
      · exact Nat.le_max_right _ _

theorem first_le_highest (first : Nat) (rest : List Nat) : first ≤ highest first rest :=
  le_highest List.mem_cons_self

theorem arrives_nil (first : Nat) : Arrives first [] where
  distinct := List.nodup_singleton first
  notBelow := by simp
  near := by simp

theorem arrives_snoc :
    Arrives first (rest ++ [number]) ↔
      Arrives first rest ∧ number ∉ first :: rest ∧ first ≤ number ∧
        number < highest first rest + 2 ^ 15 ∧ highest first rest < number + 2 ^ 15 := by
  have nodup : (first :: (rest ++ [number])).Nodup ↔
      (first :: rest).Nodup ∧ number ∉ first :: rest := by
    rw [← List.cons_append, ← List.concat_eq_append, List.nodup_concat, and_comm]
  constructor
  · intro arrives
    rcases nodup.mp arrives.distinct with ⟨distinct, new⟩
    rcases Machine.forall_steps_snoc.mp arrives.near with ⟨near, last⟩
    refine ⟨⟨distinct, fun other member => ?_, near⟩, new, ?_, last⟩
    · exact arrives.notBelow other (List.mem_append_left _ member)
    · exact arrives.notBelow number (by simp)
  · rintro ⟨arrives, new, above, last⟩
    refine ⟨nodup.mpr ⟨arrives.distinct, new⟩, fun other member => ?_,
      Machine.forall_steps_snoc.mpr ⟨arrives.near, last⟩⟩
    rcases List.mem_append.mp member with earlier | newest
    · exact arrives.notBelow other earlier
    · rw [List.mem_singleton.mp newest]
      exact above

/-! ## Recovering the extended numbers -/

/-- What the estimator knows after `first` and `rest`. -/
structure Counted (first : Nat) (rest : List Nat) (estimator : LossEstimator) : Prop where
  started : estimator.init = true
  baseSeq : estimator.baseSeq = BitVec.ofNat 16 first
  maxSeq : estimator.maxSeq = BitVec.ofNat 16 (highest first rest)
  cycles : estimator.cycles = BitVec.ofNat 64 (highest first rest / 2 ^ 16 - first / 2 ^ 16)
  received : estimator.received = BitVec.ofNat 64 (rest.length + 1)

variable {estimator : LossEstimator}

/-- The step that is taken for a number ahead of the highest one is that of its
serial number. -/
theorem observe_eq (started : estimator.init = true) (seq : BitVec 16) :
    estimator.observe seq =
      if precedes estimator.maxSeq seq then
        { estimator with
          received := estimator.received + 1
          cycles := if seq < estimator.maxSeq then estimator.cycles + 1 else estimator.cycles
          maxSeq := seq }
      else { estimator with received := estimator.received + 1 } := by
  have ahead : (seq - estimator.maxSeq ≠ 0 ∧ seq - estimator.maxSeq < 0x8000) ↔
      precedes estimator.maxSeq seq = true := by
    have halfCircle : half 16 = 0x8000 := rfl
    rw [precedes_iff, forward, halfCircle, BitVec.lt_def, Nat.pos_iff_ne_zero, ne_eq, ne_eq,
      ← BitVec.toNat_inj]
    rfl
  simp only [observe, started, Bool.not_true, Bool.false_eq_true, if_false, ahead]

/-- A number ahead of the highest one that is seen as a smaller one has crossed a
wrap. -/
theorem wraps_iff {low high : Nat} (ahead : low < high) (near : high < low + 2 ^ 15) :
    high / 2 ^ 16 = low / 2 ^ 16 + if BitVec.ofNat 16 high < BitVec.ofNat 16 low then 1 else 0 := by
  simp only [BitVec.lt_def, BitVec.toNat_ofNat]
  split <;> omega

theorem Counted.snoc (counted : Counted first rest estimator)
    (arrives : Arrives first (rest ++ [number])) :
    Counted first (rest ++ [number]) (estimator.observe (BitVec.ofNat 16 number)) := by
  rcases arrives_snoc.mp arrives with ⟨_, _, _, notFarAbove, notFarBelow⟩
  have ahead_iff : precedes (BitVec.ofNat 16 (highest first rest)) (BitVec.ofNat 16 number) =
      true ↔ highest first rest < number :=
    precedes_ofNat_iff (by decide) notFarAbove notFarBelow
  have received : estimator.received + 1 = BitVec.ofNat 64 ((rest ++ [number]).length + 1) := by
    rw [counted.received, List.length_append, List.length_singleton,
      BitVec.ofNat_add (rest.length + 1) 1]
    rfl
  rw [observe_eq counted.started, counted.maxSeq]
  by_cases ahead : highest first rest < number
  · rw [if_pos (ahead_iff.mpr ahead)]
    have newHighest : highest first (rest ++ [number]) = number := by
      rw [highest_snoc]
      omega
    refine ⟨counted.started, counted.baseSeq, by rw [newHighest], ?_, received⟩
    have atLeastFirst := Nat.div_le_div_right (c := 2 ^ 16) (first_le_highest first rest)
    have crossed := wraps_iff ahead notFarAbove
    rw [newHighest, counted.cycles, crossed]
    split
    · rw [Nat.sub_add_comm atLeastFirst, BitVec.ofNat_add]
      rfl
    · rfl
  · rw [if_neg (fun isAhead => ahead (ahead_iff.mp isAhead))]
    have sameHighest : highest first (rest ++ [number]) = highest first rest := by
      rw [highest_snoc]
      omega
    refine ⟨counted.started, counted.baseSeq, ?_, ?_, received⟩
    · rw [sameHighest]
    · rw [sameHighest]
      exact counted.cycles

theorem counted (arrives : Arrives first rest) :
    Counted first rest (observeAll (first :: rest)) := by
  induction rest using List.reverseRecOn with
  | nil =>
      refine ⟨rfl, rfl, rfl, ?_, rfl⟩
      rw [highest, List.foldl_nil, Nat.sub_self]
      rfl
  | append_singleton rest number induction =>
      have split : observeAll (first :: (rest ++ [number])) =
          (observeAll (first :: rest)).observe (BitVec.ofNat 16 number) := by
        rw [← List.cons_append]
        simp only [observeAll, List.foldl_append, List.foldl_cons, List.foldl_nil]
      rw [split]
      exact (induction (arrives_snoc.mp arrives).1).snoc arrives

/-- The wraps and the base give back the extended numbers, up to the width of the
counters. -/
theorem Counted.expected_eq (counted : Counted first rest estimator) :
    estimator.expected = BitVec.ofNat 64 (span first rest) := by
  have atLeastFirst := first_le_highest first rest
  rw [expected, counted.started, counted.baseSeq, counted.maxSeq, counted.cycles, span]
  apply BitVec.eq_of_toNat_eq
  simp only [Bool.not_true, Bool.false_eq_true, if_false, BitVec.toNat_add, BitVec.toNat_sub,
    BitVec.toNat_mul, BitVec.toNat_setWidth, BitVec.toNat_ofNat, BitVec.ofNat_eq_ofNat]
  omega

/-! ## The loss -/

/-- Every number from the first one to the highest one has arrived or is missing. -/
theorem arrived_add_missing (arrives : Arrives first rest) :
    (rest.length + 1) + missing first rest = span first rest := by
  have inRange : (first :: rest).toFinset ⊆ Finset.Icc first (highest first rest) := by
    intro number member
    rw [List.mem_toFinset] at member
    rw [Finset.mem_Icc]
    refine ⟨?_, le_highest member⟩
    rcases List.mem_cons.mp member with rfl | later
    · exact Nat.le_refl _
    · exact arrives.notBelow number later
  have arrived : (first :: rest).toFinset.card = rest.length + 1 := by
    rw [List.toFinset_card_of_nodup arrives.distinct, List.length_cons]
  have total : (Finset.Icc first (highest first rest)).card = span first rest := by
    have atLeastFirst := first_le_highest first rest
    rw [Nat.card_Icc, span]
    omega
  rw [missing, ← arrived, ← total, Nat.add_comm, Finset.card_sdiff_add_card_eq_card inRange]

/-- As long as the counters hold them, the numbers are exact. -/
structure Exact (first : Nat) (rest : List Nat) (estimator : LossEstimator) : Prop where
  expected : estimator.expected.toNat = span first rest
  received : estimator.received.toNat = rest.length + 1
  lost : estimator.lost.toNat = missing first rest
  percent : estimator.lossPercent = 100 * missing first rest / span first rest

theorem Counted.exact (counted : Counted first rest estimator) (arrives : Arrives first rest)
    (fits : span first rest < 2 ^ 64) : Exact first rest estimator := by
  have total := arrived_add_missing arrives
  have expected : estimator.expected.toNat = span first rest := by
    rw [counted.expected_eq, BitVec.toNat_ofNat, Nat.mod_eq_of_lt fits]
  have received : estimator.received.toNat = rest.length + 1 := by
    rw [counted.received, BitVec.toNat_ofNat, Nat.mod_eq_of_lt (by omega)]
  have lost : estimator.lost.toNat = missing first rest := by
    rw [LossEstimator.lost]
    simp only [gt_iff_lt, BitVec.lt_def]
    split
    · rw [BitVec.toNat_sub_of_le (by rw [BitVec.le_def]; omega)]
      omega
    · have none : missing first rest = 0 := by omega
      rw [none]
      rfl
  have someExpected : estimator.expected ≠ 0 := by
    intro none
    have noSpan : 0 = span first rest := by
      rw [← expected, none]
      rfl
    omega
  refine ⟨expected, received, lost, ?_⟩
  simp only [lossPercent, if_neg someExpected, expected, lost]

/-- The losses among packets that arrive in any order, less than half of the 16-bit
circle from the highest one, through any number of wraps. -/
theorem losses_exact (arrives : Arrives first rest) :
    (observeAll (first :: rest)).expected = BitVec.ofNat 64 (span first rest) ∧
      (observeAll (first :: rest)).received = BitVec.ofNat 64 (rest.length + 1) ∧
      (span first rest < 2 ^ 64 → Exact first rest (observeAll (first :: rest))) :=
  ⟨(counted arrives).expected_eq, (counted arrives).received,
    fun fits => (counted arrives).exact arrives fits⟩

/-- Packets late and early on both sides of a wrap, two of them lost. -/
theorem losses_exact_across_wrap :
    Exact 65534 [65537, 65535, 65540] (observeAll [65534, 65537, 65535, 65540]) ∧
      missing 65534 [65537, 65535, 65540] = 3 := by
  have one := (@arrives_snoc 65534 65537 []).mpr ⟨arrives_nil 65534, by decide⟩
  have two := (@arrives_snoc 65534 65535 [65537]).mpr ⟨one, by decide⟩
  have three := (@arrives_snoc 65534 65540 [65537, 65535]).mpr ⟨two, by decide⟩
  exact ⟨(losses_exact three).2.2 (by decide), by decide⟩

/-! ## Where the counters end -/

/-- Every `stride`-th number, without the first one. -/
def strided (stride count : Nat) : List Nat :=
  (List.range count).map fun index => (index + 1) * stride

theorem strided_succ (stride count : Nat) :
    strided stride (count + 1) = strided stride count ++ [(count + 1) * stride] := by
  rw [strided, List.range_succ, List.map_append]
  rfl

theorem highest_strided (stride count : Nat) :
    highest 0 (strided stride count) = count * stride := by
  induction count with
  | zero => exact (Nat.zero_mul stride).symm
  | succ count induction =>
      rw [strided_succ, highest_snoc, induction, Nat.succ_mul]
      omega

theorem arrives_strided {stride : Nat} (positive : 0 < stride) (small : stride < 2 ^ 15)
    (count : Nat) : Arrives 0 (strided stride count) := by
  induction count with
  | zero => exact arrives_nil 0
  | succ count induction =>
      have reached := highest_strided stride count
      have next : (count + 1) * stride = count * stride + stride := Nat.succ_mul count stride
      rw [strided_succ, arrives_snoc, reached, next]
      refine ⟨induction, fun member => ?_, Nat.zero_le _, by omega, by omega⟩
      have bounded := le_highest member
      omega

/-- Every 21845th number, from 0 to the last one of 64 bits: `2 ^ 64` packets were
sent and none is expected. -/
theorem expected_wraps :
    Arrives 0 (strided 21845 844437815230467) ∧
      span 0 (strided 21845 844437815230467) = 2 ^ 64 ∧
      (observeAll (0 :: strided 21845 844437815230467)).expected = 0 := by
  have arrives := @arrives_strided 21845 (by decide) (by decide) 844437815230467
  have all : span 0 (strided 21845 844437815230467) = 2 ^ 64 := by
    rw [span, highest_strided]
    decide
  refine ⟨arrives, all, ?_⟩
  rw [(counted arrives).expected_eq, all]
  rfl

end LossEstimator

end Vela
