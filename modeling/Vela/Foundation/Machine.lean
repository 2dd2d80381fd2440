import Mathlib.Data.List.Basic
import Mathlib.Data.List.Infix

/-! # Deterministic machines and their runs

A component that reacts to events is a machine: an initial state and a step
that consumes one event and produces the next state and an output. Everything
here is about arbitrary machines. The rules at the end turn facts about one
step into facts about every state of a run. -/

namespace Vela.Foundation

structure Machine (State : Type u) (Event : Type v) (Output : Type w) where
  initial : State
  step : State → Event → State × Output

namespace Machine

variable {State : Type u} {Event : Type v} {Output : Type w}
variable (machine : Machine State Event Output)

def next (state : State) (event : Event) : State := (machine.step state event).1

def output (state : State) (event : Event) : Output := (machine.step state event).2

/-- The state after the events of `events`, oldest first. -/
def run (events : List Event) : State := events.foldl machine.next machine.initial

/-- Each event of a run with the output of its step, oldest first. -/
def transcriptFrom : State → List Event → List (Event × Output)
  | _, [] => []
  | state, event :: rest =>
      (event, machine.output state event) ::
        transcriptFrom (machine.next state event) rest

def transcript (events : List Event) : List (Event × Output) :=
  machine.transcriptFrom machine.initial events

def outputs (events : List Event) : List Output :=
  (machine.transcript events).map Prod.snd

/-! ## States and steps of a run -/

/-- `Property` holds in every state of the run, the first and last included. -/
def Always (Property : State → Prop) (events : List Event) : Prop :=
  ∀ past, past <+: events → Property (machine.run past)

/-- Every step of the run meets `Allowed` in the state it starts from. -/
def EveryStep (Allowed : State → Event → Prop) (events : List Event) : Prop :=
  ∀ past event, past ++ [event] <+: events → Allowed (machine.run past) event

@[simp] theorem run_nil : machine.run [] = machine.initial := rfl

@[simp] theorem run_snoc (past : List Event) (event : Event) :
    machine.run (past ++ [event]) = machine.next (machine.run past) event := by
  simp [run]

theorem run_append (past future : List Event) :
    machine.run (past ++ future) = future.foldl machine.next (machine.run past) := by
  simp [run]

theorem transcriptFrom_append (state : State) (past future : List Event) :
    machine.transcriptFrom state (past ++ future) =
      machine.transcriptFrom state past ++
        machine.transcriptFrom (past.foldl machine.next state) future := by
  induction past generalizing state with
  | nil => rfl
  | cons event past induction =>
      simp [transcriptFrom, induction]

@[simp] theorem transcript_nil : machine.transcript [] = [] := rfl

@[simp] theorem transcript_snoc (past : List Event) (event : Event) :
    machine.transcript (past ++ [event]) =
      machine.transcript past ++ [(event, machine.output (machine.run past) event)] := by
  simp [transcript, transcriptFrom_append, transcriptFrom, run]

@[simp] theorem outputs_nil : machine.outputs [] = [] := rfl

@[simp] theorem outputs_snoc (past : List Event) (event : Event) :
    machine.outputs (past ++ [event]) =
      machine.outputs past ++ [machine.output (machine.run past) event] := by
  simp [outputs]

/-! ## Rules -/

variable {machine}

theorem Always.mono {Strong Weak : State → Prop} {events : List Event}
    (always : machine.Always Strong events)
    (weaken : ∀ state, Strong state → Weak state) :
    machine.Always Weak events :=
  fun past isPrefix => weaken _ (always past isPrefix)

@[simp] theorem everyStep_nil {Allowed : State → Event → Prop} :
    machine.EveryStep Allowed [] := by
  intro past event isPrefix
  simp at isPrefix

/-- What holds of each event of a history with those before it, one event at a time. -/
theorem forall_steps_snoc {Step : List Event → Event → Prop} {events : List Event}
    {event : Event} :
    (∀ past earlier, past ++ [earlier] <+: events ++ [event] → Step past earlier) ↔
      (∀ past earlier, past ++ [earlier] <+: events → Step past earlier) ∧ Step events event := by
  constructor
  · intro every
    exact ⟨fun past earlier isPrefix =>
        every past earlier (isPrefix.trans (List.prefix_append events [event])),
      every events event (List.prefix_refl _)⟩
  · intro ⟨every, last⟩ past earlier isPrefix
    rcases List.prefix_concat_iff.mp isPrefix with same | shorter
    · rcases List.append_inj' same rfl with ⟨samePast, sameEvent⟩
      cases sameEvent
      rw [samePast]
      exact last
    · exact every past earlier shorter

theorem everyStep_snoc {Allowed : State → Event → Prop} {events : List Event} {event : Event} :
    machine.EveryStep Allowed (events ++ [event]) ↔
      machine.EveryStep Allowed events ∧ Allowed (machine.run events) event :=
  forall_steps_snoc

theorem EveryStep.restrict {Allowed : State → Event → Prop} {events past : List Event}
    (every : machine.EveryStep Allowed events) (isPrefix : past <+: events) :
    machine.EveryStep Allowed past :=
  fun earlier event shorter => every earlier event (shorter.trans isPrefix)

/-- An inductive property of the history and the state reached by it. -/
theorem history_invariant {Invariant : List Event → State → Prop}
    (initially : Invariant [] machine.initial)
    (preserved : ∀ past event, Invariant past (machine.run past) →
      Invariant (past ++ [event]) (machine.next (machine.run past) event)) :
    ∀ events, Invariant events (machine.run events) := by
  intro events
  induction events using List.reverseRecOn with
  | nil => exact initially
  | append_singleton past event induction =>
      rw [run_snoc]
      exact preserved past event induction

/-- An inductive property of the state alone. -/
theorem invariant {Invariant : State → Prop}
    (initially : Invariant machine.initial)
    (preserved : ∀ state event, Invariant state →
      Invariant (machine.next state event)) :
    ∀ events, Invariant (machine.run events) :=
  history_invariant initially fun past event => preserved (machine.run past) event

/-- A property kept by every step that meets a side condition holds throughout
each run whose steps all meet it. -/
theorem always_of_everyStep {Property : State → Prop}
    {Allowed : State → Event → Prop}
    (initially : Property machine.initial)
    (preserved : ∀ state event, Property state → Allowed state event →
      Property (machine.next state event))
    {events : List Event} (every : machine.EveryStep Allowed events) :
    machine.Always Property events := by
  intro past isPrefix
  induction past using List.reverseRecOn with
  | nil => exact initially
  | append_singleton past event induction =>
      rw [run_snoc]
      exact preserved _ event
        (induction ((List.prefix_append past [event]).trans isPrefix))
        (every past event isPrefix)

/-- A property of history and state that holds at some moment of a run, and is kept
by every step the run makes, holds at its end. -/
theorem lasting {Property : List Event → State → Prop} {Allowed : State → Event → Prop}
    {past future : List Event} (every : machine.EveryStep Allowed (past ++ future))
    (now : Property past (machine.run past))
    (kept : ∀ history event, Property history (machine.run history) →
      Allowed (machine.run history) event →
        Property (history ++ [event]) (machine.next (machine.run history) event)) :
    Property (past ++ future) (machine.run (past ++ future)) := by
  induction future using List.reverseRecOn with
  | nil =>
      rw [List.append_nil]
      exact now
  | append_singleton future event induction =>
      rw [← List.append_assoc] at every ⊢
      rcases everyStep_snoc.mp every with ⟨earlier, allowed⟩
      rw [run_snoc]
      exact kept _ event (induction earlier) allowed

/-- An event that lowers a measure until the machine is at rest brings it to rest when
it is repeated. -/
theorem comes_to_rest {AtRest : State → Prop} {event : Event} (measure : State → Nat)
    (lowers : ∀ state, ¬AtRest state → measure (machine.next state event) < measure state)
    (past : List Event) :
    ∃ count, AtRest (machine.run (past ++ List.replicate count event)) := by
  generalize measured : measure (machine.run past) = remaining
  induction remaining using Nat.strong_induction_on generalizing past with
  | _ remaining induction =>
      by_cases done : AtRest (machine.run past)
      · exact ⟨0, by rwa [List.replicate_zero, List.append_nil]⟩
      · have fewer := lowers _ done
        rw [measured, ← run_snoc] at fewer
        rcases induction _ fewer (past ++ [event]) rfl with ⟨count, rests⟩
        refine ⟨count + 1, ?_⟩
        rw [List.replicate_succ, List.append_cons]
        exact rests

/-- A stronger property that the weaker one keeps alive from step to step. -/
theorem Always.strengthen {Weak Strong : State → Prop} {events : List Event}
    (always : machine.Always Weak events) (initially : Strong machine.initial)
    (kept : ∀ state event, Strong state → Weak (machine.next state event) →
      Strong (machine.next state event)) :
    machine.Always Strong events := by
  intro past isPrefix
  induction past using List.reverseRecOn with
  | nil => exact initially
  | append_singleton past event induction =>
      have here := always (past ++ [event]) isPrefix
      rw [run_snoc] at here ⊢
      exact kept _ event (induction ((List.prefix_append past [event]).trans isPrefix)) here

/-- When, under an invariant of every run, the side condition is also necessary at
each step, the runs that keep the property throughout are exactly those whose
steps all meet it. -/
theorem always_iff_everyStep_of_invariant {Invariant Property : State → Prop}
    {Allowed : State → Event → Prop}
    (invariant : ∀ events, Invariant (machine.run events))
    (initially : Property machine.initial)
    (exactly_when : ∀ state event, Invariant state → Property state →
      (Property (machine.next state event) ↔ Allowed state event))
    (events : List Event) :
    machine.Always Property events ↔ machine.EveryStep Allowed events := by
  constructor
  · intro always past event isPrefix
    have before : Property (machine.run past) :=
      always past ((List.prefix_append past [event]).trans isPrefix)
    have after := always (past ++ [event]) isPrefix
    rw [run_snoc] at after
    exact (exactly_when _ event (invariant past) before).mp after
  · intro every past isPrefix
    induction past using List.reverseRecOn with
    | nil => exact initially
    | append_singleton past event induction =>
        have before := induction ((List.prefix_append past [event]).trans isPrefix)
        rw [run_snoc]
        exact (exactly_when _ event (invariant past) before).mpr (every past event isPrefix)

/-- The same rule without an invariant. -/
theorem always_iff_everyStep {Property : State → Prop}
    {Allowed : State → Event → Prop}
    (initially : Property machine.initial)
    (exactly_when : ∀ state event, Property state →
      (Property (machine.next state event) ↔ Allowed state event))
    (events : List Event) :
    machine.Always Property events ↔ machine.EveryStep Allowed events :=
  @always_iff_everyStep_of_invariant _ _ _ machine (fun _ => True) _ _ (fun _ => trivial) initially
    (fun state event _ => exactly_when state event) events

/-! ## Machines that remember -/

/-- The machine with its transcript kept in the state, for properties of the
history. -/
def recorded (machine : Machine State Event Output) :
    Machine (State × List (Event × Output)) Event Output where
  initial := (machine.initial, [])
  step := fun (state, past) event =>
    ((machine.next state event, past ++ [(event, machine.output state event)]),
      machine.output state event)

theorem run_recorded (machine : Machine State Event Output) (events : List Event) :
    machine.recorded.run events = (machine.run events, machine.transcript events) := by
  induction events using List.reverseRecOn with
  | nil => rfl
  | append_singleton past event induction =>
      rw [run_snoc, induction, run_snoc, transcript_snoc]
      rfl

end Machine

end Vela.Foundation
