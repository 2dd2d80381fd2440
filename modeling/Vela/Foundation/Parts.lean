import Vela.Foundation.Machine

/-! # Parts of a machine

A machine often holds a part that takes no notice of most of its events. The
part's share of a run is the list of its own events, read off event by event in
the state the machine is in. A machine may also put work off: it shows what a
part produces later than the part would on its own. `settle` says what the part
will have become, and what is still to be shown, once that work is done. A part
may also be no component at all but a simpler machine that the whole refines. -/

namespace Vela.Foundation

namespace Machine

/-! ## Machines that produce items -/

section Produced

variable {State : Type u} {Event : Type v} {Item : Type w}
variable (machine : Machine State Event (List Item))

/-- All that a machine puts out on its way from `state`, in order. -/
def producedFrom (state : State) (events : List Event) : List Item :=
  ((machine.transcriptFrom state events).map Prod.snd).flatten

def produced (events : List Event) : List Item := (machine.outputs events).flatten

@[simp] theorem producedFrom_nil (state : State) : machine.producedFrom state [] = [] := rfl

@[simp] theorem producedFrom_cons (state : State) (event : Event) (rest : List Event) :
    machine.producedFrom state (event :: rest) =
      machine.output state event ++ machine.producedFrom (machine.next state event) rest := rfl

theorem producedFrom_append (state : State) (past future : List Event) :
    machine.producedFrom state (past ++ future) =
      machine.producedFrom state past ++
        machine.producedFrom (past.foldl machine.next state) future := by
  simp [producedFrom, transcriptFrom_append]

theorem produced_append (past future : List Event) :
    machine.produced (past ++ future) =
      machine.produced past ++ machine.producedFrom (machine.run past) future :=
  machine.producedFrom_append machine.initial past future

@[simp] theorem produced_nil : machine.produced [] = [] := rfl

@[simp] theorem produced_snoc (past : List Event) (event : Event) :
    machine.produced (past ++ [event]) =
      machine.produced past ++ machine.output (machine.run past) event := by
  rw [produced_append, producedFrom_cons, producedFrom_nil, List.append_nil]

end Produced

/-! ## The events of a transcript -/

theorem transcript_events {State : Type u} {Event : Type v} {Output : Type w}
    (machine : Machine State Event Output) (events : List Event) :
    (machine.transcript events).map Prod.fst = events := by
  induction events using List.reverseRecOn with
  | nil => rfl
  | append_singleton past event induction => rw [transcript_snoc, List.map_append, induction]; rfl

/-- Each entry of a transcript is a step from a state of the run. -/
theorem mem_transcript {State : Type u} {Event : Type v} {Output : Type w}
    {machine : Machine State Event Output} {events : List Event} {entry : Event × Output}
    (member : entry ∈ machine.transcript events) :
    ∃ past, past ++ [entry.1] <+: events ∧
      entry.2 = machine.output (machine.run past) entry.1 := by
  induction events using List.reverseRecOn with
  | nil => cases member
  | append_singleton past event induction =>
      rw [transcript_snoc] at member
      rcases List.mem_append.mp member with earlier | now
      · rcases induction earlier with ⟨before, isPrefix, made⟩
        exact ⟨before, isPrefix.trans (List.prefix_append _ _), made⟩
      · rw [List.mem_singleton.mp now]
        exact ⟨past, List.prefix_refl _, rfl⟩

/-! ## A part's share of a run -/

section Shares

variable {State : Type u} {Event : Type v} {Output : Type w} {PartEvent : Type x}
variable (machine : Machine State Event Output) (share : State → Event → List PartEvent)

def sharesFrom : State → List Event → List PartEvent
  | _, [] => []
  | state, event :: rest => share state event ++ sharesFrom (machine.next state event) rest

/-- The events of a part in a run of the whole. -/
def shares (events : List Event) : List PartEvent := machine.sharesFrom share machine.initial events

@[simp] theorem shares_nil : machine.shares share [] = [] := rfl

theorem sharesFrom_append (state : State) (past future : List Event) :
    machine.sharesFrom share state (past ++ future) =
      machine.sharesFrom share state past ++
        machine.sharesFrom share (past.foldl machine.next state) future := by
  induction past generalizing state with
  | nil => rfl
  | cons event past induction => simp [sharesFrom, induction]

@[simp] theorem shares_snoc (past : List Event) (event : Event) :
    machine.shares share (past ++ [event]) =
      machine.shares share past ++ share (machine.run past) event := by
  rw [shares, sharesFrom_append]
  simp [sharesFrom, shares, run]

theorem shares_isPrefix {past events : List Event} (isPrefix : past <+: events) :
    machine.shares share past <+: machine.shares share events := by
  rcases isPrefix with ⟨future, rfl⟩
  rw [shares, shares, sharesFrom_append]
  exact List.prefix_append _ _

/-- What a share holds came from a step of the run. -/
theorem mem_shares {events : List Event} {partEvent : PartEvent}
    (member : partEvent ∈ machine.shares share events) :
    ∃ past event, past ++ [event] <+: events ∧ partEvent ∈ share (machine.run past) event := by
  induction events using List.reverseRecOn with
  | nil => cases member
  | append_singleton past event induction =>
      rw [shares_snoc] at member
      rcases List.mem_append.mp member with earlier | now
      · rcases induction earlier with ⟨before, cause, isPrefix, caused⟩
        exact ⟨before, cause, isPrefix.trans (List.prefix_append _ _), caused⟩
      · exact ⟨past, event, List.prefix_refl _, now⟩

end Shares

/-! ## Work put off -/

section Deferral

variable {State : Type u} {Event : Type v} {Output : Type w}
variable {PartState : Type x} {PartEvent : Type y} {Item : Type z}
variable {machine : Machine State Event Output} {part : Machine PartState PartEvent (List Item)}
variable {share : State → Event → List PartEvent}
variable {settle : State → PartState × List Item} {shown : List Event → List Item}

/-- Deferral rule: when each step moves items from what is owed to what is shown,
or owes what the part makes of the step's share, the whole shows and owes exactly
what the part produces from its share of the run. -/
theorem deferral (initially : settle machine.initial = (part.initial, []))
    (blank : shown [] = [])
    (state : ∀ past event, (settle (machine.next (machine.run past) event)).1 =
      (share (machine.run past) event).foldl part.next (settle (machine.run past)).1)
    (items : ∀ past event,
      shown (past ++ [event]) ++ (settle (machine.next (machine.run past) event)).2 =
        shown past ++ ((settle (machine.run past)).2 ++
          part.producedFrom (settle (machine.run past)).1 (share (machine.run past) event)))
    (events : List Event) :
    (settle (machine.run events)).1 = part.run (machine.shares share events) ∧
      shown events ++ (settle (machine.run events)).2 =
        part.produced (machine.shares share events) := by
  induction events using List.reverseRecOn with
  | nil =>
      rw [run_nil, initially, blank]
      exact ⟨rfl, rfl⟩
  | append_singleton past event induction =>
      rcases induction with ⟨sameState, sameItems⟩
      rw [run_snoc, shares_snoc, run_append, produced_append]
      constructor
      · rw [state, sameState]
      · rw [items, ← List.append_assoc, sameItems, sameState]

end Deferral

/-! ## Refinement -/

section Refinement

variable {State : Type u} {Event : Type v} {Output : Type w}
variable {PartState : Type x} {PartEvent : Type y} {PartOutput : Type z}
variable {machine : Machine State Event Output} {part : Machine PartState PartEvent PartOutput}
variable {share : State → Event → List PartEvent} {shown : Output → List PartOutput}

/-- Refinement rule: when each step shows what an abstract machine puts out on the
step's share and the two states stay related, every run shows what the abstract
machine puts out on its share of the run. -/
theorem refinement {Related : State → PartState → Prop} {Allowed : State → Event → Prop}
    (initially : Related machine.initial part.initial)
    (step : ∀ state partState event, Related state partState → Allowed state event →
      Related (machine.next state event) ((share state event).foldl part.next partState) ∧
        shown (machine.output state event) =
          (part.transcriptFrom partState (share state event)).map Prod.snd)
    {events : List Event} (every : machine.EveryStep Allowed events) :
    Related (machine.run events) (part.run (machine.shares share events)) ∧
      (machine.outputs events).flatMap shown = part.outputs (machine.shares share events) := by
  induction events using List.reverseRecOn with
  | nil => exact ⟨initially, rfl⟩
  | append_singleton past event induction =>
      rcases everyStep_snoc.mp every with ⟨earlier, allowed⟩
      rcases induction earlier with ⟨related, sameOutputs⟩
      rcases step _ _ event related allowed with ⟨relatedNext, sameShown⟩
      rw [run_snoc, shares_snoc, run_append, outputs_snoc, List.flatMap_append, sameOutputs]
      refine ⟨relatedNext, ?_⟩
      rw [List.flatMap_singleton, sameShown, outputs, outputs, transcript, transcript,
        transcriptFrom_append, List.map_append]
      rfl

end Refinement

end Machine

end Vela.Foundation
