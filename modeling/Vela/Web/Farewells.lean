import Vela.Web.Mesh

/-! # What a departure ends

Once a connection was told that a peer has left, it gets no second notice of that
peer and no signal from it. This holds of every run: sockets that are closing and
connections that join again make no exception. -/

namespace Vela

open Foundation

namespace WebServer

variable {Number : Type}

/-- The frame comes of what a peer did while it was in the room. -/
def Frame.SpeaksFor (id : String) : Frame Number → Prop
  | .peerLeft other => other = id
  | .signal sender _ => sender = id
  | _ => False

/-- The later frame is not from a peer whose departure the earlier one told. -/
def Final (earlier later : Frame Number) : Prop :=
  ∀ id, earlier = .peerLeft id → ¬ later.SpeaksFor id

theorem framesIn_one_sublist (listener target : ConnectionNumber) (frame : Frame Number) :
    (framesIn listener [.send target frame]).Sublist [frame] := by
  rw [framesIn, List.filterMap_cons, Effect.frameTo]
  split
  · exact List.nil_sublist _
  · rename_i selected
    split at selected
    · cases selected
      exact List.Sublist.refl _
    · cases selected

theorem framesIn_send_sublist (server : WebServer) (listener target : ConnectionNumber)
    (frame : Frame Number) :
    (framesIn listener (server.send target frame)).Sublist [frame] := by
  rcases send_cases server target frame with ⟨sent, _⟩ | ⟨dropped, _⟩
  · rw [sent]
    exact framesIn_one_sublist listener target frame
  · rw [dropped]
    exact List.nil_sublist _

/-- Of the notices of one departure, a connection gets one at most. -/
theorem framesIn_onClose_sublist {server : WebServer}
    {transcript : List (Event × List (Effect Number))} (tracked : Tracked server transcript)
    (target : ConnectionNumber) (ws : Socket) (listener : ConnectionNumber) :
    (framesIn listener (server.onClose target ws : _ × List (Effect Number)).2).Sublist
      [.peerLeft ws.id] := by
  rw [onClose]
  cases home : ws.room with
  | none => exact List.nil_sublist _
  | some room =>
      dsimp only
      cases present : server.rooms.lookup room with
      | none => exact List.nil_sublist _
      | some peers =>
          dsimp only
          have logged : framesIn listener [(.logLeft room ws.id : Effect Number)] = [] := rfl
          rw [framesIn_append, logged, List.append_nil, framesIn, List.filterMap_flatMap]
          rw [UnorderedMap.flatMap_pairs (toString listener)]
          · cases (peers.erase ws.id).lookup (toString listener) with
            | none => exact List.nil_sublist _
            | some connection =>
                rw [Option.toList_some, List.flatMap_singleton]
                exact framesIn_send_sublist _ listener connection _
          · intro pair member different
            have held := UnorderedMap.mem_pairs.mp member
            rw [UnorderedMap.lookup_erase_eq] at held
            split at held
            · cases held
            · have named :=
                (tracked.keyed room pair.1 pair.2 (by rw [entry, present]; exact held)).1
              have elsewhere : pair.2 ≠ listener := fun same => different (same ▸ named)
              apply List.filterMap_eq_nil_iff.mpr
              intro effect sent
              rw [(mem_send sent).1]
              exact if_neg elsewhere

/-- What a step sends to a connection: from peers that are still open, and never
after a notice about the same peer. -/
theorem spoken_of_change {engine : ScriptEngine Number} {server next : WebServer} {event : Event}
    {effects : List (Effect Number)} {transcript : List (Event × List (Effect Number))}
    (tracked : Tracked server transcript) (change : Change engine server event next effects)
    (listener : ConnectionNumber) :
    (framesIn listener effects).Pairwise Final ∧
      ∀ frame ∈ framesIn listener effects, ∀ id, frame.SpeaksFor id →
        ∃ connection ws, server.sockets.lookup connection = some ws ∧
          id = toString connection := by
  have nothing : ([] : List (Frame Number)).Pairwise Final ∧
      ∀ frame ∈ ([] : List (Frame Number)), ∀ id, frame.SpeaksFor id →
        ∃ connection ws, server.sockets.lookup connection = some ws ∧
          id = toString connection :=
    ⟨List.Pairwise.nil, by simp⟩
  cases change with
  | connected running => exact nothing
  | @joined sender raw ws room found named =>
      have silent : ∀ frame : Frame Number, frame ∈ framesIn listener
          (server.join sender ws room).2 → ∀ id, ¬ frame.SpeaksFor id := by
        intro frame member id speaks
        rcases mem_join.mp (mem_framesIn member) with reply | notice | log
        · cases (mem_send reply).1
          exact speaks
        · rcases mem_notices notice with ⟨peer, _, same⟩
          cases same
          exact speaks
        · cases log
      constructor
      · apply List.pairwise_of_forall_mem_list
        intro earlier _ later member id _
        exact silent later member id
      · intro frame member id speaks
        exact absurd speaks (silent frame member id)
  | @relayed sender target raw ws id peers data found unnamed inside listed =>
      have narrow := framesIn_one_sublist listener target (.signal ws.id data)
      constructor
      · exact (List.pairwise_singleton _ _).sublist narrow
      · intro frame member id speaks
        cases List.mem_singleton.mp (narrow.subset member)
        exact ⟨sender, ws, found, speaks ▸ (tracked.identified sender ws found).1⟩
  | threw unnamed => exact nothing
  | closing found => exact nothing
  | @closed target ws found =>
      have narrow := framesIn_onClose_sublist tracked target ws listener
      constructor
      · exact (List.pairwise_singleton _ _).sublist narrow
      · intro frame member id speaks
        cases List.mem_singleton.mp (narrow.subset member)
        exact ⟨target, ws, found, speaks ▸ (tracked.identified target ws found).1⟩
  | ignored unnamed => exact nothing

/-- What holds of every run: frames never come from a peer whose departure was told. -/
structure Told (server : WebServer) (transcript : List (Event × List (Effect Number))) :
    Prop where
  tracked : Tracked server transcript
  final : ∀ listener, (framesTo listener transcript).Pairwise Final
  gone : ∀ listener id, Frame.peerLeft id ∈ framesTo listener transcript →
    ∃ connection, id = toString connection ∧ ¬ Present server connection

theorem Told.step {engine : ScriptEngine Number} {server next : WebServer} {event : Event}
    {effects : List (Effect Number)} {transcript : List (Event × List (Effect Number))}
    (told : Told server transcript) (change : Change engine server event next effects) :
    Told next (transcript ++ [(event, effects)]) := by
  refine ⟨told.tracked.step change, ?_, ?_⟩
  · intro listener
    rcases spoken_of_change told.tracked change listener with ⟨final, spoken⟩
    rw [framesTo_snoc]
    apply List.pairwise_append.mpr
    refine ⟨told.final listener, final, ?_⟩
    intro earlier before later member id notice speaks
    rw [notice] at before
    rcases told.gone listener id before with ⟨connection, named, absent⟩
    rcases spoken later member id speaks with ⟨speaker, ws, found, identified⟩
    have same : connection = speaker := Nat.repr_injective (named.symm.trans identified)
    rw [same] at absent
    exact absent (.inl (by rw [found]; rfl))
  · intro listener id notice
    rw [framesTo_snoc, List.mem_append] at notice
    rcases notice with before | now
    · rcases told.gone listener id before with ⟨connection, named, absent⟩
      exact ⟨connection, named, mt (present_before change) absent⟩
    · have sent := mem_framesIn now
      cases change with
      | connected running => cases sent
      | @joined sender raw ws room found named =>
          rcases mem_join.mp sent with reply | notice | log
          · cases (mem_send reply).1
          · rcases mem_notices notice with ⟨peer, _, same⟩
            cases same
          · cases log
      | relayed found unnamed inside listed => cases List.mem_singleton.mp sent
      | threw unnamed => cases List.mem_singleton.mp sent
      | closing found => cases sent
      | @closed target ws found =>
          rcases mem_onClose sent with ⟨_, same⟩ | ⟨_, same⟩
          · cases same
            exact ⟨target, (told.tracked.identified target ws found).1,
              not_present_onClose told.tracked found⟩
          · cases same
      | ignored unnamed => cases sent

theorem told_run (engine : ScriptEngine Number) (events : List Event) :
    Told ((machine engine).run events) ((machine engine).transcript events) := by
  induction events using List.reverseRecOn with
  | nil => exact ⟨tracked_run engine [], fun _ => List.Pairwise.nil, by simp [framesTo]⟩
  | append_singleton past event induction =>
      rw [Machine.run_snoc, Machine.transcript_snoc]
      exact induction.step (step_change engine _ event)

end WebServer

end Vela
