import ReplicaStore.Proofs.Command.Logged
import ReplicaStore.Proofs.Node.Passage

/-!
# The places of snapshots

The place of a snapshot that somebody waits for is where it was begun, and the stream has
forgotten then which database it had selected.  As long as nothing is added to the stream,
a node either keeps the place that is waited for, or settles on a new one at the end of its
stream (`Node.Marks`).
-/

namespace ReplicaStore

open ReplicaStore.Stream (Coordinator Piece ReplicaState)
open ReplicaStore.Stream.Coordinator (Steady)

namespace Stream.Coordinator

/-- The last snapshot was begun just now. -/
structure Settled (coordinator : Coordinator) : Prop where
  place : coordinator.snapshotOffset = coordinator.offset
  forgotten : coordinator.streamDatabase = none

end Stream.Coordinator

namespace Node

/-- What becomes of the place that is waited for, and of the database that the stream has
selected, where nothing is added to the stream.  Somebody may ask to be made a replica. -/
structure Marks (asks : Prop) (node later : Node) : Prop where
  stream : later.coordinator.streamDatabase = none ∨
    later.coordinator.streamDatabase = node.coordinator.streamDatabase
  awaits : later.coordinator.Awaits →
    node.coordinator.Awaits ∧
        later.coordinator.snapshotOffset = node.coordinator.snapshotOffset ∧
        later.coordinator.offset = node.coordinator.offset ∨
      (asks ∨ node.coordinator.Awaits) ∧ later.coordinator.Settled
  /-- With a stream that is begun, nothing is selected. -/
  begins : node.coordinator.backlog = none → later.coordinator.backlog.isSome = true →
    later.coordinator.streamDatabase = none
  /-- Whoever stops to follow a leader drops all replicas. -/
  turns : node.following = true → later.following = false →
    later.coordinator.streamDatabase = none ∧
      (later.coordinator.Awaits → asks ∧ later.coordinator.Settled)

variable {node between later : Node} {asks : Prop}

namespace Marks

theorem of_steady (steady : Steady node.coordinator later.coordinator)
    (same : later.following = node.following) : node.Marks asks later where
  stream := steady.stream
  awaits := fun waits => .inl ⟨steady.awaits waits, steady.snapshotOffset, by
    rw [Coordinator.offset, Coordinator.offset, steady.backlog]⟩
  begins := by
    intro none some
    rw [steady.backlog, none] at some
    cases some
  turns := by
    intro follows leads
    rw [same, follows] at leads
    cases leads

theorem refl (node : Node) : node.Marks asks node :=
  .of_steady (.refl _) rfl

theorem trans (first : node.Marks asks between) (second : between.Marks asks later) :
    node.Marks asks later where
  stream := by
    rcases second.stream with forgotten | same
    · exact .inl forgotten
    · rw [same]
      exact first.stream
  awaits := by
    intro waits
    rcases second.awaits waits with ⟨waited, place, offset⟩ | ⟨cause, settled⟩
    · rcases first.awaits waited with ⟨before, earlier, begun⟩ | ⟨cause, settled⟩
      · exact .inl ⟨before, place.trans earlier, offset.trans begun⟩
      · refine .inr ⟨cause, ?_, ?_⟩
        · rw [place, settled.place, offset]
        · rcases second.stream with forgotten | same
          · exact forgotten
          · rw [same, settled.forgotten]
    · refine .inr ⟨?_, settled⟩
      rcases cause with asked | waited
      · exact .inl asked
      · rcases first.awaits waited with ⟨before, _⟩ | ⟨cause, _⟩
        · exact .inr before
        · exact cause
  begins := by
    intro none some
    cases recorded : between.coordinator.backlog with
    | none => exact second.begins recorded some
    | some backlog =>
        have forgotten := first.begins none (by simp [recorded])
        rcases second.stream with gone | same
        · exact gone
        · rw [same, forgotten]
  turns := by
    intro follows leads
    cases middle : between.following with
    | true => exact second.turns middle leads
    | false =>
        obtain ⟨forgotten, settles⟩ := first.turns follows middle
        refine ⟨?_, ?_⟩
        · rcases second.stream with gone | same
          · exact gone
          · rw [same, forgotten]
        · intro waits
          rcases second.awaits waits with ⟨waited, place, offset⟩ | ⟨cause, settled⟩
          · obtain ⟨asked, settled⟩ := settles waited
            refine ⟨asked, ?_, ?_⟩
            · rw [place, settled.place, offset]
            · rcases second.stream with gone | same
              · exact gone
              · rw [same, forgotten]
          · refine ⟨?_, settled⟩
            rcases cause with asked | waited
            · exact asked
            · exact (settles waited).1

/-- Nobody else waits, and nothing else changes. -/
theorem of_same (stream : later.coordinator.streamDatabase = node.coordinator.streamDatabase)
    (awaits : later.coordinator.Awaits → node.coordinator.Awaits)
    (place : later.coordinator.snapshotOffset = node.coordinator.snapshotOffset)
    (backlog : later.coordinator.backlog = node.coordinator.backlog)
    (same : later.following = node.following) : node.Marks asks later where
  stream := .inr stream
  awaits := fun waits => .inl ⟨awaits waits, place, by
    rw [Coordinator.offset, Coordinator.offset, backlog]⟩
  begins := by
    intro none some
    rw [backlog, none] at some
    cases some
  turns := by
    intro follows leads
    rw [same, follows] at leads
    cases leads

/-- Dropping all replicas leaves nobody to wait. -/
theorem of_lost (lost : ¬later.coordinator.Serves)
    (forgotten : later.coordinator.streamDatabase = none) : node.Marks asks later where
  stream := .inl forgotten
  awaits := fun waits => absurd (Coordinator.serves_of_awaits waits) lost
  begins := fun _ _ => forgotten
  turns := fun _ _ => ⟨forgotten, fun waits => absurd (Coordinator.serves_of_awaits waits) lost⟩

end Marks

/-! ### Deeds -/

theorem marks_beginSnapshot (begun : node.beginSnapshot? = some later) : node.Marks False later := by
  obtain ⟨_, rfl⟩ := beginSnapshot?_inv begun
  refine ⟨.inl rfl, fun waits => .inr ⟨.inr waits, rfl, rfl⟩, fun _ _ => rfl, ?_⟩
  intro follows leads
  have same : node.following = false := leads
  rw [follows] at same
  cases same

theorem marks_scheduleFullSync (asked : asks) (node : Node) : node.Marks asks node.scheduleFullSync := by
  rcases node.scheduleFullSync_cases with ⟨_, same⟩ | ⟨waits, _, same⟩ | ⟨begun, begins, same⟩ <;>
    rw [same]
  · exact .refl node
  · exact .of_same rfl (fun _ => Coordinator.awaits_iff.mpr waits) rfl rfl rfl
  · obtain ⟨_, rfl⟩ := beginSnapshot?_inv begins
    refine ⟨.inl rfl, fun _ => .inr ⟨.inl asked, rfl, rfl⟩, fun _ _ => rfl, ?_⟩
    intro follows leads
    have same : node.following = false := leads
    rw [follows] at same
    cases same

theorem marks_synchronise (orderly : node.Orderly) (asked : asks) (id : ClientId) (history : String)
    (offset : Int) : node.Marks asks (Command.synchronise id history offset node) := by
  have remove := Steady.remove node.coordinator id
  rcases synchronise_cases id history offset node with ⟨_, _, same⟩ | ⟨_, same⟩ <;> rw [same]
  · exact .of_same rfl (fun waits => remove.awaits (Coordinator.awaits_register (by decide) waits))
      rfl rfl rfl
  · refine Marks.trans ?_ (marks_scheduleFullSync asked _)
    have awaits (waits : ((node.coordinator.remove id).beginFullResync node.clients
        node.clock.elapsed id offset).Awaits) : node.coordinator.Awaits :=
      remove.awaits (Coordinator.awaits_beginFullResync waits)
    cases recorded : node.coordinator.backlog with
    | some backlog =>
        have there : (node.coordinator.remove id).backlog = some backlog := recorded
        refine .of_same ?_ awaits (Coordinator.place_beginFullResync ..) ?_ rfl
        · simp only [Coordinator.beginFullResync, there]
          rfl
        · simp only [Coordinator.beginFullResync, there, recorded]
          exact there
    | none =>
        have there : (node.coordinator.remove id).backlog = none := recorded
        have alone : ¬node.coordinator.Awaits := by
          intro waits
          have some := orderly.coordinator.recorded (Coordinator.serves_of_awaits waits)
          simp [recorded] at some
        have forgotten : ((node.coordinator.remove id).beginFullResync node.clients
            node.clock.elapsed id offset).streamDatabase = none := by
          simp only [Coordinator.beginFullResync, there]
          rfl
        exact ⟨.inl forgotten, fun waits => absurd (awaits waits) alone, fun _ _ => forgotten,
          fun _ _ => ⟨forgotten, fun waits => absurd (awaits waits) alone⟩⟩

theorem marks_deed {audience : ClientId → Prop} {source : Source} {deed : Deed}
    (spares : deed.Spares audience source) (orderly : node.Orderly) :
    node.Marks (source.isClient = true) (deed.apply node) := by
  cases deed with
  | save =>
      rcases node.save_cases with ⟨_, same⟩ | ⟨_, _, _, same⟩ <;> rw [Deed.apply, same]
      · exact .refl node
      · exact .of_steady (.refl _) rfl
  | beginSnapshot =>
      simp only [Deed.apply]
      cases begun : node.beginSnapshot? with
      | none => exact .refl node
      | some later =>
          have marks := marks_beginSnapshot begun
          exact ⟨marks.stream, fun waits => (marks.awaits waits).imp_right fun settles =>
            ⟨settles.1.imp_left False.elim, settles.2⟩, marks.begins, fun follows leads =>
            ⟨(marks.turns follows leads).1, fun waits =>
              ((marks.turns follows leads).2 waits).1.elim⟩⟩
  | acknowledge id offset => exact .of_steady (.acknowledge ..) rfl
  | synchronise id history offset =>
      exact marks_synchronise orderly (by rw [spares.1]; rfl) id history offset
  | promote =>
      simp only [Deed.apply, Command.promote]
      split
      · exact .of_lost (not_serves_dropReplicas _) rfl
      · exact .refl node
  | follow host port => exact .of_lost (not_serves_dropReplicas _) rfl
  | feed => exact absurd spares id
  | _ => exact .of_steady (.refl _) rfl

/-- A command that adds nothing to the stream keeps the place that is waited for, or settles
on a new one. -/
theorem Becomes.marks {audience : ClientId → Prop} {source : Source} (orderly : node.Orderly)
    (becomes : node.Becomes (Deed.Spares audience source) later) :
    node.Marks (source.isClient = true) later := by
  have both : later.Orderly ∧ node.Marks (source.isClient = true) later :=
    @Becomes.keeps _ _ _ (fun later => later.Orderly ∧ node.Marks (source.isClient = true) later)
      becomes (fun deed _ spares marks =>
        ⟨marks.1.deed deed, marks.2.trans (marks_deed spares marks.1)⟩) ⟨orderly, .refl node⟩
  exact both.2

end Node
end ReplicaStore
