import ReplicaStore.Proofs.Node.Progress

/-!
# Ordinary runs of a node that is replicated

An ordinary step is anything that can happen to a node whose replicas are to follow it: the
wall clock stands still, clients neither turn the node to another leader nor have it generate
keys, and all sizes and offsets fit into 64 bits.  In the course of such steps the pieces
that are added to the stream are told to the replicas (`Node.Course.tells`), and whoever waits
for a snapshot waits for the one that was begun (`Node.Course.waits`).
-/

namespace ReplicaStore

open ReplicaStore.Stream (Coordinator Piece)
open ReplicaStore.Stream.Backlog (endOfOffsets)

/-- Whether something is no command that may turn the node or generate keys, going by its
name. -/
def Happening.plain : Happening → Bool
  | .command _ value =>
      match value.arguments? with
      | some (name :: _) => Text.upper name ∉ ["REPLICAOF", "SLAVEOF", "DEBUG"]
      | _ => true
  | _ => true

namespace Node

/-- Something happens to a node whose replicas are to follow it. -/
structure Ordinary (node : Node) (happening : Happening) (later : Node) : Prop where
  happened : node.next? happening = some later
  wall : later.clock.wall = node.clock.wall
  permitted : ∀ id value arguments, happening = .command id value →
    value.arguments? = some arguments → Command.Permitted arguments
  /-- What a link reports as a command of the leader came in just its frame, and does not
  turn the node to another leader. -/
  passed : node.following = true → ∀ epoch arguments raw,
    happening = .link epoch (.command arguments raw) →
      Piece.Framed ⟨arguments, raw⟩ ∧ ¬Command.Turns arguments
  bounded : node.Bounded
  least : 0 ≤ node.coordinator.offset
  most : node.coordinator.offset + (Piece.bytes (node.added happening)).length ≤ Text.maxSigned64

/-- What a merge does to a node apart from its databases. -/
theorem drain_frame (node : Node) (index : Nat) (picked : List String) :
    (node.drain index picked).clock = node.clock ∧ (node.drain index picked).role = node.role ∧
      (node.drain index picked).coordinator = node.coordinator ∧
      (node.drain index picked).writing = node.writing := by
  obtain ⟨_, _, same⟩ := node.drain_eq index picked
  rw [same]
  exact ⟨rfl, rfl, rfl, rfl⟩

variable {node later : Node} {happening : Happening}

namespace Ordinary

theorem range (ordinary : node.Ordinary happening later) :
    node.coordinator.offset + (Piece.bytes (node.added happening)).length < endOfOffsets := by
  have most := ordinary.most
  simp only [Text.maxSigned64] at most
  simp only [endOfOffsets]
  omega

theorem proceeds (ordinary : node.Ordinary happening later) (reachable : node.Reachable) :
    node.Proceeds (node.added happening) later := by
  have sound := reachable.sound
  have range := ordinary.range
  have happened := ordinary.happened
  cases happening with
  | command id value =>
      cases happened
      exact serve_proceeds reachable ordinary.bounded ordinary.least
        (fun arguments => ordinary.permitted id value arguments rfl) range
  | upkeep =>
      cases happened
      exact maintain_proceeds reachable ordinary.least range
  | link epoch event =>
      cases happened
      simp only [handle]
      split
      · next accepts =>
          refine takeLinkEvent_proceeds reachable ordinary.bounded ordinary.least accepts ?_ range
          rintro follows arguments raw rfl
          exact ordinary.passed follows epoch arguments raw rfl
      · next refused =>
          have quiet : node.added (.link epoch event) = [] := by
            cases event with
            | command arguments raw => simp [added, refused]
            | _ => rfl
          rw [quiet]
          exact .of_calm (.refl sound)
  | task position picked =>
      simp only [next?, Option.map_eq_some_iff] at happened
      obtain ⟨task, found, rfl⟩ := happened
      cases task with
      | beginSnapshot =>
          have lifecycle := reachable.lifecycle.eraseIdx found
          simp only [Task.event, handle]
          split
          · exact .prepared node.coordinator (node.tasks.eraseIdx position)
              (fun serves => ⟨⟨rfl, rfl, rfl, rfl, rfl, rfl, .inr rfl⟩, serves⟩) rfl
              (fun least => least) (fun waits => waits)
              (scheduleFullSync_proceeds sound lifecycle reachable.orderly.coordinator)
          · exact .of_calm ⟨rfl, sound, rfl, rfl, rfl, .refl _, rfl⟩
      | drain index =>
          obtain ⟨clock, role, coordinator, writing⟩ :=
            { node with tasks := node.tasks.eraseIdx position }.drain_frame index picked
          exact .of_calm (.of_retains
            (@drain_retains { node with tasks := node.tasks.eraseIdx position } sound index picked)
            (by rw [Task.event, handle, coordinator]; exact .refl _) clock role writing)
  | report => exact report_proceeds sound happened
  | connected | setStorage | refuse | hangUp | deliver =>
      cases happened
      exact .of_calm (.of_retains (.refl sound) (.refl _) rfl rfl rfl)
  | disconnected id =>
      cases happened
      exact .of_calm (.of_retains (.refl sound) (.remove ..) rfl rfl rfl)
  | setWall moment =>
      have wall := ordinary.wall
      cases happened
      exact .of_calm ⟨wall, sound, rfl, rfl, rfl, .refl _, rfl⟩
  | advance | deliverToLeader =>
      cases happened
      exact .of_calm ⟨rfl, sound, rfl, rfl, rfl, .refl _, rfl⟩

end Ordinary

/-- What can be checked of a step of a node without a leader, and makes it an ordinary one. -/
def Plain (node : Node) (happening : Happening) : Prop :=
  happening.plain = true ∧ (node.next? happening).isSome = true ∧
  (node.run [happening]).clock.wall = node.clock.wall ∧ node.following = false ∧
  node.Bounded ∧ 0 ≤ node.coordinator.offset ∧
  node.coordinator.offset + (Piece.bytes (node.added happening)).length ≤ Text.maxSigned64

instance (node : Node) (happening : Happening) : Decidable (node.Plain happening) :=
  inferInstanceAs (Decidable (_ ∧ _))

theorem Plain.ordinary (plain : node.Plain happening) :
    node.Ordinary happening (node.run [happening]) := by
  obtain ⟨plain, happens, wall, leads, bounded, least, most⟩ := plain
  refine ⟨next?_run happens, wall, ?_, fun follows => by simp [leads] at follows, bounded,
    least, most⟩
  rintro id value arguments rfl given
  simp only [Happening.plain, given] at plain
  cases arguments with
  | nil => exact ⟨by rintro ⟨_, _, ⟨⟩, _⟩, by rintro _ _ ⟨⟩⟩
  | cons name rest => exact Command.permitted_of_name (by simpa using plain)

/-- Ordinary steps, one after the other, and the pieces that they add to the stream.
Something is required to hold all the way. -/
inductive Course (holds : Node → Prop) (first : Node) : List Piece → Node → Prop
  | start (held : holds first) : Course holds first [] first
  | step {node later : Node} {pieces : List Piece} {happening : Happening}
      (course : Course holds first pieces node) (ordinary : node.Ordinary happening later)
      (held : holds later) : Course holds first (pieces ++ node.added happening) later

namespace Course

variable {holds : Node → Prop} {first last : Node} {pieces : List Piece}

theorem holds_last (course : Course holds first pieces last) : holds last := by
  cases course with
  | start held => exact held
  | step _ _ held => exact held

theorem holds_first (course : Course holds first pieces last) : holds first := by
  induction course with
  | start held => exact held
  | step _ _ _ ih => exact ih

theorem reachable (course : Course holds first pieces last) (reachable : first.Reachable) :
    last.Reachable := by
  induction course with
  | start => exact reachable
  | step _ ordinary _ ih => exact ih.next _ ordinary.happened

/-- As long as there are replicas, they are told all pieces. -/
theorem tells (course : Course holds first pieces last) (reachable : first.Reachable)
    (serves : ∀ node, holds node → node.coordinator.Serves) : first.Tells pieces last := by
  induction course with
  | start => exact .refl first
  | step course ordinary held ih =>
      have proceeds := ordinary.proceeds (course.reachable reachable)
      exact ih.trans (proceeds.tells (serves _ course.holds_last) (serves _ held))

/-- As long as one snapshot is being written, whoever waits for it was not the first to do
so, and the replicas are told all pieces. -/
theorem waits (course : Course (·.writing.isSome) first pieces last) (reachable : first.Reachable)
    (waits : last.coordinator.Awaits) :
    first.coordinator.Awaits ∧ first.Tells pieces last ∧
    last.coordinator.snapshotOffset = first.coordinator.snapshotOffset ∧
    ∀ reports, last.writing = some reports →
      ∃ earlier, first.writing = some earlier ∧ ∀ report ∈ reports, report ∈ earlier := by
  induction course with
  | start => exact ⟨waits, .refl first, rfl, fun reports given => ⟨reports, given, fun _ member => member⟩⟩
  | step course ordinary held ih =>
      have proceeds := ordinary.proceeds (course.reachable reachable)
      obtain ⟨waited, place, left⟩ := proceeds.keeps course.holds_last waits
      obtain ⟨first, tells, same, earlier⟩ := ih waited
      refine ⟨first, tells.trans (proceeds.tells (Coordinator.serves_of_awaits waited)
        (Coordinator.serves_of_awaits waits)), place.trans same, ?_⟩
      intro reports given
      obtain ⟨between, running, among⟩ := left reports given
      obtain ⟨all, begun, within⟩ := earlier between running
      exact ⟨all, begun, fun report member => within report (among report member)⟩

end Course

end Node
end ReplicaStore
