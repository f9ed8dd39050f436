import ReplicaStore.Proofs.Node.Passage
import ReplicaStore.Proofs.Stream.Chronicle

/-!
# The chronicle of a node

A ghost that is carried along with a run: all that was fed to the stream since its backlog
was put in place.  Whatever happens, the backlog holds the end of it
(`Node.Chronicled.kept`).
-/

namespace ReplicaStore

open ReplicaStore.Stream (Chronicle Coordinator Desk Move Piece)

namespace Stream.Chronicle

variable {chronicle : Chronicle} {audience : ClientId → Prop} {node later : Node}
  {happening : Happening}

/-- The chronicle after something has happened to a node.  It grows by the pieces that are
added to the stream, unless another stream is begun or takes its place. -/
def next (chronicle : Chronicle) (node : Node) (happening : Happening) (later : Node) : Chronicle :=
  if node.coordinator.backlog.isNone || node.loads happening then
    { start := later.coordinator.offset }
  else chronicle.extend (Piece.bytes (node.added happening))

theorem next_of_none (unrecorded : node.coordinator.backlog = none) :
    chronicle.next node happening later = { start := later.coordinator.offset } := by
  simp [next, unrecorded]

theorem next_of_loads (loads : node.loads happening = true) :
    chronicle.next node happening later = { start := later.coordinator.offset } := by
  simp [next, loads]

theorem next_of_recorded (recorded : node.coordinator.backlog.isSome = true)
    (same : node.loads happening = false) :
    chronicle.next node happening later = chronicle.extend (Piece.bytes (node.added happening)) := by
  rw [next, Option.isNone_eq_false_iff.mpr recorded, same]
  rfl

/-- A stream that is just begun has an empty chronicle. -/
theorem Fresh.kept {coordinator : Coordinator} (fresh : Fresh coordinator)
    (range : ({ start := coordinator.offset } : Chronicle).InRange) :
    Kept { start := coordinator.offset } coordinator := by
  cases recorded : coordinator.backlog with
  | none => exact .of_none recorded
  | some backlog =>
      obtain ⟨active, empty⟩ := fresh backlog recorded
      exact .of_fresh recorded active empty range.least

theorem Fresh.becomes {before after : Desk} (fresh : Fresh before.1)
    (becomes : Desk.Becomes (Move.Still audience True) before after) : Fresh after.1 :=
  @Desk.Becomes.keeps _ _ _ (Fresh ·.1) becomes
    (fun _ _ still fresh => fresh.apply still.keeps.1) fresh

theorem Fresh.of_none {coordinator : Coordinator} (unrecorded : coordinator.backlog = none) :
    Fresh coordinator := by
  intro backlog found
  rw [unrecorded] at found
  cases found

theorem Fresh.renew (desk : Desk) (history : String) (offset : Int) :
    Fresh (Move.applyAll [.renew history offset, .forget] desk).1 := by
  rintro _ ⟨⟩
  exact ⟨rfl, rfl⟩

/-- What a stream that goes on is made of is kept. -/
theorem Kept.passes (kept : chronicle.Kept node.coordinator)
    (passes : node.Passes audience happening later)
    (range : (chronicle.next node happening later).InRange) :
    (chronicle.next node happening later).Kept later.coordinator := by
  cases passes with
  | flows same moves all fed reached =>
      have coordinator : later.coordinator = (Move.applyAll moves node.desk).1 :=
        congrArg Prod.fst reached
      cases recorded : node.coordinator.backlog with
      | none =>
          refine .of_none ?_
          rw [coordinator]
          exact Move.unrecorded_applyAll (fun move member => (all move member).2.1) recorded
      | some backlog =>
          rw [next_of_recorded (by simp [recorded]) same, ← fed] at range ⊢
          rw [coordinator]
          exact Kept.applyAll kept (fun move member => (all move member).2.1) range
  | opens same unrecorded quiet becomes =>
      rw [next_of_none unrecorded] at range ⊢
      exact ((Fresh.of_none unrecorded).becomes becomes).kept range
  | @loads history offset loads quiet reached =>
      rw [next_of_loads loads] at range ⊢
      have coordinator : later.coordinator = _ := congrArg Prod.fst reached
      have fresh : Fresh later.coordinator := coordinator ▸ .renew node.desk history offset
      exact fresh.kept range

end Stream.Chronicle

namespace Node

variable {node later : Node} {chronicle : Chronicle} {happening : Happening}

theorem orderly_passes (orderly : node.Orderly) (other : happening ≠ .deliver)
    (happened : node.next? happening = some later) :
    node.Passes (fun _ => False) happening later := by
  refine passes orderly (fun _ _ _ => id) ?_ other happened
  cases happening with
  | command => exact False.elim
  | connected | disconnected | hangUp | refuse => exact id
  | _ => trivial

theorem kept_next (kept : chronicle.Kept node.coordinator) (orderly : node.Orderly)
    (happened : node.next? happening = some later)
    (range : (chronicle.next node happening later).InRange) :
    (chronicle.next node happening later).Kept later.coordinator := by
  by_cases delivers : happening = .deliver
  · subst delivers
    cases happened
    cases recorded : node.coordinator.backlog with
    | none => exact .of_none recorded
    | some backlog =>
        rw [Chronicle.next_of_recorded (by simp [recorded]) rfl]
        simpa [added] using kept
  · exact kept.passes (orderly_passes orderly delivers happened) range

/-- A node starts as a new one but for its data, and without a link. -/
theorem start_new {settings : Settings} {supply : Stream.IdSupply} {clock : Clock}
    {found : Except Snapshot.SnapshotError (Option Bytes)} {server : Server}
    (started : Server.start settings supply clock found = .ok server) :
    ∃ (partitions : PartitionSet) (storage : Storage) (role : Link.Role), role.link = none ∧
      server.node = { Node.new settings supply clock with partitions, storage, role } := by
  obtain ⟨loaded, made, role⟩ := Server.start_inv started
  have new : ∃ (partitions : PartitionSet) (storage : Storage),
      loaded = { Node.new settings supply clock with partitions, storage } := by
    rcases made with rfl | ⟨bytes, commands, read, rfl⟩
    · exact ⟨_, _, rfl⟩
    · have frame := (Command.loadFrom_does Command.restores_all read
        { Node.new settings supply clock with storage := { file := some bytes } }).frame
      rw [Command.load, frame]
      exact ⟨_, _, rfl⟩
  obtain ⟨partitions, storage, rfl⟩ := new
  rcases role with same | ⟨host, port, same⟩
  · exact ⟨partitions, storage, _, rfl, same⟩
  · exact ⟨partitions, storage, _, rfl, same⟩

/-- A node starts without a backlog. -/
theorem unrecorded_start {settings : Settings} {supply : Stream.IdSupply} {clock : Clock}
    {found : Except Snapshot.SnapshotError (Option Bytes)} {server : Server}
    (started : Server.start settings supply clock found = .ok server) :
    server.node.coordinator.backlog = none := by
  obtain ⟨partitions, storage, role, _, same⟩ := start_new started
  rw [same]
  rfl

/-- A node that was started and to which anything has happened since, and the chronicle of
its stream, all offsets of which are in range. -/
inductive Chronicled : Node → Chronicle → Prop
  | start {settings : Settings} {supply : Stream.IdSupply} {clock : Clock}
      {found : Except Snapshot.SnapshotError (Option Bytes)} {server : Server} (port : Nat)
      (started : Server.start settings supply clock found = .ok server) :
      Chronicled { server.node with port } {}
  | next {node later : Node} {chronicle : Chronicle} (happening : Happening)
      (chronicled : Chronicled node chronicle) (happened : node.next? happening = some later)
      (range : (chronicle.next node happening later).InRange) :
      Chronicled later (chronicle.next node happening later)

namespace Chronicled

theorem reachable (chronicled : node.Chronicled chronicle) : node.Reachable := by
  induction chronicled with
  | start port started => exact .start port started
  | next happening _ happened _ ih => exact ih.next happening happened

theorem inRange (chronicled : node.Chronicled chronicle) : chronicle.InRange := by
  cases chronicled with
  | start => exact ⟨Int.le_refl 0, by decide⟩
  | next _ _ _ range => exact range

/-- The backlog holds the end of the chronicle. -/
theorem kept (chronicled : node.Chronicled chronicle) : chronicle.Kept node.coordinator := by
  induction chronicled with
  | start port started => exact .of_none (unrecorded_start started)
  | next happening chronicled happened range ih =>
      exact kept_next ih chronicled.reachable.orderly happened range

end Chronicled

theorem small_chronicled : small.Chronicled {} :=
  ((@Chronicled.start { databases := 1 } {} { wall := 1000 } (.ok none)
    { node := Node.new { databases := 1 } {} { wall := 1000 } } 7000 rfl).next
      (.connected 1 "127.0.0.1:40001") rfl (by decide +kernel)).next
      (.connected 2 "127.0.0.1:40002") rfl (by decide +kernel)

end Node
end ReplicaStore
