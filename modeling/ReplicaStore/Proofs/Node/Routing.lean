import ReplicaStore.Proofs.Node.Chronicle
import ReplicaStore.Proofs.Node.Logging

/-!
# The databases of a leader's stream

While a node leads and records its stream, whoever reads the stream from where it began to
lead, from the place of a snapshot, or from between two commands read before, runs just the
commands that clients have had executed since, on the databases that these clients had
selected (`Node.Led.routes_commands`).
-/

namespace ReplicaStore

open ReplicaStore.Stream (Chronicle Coordinator Logged Piece Routes bytesOf commandsIn runsAll
  selectedByAll)

namespace Node

/-- The offsets that replicas will be told that wait for a snapshot. -/
def offered (node : Node) : List Int :=
  if node.coordinator.hasReplicaIn .awaitingSnapshot then [node.coordinator.snapshotOffset] else []

variable {node later : Node} {happening : Happening} {chronicle : Chronicle} {log : List Logged}
  {origin place : Int} {offers : List Int} {database : Nat} {commands : List (List String)}

theorem mem_offered :
    place ∈ node.offered ↔ node.coordinator.Awaits ∧ place = node.coordinator.snapshotOffset := by
  rw [Coordinator.awaits_iff, offered]
  split
  · next waits => simp [waits]
  · next nobody => simp [nobody]

/-- What a step adds to the stream is read as what it adds to the log. -/
theorem Advances.routes (advances : node.Advances happening later)
    (routes : Routes chronicle log place database node.coordinator.streamDatabase commands) :
    ∃ commands, Routes (chronicle.extend (Piece.bytes (node.added happening)))
      (log ++ (node.logged happening).map
        (⟨(chronicle.extend (Piece.bytes (node.added happening))).ends, ·⟩))
      place database later.coordinator.streamDatabase commands := by
  cases advances with
  | quiet silent unlogged marks =>
      rw [silent, unlogged]
      simpa using ⟨commands, routes.congr marks.stream⟩
  | pings added unlogged stream keeps =>
      have read := (routes.congr stream).add (List.cons_ne_nil "PING" [])
        (routes.congr stream).selects
      rw [Stream.runs_ping, List.map_nil, List.append_nil] at read
      rw [added, unlogged, Stream.bytes_ofCommand, List.map_nil, List.append_nil]
      exact ⟨_, read⟩
  | @logs index form added logged runs stream keeps =>
      -- Once the stream has selected the database of the client, the command is run there.
      have issued {chronicle : Chronicle} {commands : List (List String)}
          (routes : Routes chronicle log place database (some index) commands) :
          Routes (chronicle.extend (Wire.commandBytes form))
            (log ++ [⟨(chronicle.extend (Wire.commandBytes form)).ends, index, form⟩])
            place database later.coordinator.streamDatabase (commands ++ [form]) := by
        have selected := routes.selects index rfl
        obtain ⟨run, selects, given⟩ := runs (selectedByAll database commands)
        have read := @Routes.add _ _ _ _ _ _ routes form given later.coordinator.streamDatabase (by
          rw [selects, stream]
          exact routes.selects)
        rw [run, selected, List.map_singleton, ← Chronicle.ends_extend] at read
        exact read
      rw [added, logged]
      simp only [Coordinator.pieces, Coordinator.selection]
      split
      · next same =>
          rw [same] at routes
          rw [List.nil_append, Stream.bytes_ofCommand]
          exact ⟨_, issued routes⟩
      · have selects := @Routes.add _ _ _ _ _ _ routes ["SELECT", toString index]
          (List.cons_ne_nil _ _) (some index) (by
            rw [Stream.selectedBy_select]
            simp)
        rw [Stream.runs_select, List.map_nil, List.append_nil] at selects
        have read := issued selects
        rw [← Chronicle.extend_append] at read
        rw [Piece.bytes_append, Stream.bytes_ofCommand, Stream.bytes_ofCommand]
        exact ⟨_, read⟩

/-- Whoever comes to wait for a snapshot has waited before, or waits for one that was begun
just now. -/
theorem Advances.awaits (advances : node.Advances happening later)
    (waits : later.coordinator.Awaits) :
    node.coordinator.Awaits ∧
        later.coordinator.snapshotOffset = node.coordinator.snapshotOffset ∨
      later.coordinator.Settled := by
  cases advances with
  | quiet _ _ marks =>
      exact (marks.awaits waits).imp (fun waited => ⟨waited.1, waited.2.1⟩) (·.2)
  | pings _ _ _ keeps | logs _ _ _ _ keeps => exact .inl (keeps waits)

/-- A node has come to lead and to record its stream from an offset on, and whatever has
happened since, it still does.  The log has what clients had executed in that time, and the
offers are the offsets of snapshots that replicas have waited for. -/
inductive Led (origin : Int) : Node → Chronicle → List Logged → List Int → Prop
  | begins {node later : Node} {chronicle : Chronicle} {happening : Happening}
      (chronicled : node.Chronicled chronicle) (happened : node.next? happening = some later)
      (range : (chronicle.next node happening later).InRange) (opens : node.Commences later)
      (place : later.coordinator.offset = origin) :
      Led origin later (chronicle.next node happening later) [] later.offered
  | next {node later : Node} {chronicle : Chronicle} {log : List Logged} {offers : List Int}
      (happening : Happening) (led : Led origin node chronicle log offers)
      (happened : node.next? happening = some later)
      (range : (chronicle.next node happening later).InRange) (leads : later.following = false)
      (recorded : later.coordinator.backlog.isSome = true) :
      Led origin later (chronicle.next node happening later)
        (log ++ (node.logged happening).map (⟨later.coordinator.offset, ·⟩))
        (offers ++ later.offered)

/-- A node with two databases and two clients. -/
def wide : Node :=
  { Node.new { databases := 2 } {} { wall := 1000 } with port := 7000 }.run
    [.connected 1 "127.0.0.1:40001", .connected 2 "127.0.0.1:40002"]

theorem wide_chronicled : wide.Chronicled {} :=
  ((@Chronicled.start { databases := 2 } {} { wall := 1000 } (.ok none)
    { node := Node.new { databases := 2 } {} { wall := 1000 } } 7000 rfl).next
      (.connected 1 "127.0.0.1:40001") rfl (by decide +kernel)).next
      (.connected 2 "127.0.0.1:40002") rfl (by decide +kernel)

namespace Led

theorem chronicled (led : Led origin node chronicle log offers) : node.Chronicled chronicle := by
  induction led with
  | begins chronicled happened range => exact chronicled.next _ happened range
  | next happening _ happened range _ _ ih => exact ih.next happening happened range

theorem leads (led : Led origin node chronicle log offers) :
    node.following = false ∧ node.coordinator.backlog.isSome = true := by
  cases led with
  | begins _ _ _ opens => exact ⟨opens.leads, opens.recorded⟩
  | next _ _ _ _ leads recorded => exact ⟨leads, recorded⟩

/-- A leader that records its stream goes on with it. -/
theorem next_chronicle (led : Led origin node chronicle log offers) (happening : Happening)
    (later : Node) :
    chronicle.next node happening later = chronicle.extend (Piece.bytes (node.added happening)) := by
  refine Chronicle.next_of_recorded led.leads.2 ?_
  cases happening with
  | link epoch event =>
      cases event with
      | fullSync =>
          have refused := refuses led.chronicled.reachable.orderly led.leads.1 epoch
          simp [loads, refused]
      | _ => rfl
  | _ => rfl

theorem offset_eq (led : Led origin node chronicle log offers) :
    node.coordinator.offset = chronicle.ends :=
  led.chronicled.kept.offset_eq led.leads.2

/-- Who waits for a snapshot was offered its offset. -/
theorem waits (led : Led origin node chronicle log offers) (waits : node.coordinator.Awaits) :
    node.coordinator.snapshotOffset ∈ offers := by
  cases led with
  | begins => exact mem_offered.mpr ⟨waits, rfl⟩
  | next => exact List.mem_append_right _ (mem_offered.mpr ⟨waits, rfl⟩)

theorem upto (led : Led origin node chronicle log offers) : ∀ entry ∈ log, entry.upto ≤ chronicle.ends := by
  induction led with
  | begins => simp
  | @next node later chronicle log offers happening led happened range leads recorded ih =>
      intro entry member
      rcases List.mem_append.mp member with before | now
      · rw [led.next_chronicle, Chronicle.ends_extend]
        have := ih entry before
        omega
      · obtain ⟨run, _, rfl⟩ := List.mem_map.mp now
        exact Int.le_of_eq (led.next happening happened range leads recorded).offset_eq

/-- The stream can be read from where the node began to lead, and from each offset that was
offered. -/
theorem routes (led : Led origin node chronicle log offers)
    (joint : place = origin ∨ place ∈ offers) (database : Nat) :
    ∃ commands, Routes chronicle log place database node.coordinator.streamDatabase commands := by
  induction led with
  | @begins node later chronicle happening chronicled happened range opens begins =>
      have led : Led origin later (chronicle.next node happening later) [] later.offered :=
        .begins chronicled happened range opens begins
      obtain ⟨forgotten, settles⟩ :=
        opens_next chronicled.reachable.orderly opens happened
      have same : place = (chronicle.next node happening later).ends := by
        rw [← led.offset_eq]
        rcases joint with rfl | offered
        · exact begins.symm
        · obtain ⟨waits, rfl⟩ := mem_offered.mp offered
          exact (settles waits).place
      rw [same, forgotten]
      exact ⟨[], .begins (by simp) database⟩
  | @next node later chronicle log offers happening led happened range leads recorded ih =>
      have later_led := led.next happening happened range leads recorded
      have advances := advances led.chronicled.reachable.orderly led.leads.1 led.leads.2 happened
      have old (joint : place = origin ∨ place ∈ offers) :
          ∃ commands, Routes (chronicle.next node happening later)
            (log ++ (node.logged happening).map (⟨later.coordinator.offset, ·⟩)) place database
            later.coordinator.streamDatabase commands := by
        obtain ⟨commands, routes⟩ := ih joint
        rw [later_led.offset_eq, led.next_chronicle]
        exact advances.routes routes
      rcases joint with first | member
      · exact old (.inl first)
      · rcases List.mem_append.mp member with before | offered
        · exact old (.inr before)
        · obtain ⟨waits, rfl⟩ := mem_offered.mp offered
          rcases advances.awaits waits with ⟨waited, same⟩ | settled
          · exact old (.inr (same ▸ led.waits waited))
          · have ends : later.coordinator.snapshotOffset = _ :=
              settled.place.trans later_led.offset_eq
            rw [ends, settled.forgotten]
            exact ⟨[], .begins later_led.upto database⟩

/-- Whoever reads the stream from where the node began to lead, or from an offset that was
offered, or with the database that is selected there from between any two commands behind
that, runs just what clients have had executed since, each command on the database that its
client had selected. -/
theorem routes_commands (led : Led origin node chronicle log offers)
    (joint : place = origin ∨ place ∈ offers) (database : Nat) :
    chronicle.Reaches place ∧
    ∃ commands, chronicle.since place = bytesOf commands ∧
      ∀ before after, commands = before ++ after →
        chronicle.since (place + (bytesOf before).length) = bytesOf after ∧
        runsAll (selectedByAll database before)
            (commandsIn (chronicle.since (place + (bytesOf before).length))) =
          (log.filter (place + (bytesOf before).length < ·.upto)).map (·.run) := by
  obtain ⟨commands, routes⟩ := led.routes joint database
  exact ⟨routes.reaches, commands, routes.bytes, fun _ _ split =>
    routes.replays led.chronicled.inRange split⟩

theorem run (led : Led origin node chronicle log offers) (happening : Happening)
    (happens : (node.next? happening).isSome = true)
    (range : (chronicle.next node happening (node.run [happening])).InRange)
    (leads : (node.run [happening]).following = false)
    (recorded : (node.run [happening]).coordinator.backlog.isSome = true) :
    Led origin (node.run [happening]) (chronicle.next node happening (node.run [happening]))
      (log ++ (node.logged happening).map (⟨(node.run [happening]).coordinator.offset, ·⟩))
      (offers ++ (node.run [happening]).offered) :=
  led.next happening (next?_run happens) range leads recorded

/-- A client asks for everything, and another one writes to two databases. -/
theorem routes_two_databases :
    ∃ (node : Node) (chronicle : Chronicle) (log : List Logged) (offers : List Int),
      Led 0 node chronicle log offers ∧ 0 ∈ offers ∧
      log.map (·.run) = [(1, ["SET", "a", "1", "PXAT", "1100"]), (0, ["SET", "b", "2"])] ∧
      chronicle.Reaches 0 ∧
      ∃ commands, chronicle.since 0 = bytesOf commands ∧
        ∀ before after, commands = before ++ after →
          chronicle.since (0 + (bytesOf before).length) = bytesOf after ∧
          runsAll (selectedByAll 0 before)
              (commandsIn (chronicle.since (0 + (bytesOf before).length))) =
            (log.filter ((0 : Int) + (bytesOf before).length < ·.upto)).map (·.run) := by
  have begun : Led 0 (wide.run [.runs 1 ["PSYNC", "?", "-1"]]) _ _ _ :=
    .begins wide_chronicled (@next?_run wide (.runs 1 ["PSYNC", "?", "-1"]) (by decide +kernel))
      (by decide +kernel)
      { before := .inr (by decide +kernel)
        leads := by decide +kernel
        recorded := by decide +kernel } (by decide +kernel)
  have moved := begun.run (.runs 2 ["SELECT", "1"]) (by decide +kernel) (by decide +kernel)
    (by decide +kernel) (by decide +kernel)
  have wrote := moved.run (.runs 2 ["SET", "a", "1", "PX", "100"]) (by decide +kernel)
    (by decide +kernel) (by decide +kernel) (by decide +kernel)
  have back := wrote.run (.runs 2 ["SELECT", "0"]) (by decide +kernel) (by decide +kernel)
    (by decide +kernel) (by decide +kernel)
  have led := back.run (.runs 2 ["SET", "b", "2"]) (by decide +kernel) (by decide +kernel)
    (by decide +kernel) (by decide +kernel)
  exact ⟨_, _, _, _, led, by decide +kernel, by decide +kernel,
    led.routes_commands (.inr (by decide +kernel)) 0⟩

end Led
end Node
end ReplicaStore
