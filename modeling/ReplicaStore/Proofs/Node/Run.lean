import ReplicaStore.Server.Basic

/-!
# Runs of a node

Everything that can happen to a node, one thing at a time and in any order.  What
comes from outside can happen at any moment.  What the node has set going itself
happens only when it is its turn: a task must be due, and a snapshot writer makes its
reports in their order.  Which of the due tasks comes back first is left open, and so
is the choice of the keys that a merge picks.
-/

namespace ReplicaStore

/-- One thing that happens to a node. -/
inductive Happening where
  | connected (id : ClientId) (address : String)
  | disconnected (id : ClientId)
  | command (id : ClientId) (value : Wire.Value)
  | upkeep
  | link (epoch : Nat) (event : Link.LinkEvent)
  /-- The due task at a position comes back.  A merge picks some keys. -/
  | task (position : Nat) (picked : List String)
  | report
  | advance (milliseconds : Nat)
  | setWall (moment : Int)
  | setStorage (storage : Storage)
  /-- Bytes that break the format are answered, and their connection is closed. -/
  | refuse (id : ClientId) (reply : Bytes)
  | hangUp (id : ClientId)
  /-- What is queued for the clients is taken to be sent. -/
  | deliver
  /-- What is queued for the leader is taken to be sent. -/
  | deliverToLeader

/-- The event that a task comes back as, if a merge picks these keys. -/
def Task.event (picked : List String) : Task → Event
  | .beginSnapshot => .beginSnapshot
  | .drain index => .drain index picked

/-- A server starts with an empty node or with one that has loaded a snapshot, and what
the settings say about a leader changes no more than the role. -/
theorem Server.start_inv {settings : Settings} {supply : Stream.IdSupply} {clock : Clock}
    {found : Except Snapshot.SnapshotError (Option Bytes)} {server : Server}
    (started : Server.start settings supply clock found = .ok server) :
    ∃ loaded : Node,
      (loaded = { Node.new settings supply clock with storage := {} } ∨
        ∃ bytes commands, Snapshot.commandsOf bytes = .ok commands ∧
          loaded = (Command.load commands
            { Node.new settings supply clock with storage := { file := some bytes } }).2) ∧
      (server.node = loaded ∨ ∃ host port,
        server.node = { loaded with role := loaded.role.follow host port }) := by
  simp only [Server.start] at started
  cases named : settings.leader.mapError StartError.settings with
  | error error =>
      rw [named] at started
      cases started
  | ok leader =>
      rw [named] at started
      cases stored : found.mapError StartError.snapshot with
      | error error =>
          rw [stored] at started
          cases started
      | ok snapshot =>
          rw [stored] at started
          match snapshot, leader with
          | none, none =>
              cases started
              exact ⟨_, .inl rfl, .inl rfl⟩
          | none, some (host, port) =>
              cases started
              exact ⟨_, .inl rfl, .inr ⟨host, port, rfl⟩⟩
          | some bytes, leader =>
              simp only [bind, Except.bind] at started
              cases read : Snapshot.commandsOf bytes with
              | error error =>
                  rw [read] at started
                  cases started
              | ok commands =>
                  rw [read] at started
                  match leader with
                  | none =>
                      cases started
                      exact ⟨_, .inr ⟨bytes, commands, read, rfl⟩, .inl rfl⟩
                  | some (host, port) =>
                      cases started
                      exact ⟨_, .inr ⟨bytes, commands, read, rfl⟩, .inr ⟨host, port, rfl⟩⟩

namespace Node

/-- The node after something has happened to it, if that can happen. -/
def next? (node : Node) : Happening → Option Node
  | .connected id address => some (node.handle (.connected id address))
  | .disconnected id => some (node.handle (.disconnected id))
  | .command id value => some (node.handle (.command id value))
  | .upkeep => some (node.handle .upkeep)
  | .link epoch event => some (node.handle (.link epoch event))
  | .task position picked =>
      node.tasks[position]?.map fun task =>
        { node with tasks := node.tasks.eraseIdx position }.handle (task.event picked)
  | .report => node.stepWriter?.map (·.2)
  | .advance milliseconds => some (node.advance milliseconds)
  | .setWall moment => some { node with clock := { node.clock with wall := moment } }
  | .setStorage storage => some { node with storage }
  | .refuse id reply =>
      some { node with clients := (node.clients.send id reply).close id }
  | .hangUp id => some { node with clients := node.clients.hangUp id }
  | .deliver => some { node with clients := node.clients.takeQueued.2 }
  | .deliverToLeader =>
      some { node with
        role := { node.role with link := node.role.link.map fun link => { link with queue := [] } } }

/-- A writer makes its next report, and the node takes it.  With the last report the writer
is gone. -/
theorem next?_report {node later : Node} (happened : node.next? .report = some later) :
    ∃ report reports writing storage, node.writing = some (report :: reports) ∧
      later = { node with writing, storage }.takeReport report ∧
      ((∃ result, report = .finished result) ∧ writing = none ∨ writing = some reports) := by
  simp only [next?, stepWriter?] at happened
  split at happened
  · cases happened
  · cases happened
  · next report reports running =>
      cases happened
      cases report with
      | written index => exact ⟨_, reports, some reports, node.storage, running, rfl, .inr rfl⟩
      | aborted index => exact ⟨_, reports, some reports, node.storage, running, rfl, .inr rfl⟩
      | finished result => exact ⟨_, reports, none, _, running, rfl, .inl ⟨⟨result, rfl⟩, rfl⟩⟩

/-- A node that has been started, whatever it was started with, and to which anything
has happened since. -/
inductive Reachable : Node → Prop
  | start {settings : Settings} {supply : Stream.IdSupply} {clock : Clock}
      {found : Except Snapshot.SnapshotError (Option Bytes)} {server : Server} (port : Nat)
      (started : Server.start settings supply clock found = .ok server) :
      Reachable { server.node with port }
  | next {node later : Node} (happening : Happening) (reachable : Reachable node)
      (happened : node.next? happening = some later) : Reachable later

/-! ### Given sequences -/

/-- A node after several things have happened to it.  What cannot happen is left out. -/
def run (node : Node) (happenings : List Happening) : Node :=
  happenings.foldl (fun node happening => (node.next? happening).getD node) node

theorem next?_run {node : Node} {happening : Happening}
    (happens : (node.next? happening).isSome = true) :
    node.next? happening = some (node.run [happening]) := by
  obtain ⟨later, happened⟩ := Option.isSome_iff_exists.mp happens
  simp [run, happened]

theorem Reachable.run {node : Node} (reachable : node.Reachable) (happenings : List Happening) :
    (node.run happenings).Reachable := by
  induction happenings generalizing node with
  | nil => exact reachable
  | cons happening happenings ih =>
      refine @ih ((node.next? happening).getD node) ?_
      cases happened : node.next? happening with
      | none => exact reachable
      | some later => exact reachable.next happening happened

/-- A node with one database and two clients. -/
def small : Node :=
  { Node.new { databases := 1 } {} { wall := 1000 } with port := 7000 }.run
    [.connected 1 "127.0.0.1:40001", .connected 2 "127.0.0.1:40002"]

theorem small_reachable : small.Reachable :=
  (@Reachable.start { databases := 1 } {} { wall := 1000 } (.ok none)
    { node := Node.new { databases := 1 } {} { wall := 1000 } } 7000 rfl).run _

end Node

namespace Happening

/-- A client runs a command. -/
def runs (id : ClientId) (arguments : List String) : Happening :=
  .command id (.command arguments)

end Happening
end ReplicaStore
