import ReplicaStore.Channels
import ReplicaStore.Link.Role
import ReplicaStore.PartitionSet
import ReplicaStore.Settings.Basic
import ReplicaStore.Snapshot.Writer
import ReplicaStore.Stream.Coordinator

/-!
# A node

The state of one server, and with it what the server has set going but not heard of
yet: a snapshot being written in the background, batches of merging to be run later,
and snapshots to be begun.  Time is part of the state and moved on from outside.
-/

namespace ReplicaStore

/-- What time it is: Unix milliseconds, and milliseconds on a clock that is never set. -/
structure Clock where
  wall : Int
  elapsed : Nat := 0
  deriving DecidableEq, Repr

/-- Where the snapshot is kept. -/
structure Storage where
  /-- How many partitions can be written before storing a snapshot fails, if it does. -/
  breaksAfter : Option Nat := none
  file : Option Bytes := none
  deriving DecidableEq, Repr

/-- What the writer of a background snapshot reports. -/
inductive Report where
  | written (index : Nat)
  | aborted (index : Nat)
  | finished (result : Except Snapshot.SnapshotError Bytes)
  deriving Repr

/-- What a node has told itself to do. -/
inductive Task where
  /-- Begin a snapshot for the replicas that need one. -/
  | beginSnapshot
  /-- Merge a batch of a partition. -/
  | drain (index : Nat)
  deriving DecidableEq, Repr

/-- A task that is due at some millisecond. -/
structure Timer where
  due : Nat
  task : Task
  deriving DecidableEq, Repr

structure Node where
  settings : Settings
  /-- The port on which the node listens. -/
  port : Nat
  partitions : PartitionSet
  clients : Clients := ∅
  channels : Channels := ∅
  coordinator : Stream.Coordinator
  role : Link.Role
  /-- The second of the last successful save. -/
  lastSave : Int
  /-- Whether the last background save was successful. -/
  saved : Bool := true
  clock : Clock
  storage : Storage := {}
  /-- The reports still to come from a snapshot being written in the background. -/
  writing : Option (List Report) := none
  /-- Tasks that are not due yet, the next one first. -/
  timers : List Timer := []
  /-- Tasks that are due, the oldest first. -/
  tasks : List Task := []
  deriving Repr

namespace Node

/-- A node without data. -/
def new (settings : Settings) (supply : Stream.IdSupply) (clock : Clock) : Node where
  settings := settings
  port := settings.port
  partitions := .new settings.databases
  coordinator := .new supply settings.backlogSize clock.elapsed
  role := { lastHeard := clock.elapsed }
  lastSave := clock.wall / 1000
  clock := clock

/-- Whether the node follows a leader. -/
def following (node : Node) : Bool :=
  node.role.following

/-- Uses the coordinator together with the clients. -/
def coordinate (node : Node) (use : Stream.Coordinator → Clients → Stream.Coordinator × Clients) :
    Node :=
  let (coordinator, clients) := use node.coordinator node.clients
  { node with coordinator, clients }

/-- Adds to the stream. -/
def feed (node : Node) (data : Bytes) (database : Option Nat) : Node :=
  node.coordinate fun coordinator clients => coordinator.feed clients data database

/-- Drops all replicas and has the stream select its database anew. -/
def dropReplicas (node : Node) : Node :=
  node.coordinate fun coordinator clients =>
    let (coordinator, clients) := coordinator.dropAll clients
    (coordinator.forgetStreamDatabase, clients)

/-- Puts a timer behind those that are due no later. -/
def insertTimer (timer : Timer) : List Timer → List Timer
  | [] => [timer]
  | first :: rest =>
      if first.due ≤ timer.due then first :: insertTimer timer rest else timer :: first :: rest

/-- Sets a timer.  What is due already does not wait for the clock to move on. -/
def setTimer (node : Node) (timer : Timer) : Node :=
  if timer.due ≤ node.clock.elapsed then { node with tasks := node.tasks ++ [timer.task] }
  else { node with timers := insertTimer timer node.timers }

/-- Has a batch of a partition merged after the interval between two merges. -/
def scheduleDrain (node : Node) (index : Nat) : Node :=
  node.setTimer
    { due := node.clock.elapsed + node.settings.drainInterval, task := .drain index }

/-- From where this node would ask a leader to go on. -/
def syncRequest (node : Node) : Link.SyncRequest where
  listeningPort := node.port
  id := node.coordinator.backlog.map fun _ => node.coordinator.identity.current
  offset := node.coordinator.offset

end Node
end ReplicaStore
