import Mathlib.Logic.Function.Basic
import Mathlib.Logic.Relation
import ReplicaStore.Link.Dialogue
import ReplicaStore.Proofs.Node.Receiving

/-!
# Clusters

Several nodes, any of which may follow any other one.  What a node queues for a follower
travels on a line, from which the follower takes it whenever it likes to.  Along with each
node goes the history of its stream: after a snapshot that of the node which took it, up to
the offset of the snapshot, and then all that was fed or applied.
-/

namespace ReplicaStore

open ReplicaStore.Stream (Chronicle IdSupply Piece said)

/-- The name of a history and an offset, as they are presented to a leader. -/
def Link.SyncRequest.presented (request : Link.SyncRequest) : String × Int :=
  match request.id with
  | some id => (id, request.offset)
  | none => ("?", -1)

/-- The words of a request to be synchronised. -/
def Link.SyncRequest.words (request : Link.SyncRequest) : List String :=
  ["PSYNC", request.presented.1, toString request.presented.2]

theorem Link.Dialogue.syncCommand_eq (request : Link.SyncRequest) :
    syncCommand request = command request.words := by
  simp only [syncCommand, Link.SyncRequest.words, Link.SyncRequest.presented]
  cases request.id <;> rfl

/-- A connection over which a node follows another one, since it asked to be synchronised. -/
structure Line (Place : Type) where
  /-- The epoch of the follower's link. -/
  epoch : Nat
  leader : Place
  /-- The number by which the leader knows the connection. -/
  client : ClientId
  /-- Whether anything more comes from the leader. -/
  live : Bool := true
  /-- What was taken from the queue that the leader has for the connection. -/
  taken : List Outgoing := []
  /-- How many bytes the follower has read, once it has got an answer. -/
  read : Option Nat := none
  /-- The history of the leader, up to where the leader asked for the connection to be closed. -/
  story : Chronicle

namespace Line

variable {Place : Type}

/-- All that has been queued since the follower asked. -/
def messages (line : Line Place) (leader : Node) : List Outgoing :=
  line.taken ++ if line.live then leader.clients.pending line.client else []

/-- All that the follower can read. -/
def sent (line : Line Place) (leader : Node) : Bytes :=
  said (line.messages leader)

/-- The line after something has happened to the leader. -/
def passes (line : Line Place) (leader : Node) (history : Chronicle) (happening : Happening) :
    Line Place :=
  if line.live then
    { line with
      taken := line.taken ++ leader.takes line.client happening
      story :=
        if .close ∈ line.messages leader then line.story
        else history.extend (Piece.bytes (leader.added happening)) }
  else line

theorem passes_frame (line : Line Place) (leader : Node) (history : Chronicle) (happening : Happening) :
    (line.passes leader history happening).leader = line.leader ∧
      (line.passes leader history happening).epoch = line.epoch ∧
      (line.passes leader history happening).read = line.read := by
  simp only [passes]
  split <;> exact ⟨rfl, rfl, rfl⟩

/-- The line once nothing more can come from the leader. -/
def broken (line : Line Place) (leader : Node) : Line Place :=
  { line with live := false, taken := line.messages leader }

end Line

/-- Some nodes, what their streams have been made of, and the lines on which they follow. -/
structure Cluster (Place : Type) where
  nodes : Place → Node
  histories : Place → Chronicle
  lines : Place → Option (Line Place)

namespace Cluster

variable {Place : Type} [DecidableEq Place]

/-- A line after something has happened to the node at a place. -/
def carry (cluster : Cluster Place) (place : Place) (happening : Happening) (line : Line Place) :
    Line Place :=
  if line.leader = place then
    line.passes (cluster.nodes place) (cluster.histories place) happening
  else line

theorem carry_frame (cluster : Cluster Place) (place : Place) (happening : Happening)
    (line : Line Place) :
    (cluster.carry place happening line).leader = line.leader ∧
      (cluster.carry place happening line).epoch = line.epoch ∧
      (cluster.carry place happening line).read = line.read := by
  simp only [carry]
  split
  · exact line.passes_frame ..
  · exact ⟨rfl, rfl, rfl⟩

/-- The cluster after something has happened to the node at a place. -/
def after (cluster : Cluster Place) (place : Place) (happening : Happening) (later : Node)
    (history : Chronicle) : Cluster Place where
  nodes := Function.update cluster.nodes place later
  histories := Function.update cluster.histories place history
  lines follower := (cluster.lines follower).map (cluster.carry place happening)

/-- The cluster with another line for a follower. -/
def setLine (cluster : Cluster Place) (follower : Place) (line : Line Place) : Cluster Place :=
  { cluster with lines := Function.update cluster.lines follower (some line) }

/-- The history of a node after something that adds to it. -/
def next (cluster : Cluster Place) (place : Place) (happening : Happening) (later : Node) : Chronicle :=
  (cluster.histories place).next (cluster.nodes place) happening later

/-- The history of a follower after something that its leader told it.  A snapshot stands for
the history of the leader up to the offset at which it was taken. -/
def received (cluster : Cluster Place) (follower : Place) (line : Line Place) (event : Link.LinkEvent)
    (later : Node) : Chronicle :=
  if (cluster.nodes follower).loads (.link line.epoch event) then
    line.story.upTo later.coordinator.offset
  else cluster.next follower (.link line.epoch event) later

/-- A connection of a node is one over which it is followed. -/
def Serves (cluster : Cluster Place) (place : Place) (id : ClientId) : Prop :=
  ∃ follower line, cluster.lines follower = some line ∧ line.leader = place ∧ line.live = true ∧
    line.client = id

/-- A follower asks a node to be synchronised, over a connection on which it has been answered
all that it has said so far.  Nothing keeps the node from serving it. -/
structure Asks (cluster : Cluster Place) (follower leader : Place) (client : ClientId)
    (link : Link.OpenLink) (value : Wire.Value) : Prop where
  follows : (cluster.nodes follower).following = true
  opened : (cluster.nodes follower).role.link = some link
  apart : (cluster.nodes follower).role.connected = false
  modest : Happening.Modest (cluster.Serves leader) (.command client value)
  reaches : (cluster.nodes leader).clients.reaches client = true
  deaf : (cluster.nodes leader).Deaf (· = client)
  answered : (cluster.nodes leader).clients.pending client = []
  linked : (cluster.nodes leader).following = true → (cluster.nodes leader).role.connected = true
  request : value.arguments? = some link.request.words

/-- One thing that happens in a cluster, as long as all offsets are in range. -/
inductive Step (cluster : Cluster Place) : Cluster Place → Prop
  /-- Anything that is not told to a node by its leader. -/
  | happens {place : Place} {happening : Happening} {later : Node}
      (admits : (cluster.nodes place).Admits happening)
      (modest : happening.Modest (cluster.Serves place))
      (happened : (cluster.nodes place).next? happening = some later)
      (range : (cluster.next place happening later).InRange) :
      Step cluster (cluster.after place happening later (cluster.next place happening later))
  | asks {follower leader : Place} {client : ClientId} {link : Link.OpenLink} {value : Wire.Value}
      (asks : cluster.Asks follower leader client link value)
      (range : (cluster.next leader (.command client value)
        ((cluster.nodes leader).serve client value)).InRange) :
      Step cluster ((cluster.after leader (.command client value)
        ((cluster.nodes leader).serve client value)
        (cluster.next leader (.command client value)
          ((cluster.nodes leader).serve client value))).setLine follower
        { epoch := (cluster.nodes follower).role.epoch
          leader
          client
          story := cluster.next leader (.command client value)
            ((cluster.nodes leader).serve client value) })
  /-- A follower takes what comes next of what its leader has queued. -/
  | receives {follower : Place} {line : Line Place} {event : Link.LinkEvent} {count : Nat}
      (followed : cluster.lines follower = some line)
      (accepts : (cluster.nodes follower).role.accepts line.epoch = true)
      (reports : Link.Reports (line.sent (cluster.nodes line.leader)) line.read event count)
      (range : (cluster.received follower line event
        ((cluster.nodes follower).handle (.link line.epoch event))).InRange) :
      Step cluster ((cluster.after follower (.link line.epoch event)
        ((cluster.nodes follower).handle (.link line.epoch event))
        (cluster.received follower line event
          ((cluster.nodes follower).handle (.link line.epoch event)))).setLine follower
        { line with read := some count })
  /-- A connection breaks.  What was queued before may still arrive. -/
  | breaks {follower : Place} {line : Line Place} (followed : cluster.lines follower = some line) :
      Step cluster (cluster.setLine follower (line.broken (cluster.nodes line.leader)))

/-- All nodes have been started, each with its own supply of ids, and nobody follows yet. -/
structure Started (supplies : Place → IdSupply) (cluster : Cluster Place) : Prop where
  nodes : ∀ place, ∃ settings clock found server port,
    Server.start settings (supplies place) clock found = .ok server ∧
      cluster.nodes place = { server.node with port }
  histories : ∀ place, cluster.histories place = {}
  lines : ∀ place, cluster.lines place = none

/-- What can come of nodes that have been started. -/
def Reachable (supplies : Place → IdSupply) (cluster : Cluster Place) : Prop :=
  ∃ start : Cluster Place, start.Started supplies ∧ Relation.ReflTransGen Step start cluster

end Cluster
end ReplicaStore
