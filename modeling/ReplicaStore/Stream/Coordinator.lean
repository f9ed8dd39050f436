import ReplicaStore.Clients
import ReplicaStore.Stream.Backlog
import ReplicaStore.Stream.Identity
import ReplicaStore.Wire.Value

/-!
# The coordinator

The leader's side of replication.  The coordinator decides for each replica whether
it can continue from the backlog or needs a snapshot, ships finished snapshots with
the stream written since, and hands every piece of the stream to the backlog and to
the replicas that are online.

The stream is made of commands; which database they belong to follows from the
SELECT commands among them.  `streamDatabase` is the database that the stream has
selected.  It is forgotten wherever somebody may join the stream, so that the next
command is preceded by a SELECT.
-/

namespace ReplicaStore.Stream

/-- How far the synchronisation of a replica has come. -/
inductive ReplicaState where
  | needSnapshot
  | awaitingSnapshot
  | sendingSnapshot
  | online
  deriving DecidableEq, Repr

def ReplicaState.name : ReplicaState → String
  | needSnapshot => "need_bgsave"
  | awaitingSnapshot => "wait_bgsave"
  | sendingSnapshot => "send_bulk"
  | online => "online"

/-- What the leader knows about a replica. -/
structure Replica where
  state : ReplicaState
  acknowledged : Int
  /-- The millisecond of the last sign of life. -/
  lastHeard : Nat
  /-- The millisecond since which a snapshot has been needed. -/
  needSince : Nat
  host : String
  listeningPort : Option Nat
  deriving DecidableEq, Repr

/-- Where replication ids come from.  Two supplies with one stride that start at
different residues never give out the same id. -/
structure IdSupply where
  next : Nat := 1
  stride : Nat := 1
  deriving DecidableEq, Repr

/-- The next id, and the supply without it. -/
def IdSupply.draw (supply : IdSupply) : String × IdSupply :=
  (drawnId supply.next, { supply with next := supply.next + supply.stride })

structure Coordinator where
  identity : Identity
  supply : IdSupply
  backlog : Option Backlog := none
  /-- The capacity of a backlog that is yet to be created. -/
  backlogSize : Nat
  replicas : Std.ExtTreeMap ClientId Replica := ∅
  streamDatabase : Option Nat := none
  /-- The end of the stream when the last background snapshot began. -/
  snapshotOffset : Int := 0
  lastPing : Nat
  /-- The millisecond since which there have been no replicas. -/
  idleSince : Option Nat := none
  deriving Repr

namespace Coordinator

/-- A coordinator with a history of its own and no backlog. -/
def new (supply : IdSupply) (backlogSize now : Nat) : Coordinator :=
  let (id, supply) := supply.draw
  { identity := { current := id }, supply, backlogSize, lastPing := now }

/-- The end of the stream, zero as long as none has been recorded. -/
def offset (coordinator : Coordinator) : Int :=
  (coordinator.backlog.map (·.writeOffset)).getD 0

/-- The backlog, or a new inactive one. -/
def backlogOrNew (coordinator : Coordinator) : Backlog :=
  coordinator.backlog.getD (Backlog.new coordinator.backlogSize)

/-- Changes the backlog, which is created if there is none. -/
def changeBacklog (coordinator : Coordinator) (change : Backlog → Backlog) : Coordinator :=
  { coordinator with backlog := some (change coordinator.backlogOrNew) }

def isReplica (coordinator : Coordinator) (id : ClientId) : Bool :=
  id ∈ coordinator.replicas

/-- The replicas in a given state, in order. -/
def replicasIn (coordinator : Coordinator) (state : ReplicaState) : List ClientId :=
  (coordinator.replicas.filter fun _ replica => replica.state == state).keys

/-- Whether some replica is in a given state. -/
def hasReplicaIn (coordinator : Coordinator) (state : ReplicaState) : Bool :=
  !(coordinator.replicasIn state).isEmpty

/-- Starts a history that nobody else shares. -/
def rotateIdentity (coordinator : Coordinator) : Coordinator :=
  let (id, supply) := coordinator.supply.draw
  { coordinator with identity := coordinator.identity.adopt id, supply }

/-- Ends the current history here and goes on under a drawn id. -/
def branchIdentity (coordinator : Coordinator) : Coordinator :=
  let (id, supply) := coordinator.supply.draw
  { coordinator with identity := coordinator.identity.shift id coordinator.offset, supply }

/-- Takes over the history of another node. -/
def adoptIdentity (coordinator : Coordinator) (id : String) : Coordinator :=
  { coordinator with identity := coordinator.identity.adopt id }

/-- Ends the current history here and goes on under a given id. -/
def shiftIdentity (coordinator : Coordinator) (id : String) (offset : Int) : Coordinator :=
  { coordinator with identity := coordinator.identity.shift id offset }

/-- Makes sure that the next command in the stream is preceded by a SELECT. -/
def forgetStreamDatabase (coordinator : Coordinator) : Coordinator :=
  { coordinator with streamDatabase := none }

/-- Registers a replica. -/
def register (coordinator : Coordinator) (clients : Clients) (now : Nat) (id : ClientId)
    (state : ReplicaState) (offset : Int) : Coordinator :=
  let client := clients[id]?
  let replica : Replica :=
    { state
      acknowledged := max offset 0
      lastHeard := now
      needSince := now
      host := (client.map (·.host)).getD ""
      listeningPort := client.bind (·.listeningPort) }
  { coordinator with replicas := coordinator.replicas.insert id replica }

/-- The reply that lets a replica continue, followed by the bytes it has missed. -/
def continueReply (id : String) (tail : Bytes) : Bytes :=
  Bytes.ofText s!"+CONTINUE {id}\r\n" ++ tail

/-- The reply that starts a replica from a snapshot, followed by the stream since. -/
def fullReply (id : String) (offset : Int) (payload tail : Bytes) : Bytes :=
  Bytes.ofText s!"+FULLRESYNC {id} {offset}\r\n" ++
    Bytes.ofText s!"${payload.length}\r\n" ++ payload ++ tail

/-- The bytes that a replica at a place in some history has missed, if it shares this
history and they are still there. -/
def missed? (coordinator : Coordinator) (id : String) (offset : Int) : Option Bytes :=
  match coordinator.backlog with
  | none => none
  | some backlog =>
      if backlog.active && coordinator.identity.sharesHistory id offset then
        (backlog.read offset).toOption
      else none

/-- Lets a replica continue where it is, if that is possible. -/
def partialResync? (coordinator : Coordinator) (clients : Clients) (now : Nat) (client : ClientId)
    (id : String) (offset : Int) : Option (Coordinator × Clients) :=
  (coordinator.missed? id offset).map fun tail =>
    (coordinator.register clients now client .online offset,
      clients.send client (continueReply coordinator.identity.current tail))

/-- Registers a replica that needs a snapshot.  If there is no backlog yet, one is
created, and with it begins a history at the offset the replica asked for. -/
def beginFullResync (coordinator : Coordinator) (clients : Clients) (now : Nat)
    (client : ClientId) (offset : Int) : Coordinator :=
  let started :=
    match coordinator.backlog with
    | some _ => coordinator
    | none =>
        { coordinator.rotateIdentity with
          backlog := some ((Backlog.new coordinator.backlogSize).reset (max offset 0)).activate
          streamDatabase := none }
  started.register clients now client .needSnapshot offset

/-- Counts every replica that needs a snapshot to the one being written.  The result
is their number. -/
def markAwaiting (coordinator : Coordinator) : Nat × Coordinator :=
  ((coordinator.replicasIn .needSnapshot).length,
    { coordinator with
      replicas := coordinator.replicas.map fun _ replica =>
        if replica.state = .needSnapshot then { replica with state := .awaitingSnapshot }
        else replica })

/-- Notes where the stream stands while a snapshot is begun. -/
def snapshotStarted (coordinator : Coordinator) : Coordinator :=
  { coordinator with snapshotOffset := coordinator.offset, streamDatabase := none }

/-- Forgets replicas and asks for their connections to be closed. -/
def dropReplicas (coordinator : Coordinator) (clients : Clients) (ids : List ClientId) :
    Coordinator × Clients :=
  ({ coordinator with replicas := ids.foldl (·.erase ·) coordinator.replicas },
    clients.closeAll ids)

/-- Changes the record of a replica, if there is one. -/
def changeReplica (coordinator : Coordinator) (id : ClientId) (change : Replica → Replica) :
    Coordinator :=
  { coordinator with replicas := coordinator.replicas.modify id change }

/-- Ships a snapshot to a replica that has been waiting for it. -/
def ship (now : Nat) (payload tail : Bytes) (state : Coordinator × Clients) (id : ClientId) :
    Coordinator × Clients :=
  let (coordinator, clients) := state
  let shipped (replica : Replica) : Replica :=
    if clients.reaches id then { replica with state := .online, lastHeard := now }
    else { replica with state := .sendingSnapshot }
  (coordinator.changeReplica id shipped,
    clients.send id
      (fullReply coordinator.identity.current coordinator.snapshotOffset payload tail))

/-- Ships a finished snapshot to all replicas waiting for it.  If the stream since the
snapshot is not there any more, they are dropped. -/
def finishFullSync (coordinator : Coordinator) (clients : Clients) (now : Nat) (payload : Bytes) :
    Coordinator × Clients :=
  let waiting := coordinator.replicasIn .awaitingSnapshot
  if waiting.isEmpty then (coordinator, clients)
  else
    match coordinator.backlog with
    | none => coordinator.dropReplicas clients waiting
    | some backlog =>
        let (coordinator, clients) :=
          match backlog.read coordinator.snapshotOffset with
          | .error _ => coordinator.dropReplicas clients waiting
          | .ok tail => waiting.foldl (ship now payload tail) (coordinator, clients)
        (coordinator.forgetStreamDatabase, clients)

/-- Drops the replicas that waited for a snapshot that failed. -/
def failFullSync (coordinator : Coordinator) (clients : Clients) : Coordinator × Clients :=
  coordinator.dropReplicas clients (coordinator.replicasIn .awaitingSnapshot)

/-- What goes into the stream for a command of a database. -/
def streamBytes (coordinator : Coordinator) (data : Bytes) (database : Option Nat) : Bytes :=
  match database with
  | none => data
  | some index =>
      if coordinator.streamDatabase = some index then data
      else Wire.commandBytes ["SELECT", toString index] ++ data

/-- Adds to the stream, and sends the same to the replicas that are online.  A command
of a known database is preceded by a SELECT where the stream has not selected it. -/
def feed (coordinator : Coordinator) (clients : Clients) (data : Bytes) (database : Option Nat) :
    Coordinator × Clients :=
  match coordinator.backlog with
  | none => (coordinator, clients)
  | some backlog =>
      let bytes := coordinator.streamBytes data database
      ({ coordinator with
          backlog := some (backlog.write bytes).2
          streamDatabase := database.orElse fun _ => coordinator.streamDatabase },
        clients.sendAll (coordinator.replicasIn .online) bytes)

/-- Notes how far a replica says it has come. -/
def acknowledge (coordinator : Coordinator) (now : Nat) (id : ClientId) (offset : Int) :
    Coordinator :=
  coordinator.changeReplica id fun replica =>
    { replica with acknowledged := max replica.acknowledged offset, lastHeard := now }

/-- Notes a sign of life of a replica. -/
def touch (coordinator : Coordinator) (now : Nat) (id : ClientId) : Coordinator :=
  coordinator.changeReplica id fun replica => { replica with lastHeard := now }

def remove (coordinator : Coordinator) (id : ClientId) : Coordinator :=
  { coordinator with replicas := coordinator.replicas.erase id }

/-- Drops all replicas. -/
def dropAll (coordinator : Coordinator) (clients : Clients) : Coordinator × Clients :=
  coordinator.dropReplicas clients coordinator.replicas.keys

/-- The periods, in milliseconds, that the regular upkeep goes by. -/
structure Upkeep where
  following : Bool
  pingPeriod : Nat
  timeout : Nat
  backlogTtl : Nat

/-- Milliseconds for which a replica may need a snapshot before one is begun for it. -/
def snapshotGrace : Nat := 1000

/-- Sends a ping down the stream if it is time for one.  A follower leaves that to its
own leader. -/
def ping (coordinator : Coordinator) (clients : Clients) (now : Nat) (upkeep : Upkeep) :
    Coordinator × Clients :=
  if !upkeep.following && !coordinator.replicas.isEmpty &&
      upkeep.pingPeriod ≤ now - coordinator.lastPing then
    { coordinator with lastPing := now }.feed clients (Wire.commandBytes ["PING"]) none
  else (coordinator, clients)

/-- The replicas that have been silent for too long. -/
def timedOut (coordinator : Coordinator) (now : Nat) (upkeep : Upkeep) : List ClientId :=
  (coordinator.replicas.filter fun _ replica =>
    (replica.state == .online || replica.state == .awaitingSnapshot) &&
      upkeep.timeout < now - replica.lastHeard).keys

/-- The replicas that are kept waiting, and must be told that the leader is alive. -/
def keptWaiting (coordinator : Coordinator) : List ClientId :=
  (coordinator.replicas.filter fun _ replica =>
    replica.state == .needSnapshot || replica.state == .awaitingSnapshot).keys

/-- Gives the backlog up when there has been no replica for long enough. -/
def expireBacklog (coordinator : Coordinator) (now : Nat) (upkeep : Upkeep) : Coordinator :=
  if coordinator.replicas.isEmpty then
    let since := coordinator.idleSince.getD now
    let idle := { coordinator with idleSince := some since }
    if !upkeep.following && idle.backlog.isSome && upkeep.backlogTtl ≤ now - since then
      { idle.rotateIdentity with backlog := none, streamDatabase := none }
    else idle
  else { coordinator with idleSince := none }

/-- Whether a replica has needed a snapshot for long enough. -/
def overdue (coordinator : Coordinator) (now : Nat) : Bool :=
  !(coordinator.replicas.filter fun _ replica =>
    replica.state == .needSnapshot && snapshotGrace ≤ now - replica.needSince).isEmpty

/-- The regular upkeep.  The result tells whether a snapshot should be begun. -/
def maintain (coordinator : Coordinator) (clients : Clients) (now : Nat) (upkeep : Upkeep) :
    Bool × Coordinator × Clients :=
  let (coordinator, clients) := coordinator.ping clients now upkeep
  let clients := clients.sendAll coordinator.keptWaiting [10]
  let (coordinator, clients) := coordinator.dropReplicas clients (coordinator.timedOut now upkeep)
  let coordinator := coordinator.expireBacklog now upkeep
  (coordinator.overdue now, coordinator, clients)

end Coordinator
end ReplicaStore.Stream
