import ReplicaStore.Command.Table

/-!
# Events

Everything that happens to a node is an event, and a node handles one event at a
time.
-/

namespace ReplicaStore

/-- What can happen to a node. -/
inductive Event where
  | connected (id : ClientId) (address : String)
  | disconnected (id : ClientId)
  | command (id : ClientId) (value : Wire.Value)
  /-- A snapshot is to be begun for the replicas that need one. -/
  | beginSnapshot
  /-- A batch of a partition is to be merged: the slots of the picked keys. -/
  | drain (index : Nat) (picked : List String)
  | report (report : Report)
  /-- It is time for the regular upkeep. -/
  | upkeep
  /-- Something was reported by the link with the given epoch. -/
  | link (epoch : Nat) (event : Link.LinkEvent)
  deriving Repr

namespace Node

/-- Greets a new connection. -/
def connect (node : Node) (id : ClientId) (address : String) : Node :=
  { node with clients := node.clients.insert id { address } }

/-- Forgets a connection, its subscriptions and its replica. -/
def disconnect (node : Node) (id : ClientId) : Node :=
  { node with
    clients := node.clients.erase id
    channels := node.channels.unsubscribeAll (Command.subscriptions id node) id
    coordinator := node.coordinator.remove id }

/-- Queues a reply, if there is one. -/
def answer (node : Node) (id : ClientId) (reply : Reply) : Node :=
  if reply.isEmpty then node
  else { node with clients := node.clients.send id (reply.flatMap (·.toBytes)) }

/-- Runs a command of a client. -/
def serve (node : Node) (id : ClientId) (value : Wire.Value) : Node :=
  match node.clients[id]? with
  | none => node
  | some client =>
      let node := { node with coordinator := node.coordinator.touch node.clock.elapsed id }
      match value.arguments? with
      | none => node.answer id [CommandError.invalidFormat.reply]
      | some arguments =>
          let session : Session := { source := .client id, database := client.database }
          let (reply, context) := Command.dispatch { node, session } arguments
          let node := { context.node with
            clients := context.node.clients.modify id fun client =>
              { client with database := context.session.database } }
          node.answer id reply

/-- Merges a batch of a partition, and sees to the next one if that was not all. -/
def drain (node : Node) (index : Nat) (picked : List String) : Node :=
  let node := { node with partitions := node.partitions.drain index picked }
  if node.partitions.unsettled index then node.scheduleDrain index else node

/-- Notes that a partition has been written. -/
def partitionWritten (node : Node) (index : Nat) : Node :=
  let node := { node with partitions := node.partitions.written index }
  if node.partitions.inPhase index .moving then node.scheduleDrain index else node

/-- Notes that a background snapshot is done, and serves the replicas that waited. -/
def snapshotFinished (node : Node) (result : Except Snapshot.SnapshotError Bytes) : Node :=
  let node := { node with partitions := node.partitions.settle }
  match result with
  | .ok payload =>
      { node with lastSave := node.clock.wall / 1000, saved := true }.coordinate
        fun coordinator clients => coordinator.finishFullSync clients node.clock.elapsed payload
  | .error _ =>
      { node with saved := false }.coordinate fun coordinator clients =>
        coordinator.failFullSync clients

/-- Takes notice of a report of the snapshot writer. -/
def takeReport (node : Node) : Report → Node
  | .written index => node.partitionWritten index
  | .aborted index => { node with partitions := node.partitions.aborted index }
  | .finished result => node.snapshotFinished result

/-- The regular upkeep: of the link to the leader, and of the replicas. -/
def maintain (node : Node) : Node :=
  let now := node.clock.elapsed
  let timeout := 1000 * node.settings.timeout
  let node := { node with role := node.role.maintain now node.syncRequest timeout }
  let upkeep : Stream.Coordinator.Upkeep :=
    { following := node.following
      pingPeriod := 1000 * node.settings.pingPeriod
      timeout
      backlogTtl := 1000 * node.settings.backlogTtl }
  let (overdue, coordinator, clients) := node.coordinator.maintain node.clients now upkeep
  let node := { node with coordinator, clients }
  if overdue && node.partitions.status == .normal then
    { node with tasks := node.tasks ++ [.beginSnapshot] }
  else node

/-- Replaces all data by a snapshot of the leader, and the history by the leader's.  A
snapshot that cannot be read ends the link instead. -/
def applyFullSync (node : Node) (id : String) (offset : Int) (payload : Bytes) : Node :=
  match Snapshot.commandsOf payload with
  | .error _ => { node with role := node.role.reconnect }
  | .ok commands =>
      let emptied := { node with
        partitions := node.partitions.flush
        coordinator := node.coordinator.changeBacklog fun backlog =>
          backlog.deactivate.reset offset }
      let loaded := (Command.load commands emptied).2
      let following := { loaded with
        coordinator := (loaded.coordinator.changeBacklog (·.activate)).adoptIdentity id }
      let freed := following.dropReplicas
      { freed with
        role := { freed.role with database := 0 }.setState node.clock.elapsed .connected }

/-- Goes on with the leader's stream where it was left.  If the history has got another
id meanwhile, the replicas of this node must ask again. -/
def continueStream (node : Node) (id : Option String) : Node :=
  let renamed :=
    match id with
    | none => node
    | some id =>
        if id = node.coordinator.identity.current then node
        else
          let coordinator := node.coordinator.shiftIdentity id node.coordinator.offset
          { node with coordinator }.coordinate fun coordinator clients =>
            coordinator.dropAll clients
  { renamed with
    coordinator := renamed.coordinator.changeBacklog (·.activate)
    role := renamed.role.setState node.clock.elapsed .connected }

/-- Runs a command of the leader's stream and passes its bytes on as they are. -/
def follow (node : Node) (arguments : List String) (raw : Bytes) : Node :=
  let node := { node with role := node.role.touch node.clock.elapsed }
  if node.role.connected then
    let session : Session := { source := .leader, database := node.role.database }
    let (_, context) := Command.dispatch { node, session } arguments
    let node := context.node
    { node with role := { node.role with database := context.session.database } }.feed raw none
  else node

/-- Takes notice of what the link to the leader reports. -/
def takeLinkEvent (node : Node) : Link.LinkEvent → Node
  | .state state => { node with role := node.role.setState node.clock.elapsed state }
  | .heartbeat => { node with role := node.role.touch node.clock.elapsed }
  | .fullSync id offset payload => node.applyFullSync id offset payload
  | .continued id => node.continueStream id
  | .command arguments raw => node.follow arguments raw
  | .failed _ => { node with role := node.role.reconnect }

/-- Handles an event. -/
def handle (node : Node) : Event → Node
  | .connected id address => node.connect id address
  | .disconnected id => node.disconnect id
  | .command id value => node.serve id value
  | .beginSnapshot =>
      if node.coordinator.hasReplicaIn .needSnapshot then node.scheduleFullSync else node
  | .drain index picked => node.drain index picked
  | .report report => node.takeReport report
  | .upkeep => node.maintain
  | .link epoch event => if node.role.accepts epoch then node.takeLinkEvent event else node

end Node
end ReplicaStore
