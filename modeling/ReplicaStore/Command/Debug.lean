import ReplicaStore.Command.Dispatch
import ReplicaStore.Command.Saving
import ReplicaStore.Snapshot.Reader
import ReplicaStore.Text.Escape

/-!
# Commands for looking inside a node
-/

namespace ReplicaStore.Command

open CommandM

/-- The help on `DEBUG`. -/
def debugHelp : List String :=
  [ "DEBUG <subcommand> [<arg> [value] [opt] ...]. Subcommands are:",
    "RELOAD",
    "    Save the dataset, flush it and load it back from the snapshot.",
    "POPULATE <count>",
    "    Create <count> string keys named key:<num> in the selected database.",
    "BUFFER <offset>",
    "    Return the replication backlog from <offset> onwards.",
    "WHO",
    "    Describe the replication identity of this node.",
    "SLAVE",
    "    Describe the state of the link to the master.",
    "DB",
    "    Describe the snapshot state of every database.",
    "OBJECT <key>",
    "    Show low level information about the key.",
    "ERROR <message>",
    "    Reply with <message> as an error.",
    "CLOSE <id>",
    "    Close the connection with the given id.",
    "HELP",
    "    Print this help." ]

/-- Saves, empties all databases and loads them back.  `table` holds the commands that
a snapshot is made of. -/
def reload (table : List Command) : CommandM Reply := do
  let payload ← saveNow
  match Snapshot.commandsOf payload with
  | .error error => throw (.loadFailed error.message)
  | .ok commands =>
      changeNode fun node =>
        (loadFrom table commands { node with partitions := node.partitions.flush }).2
      ok

/-- Stores so many keys with strings. -/
def populate (count : Nat) : CommandM Reply := do
  onPartition fun partition =>
    ((), (List.range count).foldl
      (fun partition index =>
        partition.put s!"key:{index}" { datum := .text s!"value:{index}" })
      partition)
  ok

/-- Shows the stream from an offset on. -/
def showBacklog (offset : Int) : CommandM Reply := do
  match (← node).coordinator.backlog.filter (·.active) with
  | none => return [.null]
  | some backlog =>
      match backlog.read offset with
      | .ok bytes => return [.bulk (Text.escape bytes)]
      | .error error => throw (.custom s!"ERR {error.message}")

/-- Describes the replication identity. -/
def describeIdentity (node : Node) : String :=
  let identity := node.coordinator.identity
  let role := if node.following then "slave" else "master"
  let replicas := node.coordinator.replicas.size
  s!"role:{role} replid:{identity.current} replid2:{identity.previous} " ++
    s!"offset:{node.coordinator.offset} second_offset:{identity.previousEnd} replicas:{replicas}"

/-- Describes the link to the leader. -/
def describeLink (node : Node) : String :=
  let leader := match node.role.leader with
    | some (host, port) => s!"{host}:{port}"
    | none => "none"
  s!"state:{node.role.state.name} master:{leader} epoch:{node.role.epoch} " ++
    s!"master_db:{node.role.database}"

/-- Describes one database. -/
def describePartition (index : Nat) (partition : Partition) : String :=
  s!"db{index}:state={partition.phase.name},keys={partition.size}," ++
    s!"primary={partition.primary.size},shadow={partition.shadow.size},drift={partition.drift}"

/-- Describes all databases. -/
def describePartitions (node : Node) : String :=
  "\n".intercalate
    (s!"status:{node.partitions.status.name}" ::
      node.partitions.partitions.zipIdx.map fun (partition, index) =>
        describePartition index partition)

/-- The size of a value: the bytes of a string, the items of a list. -/
def sizeOf (datum : Datum) : Nat :=
  match datum with
  | .text content => content.utf8ByteSize
  | .list items => items.length

/-- Describes a key. -/
def describeKey (key : String) : CommandM Reply := do
  let now ← now
  let (found, expiry, phase) ← onPartition fun partition =>
    let (found, partition) := partition.get key now
    ((found, partition.expiry key, partition.phase), partition)
  let datum ← orFail .noSuchKey found
  let expiry := expiry.getD (-1)
  return [.simple (s!"Value type:{datum.kind} size:{sizeOf datum} " ++
    s!"expires_at:{expiry} db_state:{phase.name}")]

/-- Closes a connection. -/
def closeClient (id : ClientId) : CommandM Reply := do
  if (← node).clients.reaches id then
    changeNode fun node => { node with clients := node.clients.close id }
    ok
  else throw .noSuchClient

/-- `DEBUG subcommand...`. -/
def debug (table : List Command) : Handler
  | [] => throw (.wrongArity "debug")
  | subcommand :: arguments => do
      match Text.upper subcommand, arguments with
      | "RELOAD", [] => reload table
      | "POPULATE", [count] =>
          let count ← integer count
          if count < 0 then throw .notAnInteger
          populate count.toNat
      | "BUFFER", [offset] => showBacklog (← integer offset)
      | "WHO", [] => return [.bulk (describeIdentity (← node))]
      | "SLAVE", [] => return [.bulk (describeLink (← node))]
      | "DB", [] => return [.bulk (describePartitions (← node))]
      | "OBJECT", [key] => describeKey key
      | "ERROR", [message] => throw (.custom message)
      | "CLOSE", [id] => closeClient (← orFail .notAnInteger (Text.readUnsigned64 id))
      | "HELP", [] => return [.strings debugHelp]
      | _, _ => throw (.unknownSubcommand subcommand "DEBUG")

end ReplicaStore.Command
