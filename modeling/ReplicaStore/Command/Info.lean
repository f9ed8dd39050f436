import ReplicaStore.Command.Basic

/-!
# The report of a node about itself
-/

namespace ReplicaStore

namespace Node

/-- One line of a report. -/
def field (name value : String) : String :=
  name ++ ":" ++ value

/-- A yes or no in a report. -/
def flag (value : Bool) : String :=
  if value then "1" else "0"

/-- What the report says about the leader, if there is one. -/
def leaderLines (node : Node) : List String :=
  match node.role.leader with
  | none => ["role:master"]
  | some (host, port) =>
      [ "role:slave",
        field "master_host" host,
        field "master_port" (toString port),
        field "master_link_status" (if node.role.connected then "up" else "down"),
        field "slave_state" node.role.state.name,
        field "master_last_io_seconds_ago"
          (toString ((node.clock.elapsed - node.role.lastHeard) / 1000)) ]

/-- What the report says about one replica. -/
def replicaLine (node : Node) (index : Nat) (id : ClientId) (replica : Stream.Replica) : String :=
  let host := (node.clients[id]?.map (·.host)).getD ""
  let port := replica.listeningPort.getD 0
  s!"slave{index}:ip={host},port={port},state={replica.state.name},offset={replica.acknowledged}"

/-- What the report says about the backlog. -/
def backlogLines (node : Node) : List String :=
  match node.coordinator.backlog with
  | some backlog =>
      [ field "repl_backlog_active" (flag backlog.active),
        field "repl_backlog_size" (toString backlog.capacity),
        field "repl_backlog_first_byte_offset" (toString backlog.firstOffset),
        field "repl_backlog_histlen" (toString backlog.held) ]
  | none =>
      [ field "repl_backlog_active" (flag false),
        field "repl_backlog_size" (toString node.settings.backlogSize),
        field "repl_backlog_first_byte_offset" "0",
        field "repl_backlog_histlen" "0" ]

def replicationSection (node : Node) : List String :=
  let identity := node.coordinator.identity
  ["# Replication"] ++ node.leaderLines ++
    [field "connected_slaves" (toString node.coordinator.replicas.size)] ++
    (node.coordinator.replicas.toList.zipIdx.map fun ((id, replica), index) =>
      node.replicaLine index id replica) ++
    [ field "master_replid" identity.current,
      field "master_replid2" identity.previous,
      field "master_repl_offset" (toString node.coordinator.offset),
      field "second_repl_offset" (toString identity.previousEnd) ] ++
    node.backlogLines

def persistenceSection (node : Node) : List String :=
  let status := node.partitions.status
  [ "# Persistence",
    field "rdb_bgsave_in_progress" (flag (status == .frozen || status == .stopped)),
    field "rdb_last_save_time" (toString node.lastSave),
    field "rdb_last_bgsave_status" (if node.saved then "ok" else "err"),
    field "db_status" status.name ]

/-- What the report says about one database: nothing if it has no keys.  The keys that
expire are counted in the primary. -/
def keyspaceLine? (index : Nat) (partition : Partition) : Option String :=
  if partition.size = 0 then none
  else some s!"db{index}:keys={partition.size},expires={partition.primary.expiryCount}"

def keyspaceSection (node : Node) : List String :=
  "# Keyspace" ::
    node.partitions.partitions.zipIdx.filterMap fun (partition, index) =>
      keyspaceLine? index partition

/-- The sections that a report is made of when it is asked for by a name. -/
def sections? (node : Node) : Option String → Option (List (List String))
  | none => some [node.replicationSection, node.persistenceSection, node.keyspaceSection]
  | some name =>
      match Text.lower name with
      | "all" | "default" | "everything" =>
          some [node.replicationSection, node.persistenceSection, node.keyspaceSection]
      | "replication" => some [node.replicationSection]
      | "persistence" => some [node.persistenceSection]
      | "keyspace" => some [node.keyspaceSection]
      | _ => none

end Node

namespace Command

open CommandM

/-- `INFO [section]`. -/
def info : Handler := fun arguments => do
  let node ← node
  let sections := match arguments with
    | [] => node.sections? none
    | [name] => node.sections? (some name)
    | _ => none
  match sections with
  | none => throw .badSyntax
  | some sections =>
      let texts := sections.map fun lines => "\r\n".intercalate lines
      return [.bulk ("\r\n".intercalate texts ++ "\r\n")]

end Command
end ReplicaStore
