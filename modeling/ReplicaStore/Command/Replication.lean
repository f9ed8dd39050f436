import ReplicaStore.Command.Basic
import ReplicaStore.Node.Saving

/-!
# Commands of replication
-/

namespace ReplicaStore.Command

open CommandM

/-- Stops following the leader.  The history followed so far is kept as the previous
one, so that others who followed it can continue here. -/
def promote (node : Node) : Node :=
  if node.following then
    let coordinator := node.coordinator.branchIdentity
    { node with role := node.role.unfollow, coordinator }.dropReplicas
  else node

/-- Follows a leader from now on. -/
def follow (host : String) (port : Nat) (node : Node) : Node :=
  { node with role := node.role.follow host port }.dropReplicas

/-- `REPLICAOF host port` and `REPLICAOF NO ONE`. -/
def replicaof : Handler
  | [host, port] => do
      if Text.sameIgnoringCase host "no" && Text.sameIgnoringCase port "one" then
        changeNode promote
        ok
      else
        match (Text.readUnsigned16 port).filter (0 < ·) with
        | none => throw .invalidPort
        | some port =>
            if (← node).role.leader = some (host, port) then
              return [.simple "OK Already connected to specified master"]
            else
              changeNode (follow host port)
              ok
  | _ => throw (.wrongArity "replicaof")

/-- Notes the port on which the issuer says that it listens. -/
def noteListeningPort (port : Nat) : CommandM Unit := do
  if let .client id := (← session).source then
    changeNode fun node =>
      { node with
        clients := node.clients.modify id fun client => { client with listeningPort := some port } }

/-- Notes how far the issuer says it has come. -/
def noteAcknowledgement (offset : Int) : CommandM Unit := do
  if let .client id := (← session).source then
    changeNode fun node =>
      { node with
        coordinator := node.coordinator.acknowledge node.clock.elapsed id offset }

/-- Tells the leader how far this node has come, if it was the leader who asked. -/
def answerLeader : CommandM Unit := do
  if (← session).source = .leader then
    changeNode fun node =>
      { node with role := node.role.send (Link.Role.acknowledgement node.coordinator.offset) }

/-- `REPLCONF [option [value]]`.  Acknowledgements and requests for one get no reply. -/
def replconf : Handler
  | [] => ok
  | option :: values => do
      match Text.lower option with
      | "listening-port" =>
          let written ← orFail .badSyntax values.head?
          let port ← orFail .notAnInteger (Text.readUnsigned16 written)
          noteListeningPort port
          ok
      | "capa" => ok
      | "ack" =>
          let offset ← integer (← orFail .badSyntax values.head?)
          noteAcknowledgement offset
          return []
      | "getack" =>
          answerLeader
          return []
      | _ => throw (.custom s!"ERR Unrecognized REPLCONF option: {option}")

/-- Takes a replica up: lets it continue if that is possible, and otherwise sees to it
that it gets a snapshot. -/
def synchronise (id : ClientId) (history : String) (offset : Int) (node : Node) : Node :=
  let now := node.clock.elapsed
  let coordinator := node.coordinator.remove id
  match coordinator.partialResync? node.clients now id history offset with
  | some (coordinator, clients) => { node with coordinator, clients }
  | none =>
      let coordinator := coordinator.beginFullResync node.clients now id offset
      { node with coordinator }.scheduleFullSync

/-- `PSYNC id offset`: asks to be made a replica.  There is no reply but the stream
itself, once it begins. -/
def psync : Handler
  | [history, offset] => do
      let offset ← integer offset
      match (← session).source with
      | .client id =>
          let node ← node
          if node.following && !node.role.connected then throw .noLeaderLink
          changeNode (synchronise id history offset)
          return []
      | _ => return []
  | _ => throw (.wrongArity "psync")

end ReplicaStore.Command
