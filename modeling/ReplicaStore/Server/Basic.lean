import ReplicaStore.Link.Dialogue
import ReplicaStore.Node.Timeline

/-!
# A server

A node with its connections.  Bytes that arrive on a connection are cut into frames,
every command among them is handled by the node, and what the node queues for a
connection is handed out to be sent.  Opening, reading, writing and closing real
connections is left to whoever drives the server.
-/

namespace ReplicaStore

structure Server where
  node : Node
  /-- The bytes that have arrived on each open connection and make no complete frame
  yet. -/
  unread : Std.ExtTreeMap ClientId Bytes := ∅
  /-- The number of the last connection that was accepted. -/
  lastId : ClientId := 0
  /-- The dialogue with the leader, and the epoch of the link that it is held on. -/
  dialogue : Option (Nat × Link.Dialogue) := none

/-- Why a server does not start. -/
inductive StartError where
  | settings (error : Settings.SettingsError)
  | snapshot (error : Snapshot.SnapshotError)
  deriving DecidableEq, Repr

def StartError.message : StartError → String
  | settings error => error.message
  | snapshot error => s!"cannot load snapshot: {error.message}"

/-- What is to be sent on a connection, and whether it is to be closed behind that. -/
structure Delivery where
  id : ClientId
  bytes : Bytes
  closing : Bool
  deriving DecidableEq, Repr

namespace Server

/-- Makes a node of a stored snapshot, if there is one, and has it follow a leader if
the settings name one.  The settings are looked at first, and only then what came of
reading the snapshot. -/
def start (settings : Settings) (supply : Stream.IdSupply) (clock : Clock)
    (found : Except Snapshot.SnapshotError (Option Bytes)) : Except StartError Server := do
  let leader ← settings.leader.mapError .settings
  let snapshot ← found.mapError StartError.snapshot
  let node := { Node.new settings supply clock with storage := { file := snapshot } }
  let loaded ← match snapshot with
    | none => pure node
    | some bytes =>
        let commands ← (Snapshot.commandsOf bytes).mapError StartError.snapshot
        pure (Command.load commands node).2
  match leader with
  | none => return { node := loaded }
  | some (host, port) => return { node := { loaded with role := loaded.role.follow host port } }

/-- What a connection is told that is one too many. -/
def refusal : Bytes :=
  (Wire.Value.failure "ERR max number of clients reached").toBytes

/-- Takes a new connection on and numbers it, unless as many are open as there may be. -/
def accept? (server : Server) (address : String) : Option (ClientId × Server) :=
  if server.unread.size < server.node.settings.maxClients then
    let id := server.lastId + 1
    some (id,
      { server with
        node := server.node.handle (.connected id address)
        unread := server.unread.insert id []
        lastId := id })
  else none

/-- Forgets a connection that has been closed. -/
def disconnected (server : Server) (id : ClientId) : Server :=
  { server with
    node := server.node.handle (.disconnected id)
    unread := server.unread.erase id }

/-- Handles the commands among some frames. -/
def serveFrames (node : Node) (id : ClientId) (frames : List (Wire.Frame × Bytes)) : Node :=
  frames.foldl
    (fun node (frame, _) =>
      match frame with
      | .value value => node.handle (.command id value)
      | .keepAlive => node)
    node

/-- Takes bytes that arrived on a connection.  Bytes that break the format are answered
with an error, and the connection is closed. -/
def receive (server : Server) (id : ClientId) (bytes : Bytes) : Server :=
  match server.unread[id]? with
  | none => server
  | some before =>
      let (result, left) := Wire.takeFrames (before ++ bytes)
      let node := match result with
        | .ok frames => serveFrames server.node id frames
        | .error error =>
            { server.node with
              clients := (server.node.clients.send id (Bytes.ofText error.reply)).close id }
      { server with node, unread := server.unread.insert id left }

/-- The bytes in front of the first request to close, and whether there is one. -/
def untilClose : List Outgoing → Bytes × Bool
  | [] => ([], false)
  | .close :: _ => ([], true)
  | .data bytes :: rest =>
      let (later, closing) := untilClose rest
      (bytes ++ later, closing)

/-- Hands out what is queued for the connections.  Those that are to be closed are
forgotten. -/
def deliver (server : Server) : List Delivery × Server :=
  let (queued, clients) := server.node.clients.takeQueued
  let deliveries := queued.map fun (id, messages) =>
    let (bytes, closing) := untilClose messages
    { id, bytes, closing : Delivery }
  let closed := (deliveries.filter (·.closing)).map (·.id)
  (deliveries, closed.foldl disconnected { server with node := { server.node with clients } })

/-- Moves the clocks on and does what has become due meanwhile. -/
def advance (server : Server) (wall : Int) (milliseconds : Nat) : Server :=
  let node := { server.node with clock := { server.node.clock with wall } }
  { server with node := ((node.advance milliseconds).runTasks).2 }

end Server
end ReplicaStore
