import ReplicaStore.Wire.Value

/-!
# The follower's role

Whether a node follows a leader, and how far the link to it has come.  Every link
that is opened gets an epoch of its own; what a link reports carries its epoch, so
reports of a link that was dropped meanwhile can be told apart and ignored.
-/

namespace ReplicaStore.Link

/-- How far a link to a leader has come. -/
inductive LinkState where
  | idle
  | connect
  | connecting
  | awaitPong
  | sendPort
  | awaitPort
  | sendCapabilities
  | awaitCapabilities
  | sendSyncRequest
  | awaitSyncReply
  | transfer
  | connected
  deriving DecidableEq, Repr

namespace LinkState

def name : LinkState → String
  | idle => "none"
  | connect => "connect"
  | connecting => "connecting"
  | awaitPong => "receive_pong"
  | sendPort => "send_port"
  | awaitPort => "receive_port"
  | sendCapabilities => "send_capa"
  | awaitCapabilities => "receive_capa"
  | sendSyncRequest => "send_psync"
  | awaitSyncReply => "receive_psync"
  | transfer => "transfer"
  | connected => "connected"

/-- All states, in the order in which a link goes through them. -/
def all : List LinkState :=
  [idle, connect, connecting, awaitPong, sendPort, awaitPort, sendCapabilities,
    awaitCapabilities, sendSyncRequest, awaitSyncReply, transfer, connected]

/-- The state with a given name. -/
def ofName? (name : String) : Option LinkState :=
  all.find? (·.name == name)

/-- Whether the link is being established. -/
def handshaking : LinkState → Bool
  | idle | connect | connected => false
  | _ => true

end LinkState

/-- What a link reports to its node. -/
inductive LinkEvent where
  | state (state : LinkState)
  | heartbeat
  | fullSync (id : String) (offset : Int) (payload : Bytes)
  | continued (id : Option String)
  /-- A command of the stream, and exactly the bytes that it came in. -/
  | command (arguments : List String) (raw : Bytes)
  | failed (reason : String)
  deriving DecidableEq, Repr

/-- From where a follower asks its leader to go on. -/
structure SyncRequest where
  listeningPort : Nat
  /-- The history followed so far, if there is one. -/
  id : Option String
  offset : Int
  deriving DecidableEq, Repr

/-- A link that was opened: where to, what to ask for, and what is queued for it. -/
structure OpenLink where
  host : String
  port : Nat
  request : SyncRequest
  queue : List Bytes := []
  deriving DecidableEq, Repr

/-- The role of a node towards its leader. -/
structure Role where
  state : LinkState := .idle
  leader : Option (String × Nat) := none
  epoch : Nat := 0
  link : Option OpenLink := none
  /-- The millisecond at which the leader was last heard of. -/
  lastHeard : Nat
  /-- The database that the leader's stream has selected. -/
  database : Nat := 0
  deriving DecidableEq, Repr

namespace Role

/-- Whether the node follows a leader. -/
def following (role : Role) : Bool :=
  role.leader.isSome

def connected (role : Role) : Bool :=
  role.state == .connected

/-- Whether a report under an epoch is to be taken notice of. -/
def accepts (role : Role) (epoch : Nat) : Bool :=
  role.epoch == epoch && role.state != .idle

/-- Notes a sign of life of the leader. -/
def touch (role : Role) (now : Nat) : Role :=
  { role with lastHeard := now }

/-- Notes how far the link has come. -/
def setState (role : Role) (now : Nat) (state : LinkState) : Role :=
  { role with state, lastHeard := now }

/-- Drops the link.  The epoch goes on even if there was none. -/
def dropLink (role : Role) : Role :=
  { role with link := none, epoch := role.epoch + 1 }

/-- Starts to follow a leader, to which a link is yet to be opened. -/
def follow (role : Role) (host : String) (port : Nat) : Role :=
  { role.dropLink with leader := some (host, port), state := .connect }

/-- Follows nobody any more. -/
def unfollow (role : Role) : Role :=
  { role.dropLink with leader := none, state := .idle }

/-- Drops the link and has another one opened later. -/
def reconnect (role : Role) : Role :=
  let dropped := role.dropLink
  if dropped.following then { dropped with state := .connect } else dropped

/-- Queues bytes for the leader, if a link is open. -/
def send (role : Role) (bytes : Bytes) : Role :=
  { role with link := role.link.map fun link => { link with queue := link.queue ++ [bytes] } }

/-- Opens a link to the leader. -/
def openLink (role : Role) (now : Nat) (request : SyncRequest) : Role :=
  match role.leader with
  | none => role
  | some (host, port) =>
      let dropped := role.dropLink
      { dropped.setState now .connecting with
        epoch := dropped.epoch + 1
        link := some { host, port, request } }

/-- The message that tells a leader how far its follower has come. -/
def acknowledgement (offset : Int) : Bytes :=
  Wire.commandBytes ["REPLCONF", "ACK", toString offset]

/-- The regular upkeep: opens a link that is missing, gives up one that has been
silent for longer than `timeout` milliseconds, and acknowledges the stream. -/
def maintain (role : Role) (now : Nat) (request : SyncRequest) (timeout : Nat) : Role :=
  let silent : Bool := timeout < now - role.lastHeard
  match role.state with
  | .idle => role
  | .connect => role.openLink now request
  | .connected =>
      if silent then role.reconnect else role.send (acknowledgement request.offset)
  | _ => if silent then role.reconnect else role

end Role
end ReplicaStore.Link
