import ReplicaStore.Node.Basic
import ReplicaStore.Text.Fold
import ReplicaStore.Text.LowerCase

/-!
# Commands

A command works on a node and on the session of whoever issued it, and either fails
with an error or gives the values of its reply.  What it has done to the node before
it fails stays: keys that were touched may have been merged or reaped.
-/

namespace ReplicaStore

/-- Who issues commands. -/
inductive Source where
  | client (id : ClientId)
  /-- The stream of the node's leader. -/
  | leader
  /-- A snapshot that is being loaded. -/
  | loader
  deriving DecidableEq, Repr

/-- What a command knows of whoever issued it. -/
structure Session where
  source : Source
  database : Nat := 0
  /-- The form in which the command is to be replicated, if it is not its own. -/
  propagateAs : Option (List String) := none
  deriving DecidableEq, Repr

/-- Everything that a command can fail with. -/
inductive CommandError where
  | unknownCommand (name : String)
  | wrongArity (name : String)
  | invalidFormat
  | badSyntax
  | wrongType
  | notAnInteger
  | noSuchDatabase
  | invalidExpireTime (name : String)
  | readOnly
  | saveInProgress
  | saveFailed
  | loadFailed (reason : String)
  | unknownSubcommand (subcommand name : String)
  | noSuchKey
  | noSuchClient
  | invalidPort
  | noLeaderLink
  | custom (text : String)
  deriving DecidableEq, Repr

namespace CommandError

/-- The text of the reply to a command that failed. -/
def message : CommandError → String
  | unknownCommand name => s!"ERR unknown command '{name}'"
  | wrongArity name => s!"ERR wrong number of arguments for '{name}' command"
  | invalidFormat => "ERR invalid command format"
  | badSyntax => "ERR syntax error"
  | wrongType => "WRONGTYPE Operation against a key holding the wrong kind of value"
  | notAnInteger => "ERR value is not an integer or out of range"
  | noSuchDatabase => "ERR DB index is out of range"
  | invalidExpireTime name => s!"ERR invalid expire time in '{name}' command"
  | readOnly => "READONLY You can't write against a read only replica."
  | saveInProgress => "ERR can not save in bgsave"
  | saveFailed => "ERR in save"
  | loadFailed reason => s!"ERR error loading the snapshot: {reason}"
  | unknownSubcommand subcommand name =>
      s!"ERR Unknown subcommand or wrong number of arguments for '{subcommand}'. Try {name} HELP."
  | noSuchKey => "ERR no such key"
  | noSuchClient => "ERR No such client"
  | invalidPort => "ERR Invalid master port"
  | noLeaderLink => "NOMASTERLINK Can't SYNC while not connected with my master"
  | custom text => text

/-- The reply to a command that failed. -/
def reply (error : CommandError) : Wire.Value :=
  .failure error.message

end CommandError

/-- What a command works on. -/
structure Context where
  node : Node
  session : Session
  deriving Repr

/-- A step of a command.  What it does to its context stays if it fails. -/
abbrev CommandM (α : Type) := ExceptT CommandError (StateM Context) α

/-- The values of a reply.  A command that answers later or never gives none. -/
abbrev Reply := List Wire.Value

/-- A command: what it does with its arguments. -/
abbrev Handler := List String → CommandM Reply

namespace CommandM

def node : CommandM Node := return (← get).node

def session : CommandM Session := return (← get).session

/-- Changes the node. -/
def changeNode (change : Node → Node) : CommandM Unit :=
  modify fun context => { context with node := change context.node }

/-- Changes the session. -/
def changeSession (change : Session → Session) : CommandM Unit :=
  modify fun context => { context with session := change context.session }

/-- Unix milliseconds. -/
def now : CommandM Int := return (← node).clock.wall

/-- Uses the database that the session has selected. -/
def onPartition {α : Type} (use : Partition → α × Partition) : CommandM α := do
  let index := (← session).database
  match (← node).partitions.get? index with
  | none => throw .noSuchDatabase
  | some partition =>
      let (result, changed) := use partition
      changeNode fun node =>
        { node with partitions := node.partitions.modify index fun _ => changed }
      return result

/-- Gives the value of an argument that was read, or fails. -/
def orFail {α : Type} (error : CommandError) : Option α → CommandM α
  | some value => return value
  | none => throw error

/-- Reads an argument as a number of 64 bits. -/
def integer (argument : String) : CommandM Int :=
  orFail .notAnInteger (Text.readSigned64 argument)

/-- The reply that everything went well. -/
def ok : CommandM Reply := return [.ok]

/-- The reply of a count. -/
def count (value : Nat) : CommandM Reply := return [.integer value]

end CommandM

/-- The reply of a list of strings. -/
def Wire.Value.strings (texts : List String) : Wire.Value :=
  .array (texts.map .bulk)

end ReplicaStore
