import ReplicaStore.Command.Basic

/-!
# Running commands

A command is found by its name in a table, checked against the number of its
arguments and against the role of the node, run, and, where it changes data, added to
the stream for the replicas.
-/

namespace ReplicaStore

/-- What a command does to the data. -/
inductive Effect where
  | write
  | read
  | admin
  /-- It changes nothing, but replicas must run it too. -/
  | broadcast
  deriving DecidableEq, Repr

/-- Whether a client's command is added to the stream. -/
def Effect.propagates : Effect → Bool
  | write | broadcast => true
  | read | admin => false

/-- A command and what is known about it. -/
structure Command where
  name : String
  /-- The number of arguments, the name among them; a negative number is the least
  one. -/
  arity : Int
  effect : Effect
  handler : Handler

namespace Command

/-- Whether the command can have so many arguments, its name among them. -/
def accepts (command : Command) (count : Nat) : Bool :=
  if 0 ≤ command.arity then count == command.arity else -command.arity ≤ count

/-- Finds a command by its name in any case. -/
def find? (table : List Command) (name : String) : Option Command :=
  let name := Text.upper name
  table.find? (·.name == name)

open CommandM

/-- Adds a command that has been run to the stream. -/
def propagate (arguments : List String) : CommandM Unit := do
  let session ← session
  let form := session.propagateAs.getD arguments
  changeSession fun session => { session with propagateAs := none }
  changeNode fun node => node.feed (Wire.commandBytes form) (some session.database)

/-- Runs a command of a table. -/
def runFrom (table : List Command) : Handler
  | [] => return []
  | name :: arguments => do
      let command ← orFail (.unknownCommand name) (find? table name)
      if !command.accepts (arguments.length + 1) then throw (.wrongArity (Text.lower name))
      let fromClient := match (← session).source with
        | .client _ => true
        | _ => false
      if fromClient && (← node).following && command.effect == .write then throw .readOnly
      changeSession fun session => { session with propagateAs := none }
      let reply ← command.handler arguments
      if fromClient && !(← node).following && command.effect.propagates then
        propagate (Text.upper name :: arguments)
      return reply

/-- Runs a command of a table and turns a failure into its reply. -/
def dispatchFrom (table : List Command) (context : Context) (arguments : List String) :
    Reply × Context :=
  match (runFrom table arguments).run context with
  | (.ok reply, context) => (reply, context)
  | (.error error, context) => ([error.reply], context)

/-- Whether a reply reports a failure. -/
def isFailure : Reply → Bool
  | .failure _ :: _ => true
  | _ => false

/-- Runs the commands of a snapshot and counts those that failed. -/
def loadFrom (table : List Command) (commands : List (List String)) (node : Node) : Nat × Node :=
  let (failed, context) := commands.foldl
    (fun (failed, context) arguments =>
      let (reply, context) := dispatchFrom table context arguments
      (if isFailure reply then failed + 1 else failed, context))
    (0, { node, session := { source := .loader } : Context })
  (failed, context.node)

end Command
end ReplicaStore
