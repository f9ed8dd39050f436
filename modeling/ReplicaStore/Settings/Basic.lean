import ReplicaStore.Text.Blank
import ReplicaStore.Text.LowerCase
import ReplicaStore.Text.Integer

/-!
# Settings

What can be set about a server, how each setting is written, and which values make
sense together.
-/

namespace ReplicaStore

/-- Everything that can be set about a server. -/
structure Settings where
  /-- The file of settings that was named, if one was. -/
  file : Option String := none
  bind : String := "127.0.0.1"
  port : Nat := 6379
  databases : Nat := 16
  directory : String := "."
  snapshotName : String := "dump.rdb"
  /-- The capacity of the backlog in bytes. -/
  backlogSize : Nat := 1024 * 1024
  /-- Seconds without any replica after which the backlog is given up. -/
  backlogTtl : Nat := 3600
  /-- Seconds of silence after which a replication link is taken for dead. -/
  timeout : Nat := 60
  /-- Seconds between two pings to the replicas. -/
  pingPeriod : Nat := 10
  /-- The leader to follow from the start, as it was written. -/
  replicaOf : Option String := none
  maxClients : Nat := 10000
  /-- The number of shadow slots merged at a time. -/
  drainBatch : Nat := 2
  /-- Milliseconds between two merges. -/
  drainInterval : Nat := 100
  logLevel : String := "info"
  deriving DecidableEq, Repr

namespace Settings

/-- What can be given a value by name. -/
inductive Name where
  | bind | port | databases | directory | snapshotName | backlogSize | backlogTtl | timeout
  | pingPeriod | replicaOf | maxClients | drainBatch | drainInterval | logLevel
  deriving DecidableEq, Repr

/-- The setting that is written in a given way.  Only following a leader can be
written in two ways. -/
def Name.ofWritten? : String → Option Name
  | "bind" => some .bind
  | "port" => some .port
  | "databases" => some .databases
  | "dir" => some .directory
  | "dbfilename" => some .snapshotName
  | "repl-backlog-size" => some .backlogSize
  | "repl-backlog-ttl" => some .backlogTtl
  | "repl-timeout" => some .timeout
  | "repl-ping-replica-period" => some .pingPeriod
  | "replicaof" => some .replicaOf
  | "slaveof" => some .replicaOf
  | "maxclients" => some .maxClients
  | "drain-batch" => some .drainBatch
  | "drain-interval-ms" => some .drainInterval
  | "loglevel" => some .logLevel
  | _ => none

/-- Why a command line is not accepted, or what it asks for instead of a start. -/
inductive UsageError where
  | unknownArgument
  /-- A value is missing or empty. -/
  | invalidValue
  /-- A value cannot be read. -/
  | valueValidation
  /-- An amount of memory is a number and a unit whose product does not fit into 64 bits.  Nobody
  refuses it: the multiplication is checked, and the program breaks off there. -/
  | overflow
  | tooManyValues
  | displayHelp
  | displayVersion
  deriving DecidableEq, Repr

/-- The number of bytes that a unit of memory stands for. -/
def memoryUnit? : String → Option Nat
  | "" | "b" => some 1
  | "k" => some 1000
  | "kb" => some 1024
  | "m" => some (1000 * 1000)
  | "mb" => some (1024 * 1024)
  | "g" => some (1000 * 1000 * 1000)
  | "gb" => some (1024 * 1024 * 1024)
  | _ => none

/-- Reads an amount of memory: a number of 64 bits and a unit in any case.  A product that
takes more than 64 bits is an overflow. -/
def readMemory (text : String) : Except UsageError Nat :=
  let written := (Text.lower text).toList
  let digits := written.takeWhile Char.isDigit
  let unit := written.dropWhile Char.isDigit
  match Text.readUnsigned64 (String.ofList digits), memoryUnit? (String.ofList unit) with
  | some number, some factor =>
      if number * factor ≤ Text.maxUnsigned64 then .ok (number * factor) else .error .overflow
  | _, _ => .error .valueValidation

/-- Turns a value that could not be read into an error. -/
def orInvalid {α : Type} : Option α → Except UsageError α
  | some value => .ok value
  | none => .error .valueValidation

/-- Gives a setting a value. -/
def set (settings : Settings) (name : Name) (value : String) : Except UsageError Settings :=
  match name with
  | .bind => .ok { settings with bind := value }
  | .port =>
      (orInvalid (Text.readBetween 0 65535 value)).map fun read =>
        { settings with port := read.toNat }
  | .databases => number fun read => { settings with databases := read }
  | .directory =>
      if value = "" then .error .invalidValue else .ok { settings with directory := value }
  | .snapshotName => .ok { settings with snapshotName := value }
  | .backlogSize =>
      (readMemory value).map fun read => { settings with backlogSize := read }
  | .backlogTtl => number fun read => { settings with backlogTtl := read }
  | .timeout => number fun read => { settings with timeout := read }
  | .pingPeriod => number fun read => { settings with pingPeriod := read }
  | .replicaOf => .ok { settings with replicaOf := some value }
  | .maxClients => number fun read => { settings with maxClients := read }
  | .drainBatch => number fun read => { settings with drainBatch := read }
  | .drainInterval => number fun read => { settings with drainInterval := read }
  | .logLevel => .ok { settings with logLevel := value }
where
  /-- Uses the value as a number of 64 bits. -/
  number (use : Nat → Settings) : Except UsageError Settings :=
    (orInvalid (Text.readUnsigned64 value)).map use

/-- Names the file of settings. -/
def setFile (settings : Settings) (path : String) : Except UsageError Settings :=
  if path = "" then .error .invalidValue else .ok { settings with file := some path }

/-- Why no settings came about. -/
inductive SettingsError where
  | usage (error : UsageError)
  | unreadableFile (path : String)
  | invalidDirective (line : Nat)
  | invalidLeader (written : String)
  | noDatabases
  deriving DecidableEq, Repr

def SettingsError.message : SettingsError → String
  | usage .overflow => "attempt to multiply with overflow"
  | usage _ => "invalid command line"
  | unreadableFile path => s!"cannot read config file {path}"
  | invalidDirective line => s!"invalid directive at line {line} of the config file"
  | invalidLeader written => s!"replicaof expects '<host> <port>', got '{written}'"
  | noDatabases => "databases must be at least 1"

/-- The host and port of the leader to follow. -/
def leader (settings : Settings) : Except SettingsError (Option (String × Nat)) :=
  match settings.replicaOf with
  | none => .ok none
  | some written =>
      match Text.words written with
      | [host, port] =>
          match Text.readUnsigned16 port with
          | some port => .ok (some (host, port))
          | none => .error (.invalidLeader written)
      | _ => .error (.invalidLeader written)

/-- Refuses settings without a database or with a leader that is no host and port. -/
def validate (settings : Settings) : Except SettingsError Settings := do
  if settings.databases = 0 then throw .noDatabases
  let _ ← settings.leader
  return settings

/-- A file name below a directory, unless it starts from the root by itself. -/
def joinPath (directory name : String) : String :=
  if name.startsWith "/" then name
  else if directory = "" ∨ directory.endsWith "/" then directory ++ name
  else directory ++ "/" ++ name

/-- Where the snapshot is kept. -/
def snapshotPath (settings : Settings) : String :=
  joinPath settings.directory settings.snapshotName

end Settings
end ReplicaStore
