import ReplicaStore.Settings.Basic

/-!
# The command line

The rules are those that `clap` documents for a command whose options take one value
each and override themselves:

* a setting is given as `--name value` or `--name=value`, and the next argument is no
  value if it begins with `-`;
* of several values for one setting the last counts (`args_override_self`);
* one argument that is no option is taken, and names a file of settings;
* behind `--` nothing is an option any more;
* `-h`, `--help`, `-V` and `--version` ask for a display and take no value.

A value is only looked at when the next option or the end of the line is reached.
An argument that is not known is therefore reported before a bad value directly in
front of it.

That the last value counts is stated of any way to read command lines in
`Settings.LastWins`, and nothing else of these rules is used where settings are said
to take precedence.
-/

namespace ReplicaStore.Settings

/-- What has been read but not taken up yet. -/
inductive Pending where
  | nothing
  /-- A setting was named; its value is to come. -/
  | awaiting (name : Name)
  | value (name : Name) (value : String)
  | file (path : String)
  deriving DecidableEq, Repr

/-- A command line that has been read up to some argument. -/
structure Reading where
  settings : Settings := {}
  pending : Pending := .nothing
  /-- Whether `--` was passed. -/
  literal : Bool := false
  /-- Whether the file has been named. -/
  named : Bool := false
  deriving DecidableEq, Repr

namespace Reading

/-- Takes up what is pending. -/
def commit (reading : Reading) : Except UsageError Reading :=
  match reading.pending with
  | .nothing => .ok reading
  | .awaiting _ => .error .invalidValue
  | .value name value =>
      (reading.settings.set name value).map fun settings =>
        { reading with settings, pending := .nothing }
  | .file path =>
      (reading.settings.setFile path).map fun settings =>
        { reading with settings, pending := .nothing }

/-- Asks for a display instead of a start. -/
def display (reading : Reading) (error : UsageError) : Except UsageError Reading :=
  reading.commit.bind fun _ => .error error

/-- Takes an argument that is no option. -/
def plain (reading : Reading) (argument : String) : Except UsageError Reading :=
  if reading.named then .error .unknownArgument
  else reading.commit.map fun reading => { reading with pending := .file argument, named := true }

/-- Takes an option by its name, with the value that was attached to it. -/
def option (reading : Reading) (name : String) (attached : Option String) :
    Except UsageError Reading :=
  match Name.ofWritten? name, attached with
  | some name, none => reading.commit.map fun reading => { reading with pending := .awaiting name }
  | some name, some value => do
      let reading ← reading.commit
      return { reading with settings := ← reading.settings.set name value }
  | none, attached =>
      if name = "help" ∨ name = "version" then
        if attached.isSome then .error .tooManyValues
        else reading.display (if name = "help" then .displayHelp else .displayVersion)
      else .error .unknownArgument

/-- Takes a group of one-letter options, of which the first decides. -/
def letters (reading : Reading) : List Char → Except UsageError Reading
  | 'h' :: _ => reading.display .displayHelp
  | 'V' :: _ => reading.display .displayVersion
  | _ => .error .unknownArgument

/-- Splits an option from the value attached to it. -/
def splitAttached (written : List Char) : String × Option String :=
  match written.dropWhile (· != '=') with
  | [] => (String.ofList written, none)
  | _ :: value => (String.ofList (written.takeWhile (· != '=')), some (String.ofList value))

/-- Takes the next argument. -/
def next (reading : Reading) (argument : String) : Except UsageError Reading :=
  if reading.literal then reading.plain argument
  else
    match argument.toList with
    | ['-', '-'] => .ok { reading with literal := true }
    | '-' :: '-' :: written =>
        let (name, attached) := splitAttached written
        reading.option name attached
    | '-' :: letter :: more => reading.letters (letter :: more)
    | _ =>
        match reading.pending with
        | .awaiting name => .ok { reading with pending := .value name argument }
        | _ => reading.plain argument

end Reading

/-- Reads a command line, the program's name not among its arguments. -/
def ofArguments (arguments : List String) : Except UsageError Settings := do
  let reading ← arguments.foldlM Reading.next {}
  return (← reading.commit).settings

end ReplicaStore.Settings
