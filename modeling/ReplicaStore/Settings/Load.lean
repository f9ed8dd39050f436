import ReplicaStore.Bytes
import ReplicaStore.Settings.CommandLine

/-!
# Settings from a file

A file of settings has one `name value` a line; blank lines and lines that begin
with `#` say nothing.  Its lines are read as options in front of those of the
command line, which therefore win.
-/

namespace ReplicaStore.Settings

/-- Cuts characters behind each line feed.  The line feed, and a carriage return in front of it,
are left out. -/
def splitLines : List Char → List (List Char)
  | [] => []
  | '\r' :: '\n' :: rest => [] :: splitLines rest
  | '\n' :: rest => [] :: splitLines rest
  | character :: rest =>
      match splitLines rest with
      | [] => [[character]]
      | line :: others => (character :: line) :: others

/-- The lines of a text, each without its end. -/
def lines (text : String) : List String :=
  (splitLines text.toList).map String.ofList

/-- A value without the double quotes at its ends. -/
def unquote (value : String) : String :=
  let quote (character : Char) : Bool := character == '"'
  String.ofList ((value.toList.dropWhile quote).reverse.dropWhile quote).reverse

/-- The options that one line stands for. -/
def directive (number : Nat) (line : String) : Except SettingsError (List String) :=
  let line := Text.trim line
  if line = "" ∨ line.startsWith "#" then .ok []
  else
    match Text.words line with
    | [] => .ok []
    | [_] => .error (.invalidDirective number)
    | name :: values =>
        let name := match Text.lower name with
          | "slaveof" => "replicaof"
          | other => other
        .ok [s!"--{name}", unquote (" ".intercalate values)]

/-- The options that a file stands for. -/
def directives (contents : String) : Except SettingsError (List String) := do
  let options ← (lines contents).zipIdx.mapM fun (line, index) => directive (index + 1) line
  return options.flatten

/-- Reads a command line as settings. -/
def ofCommandLine (arguments : List String) : Except SettingsError Settings :=
  match ofArguments arguments with
  | .ok settings => .ok settings
  | .error error => .error (.usage error)

/-- The settings that a command line gives, and the file that it names, if it names
one.  `readFile` gives the bytes behind a path. -/
def load (readFile : String → Option Bytes) (arguments : List String) :
    Except SettingsError Settings := do
  let settings ← ofCommandLine arguments
  match settings.file with
  | none => settings.validate
  | some path =>
      match (readFile path).bind Bytes.text? with
      | none => throw (.unreadableFile path)
      | some contents =>
          let options ← directives contents
          (← ofCommandLine (options ++ arguments)).validate

end ReplicaStore.Settings
