/-!
# Where a snapshot lies

A snapshot is first written to a file of another name in the same folder and renamed
once it is complete.  So whether it can be begun depends on the folder alone, and only
a snapshot that has been written in full finds out that its own name cannot be used.
-/

namespace ReplicaStore.Snapshot

/-- What is found at the end of a path. -/
inductive Place where
  /-- A file can be stored here. -/
  | free
  /-- The folder does not exist, so that not even a file of another name can be made. -/
  | unreachable
  /-- Nothing is there, but the path is written as that of a folder. -/
  | folderOnly
  /-- A folder is there, or no file can have that name.  Reading here fails, too. -/
  | unusable
  deriving DecidableEq, Repr

namespace Place

/-- The names that a path consists of.  An empty name and `.` lead nowhere. -/
def names (path : String) : List String :=
  (path.splitOn "/").filter fun name => name ≠ "" && name ≠ "."

/-- The names that lead to the folder in which the file is made.  A path that ends in
`..` names no file, and the file is made where it leads. -/
def folder (names : List String) : List String :=
  if names.getLast? = some ".." then names else names.dropLast

/-- All places on the way along some names, both ends included. -/
def way (names : List String) : List (List String) :=
  (List.range (names.length + 1)).map names.take

/-- The greatest length of a name in bytes. -/
def longestName : Nat := 255

/-- Whether a file can have this name. -/
def isFileName (name : String) : Bool :=
  name.utf8ByteSize ≤ longestName && !name.toList.contains '\x00'

/-- Finds out about a path.  `isFolder` tells of names, seen from where the path begins,
whether they lead to a folder if those before the last do. -/
def ofPath (isFolder : List String → Bool) (path : String) : Place :=
  let names := names path
  if !(way (folder names)).all isFolder then .unreachable
  else if isFolder names then .unusable
  else if !(names.getLast?.all isFileName) then .unusable
  else if path.endsWith "/" || path.endsWith "/." then .folderOnly
  else .free

/-- How many of some partitions can be written before storing a snapshot fails, if it
does. -/
def breaksAfter (partitions : Nat) : Place → Option Nat
  | free => none
  | unreachable => some 0
  | folderOnly | unusable => some partitions

end Place
end ReplicaStore.Snapshot
