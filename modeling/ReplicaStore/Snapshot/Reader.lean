import ReplicaStore.Snapshot.Record

/-!
# Reading a snapshot piece by piece

A reader is given a snapshot in pieces of any size.  It keeps the bytes that do not
make a whole record yet and collects the commands of the records it has read.
`commandsOf` reads a snapshot that is there as a whole.
-/

namespace ReplicaStore.Snapshot

/-- What has been read of a snapshot. -/
structure Reader where
  /-- The bytes behind the last complete record. -/
  pending : Bytes := []
  version : Option String := none
  metadata : Std.ExtTreeMap String String := ∅
  commands : Array (List String) := #[]
  /-- The checksum behind the end of the snapshot, which is not verified. -/
  checksum : Option Bytes := none
  deriving DecidableEq, Repr

namespace Reader

/-- Whether the end of the snapshot has been read. -/
def finished (reader : Reader) : Bool :=
  reader.checksum.isSome

/-- Takes a record up. -/
def apply (reader : Reader) : Record → Reader
  | .metadata name value => { reader with metadata := reader.metadata.insert name value }
  | .finish checksum => { reader with checksum := some checksum }
  | other => { reader with commands := reader.commands ++ (other.commands).toArray }

/-- Reads all complete records that the pending bytes hold. -/
def readRecords (reader : Reader) : Except SnapshotError Unit × Reader :=
  if reader.finished then (.ok (), reader)
  else
    match read : record reader.pending with
    | .more => (.ok (), reader)
    | .bad error => (.error error, reader)
    | .found found rest =>
        have := record_length_lt read
        readRecords { reader.apply found with pending := rest }
termination_by reader.pending.length

theorem readRecords_finished {reader : Reader} (closed : reader.finished = true) :
    reader.readRecords = (.ok (), reader) := by
  rw [readRecords, if_pos closed]

/-- What becomes of the record at the front of the pending bytes. -/
theorem readRecords_unfinished {reader : Reader} (unfinished : reader.finished = false) :
    reader.readRecords =
      match record reader.pending with
      | .more => (.ok (), reader)
      | .bad error => (.error error, reader)
      | .found read rest => { reader.apply read with pending := rest }.readRecords := by
  rw [readRecords, if_neg (by simp [unfinished])]
  split
  · next more => rw [more]
  · next error bad => rw [bad]
  · next read rest found => simp only [found]

/-- Reads the header unless it has been read, then the records behind it.  After an
error the pending bytes stay, so the error comes again with the next piece. -/
def readPending (reader : Reader) : Except SnapshotError Unit × Reader :=
  match reader.version with
  | some _ => reader.readRecords
  | none =>
      match header reader.pending with
      | .more => (.ok (), reader)
      | .bad error => (.error error, reader)
      | .found version rest => { reader with version := some version, pending := rest }.readRecords

/-- Takes the next piece of the snapshot.  What stands behind its end is ignored. -/
def feed (reader : Reader) (piece : Bytes) : Except SnapshotError Unit × Reader :=
  if reader.finished then (.ok (), reader)
  else { reader with pending := reader.pending ++ piece }.readPending

/-- The commands of a snapshot that has been read to its end. -/
def result (reader : Reader) : Except SnapshotError (List (List String)) :=
  if reader.finished then .ok reader.commands.toList else .error .truncated

end Reader

/-- The commands that recreate what a snapshot holds. -/
def commandsOf (bytes : Bytes) : Except SnapshotError (List (List String)) :=
  match ({} : Reader).feed bytes with
  | (.ok (), reader) => reader.result
  | (.error error, _) => .error error

end ReplicaStore.Snapshot
