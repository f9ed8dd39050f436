import ReplicaStore.Snapshot.Record

/-!
# Writing a snapshot

A writer collects the written forms of records, and what it has collected can be
taken at any time.  `image` is the snapshot of all databases at one moment, in the
pieces in which it is stored: the header, one piece for each database, and the end.
Entries whose time has come are left out, and a database without keys leaves no
trace.
-/

namespace ReplicaStore.Snapshot

/-- The header: the version and what is known about the origin of the snapshot.
`second` is the moment of its creation, in seconds. -/
def preamble (second : Int) : Bytes :=
  Bytes.ofText magic ++ Bytes.ofText "0009" ++
    (Record.metadata "redis-ver" "7.0.0").toBytes ++
    (Record.metadata "redis-bits" "64").toBytes ++
    (Record.metadata "ctime" (toString second)).toBytes

/-- The end of a snapshot.  Its checksum is zero, which means that there is none. -/
def trailer : Bytes :=
  (Record.finish (List.replicate 8 0)).toBytes

/-- Written bytes that nobody has taken yet. -/
structure Writer where
  pending : Bytes
  deriving DecidableEq, Repr

namespace Writer

/-- A writer that has written the header. -/
def new (second : Int) : Writer where
  pending := preamble second

def append (writer : Writer) (bytes : Bytes) : Writer where
  pending := writer.pending ++ bytes

/-- Begins a database with so many keys, so many of which expire. -/
def beginPartition (writer : Writer) (index keys expiring : Nat) : Writer :=
  writer.append ((Record.database index).toBytes ++ (Record.sizes keys expiring).toBytes)

/-- Writes an entry of the database begun last. -/
def entry (writer : Writer) (key : String) (stored : Entry) : Writer :=
  writer.append (Record.entry key stored).toBytes

/-- Writes the end of the snapshot. -/
def finish (writer : Writer) : Writer :=
  writer.append trailer

/-- Takes what has been written since the last time. -/
def take (writer : Writer) : Bytes × Writer :=
  (writer.pending, { pending := [] })

end Writer

/-- The records of one database.  The counts include expired entries. -/
def partitionRecords (index : Nat) (view : Keyspace) (now : Int) : List Record :=
  if view.isEmpty then []
  else
    .database index :: .sizes view.size view.expiryCount ::
      (view.unexpired now).toList.map fun (key, stored) => .entry key stored

/-- The written form of one database. -/
def partitionBytes (index : Nat) (view : Keyspace) (now : Int) : Bytes :=
  (partitionRecords index view now).flatMap Record.toBytes

/-- The snapshot of the given keyspaces at the millisecond `now`. -/
def image (views : List Keyspace) (now : Int) : Bytes :=
  preamble (now / 1000) ++
    (views.zipIdx.flatMap fun (view, index) => partitionBytes index view now) ++ trailer

end ReplicaStore.Snapshot
