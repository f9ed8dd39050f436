import ReplicaStore.Keyspace

/-!
# Partitions

A partition is one numbered database.  While a snapshot of it is being written its
primary keyspace must not change, so writes go to a shadow, where a deleted key
leaves a tombstone.  Once the snapshot is written the shadow is merged back, key by
key as they are touched and in small batches.

What clients see of a key is its shadow slot if it has one and its primary entry
otherwise (`Partition.lookup`, `Partition.visible`).  The number of visible keys is
kept up to date by `drift`, the amount by which it differs from the size of the
primary.
-/

namespace ReplicaStore

/-- The stages of a snapshot, for one partition and for all of them together. -/
inductive Phase where
  | normal
  /-- The primary is being written out and does not change. -/
  | frozen
  /-- The primary is written; the shadow is being merged back. -/
  | moving
  /-- A save in the foreground is running. -/
  | stopped
  deriving DecidableEq, Repr

def Phase.name : Phase → String
  | normal => "normal"
  | frozen => "frozen"
  | moving => "moving"
  | stopped => "stopped"

/-- What the shadow says about a key. -/
inductive Slot where
  | present (entry : Entry)
  /-- The key was deleted while the primary could not change. -/
  | tombstone
  deriving DecidableEq, Repr

/-- The entry that clients see in a slot. -/
def Slot.entry? : Slot → Option Entry
  | present entry => some entry
  | tombstone => none

/-- Shadow slots by key. -/
abbrev Shadow := Std.ExtTreeMap String Slot

/-- One database. -/
structure Partition where
  primary : Keyspace := ∅
  shadow : Shadow := ∅
  phase : Phase := .normal
  drift : Int := 0
  deriving DecidableEq, Repr

namespace Partition

/-- What clients see under a key. -/
def lookup (partition : Partition) (key : String) : Option Entry :=
  match partition.shadow[key]? with
  | some slot => slot.entry?
  | none => partition.primary[key]?

/-- Applies what the shadow says about one key to a keyspace. -/
def applySlot (keyspace : Keyspace) (key : String) : Slot → Keyspace
  | .present entry => keyspace.insert key entry
  | .tombstone => keyspace.erase key

/-- Everything that clients see. -/
def visible (partition : Partition) : Keyspace :=
  partition.shadow.foldl applySlot partition.primary

/-- The visible keys. -/
def keys (partition : Partition) : List String :=
  partition.visible.keys

/-- The number of visible keys, among them expired ones that nobody touched since. -/
def size (partition : Partition) : Nat :=
  match partition.phase with
  | .normal => partition.primary.size
  | _ => (partition.primary.size + partition.drift).toNat

/-- The expiry that clients see for a key. -/
def expiry (partition : Partition) (key : String) : Option Int :=
  (partition.lookup key).bind (·.expiry)

/-- By how much the visible count of a key exceeds its count in the primary. -/
def contribution (partition : Partition) (key : String) : Int :=
  let inPrimary : Int := if key ∈ partition.primary then 1 else 0
  match partition.shadow[key]? with
  | some (.present _) => 1 - inPrimary
  | some .tombstone => -inPrimary
  | none => 0

/-- Merges the shadow slot of a key, if it has one, into the primary. -/
def promote (partition : Partition) (key : String) : Partition :=
  match partition.shadow[key]? with
  | none => partition
  | some slot =>
      { partition with
        primary := applySlot partition.primary key slot
        shadow := partition.shadow.erase key
        drift := partition.drift - partition.contribution key }

/-- Changes the shadow slot of a key and keeps the count of visible keys right. -/
def setSlot (partition : Partition) (key : String) (slot : Option Slot) : Partition :=
  let changed := { partition with
    shadow := match slot with
      | some slot => partition.shadow.insert key slot
      | none => partition.shadow.erase key }
  { changed with
    drift := partition.drift + (changed.contribution key - partition.contribution key) }

/-- Stores an entry under a key. -/
def put (partition : Partition) (key : String) (entry : Entry) : Partition :=
  match partition.phase with
  | .normal => { partition with primary := partition.primary.insert key entry }
  | .frozen | .stopped => partition.setSlot key (some (.present entry))
  | .moving =>
      let merged := partition.promote key
      { merged with primary := merged.primary.insert key entry }

/-- Removes a key.  A key that the frozen primary holds leaves a tombstone. -/
def delete (partition : Partition) (key : String) : Partition :=
  match partition.phase with
  | .normal => { partition with primary := partition.primary.erase key }
  | .frozen | .stopped =>
      partition.setSlot key (if key ∈ partition.primary then some .tombstone else none)
  | .moving =>
      let merged := partition.promote key
      { merged with primary := merged.primary.erase key }

/-- Removes a key and tells whether clients could see it. -/
def remove (partition : Partition) (key : String) : Bool × Partition :=
  ((partition.lookup key).isSome, partition.delete key)

/-- Whether a visible key's time has come. -/
def expired (partition : Partition) (key : String) (now : Int) : Bool :=
  (partition.lookup key).any (·.expired now)

/-- Prepares a key for use: its slot is merged if merging is under way, and the key
is removed if its time has come. -/
def touch (partition : Partition) (key : String) (now : Int) : Partition :=
  let merged := if partition.phase = .moving then partition.promote key else partition
  if merged.expired key now then merged.delete key else merged

/-- Reads a key, and what became of the partition by touching it. -/
def get (partition : Partition) (key : String) (now : Int) : Option Datum × Partition :=
  let touched := partition.touch key now
  ((touched.lookup key).map (·.datum), touched)

/-- Whether a key can be read. -/
def contains (partition : Partition) (key : String) (now : Int) : Bool × Partition :=
  let (found, touched) := partition.get key now
  (found.isSome, touched)

/-- Changes the value of a key in place and keeps its expiry.  The result is the
value before the change.  Where the primary cannot change, its entry is first copied
to the shadow, even if the change then turns out to be none. -/
def modify (partition : Partition) (key : String) (now : Int) (change : Datum → Datum) :
    Option Datum × Partition :=
  let touched := partition.touch key now
  match touched.lookup key with
  | none => (none, touched)
  | some entry =>
      let changed := { entry with datum := change entry.datum }
      let stored := match touched.phase with
        | .normal | .moving => { touched with primary := touched.primary.insert key changed }
        | .frozen | .stopped =>
            { touched with shadow := touched.shadow.insert key (.present changed) }
      (some entry.datum, stored)

end Partition
end ReplicaStore
