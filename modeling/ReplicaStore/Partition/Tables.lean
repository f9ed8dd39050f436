import ReplicaStore.Partition.Snapshot

/-!
# Partitions in tables

Nodes run on `Partition`, where an entry holds a value and its expiry together.  The store that is
modelled is laid out in another way: to know at once how many keys expire, it keeps the expiries in
tables of their own, beside the values, two for the primary and two for the shadow.  `Tables` is that
layout, with the same operations.

Nothing in the layout itself keeps an expiry from outliving its value, a tombstone from having an
expiry, or a deleted key from leaving a tombstone where the primary has nothing to hide.  Every
operation has to see to it.  That it does, and that it makes no difference which of the two is run,
is shown of every operation (`Partition.perform_tables`), of all that is given back on the way
(`Tables.answers_alike`), and of what lies in the tables (`Tables.sound_after`).
-/

namespace ReplicaStore

/-- Values by key, and beside them the expiries of the keys that have one. -/
structure Table (α : Type) where
  values : Std.ExtTreeMap String α := ∅
  expiries : Std.ExtTreeMap String Int := ∅
  deriving DecidableEq, Repr

namespace Table

variable {α : Type}

/-- Stores a value.  Its expiry takes the place of the one the key had. -/
def insert (table : Table α) (key : String) (value : α) (expiry : Option Int) : Table α where
  values := table.values.insert key value
  expiries := match expiry with
    | some moment => table.expiries.insert key moment
    | none => table.expiries.erase key

/-- Replaces a value.  The key keeps the expiry it has. -/
def replace (table : Table α) (key : String) (value : α) : Table α :=
  { table with values := table.values.insert key value }

/-- Removes a key.  Where it has no value, no expiry is looked for. -/
def erase (table : Table α) (key : String) : Table α :=
  if key ∈ table.values then
    { values := table.values.erase key, expiries := table.expiries.erase key }
  else table

end Table

/-- What the table of the shadow holds in the place of a value. -/
inductive Mark where
  | value (datum : Datum)
  /-- The key was deleted while the primary could not change. -/
  | tombstone
  deriving DecidableEq, Repr

/-- The value that clients see in a mark. -/
def Mark.value? : Mark → Option Datum
  | value datum => some datum
  | tombstone => none

/-- One database, laid out in tables. -/
structure Tables where
  primary : Table Datum := {}
  shadow : Table Mark := {}
  phase : Phase := .normal
  drift : Int := 0
  deriving DecidableEq, Repr

namespace Tables

/-! ## Looking up -/

/-- The value that clients see under a key. -/
def lookup (tables : Tables) (key : String) : Option Datum :=
  match tables.shadow.values[key]? with
  | some mark => mark.value?
  | none => tables.primary.values[key]?

/-- The expiry that clients see for a key. -/
def expiry (tables : Tables) (key : String) : Option Int :=
  match tables.shadow.values[key]? with
  | some (.value _) => tables.shadow.expiries[key]?
  | some .tombstone => none
  | none => tables.primary.expiries[key]?

/-- The visible keys: those of the primary that the shadow says nothing about, and those of the
shadow that have a value. -/
def keys (tables : Tables) : List String :=
  tables.primary.values.keys.filter (· ∉ tables.shadow.values) ++
    tables.shadow.values.toList.filterMap fun (key, mark) => mark.value?.map fun _ => key

/-- By how much the visible count of a key exceeds its count in the primary. -/
def contribution (tables : Tables) (key : String) : Int :=
  let inPrimary : Int := if key ∈ tables.primary.values then 1 else 0
  match tables.shadow.values[key]? with
  | some (.value _) => 1 - inPrimary
  | some .tombstone => -inPrimary
  | none => 0

/-- The number of visible keys. -/
def size (tables : Tables) : Nat :=
  match tables.phase with
  | .normal => tables.primary.values.size
  | _ => (tables.primary.values.size + tables.drift).toNat

/-! ## Single keys -/

/-- Applies a mark of the shadow, with its expiry, to the primary. -/
def applyMark (primary : Table Datum) (key : String) (expiry : Option Int) : Mark → Table Datum
  | .value datum => primary.insert key datum expiry
  | .tombstone => primary.erase key

/-- Merges the mark of a key, if it has one, into the primary. -/
def promote (tables : Tables) (key : String) : Tables :=
  match tables.shadow.values[key]? with
  | none => tables
  | some mark =>
      { tables with
        primary := applyMark tables.primary key tables.shadow.expiries[key]? mark
        shadow := tables.shadow.erase key
        drift := tables.drift - tables.contribution key }

/-- Takes a shadow that was changed at one key and keeps the count of visible keys right. -/
def setShadow (tables : Tables) (key : String) (shadow : Table Mark) : Tables :=
  let changed := { tables with shadow }
  { changed with drift := tables.drift + (changed.contribution key - tables.contribution key) }

/-- Stores a value with an expiry or with none. -/
def put (tables : Tables) (key : String) (datum : Datum) (expiry : Option Int) : Tables :=
  match tables.phase with
  | .normal => { tables with primary := tables.primary.insert key datum expiry }
  | .frozen | .stopped => tables.setShadow key (tables.shadow.insert key (.value datum) expiry)
  | .moving =>
      let merged := tables.promote key
      { merged with primary := merged.primary.insert key datum expiry }

/-- Removes a key and tells whether clients could see it. -/
def remove (tables : Tables) (key : String) : Bool × Tables :=
  match tables.phase with
  | .normal =>
      (tables.primary.values.contains key, { tables with primary := tables.primary.erase key })
  | .frozen | .stopped =>
      ((tables.lookup key).isSome,
        tables.setShadow key
          (if key ∈ tables.primary.values then tables.shadow.insert key .tombstone none
          else tables.shadow.erase key))
  | .moving =>
      let merged := tables.promote key
      ((tables.lookup key).isSome, { merged with primary := merged.primary.erase key })

/-- Whether a visible key's time has come. -/
def expired (tables : Tables) (key : String) (now : Int) : Bool :=
  (tables.lookup key).isSome && (tables.expiry key).any (· ≤ now)

/-- Merges the mark of a key if merging is under way, and removes the key if its time has come. -/
def touch (tables : Tables) (key : String) (now : Int) : Tables :=
  let merged := if tables.phase = .moving then tables.promote key else tables
  if merged.expired key now then (merged.remove key).2 else merged

/-- Reads a key, and what became of the partition by touching it. -/
def get (tables : Tables) (key : String) (now : Int) : Option Datum × Tables :=
  let touched := tables.touch key now
  (touched.lookup key, touched)

/-- Whether a key can be read. -/
def contains (tables : Tables) (key : String) (now : Int) : Bool × Tables :=
  let (found, touched) := tables.get key now
  (found.isSome, touched)

/-- Copies a value of the primary, with its expiry, to a shadow that says nothing about it. -/
def copy (tables : Tables) (key : String) : Tables :=
  if key ∈ tables.shadow.values then tables
  else
    match tables.primary.values[key]? with
    | none => tables
    | some datum =>
        { tables with
          shadow := tables.shadow.insert key (.value datum) tables.primary.expiries[key]? }

/-- Changes a value in the primary. -/
def modifyPrimary (tables : Tables) (key : String) (change : Datum → Datum) :
    Option Datum × Tables :=
  match tables.primary.values[key]? with
  | none => (none, tables)
  | some datum =>
      (some datum, { tables with primary := tables.primary.replace key (change datum) })

/-- Changes a value in the shadow, to which it is copied first if need be. -/
def modifyShadow (tables : Tables) (key : String) (change : Datum → Datum) :
    Option Datum × Tables :=
  let copied := tables.copy key
  match copied.shadow.values[key]? with
  | some (.value datum) =>
      (some datum, { copied with shadow := copied.shadow.replace key (.value (change datum)) })
  | _ => (none, copied)

/-- Changes the value of a key in place and keeps its expiry.  The result is the value before the
change. -/
def modify (tables : Tables) (key : String) (now : Int) (change : Datum → Datum) :
    Option Datum × Tables :=
  let touched := tables.touch key now
  match touched.phase with
  | .normal | .moving => touched.modifyPrimary key change
  | .frozen | .stopped => touched.modifyShadow key change

/-! ## Snapshots -/

/-- Freezes the primary for a snapshot in the background. -/
def freeze (tables : Tables) : Tables :=
  { tables with phase := .frozen }

/-- Freezes the primary for a save in the foreground. -/
def stop (tables : Tables) : Tables :=
  { tables with phase := .stopped }

/-- Goes back to normal once nothing is left to merge. -/
def settleIfMerged (tables : Tables) : Tables :=
  if tables.shadow.values.isEmpty then { tables with phase := .normal, drift := 0 } else tables

/-- Notes that the frozen primary has been written. -/
def finishWrite (tables : Tables) : Tables :=
  if tables.phase = .frozen then { tables with phase := .moving }.settleIfMerged else tables

/-- Merges the marks of some keys. -/
def promoteAll (tables : Tables) (keys : List String) : Tables :=
  keys.foldl promote tables

/-- Merges everything and goes back to normal. -/
def mergeAll (tables : Tables) : Tables :=
  { tables.promoteAll tables.shadow.values.keys with phase := .normal, drift := 0 }

/-- Merges the marks of the picked keys, if merging is under way. -/
def drain (tables : Tables) (picked : List String) : Tables :=
  if tables.phase = .moving then (tables.promoteAll picked).settleIfMerged else tables

/-- Forgets all keys and any snapshot. -/
def flush (_tables : Tables) : Tables := {}

end Tables
end ReplicaStore
