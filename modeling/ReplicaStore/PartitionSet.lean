import ReplicaStore.Partition.Snapshot

/-!
# All databases

The databases of a node, and one status over them.  The status says whether a
snapshot may be started: it is frozen while one is being written, moving while some
partition still has slots to merge, and normal otherwise.
-/

namespace ReplicaStore

structure PartitionSet where
  partitions : List Partition
  status : Phase := .normal
  deriving DecidableEq, Repr

namespace PartitionSet

/-- A number of empty databases. -/
def new (count : Nat) : PartitionSet where
  partitions := List.replicate count {}

def count (set : PartitionSet) : Nat :=
  set.partitions.length

def get? (set : PartitionSet) (index : Nat) : Option Partition :=
  set.partitions[index]?

/-- Changes one partition. -/
def modify (set : PartitionSet) (index : Nat) (change : Partition → Partition) : PartitionSet :=
  { set with partitions := set.partitions.modify index change }

/-- The primaries, in order: what a snapshot started now would hold. -/
def views (set : PartitionSet) : List Keyspace :=
  set.partitions.map (·.primary)

/-- Freezes all partitions for a snapshot in the background. -/
def freeze (set : PartitionSet) : PartitionSet where
  partitions := set.partitions.map Partition.freeze
  status := .frozen

/-- Freezes all partitions for a save in the foreground.  Those that are still
merging are merged first, so that their primaries are all that clients see. -/
def stop (set : PartitionSet) : PartitionSet where
  partitions := set.partitions.map fun partition =>
    (if partition.phase = .moving then partition.mergeAll else partition).stop
  status := .stopped

/-- Ends a save in the foreground. -/
def resume (set : PartitionSet) : PartitionSet where
  partitions := set.partitions.map Partition.mergeAll
  status := .normal

/-- Notes that a partition has been written. -/
def written (set : PartitionSet) (index : Nat) : PartitionSet :=
  set.modify index Partition.finishWrite

/-- Whether a partition is in a given phase. -/
def inPhase (set : PartitionSet) (index : Nat) (phase : Phase) : Bool :=
  (set.get? index).any (·.phase == phase)

/-- Gives the snapshot of one partition up. -/
def aborted (set : PartitionSet) (index : Nat) : PartitionSet :=
  set.modify index fun partition =>
    if partition.phase = .frozen then partition.mergeAll else partition

/-- Finds the status again when no snapshot is being written. -/
def settle (set : PartitionSet) : PartitionSet :=
  { set with status := if set.partitions.any (·.phase == .moving) then .moving else .normal }

/-- Merges a batch of a partition's slots. -/
def drain (set : PartitionSet) (index : Nat) (picked : List String) : PartitionSet :=
  let drained := set.modify index (·.drain picked)
  if drained.inPhase index .normal && drained.status == .moving then drained.settle else drained

/-- Whether a partition exists and is in any phase but the normal one. -/
def unsettled (set : PartitionSet) (index : Nat) : Bool :=
  (set.get? index).any (·.phase != .normal)

/-- Empties all partitions.  The status stays frozen while a snapshot is being
written. -/
def flush (set : PartitionSet) : PartitionSet where
  partitions := set.partitions.map Partition.flush
  status := if set.status = .frozen then .frozen else .normal

/-- The number of visible keys in all partitions. -/
def totalKeys (set : PartitionSet) : Nat :=
  set.partitions.foldr (fun partition total => partition.size + total) 0

end PartitionSet
end ReplicaStore
