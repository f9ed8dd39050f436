import ReplicaStore.Partition.Basic

/-!
# A partition during a snapshot

The steps that take a partition from one phase to the next: freezing its primary,
merging the shadow back after the snapshot was written or given up, and emptying it.
-/

namespace ReplicaStore.Partition

/-- Freezes the primary for a snapshot in the background. -/
def freeze (partition : Partition) : Partition :=
  { partition with phase := .frozen }

/-- Freezes the primary for a save in the foreground. -/
def stop (partition : Partition) : Partition :=
  { partition with phase := .stopped }

/-- Goes back to normal once nothing is left to merge. -/
def settleIfMerged (partition : Partition) : Partition :=
  if partition.shadow.isEmpty then { partition with phase := .normal, drift := 0 } else partition

/-- Notes that the frozen primary has been written: merging begins if there is
anything to merge.  In any other phase this does nothing. -/
def finishWrite (partition : Partition) : Partition :=
  if partition.phase = .frozen then { partition with phase := .moving }.settleIfMerged
  else partition

/-- Merges the slots of some keys. -/
def promoteAll (partition : Partition) (keys : List String) : Partition :=
  keys.foldl promote partition

/-- Merges everything and goes back to normal. -/
def mergeAll (partition : Partition) : Partition :=
  { partition.promoteAll partition.shadow.keys with phase := .normal, drift := 0 }

/-- Merges the slots of the picked keys, if merging is under way. -/
def drain (partition : Partition) (picked : List String) : Partition :=
  if partition.phase = .moving then (partition.promoteAll picked).settleIfMerged
  else partition

/-- Any choice of keys makes a batch as long as it takes `count` keys of the shadow,
or all where there are fewer. -/
structure IsBatch (partition : Partition) (count : Nat) (picked : List String) : Prop where
  nodup : picked.Nodup
  subset : ∀ key ∈ picked, key ∈ partition.shadow
  length : picked.length = min count partition.shadow.size

/-- The batch of the least keys of the shadow. -/
def batch (partition : Partition) (count : Nat) : List String :=
  partition.shadow.keys.take count

/-- Forgets all keys and any snapshot. -/
def flush (_partition : Partition) : Partition := {}

end ReplicaStore.Partition
