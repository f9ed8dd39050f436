import ReplicaStore.Proofs.Partition.Count
import ReplicaStore.Proofs.Partition.Phases

/-!
# The frozen primary and its shadow

As long as a partition is held for a snapshot, in the background or in the foreground, nothing
changes its primary (`Partition.primary_run`).  What is stored and removed in the meantime lies in
the shadow, and stays there until it is merged: in the normal phase the shadow is empty.  A
tombstone always hides a key of the primary (`Partition.Backed`), also where the partition is frozen
again before all of the shadow was merged.
-/

namespace ReplicaStore

namespace Partition

variable {partition later : Partition} {key : String}

/-- What a partition becomes by some operations. -/
def run (partition : Partition) (operations : List Operation) : Partition :=
  operations.foldl (fun partition operation => (partition.perform operation).2) partition

/-! ## Tombstones -/

/-- Every tombstone hides a key of the primary. -/
def Backed (partition : Partition) : Prop :=
  ∀ key, partition.shadow[key]? = some .tombstone → key ∈ partition.primary

namespace Backed

theorem of_shadow_empty (empty : partition.shadow = ∅) : partition.Backed := by
  intro key hidden
  rw [empty, Std.ExtTreeMap.getElem?_empty] at hidden
  cases hidden

theorem new : Backed {} := of_shadow_empty rfl

/-- A change at one key that leaves no tombstone there without a key to hide. -/
theorem change (backed : partition.Backed) (key : String)
    (primary : ∀ other, key ≠ other → later.primary[other]? = partition.primary[other]?)
    (shadow : ∀ other, key ≠ other → later.shadow[other]? = partition.shadow[other]?)
    (here : later.shadow[key]? = some .tombstone → key ∈ later.primary) : later.Backed := by
  intro other hidden
  by_cases same : key = other
  · subst same
    exact here hidden
  · rw [shadow other same] at hidden
    rw [Keyspace.mem_iff, primary other same, ← Keyspace.mem_iff]
    exact backed other hidden

theorem promote (backed : partition.Backed) (key : String) : (partition.promote key).Backed := by
  apply backed.change key
  · intro other different
    exact primary_promote partition different
  · intro other different
    simp [different]
  · intro hidden
    simp at hidden

theorem promoteAll (backed : partition.Backed) (keys : List String) :
    (partition.promoteAll keys).Backed := by
  unfold Partition.promoteAll
  induction keys generalizing partition with
  | nil => exact backed
  | cons key keys ih => exact ih (backed.promote key)

theorem edit (backed : partition.Backed) (settled : partition.Settled)
    (edit : Edit key partition later) : later.Backed := by
  apply backed.change key
  · exact fun other different => (edit.apart different).1
  · exact fun other different => (edit.apart different).2
  · intro hidden
    cases edit with
    | store free primary apart =>
        rw [settled.missing free] at hidden
        cases hidden
    | merge moving => simp at hidden
    | setSlot held slot hides =>
        apply hides
        cases slot <;> simp_all [Partition.setSlot]
    | copy held found changed => simp at hidden

theorem edits (backed : partition.Backed) (settled : partition.Settled)
    (edits : Edits key partition later) : later.Backed := by
  induction edits with
  | refl => exact backed
  | tail before edit backed => exact backed.edit (settled.edits before) edit

theorem settleIfMerged (backed : partition.Backed) : partition.settleIfMerged.Backed := by
  unfold Partition.settleIfMerged
  split <;> exact backed

/-- Every operation on a settled partition leaves every tombstone with a key to hide. -/
theorem perform (backed : partition.Backed) (settled : partition.Settled)
    (operation : Operation) : (partition.perform operation).2.Backed := by
  by_cases onKey : operation.onKey
  · obtain ⟨key, edits⟩ := edits_perform onKey partition
    exact backed.edits settled edits
  · cases operation with
    | put | delete | get | contains | modify => exact absurd rfl onKey
    | expiry key => exact backed
    | keys => exact backed
    | freeze => exact backed
    | stop => exact backed
    | finishWrite =>
        simp only [Partition.perform, Partition.finishWrite]
        split
        · exact settleIfMerged backed
        · exact backed
    | mergeAll => exact of_shadow_empty (shadow_promoteAll_keys partition)
    | drain picked =>
        simp only [Partition.perform, Partition.drain]
        split
        · exact (backed.promoteAll picked).settleIfMerged
        · exact backed
    | flush => exact new

end Backed

/-- Whatever is done to a new partition, its tombstones hide keys of its primary. -/
theorem backed_after (operations : List Operation) : (after operations).Backed := by
  have runs : ∀ (operations : List Operation) (partition : Partition), partition.Backed →
      partition.Settled → (partition.run operations).Backed := by
    intro operations
    induction operations with
    | nil => exact fun _ backed _ => backed
    | cons operation more ih =>
        exact fun partition backed settled =>
          ih _ (backed.perform settled operation) (settled.perform operation)
  exact runs operations {} .new .new

/-! ## The frozen primary -/

/-- What is done to a partition that is held, and leaves it held, does not change the primary. -/
theorem primary_perform (held : partition.phase.holds = true) (operation : Operation)
    (still : (partition.perform operation).2.phase.holds = true) :
    (partition.perform operation).2.primary = partition.primary := by
  by_cases onKey : operation.onKey
  · obtain ⟨key, edits⟩ := edits_perform onKey partition
    exact edits.primary held
  · cases operation with
    | put | delete | get | contains | modify => exact absurd rfl onKey
    | expiry key => rfl
    | keys => rfl
    | freeze => rfl
    | stop => rfl
    | finishWrite =>
        simp only [perform, finishWrite, settleIfMerged]
        split
        · split <;> rfl
        · rfl
    | mergeAll => simp [perform, mergeAll, Phase.holds] at still
    | drain picked => simp only [perform, drain, if_neg (ne_moving_of_holds held)]
    | flush => simp [perform, flush, Phase.holds] at still

/-- As long as a partition is held, its primary stays what it was. -/
theorem primary_run (operations : List Operation)
    (held : ∀ count ≤ operations.length,
      (partition.run (operations.take count)).phase.holds = true) :
    (partition.run operations).primary = partition.primary := by
  induction operations generalizing partition with
  | nil => rfl
  | cons operation more ih =>
      have before : partition.phase.holds = true := held 0 (Nat.zero_le _)
      have next : (partition.perform operation).2.phase.holds = true :=
        held 1 (Nat.succ_le_succ (Nat.zero_le _))
      have rest : ((partition.perform operation).2.run more).primary =
          (partition.perform operation).2.primary :=
        ih fun count within => held (count + 1) (Nat.succ_le_succ within)
      exact rest.trans (primary_perform before operation next)

end Partition
end ReplicaStore
