import ReplicaStore.Proofs.Partition.PlainMap

/-!
# The count of keys

`Partition.size` does not count the visible keys: it corrects the size of the primary
by `Partition.drift`, which storing, removing and merging adjust by what they change of
the contribution of the one key they touch.  This module shows that the correction is
exact at all times.

The invariant is `Partition.Counted`: the sizes of the primary and of the visible
keyspace differ by the drift.  A contribution is the difference that one key makes
between the two (`contribution_eq`), so a step that changes both keyspaces at one key
only, and the drift by the change of that key's contribution, keeps the invariant
(`Counted.change`).  That one lemma carries all edits of keys, and with them all
operations on keys.
-/

namespace ReplicaStore

namespace Keyspace

/-- How often a key occurs in a keyspace. -/
def count (keyspace : Keyspace) (key : String) : Int :=
  if key ∈ keyspace then 1 else 0

theorem mem_iff (keyspace : Keyspace) (key : String) :
    key ∈ keyspace ↔ keyspace[key]?.isSome := by
  rw [Std.ExtTreeMap.isSome_getElem?_iff_mem]

theorem count_congr {left right : Keyspace} {key : String}
    (same : left[key]?.isSome = right[key]?.isSome) : left.count key = right.count key := by
  simp only [count, mem_iff, same]

theorem size_eq (keyspace : Keyspace) (key : String) :
    (keyspace.size : Int) = (keyspace.erase key).size + keyspace.count key := by
  rw [Std.ExtTreeMap.size_erase, count]
  by_cases stored : key ∈ keyspace
  · have positive : keyspace.size ≠ 0 := by
      intro zero
      rw [Std.ExtTreeMap.eq_empty_iff_size_eq_zero.mpr zero] at stored
      exact Std.ExtTreeMap.not_mem_empty stored
    simp only [Std.ExtTreeMap.contains_iff_mem, stored, if_true]
    omega
  · simp [stored]

/-- Keyspaces that agree on all other keys differ in size by what they hold of one. -/
theorem size_sub_count {left right : Keyspace} {key : String}
    (apart : ∀ other, key ≠ other → left[other]? = right[other]?) :
    left.size - left.count key = right.size - right.count key := by
  have rest : left.erase key = right.erase key := by
    apply ext
    intro other
    rw [getElem?_erase, getElem?_erase]
    split
    · rfl
    · exact apart other ‹_›
  rw [size_eq left key, size_eq right key, rest]
  omega

end Keyspace

namespace Partition

variable {partition later : Partition} {key : String}

/-- A contribution is the difference that the key makes. -/
theorem contribution_eq (partition : Partition) (key : String) :
    partition.contribution key = partition.visible.count key - partition.primary.count key := by
  simp only [contribution, Keyspace.count, Keyspace.mem_iff, getElem?_visible, lookup]
  cases found : partition.shadow[key]? with
  | none => simp
  | some slot => cases slot <;> simp [Slot.entry?]

theorem contribution_of_shadow (missing : partition.shadow[key]? = none) :
    partition.contribution key = 0 := by
  simp [contribution, missing]

/-- Merging takes the contribution of the key out of the drift. -/
theorem drift_promote (partition : Partition) (key : String) :
    (partition.promote key).drift - partition.drift =
      (partition.promote key).contribution key - partition.contribution key := by
  rw [contribution_of_shadow (by simp)]
  unfold promote
  split
  · next missing => rw [contribution_of_shadow missing]; omega
  · simp only
    omega

/-- The drift is what is between the visible keys and those of the primary. -/
structure Counted (partition : Partition) : Prop where
  settled : partition.Settled
  balance : partition.primary.size + partition.drift = partition.visible.size

namespace Counted

theorem of_shadow_empty (empty : partition.shadow = ∅) (drift : partition.drift = 0) :
    partition.Counted where
  settled := .of_shadow_empty empty
  balance := by rw [visible_of_shadow_empty empty, drift, Int.add_zero]

theorem new : Counted {} :=
  of_shadow_empty rfl rfl

/-- In the normal phase there is nothing to correct. -/
theorem drift_of_normal (counted : partition.Counted) (normal : partition.phase = .normal) :
    partition.drift = 0 := by
  have balance := counted.balance
  rw [visible_of_shadow_empty (counted.settled normal)] at balance
  omega

/-- The invariant outlives a change at one key that brings the drift up to date. -/
theorem change (counted : partition.Counted) (settled : later.Settled) (key : String)
    (primary : ∀ other, key ≠ other → later.primary[other]? = partition.primary[other]?)
    (lookup : ∀ other, key ≠ other → later.lookup other = partition.lookup other)
    (drift : later.drift - partition.drift =
      later.contribution key - partition.contribution key) : later.Counted where
  settled := settled
  balance := by
    have balance := counted.balance
    have stored := Keyspace.size_sub_count primary
    have seen : later.visible.size - later.visible.count key =
        partition.visible.size - partition.visible.count key :=
      Keyspace.size_sub_count fun other apart => by simpa using lookup other apart
    rw [contribution_eq, contribution_eq] at drift
    omega

/-! ## Edits of keys -/

theorem promote (counted : partition.Counted) (key : String) :
    (partition.promote key).Counted := by
  apply counted.change (counted.settled.promote key) key
  · exact fun other different => primary_promote partition different
  · exact fun other _ => lookup_promote partition key other
  · exact drift_promote partition key

theorem promoteAll (counted : partition.Counted) (keys : List String) :
    (partition.promoteAll keys).Counted := by
  unfold Partition.promoteAll
  induction keys generalizing partition with
  | nil => exact counted
  | cons key keys ih => exact ih (counted.promote key)

/-- Whatever edit of a key it is, the drift changes by what its contribution does. -/
theorem edit (counted : partition.Counted) (edit : Edit key partition later) : later.Counted := by
  apply counted.change (edit.settled counted.settled) key
  · exact fun other different => (edit.apart different).1
  · intro other different
    simp only [Partition.lookup, edit.apart different]
  · cases edit with
    | store free primary apart =>
        have missing := counted.settled.missing free
        have after : contribution { partition with primary } key = 0 :=
          contribution_of_shadow missing
        rw [after, contribution_of_shadow missing]
        exact Int.sub_self _
    | merge moving => exact drift_promote partition key
    | setSlot held slot hides =>
        have brought : ∀ drift change : Int, drift + change - drift = change := by omega
        exact brought ..
    | copy held found changed =>
        -- the key is counted before and after
        have seen : Keyspace.count (visible { partition with
            shadow := partition.shadow.insert key (.present changed) }) key =
              partition.visible.count key := by
          apply Keyspace.count_congr
          rw [getElem?_visible, getElem?_visible, found]
          simp [Partition.lookup, Slot.entry?]
        rw [contribution_eq, contribution_eq, seen]
        simp only
        omega

theorem edits (counted : partition.Counted) (edits : Edits key partition later) :
    later.Counted := by
  induction edits with
  | refl => exact counted
  | tail _ edit counted => exact counted.edit edit

/-! ## Operations on the partition -/

/-- The invariant speaks of the phase only where it is normal. -/
theorem of_phase_ne (counted : partition.Counted) {phase : Phase} (busy : phase ≠ .normal) :
    Counted { partition with phase } where
  settled := .of_phase_ne busy
  balance := counted.balance

theorem settleIfMerged (counted : partition.Counted) : partition.settleIfMerged.Counted := by
  unfold Partition.settleIfMerged
  split
  · next merged =>
      exact of_shadow_empty (by simpa [Std.ExtTreeMap.isEmpty_iff] using merged) rfl
  · exact counted

theorem finishWrite (counted : partition.Counted) : partition.finishWrite.Counted := by
  unfold Partition.finishWrite
  split
  · exact (counted.of_phase_ne (by decide)).settleIfMerged
  · exact counted

theorem drain (counted : partition.Counted) (picked : List String) :
    (partition.drain picked).Counted := by
  unfold Partition.drain
  split
  · exact (counted.promoteAll picked).settleIfMerged
  · exact counted

/-- Every operation keeps the count right. -/
theorem perform (counted : partition.Counted) (operation : Operation) :
    (partition.perform operation).2.Counted := by
  by_cases onKey : operation.onKey
  · obtain ⟨key, edits⟩ := edits_perform onKey partition
    exact counted.edits edits
  · cases operation with
    | put | delete | get | contains | modify => exact absurd rfl onKey
    | expiry key => exact counted
    | keys => exact counted
    | freeze => exact counted.of_phase_ne (by decide)
    | stop => exact counted.of_phase_ne (by decide)
    | finishWrite => exact counted.finishWrite
    | mergeAll => exact of_shadow_empty (shadow_promoteAll_keys partition) rfl
    | drain picked => exact counted.drain picked
    | flush => exact new

/-- The size that is reported is that of what clients see. -/
theorem size_eq (counted : partition.Counted) : partition.size = partition.visible.size := by
  have balance := counted.balance
  cases phase : partition.phase with
  | normal =>
      simp only [size, phase]
      rw [counted.drift_of_normal phase] at balance
      omega
  | frozen | moving | stopped =>
      simp only [size, phase, balance]
      exact Int.toNat_natCast _

end Counted

/-! ## The keys -/

/-- The visible keys are those of the primary that have no slot, and those of the
shadow that have an entry. -/
theorem mem_keys (partition : Partition) (key : String) :
    key ∈ partition.keys ↔
      key ∈ partition.primary ∧ key ∉ partition.shadow ∨
      ∃ entry, partition.shadow[key]? = some (.present entry) := by
  rw [keys, Std.ExtTreeMap.mem_keys, Keyspace.mem_iff, getElem?_visible, lookup,
    Keyspace.mem_iff]
  cases found : partition.shadow[key]? with
  | none =>
      have absent : key ∉ partition.shadow := by
        rw [← Std.ExtTreeMap.isSome_getElem?_iff_mem, found]
        exact Bool.false_ne_true
      simp [absent]
  | some slot =>
      have present : key ∈ partition.shadow := by
        rw [← Std.ExtTreeMap.isSome_getElem?_iff_mem, found]
        rfl
      cases slot <;> simp [present, Slot.entry?]

/-- What a new partition becomes by some operations. -/
def after (operations : List Operation) : Partition :=
  operations.foldl (fun partition operation => (partition.perform operation).2) {}

theorem counted_after (operations : List Operation) : (after operations).Counted := by
  have run : ∀ (operations : List Operation) (partition : Partition), partition.Counted →
      (operations.foldl (fun partition operation => (partition.perform operation).2)
        partition).Counted := by
    intro operations
    induction operations with
    | nil => exact fun _ counted => counted
    | cons operation later ih => exact fun partition counted => ih _ (counted.perform operation)
  exact run operations {} .new

/-- Whatever is done to a new partition, and also while a drain has merged only some of
its keys, the drift never takes more than the primary holds, and the size is the number
of the keys that clients see, each of them listed once and expired ones among them. -/
theorem size_exact (operations : List Operation) (merged : List String) :
    let partition := (after operations).promoteAll merged
    0 ≤ partition.primary.size + partition.drift ∧
    partition.size = partition.keys.length ∧
    partition.keys.Nodup ∧
    ∀ key, key ∈ partition.keys ↔ (partition.lookup key).isSome := by
  intro partition
  have counted : partition.Counted := (counted_after operations).promoteAll merged
  refine ⟨?_, ?_, Std.ExtTreeMap.nodup_keys, ?_⟩
  · rw [counted.balance]
    exact Int.natCast_nonneg _
  · rw [counted.size_eq, keys, Std.ExtTreeMap.length_keys]
  · intro key
    rw [keys, Std.ExtTreeMap.mem_keys, Keyspace.mem_iff, getElem?_visible]

end Partition
end ReplicaStore
