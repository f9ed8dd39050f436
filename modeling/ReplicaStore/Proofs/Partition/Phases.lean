import ReplicaStore.PartitionSet
import ReplicaStore.Proofs.Partition.PlainMap

/-!
# Phases

What each step does to the phase of a partition, and to the phases of all partitions
together with the status over them.
-/

namespace ReplicaStore

namespace Partition

/-- An operation on a key leaves the phase alone. -/
theorem phase_perform {operation : Operation} (onKey : operation.onKey) (partition : Partition) :
    (partition.perform operation).2.phase = partition.phase := by
  obtain ⟨key, edits⟩ := edits_perform onKey partition
  exact edits.phase

theorem phase_settleIfMerged (partition : Partition) :
    partition.settleIfMerged.phase = .normal ∨
    partition.settleIfMerged.phase = partition.phase := by
  simp only [settleIfMerged]
  split
  · exact .inl rfl
  · exact .inr rfl

theorem phase_finishWrite (partition : Partition) :
    partition.finishWrite.phase = if partition.phase = .frozen then
      (if partition.shadow.isEmpty then .normal else .moving) else partition.phase := by
  simp only [finishWrite, settleIfMerged]
  by_cases frozen : partition.phase = .frozen
  · by_cases empty : partition.shadow.isEmpty <;> simp [frozen, empty]
  · simp [frozen]

theorem phase_drain (partition : Partition) (picked : List String) :
    (partition.drain picked).phase = partition.phase ∨
    partition.phase = .moving ∧ (partition.drain picked).phase = .normal := by
  simp only [drain]
  split
  · next moving =>
      rcases (partition.promoteAll picked).phase_settleIfMerged with settled | same
      · exact .inr ⟨moving, settled⟩
      · exact .inl (same.trans (phase_promoteAll partition picked))
  · exact .inl rfl

end Partition

namespace PartitionSet

/-- The phases of all partitions, in order. -/
def phases (set : PartitionSet) : List Phase :=
  set.partitions.map (·.phase)

theorem getElem?_phases (set : PartitionSet) (index : Nat) :
    set.phases[index]? = (set.get? index).map (·.phase) :=
  List.getElem?_map ..

/-- A change that keeps the phase of the partition it is made to keeps all phases. -/
theorem phases_modify {change : Partition → Partition}
    (same : ∀ partition, (change partition).phase = partition.phase) (set : PartitionSet)
    (index : Nat) : (set.modify index change).phases = set.phases := by
  apply List.ext_getElem?
  intro other
  simp only [phases, modify, List.getElem?_map, List.getElem?_modify]
  cases set.partitions[other]? with
  | none => rfl
  | some partition =>
      by_cases here : index = other <;> simp [here, same]

theorem getElem?_phases_modify (set : PartitionSet) (index other : Nat)
    (change : Partition → Partition) :
    (set.modify index change).phases[other]? =
      if index = other then (set.get? index).map fun partition => (change partition).phase
      else set.phases[other]? := by
  simp only [phases, modify, get?, List.getElem?_map, List.getElem?_modify]
  by_cases here : index = other
  · subst here
    cases set.partitions[index]? <;> simp
  · cases set.partitions[other]? <;> simp [here]

theorem phases_freeze (set : PartitionSet) :
    ∀ phase ∈ set.freeze.phases, phase = .frozen := by
  simp [phases, freeze, Partition.freeze]

theorem phases_flush (set : PartitionSet) :
    ∀ phase ∈ set.flush.phases, phase = .normal := by
  simp [phases, flush, Partition.flush]

theorem phases_resume (set : PartitionSet) :
    ∀ phase ∈ set.resume.phases, phase = .normal := by
  simp [phases, resume, Partition.mergeAll]

theorem any_moving (set : PartitionSet) :
    set.partitions.any (·.phase == .moving) = true ↔ Phase.moving ∈ set.phases := by
  simp [phases]

theorem status_settle (set : PartitionSet) :
    set.settle.status = if Phase.moving ∈ set.phases then .moving else .normal := by
  simp only [settle, any_moving]

theorem inPhase_eq (set : PartitionSet) (index : Nat) (phase : Phase) :
    set.inPhase index phase = true ↔ set.phases[index]? = some phase := by
  rw [getElem?_phases, inPhase]
  cases set.get? index <;> simp

theorem phases_drain (set : PartitionSet) (index : Nat) (picked : List String) :
    (set.drain index picked).phases = (set.modify index (·.drain picked)).phases := by
  simp only [drain]
  split <;> rfl

/-- A merge finds the status again if it was the last one of its partition and nothing
is being written. -/
theorem status_drain (set : PartitionSet) (index : Nat) (picked : List String) :
    (set.drain index picked).status =
      if set.status = .moving ∧ (set.drain index picked).phases[index]? = some .normal then
        if Phase.moving ∈ (set.drain index picked).phases then .moving else .normal
      else set.status := by
  simp only [phases_drain]
  have settles : (((set.modify index (·.drain picked)).inPhase index .normal &&
      (set.modify index (·.drain picked)).status == .moving) = true) ↔
      set.status = .moving ∧
        (set.modify index (·.drain picked)).phases[index]? = some .normal := by
    rw [Bool.and_eq_true, inPhase_eq, beq_iff_eq]
    exact And.comm
  simp only [drain]
  by_cases last : set.status = .moving ∧
      (set.modify index (·.drain picked)).phases[index]? = some .normal
  · rw [if_pos (settles.mpr last), if_pos last, status_settle]
  · rw [if_neg (mt settles.mp last), if_neg last]
    rfl

/-- A merge changes no phase but from moving to normal. -/
theorem getElem?_phases_drain (set : PartitionSet) (index other : Nat) (picked : List String) :
    (set.drain index picked).phases[other]? = set.phases[other]? ∨
    index = other ∧ set.phases[other]? = some .moving ∧
      (set.drain index picked).phases[other]? = some .normal := by
  rw [phases_drain, getElem?_phases_modify]
  by_cases here : index = other
  · subst here
    rw [if_pos rfl, getElem?_phases]
    cases set.get? index with
    | none => exact .inl rfl
    | some partition =>
        rcases partition.phase_drain picked with same | ⟨moving, normal⟩
        · exact .inl (congrArg some same)
        · exact .inr ⟨rfl, congrArg some moving, congrArg some normal⟩
  · exact .inl (if_neg here)

/-- What was written is not frozen any more. -/
theorem getElem?_phases_written (set : PartitionSet) (index other : Nat) :
    (set.written index).phases[other]? = set.phases[other]? ∧
      (index = other → set.phases[other]? ≠ some .frozen) ∨
    index = other ∧ ((set.written index).phases[other]? = some .normal ∨
      (set.written index).phases[other]? = some .moving) := by
  rw [written, getElem?_phases_modify]
  by_cases here : index = other
  · subst here
    rw [if_pos rfl, getElem?_phases]
    cases set.get? index with
    | none => simp
    | some partition =>
        simp only [Option.map_some, partition.phase_finishWrite]
        by_cases frozen : partition.phase = .frozen
        · apply Or.inr
          by_cases empty : partition.shadow.isEmpty <;> simp [frozen, empty]
        · simp [frozen]
  · simp [here]

/-- What was given up is normal again. -/
theorem getElem?_phases_aborted (set : PartitionSet) (index other : Nat) :
    (set.aborted index).phases[other]? = set.phases[other]? ∧
      (index = other → set.phases[other]? ≠ some .frozen) ∨
    index = other ∧ (set.aborted index).phases[other]? = some .normal := by
  rw [aborted, getElem?_phases_modify]
  by_cases here : index = other
  · subst here
    rw [if_pos rfl, getElem?_phases]
    cases set.get? index with
    | none => simp
    | some partition =>
        by_cases frozen : partition.phase = .frozen
        · refine .inr ⟨rfl, ?_⟩
          simp [frozen, Partition.mergeAll]
        · simp [frozen]
  · simp [here]

theorem unsettled_of_moving {set : PartitionSet} {index : Nat}
    (moving : set.phases[index]? = some .moving) : set.unsettled index = true := by
  rw [getElem?_phases] at moving
  simp only [unsettled]
  cases found : set.get? index with
  | none => simp [found] at moving
  | some partition =>
      simp only [found, Option.map_some, Option.some.injEq] at moving
      simp [moving]

end PartitionSet

end ReplicaStore
