import Mathlib.Data.List.Perm.Basic
import ReplicaStore.Proofs.Node.Lifecycle
import ReplicaStore.Settings.Load

/-!
# Merging to the end

After a snapshot the shadows are merged back batch by batch.  `Node.Merging` are the runs in
which nothing happens but that, each batch with any keys.  Every merge takes a slot from a
shadow, or is not followed by another one of its partition; so there is an end to it, and at the
end the next snapshot can be begun (`Node.Reachable.merging_ends`).

This needs a batch to have room for a key.  The settings allow batches of no keys at all.  With
these a partition that has something to merge is merged for ever, and no other snapshot can be
begun (`Node.Reachable.merging_stuck`, `Node.stalled_stuck`).
-/

namespace ReplicaStore

/-! ### One partition -/

namespace Partition

variable {partition : Partition} {count : Nat} {picked : List String}

/-- The least keys are a batch. -/
theorem isBatch_batch (partition : Partition) (count : Nat) :
    partition.IsBatch count (partition.batch count) where
  nodup := Std.ExtTreeMap.nodup_keys.sublist (List.take_sublist ..)
  subset _ member := Std.ExtTreeMap.mem_keys.mp (List.mem_of_mem_take member)
  length := by rw [batch, List.length_take, Std.ExtTreeMap.length_keys]

/-- Each key that is merged takes a slot with it. -/
theorem size_shadow_promoteAll (nodup : picked.Nodup) (subset : ∀ key ∈ picked, key ∈ partition.shadow) :
    (partition.promoteAll picked).shadow.size + picked.length = partition.shadow.size := by
  induction picked generalizing partition with
  | nil => rfl
  | cons key picked ih =>
      obtain ⟨apart, nodup⟩ := List.nodup_cons.mp nodup
      have held : key ∈ partition.shadow := subset key List.mem_cons_self
      have rest : ∀ other ∈ picked, other ∈ (partition.promote key).shadow := by
        intro other member
        rw [shadow_promote, Std.ExtTreeMap.mem_erase]
        refine ⟨?_, subset other (List.mem_cons_of_mem _ member)⟩
        simpa using fun same : key = other => apart (same ▸ member)
      have later := ih nodup rest
      have one : (partition.promote key).shadow.size + 1 = partition.shadow.size := by
        have some : partition.shadow.size ≠ 0 := by
          intro none
          have empty : partition.shadow = ∅ := Std.ExtTreeMap.eq_empty_iff_size_eq_zero.mpr none
          simp [empty] at held
        rw [shadow_promote, Std.ExtTreeMap.size_erase,
          if_pos (Std.ExtTreeMap.contains_iff_mem.mpr held)]
        omega
      have step : partition.promoteAll (key :: picked) = (partition.promote key).promoteAll picked := rfl
      rw [step, List.length_cons]
      omega

@[simp] theorem shadow_settleIfMerged (partition : Partition) :
    partition.settleIfMerged.shadow = partition.shadow := by
  rw [settleIfMerged]
  split <;> rfl

/-- No batch leaves more slots than there were. -/
theorem size_shadow_drain (batch : partition.IsBatch count picked) :
    (partition.drain picked).shadow.size ≤ partition.shadow.size := by
  rw [drain]
  split
  · rw [shadow_settleIfMerged]
    have := size_shadow_promoteAll batch.nodup batch.subset
    omega
  · exact Nat.le_refl _

/-- A partition is still to be merged after a batch only if the batch has taken slots. -/
theorem size_shadow_drain_lt (batch : partition.IsBatch count picked) (positive : 0 < count)
    (before : partition.phase = .moving) (after : (partition.drain picked).phase ≠ .normal) :
    (partition.drain picked).shadow.size < partition.shadow.size := by
  have merged := size_shadow_promoteAll batch.nodup batch.subset
  have taken := batch.length
  have left : (partition.promoteAll picked).shadow.size ≠ 0 := by
    intro none
    have empty : (partition.promoteAll picked).shadow.isEmpty = true := by
      rw [Std.ExtTreeMap.eq_empty_iff_size_eq_zero.mpr none]
      rfl
    rw [drain, if_pos before, settleIfMerged, if_pos empty] at after
    exact after rfl
  rw [drain, if_pos before, shadow_settleIfMerged]
  omega

/-- A batch without keys merges nothing. -/
theorem drain_nil (unmerged : partition.shadow.isEmpty = false) : partition.drain [] = partition := by
  have same : partition.promoteAll [] = partition := rfl
  rw [drain, same, settleIfMerged, unmerged]
  split <;> rfl

theorem IsBatch.eq_nil (batch : partition.IsBatch 0 picked) : picked = [] :=
  List.eq_nil_of_length_eq_zero (batch.length.trans (Nat.zero_min _))

end Partition

/-! ### All partitions -/

namespace PartitionSet

/-- The number of slots that are not merged yet. -/
def unmerged (set : PartitionSet) : Nat :=
  set.partitions.foldr (·.shadow.size + ·) 0

theorem foldr_modify {α : Type} {size : α → Nat} {change : α → α} {values : List α} {index : Nat}
    {value : α} (found : values[index]? = some value) :
    (values.modify index change).foldr (size · + ·) 0 + size value =
      values.foldr (size · + ·) 0 + size (change value) := by
  induction values generalizing index with
  | nil => cases found
  | cons first values ih =>
      cases index with
      | zero =>
          cases found
          simp only [List.modify_zero_cons, List.foldr_cons]
          omega
      | succ index =>
          have rest := @ih index found
          simp only [List.modify_succ_cons, List.foldr_cons]
          omega

@[simp] theorem partitions_drain (set : PartitionSet) (index : Nat) (picked : List String) :
    (set.drain index picked).partitions = (set.modify index (·.drain picked)).partitions := by
  rw [drain]
  split <;> rfl

theorem get?_drain (set : PartitionSet) (index other : Nat) (picked : List String) :
    (set.drain index picked).get? other =
      if index = other then (set.get? other).map (·.drain picked) else set.get? other := by
  rw [get?, partitions_drain, modify, List.getElem?_modify]
  split
  · rfl
  · exact Option.map_id' ..

/-- What is left to merge after a batch of a partition. -/
theorem unmerged_drain {set : PartitionSet} {index : Nat} {partition : Partition}
    (found : set.get? index = some partition) (picked : List String) :
    (set.drain index picked).unmerged + partition.shadow.size =
      set.unmerged + (partition.drain picked).shadow.size := by
  rw [unmerged, partitions_drain]
  exact foldr_modify found

end PartitionSet

/-! ### Merges that are still to come -/

def Task.isMerge : Task → Bool
  | .drain _ => true
  | .beginSnapshot => false

namespace Node

variable {node later last : Node}

theorem insertTimer_perm (timer : Timer) (timers : List Timer) :
    (insertTimer timer timers).Perm (timer :: timers) := by
  induction timers with
  | nil => exact .refl _
  | cons first timers ih =>
      rw [insertTimer]
      split
      · exact (ih.cons first).trans (.swap ..)
      · exact .refl _

/-- The number of tasks of a kind that are due, or will be at a moment in question. -/
def coming (node : Node) (kind : Task → Bool) (soon : Nat → Bool) : Nat :=
  node.tasks.countP kind + node.timers.countP fun timer => kind timer.task && soon timer.due

section Coming

variable {kind : Task → Bool} {soon : Nat → Bool}

theorem coming_setTimer (timer : Timer) (past : ∀ due ≤ node.clock.elapsed, soon due = true) :
    (node.setTimer timer).coming kind soon =
      node.coming kind soon + if kind timer.task && soon timer.due then 1 else 0 := by
  rw [setTimer]
  split
  · next due =>
      simp only [coming, List.countP_append, List.countP_singleton, past _ due, Bool.and_true]
      omega
  · simp only [coming, (insertTimer_perm ..).countP_eq, List.countP_cons]
    omega

theorem coming_advance {milliseconds : Nat}
    (past : ∀ due ≤ node.clock.elapsed + milliseconds, soon due = true) :
    (node.advance milliseconds).coming kind soon = node.coming kind soon := by
  have split := List.countP_eq_countP_filter_add node.timers
    (fun timer => kind timer.task && soon timer.due) (·.due ≤ node.clock.elapsed + milliseconds)
  have waiting : node.timers.filter (fun timer => !decide (timer.due ≤ node.clock.elapsed + milliseconds)) =
      node.timers.filter (node.clock.elapsed + milliseconds < ·.due) := by
    apply List.filter_congr
    intro timer _
    rw [← decide_not, decide_eq_decide]
    omega
  have due : (node.timers.filter (·.due ≤ node.clock.elapsed + milliseconds)).countP
      (fun timer => kind timer.task && soon timer.due) =
      (node.timers.filter (·.due ≤ node.clock.elapsed + milliseconds)).countP (kind ·.task) := by
    apply List.countP_congr
    intro timer member
    have early := of_decide_eq_true (List.mem_filter.mp member).2
    rw [past _ early, Bool.and_true]
  rw [waiting, due] at split
  simp only [coming, advance, List.countP_append, List.countP_map]
  rw [split]
  simp only [Function.comp_def]
  omega

/-- A task that is taken up is not to come any more. -/
theorem coming_eraseIdx {position : Nat} {task : Task} (lined : node.tasks[position]? = some task) :
    { node with tasks := node.tasks.eraseIdx position }.coming kind soon +
      (if kind task then 1 else 0) = node.coming kind soon := by
  obtain ⟨inside, same⟩ := List.getElem?_eq_some_iff.mp lined
  have count := (List.getElem_cons_eraseIdx_perm inside).countP_eq kind
  rw [same, List.countP_cons] at count
  simp only [coming]
  omega

end Coming

/-- The number of merges that are due or will be. -/
def comingMerges (node : Node) : Nat :=
  node.tasks.countP Task.isMerge + node.timers.countP (·.task.isMerge)

/-- What merging has to do yet: every merge makes it less. -/
def mergeWork (node : Node) : Nat :=
  node.partitions.unmerged + node.comingMerges

theorem comingMerges_eq (node : Node) :
    node.comingMerges = node.coming Task.isMerge fun _ => true := by
  simp only [comingMerges, coming, Bool.and_true]

theorem comingMerges_scheduleDrain (node : Node) (index : Nat) :
    (node.scheduleDrain index).comingMerges = node.comingMerges + 1 := by
  rw [comingMerges_eq, comingMerges_eq, scheduleDrain, coming_setTimer _ fun _ _ => rfl]
  rfl

theorem comingMerges_advance (node : Node) (milliseconds : Nat) :
    (node.advance milliseconds).comingMerges = node.comingMerges := by
  rw [comingMerges_eq, comingMerges_eq, coming_advance fun _ _ => rfl]

/-- A merge that is taken up is not to come any more. -/
theorem comingMerges_eraseIdx {position index : Nat}
    (lined : node.tasks[position]? = some (.drain index)) :
    { node with tasks := node.tasks.eraseIdx position }.comingMerges + 1 = node.comingMerges := by
  rw [comingMerges_eq, comingMerges_eq, ← coming_eraseIdx lined]
  rfl

/-! ### Runs that only merge -/

/-- A merge that is due comes back, with any batch of its partition. -/
structure MergeAt (node : Node) (position index : Nat) (picked : List String) (later : Node) :
    Prop where
  lined : node.tasks[position]? = some (.drain index)
  batch : ∀ partition, node.partitions.get? index = some partition →
    partition.IsBatch node.settings.drainBatch picked
  happened : node.next? (.task position picked) = some later

/-- Time passes and merges come back, a number of them, and nothing else happens. -/
inductive Merging (node : Node) : Nat → Node → Prop
  | start : Merging node 0 node
  | pass {count : Nat} {later : Node} (run : Merging node count later) (milliseconds : Nat) :
      Merging node count (later.advance milliseconds)
  | merge {count position index : Nat} {picked : List String} {later last : Node}
      (run : Merging node count later) (merges : later.MergeAt position index picked last) :
      Merging node (count + 1) last

/-- Without a writer whatever is not normal is merged. -/
theorem Lifecycle.moving_of_idle (lifecycle : node.Lifecycle) (idle : node.writing = none)
    {index : Nat} {partition : Partition} (found : node.partitions.get? index = some partition)
    (unsettled : partition.phase ≠ .normal) : partition.phase = .moving := by
  have member : partition.phase ∈ node.partitions.phases :=
    List.mem_map_of_mem (List.mem_of_getElem? found)
  cases status : node.partitions.status with
  | normal => exact absurd (lifecycle.normal status _ member) unsettled
  | moving => exact ((lifecycle.moving status).1 _ member).resolve_left unsettled
  | frozen => simpa [idle] using lifecycle.writing.mp status
  | stopped => exact absurd status lifecycle.running

namespace MergeAt

variable {position index : Nat} {picked : List String}

/-- A merge that is due can come back with the least keys. -/
theorem least (lined : node.tasks[position]? = some (.drain index))
    (picks : (node.partitions.get? index).map (·.batch node.settings.drainBatch) = some picked) :
    node.MergeAt position index picked (node.run [.task position picked]) where
  lined := lined
  batch partition found := by
    rw [found, Option.map_some, Option.some.injEq] at picks
    exact picks ▸ partition.isBatch_batch node.settings.drainBatch
  happened := next?_run (by simp [next?, lined])

theorem eq (merges : node.MergeAt position index picked later) :
    later = { node with tasks := node.tasks.eraseIdx position }.drain index picked := by
  have happened := merges.happened
  simp only [next?, merges.lined, Option.map_some, Option.some.injEq] at happened
  exact happened.symm

theorem partitions (merges : node.MergeAt position index picked later) :
    later.partitions = node.partitions.drain index picked := by
  obtain ⟨_, _, same⟩ := drain_eq { node with tasks := node.tasks.eraseIdx position } index picked
  rw [merges.eq, same]

theorem settings (merges : node.MergeAt position index picked later) :
    later.settings = node.settings := by
  obtain ⟨_, _, same⟩ := drain_eq { node with tasks := node.tasks.eraseIdx position } index picked
  rw [merges.eq, same]

theorem writing (merges : node.MergeAt position index picked later) :
    later.writing = node.writing := by
  obtain ⟨_, _, same⟩ := drain_eq { node with tasks := node.tasks.eraseIdx position } index picked
  rw [merges.eq, same]

/-- A merge comes back only as long as its partition is not settled. -/
theorem comingMerges (merges : node.MergeAt position index picked later) :
    later.comingMerges + 1 =
      node.comingMerges + if later.partitions.unsettled index then 1 else 0 := by
  have taken := comingMerges_eraseIdx merges.lined
  rw [merges.partitions, merges.eq, Node.drain]
  dsimp only
  split
  · rw [comingMerges_scheduleDrain, ← taken]
    rfl
  · rw [← taken]
    rfl

/-- Every merge leaves less to do. -/
theorem mergeWork_lt (merges : node.MergeAt position index picked later)
    (lifecycle : node.Lifecycle) (idle : node.writing = none) (positive : 0 < node.settings.drainBatch) :
    later.mergeWork < node.mergeWork := by
  have coming := merges.comingMerges
  simp only [mergeWork, merges.partitions] at coming ⊢
  cases found : node.partitions.get? index with
  | none =>
      have left : (node.partitions.drain index picked).unmerged = node.partitions.unmerged := by
        rw [PartitionSet.unmerged, PartitionSet.partitions_drain, PartitionSet.modify,
          List.modify_eq_self (List.getElem?_eq_none_iff.mp found)]
        rfl
      have rests : (node.partitions.drain index picked).unsettled index = false := by
        rw [PartitionSet.unsettled, PartitionSet.get?_drain, if_pos rfl, found]
        rfl
      rw [rests] at coming
      simp only [Bool.false_eq_true, if_false] at coming
      omega
  | some partition =>
      have batch := merges.batch partition found
      have sum := PartitionSet.unmerged_drain found picked
      have after : (node.partitions.drain index picked).get? index = some (partition.drain picked) := by
        rw [PartitionSet.get?_drain, if_pos rfl, found, Option.map_some]
      by_cases settled : (partition.drain picked).phase = .normal
      · have rests : (node.partitions.drain index picked).unsettled index = false := by
          simp [PartitionSet.unsettled, after, settled]
        have less := Partition.size_shadow_drain batch
        rw [rests] at coming
        simp only [Bool.false_eq_true, if_false] at coming
        omega
      · have moving : partition.phase = .moving := by
          rcases partition.phase_drain picked with same | ⟨moving, _⟩
          · rw [same] at settled
            exact lifecycle.moving_of_idle idle found settled
          · exact moving
        have less := Partition.size_shadow_drain_lt batch positive moving settled
        have most : (if (node.partitions.drain index picked).unsettled index then 1 else 0) ≤ 1 := by
          split <;> omega
        omega

/-- A normal status stays so. -/
theorem status_normal (merges : node.MergeAt position index picked later)
    (normal : node.partitions.status = .normal) : later.partitions.status = .normal := by
  rw [merges.partitions, PartitionSet.status_drain, if_neg (by simp [normal]), normal]

end MergeAt

/-- As long as the status is not normal, a merge is to come. -/
theorem Lifecycle.can_merge (lifecycle : node.Lifecycle) (idle : node.writing = none)
    (unsettled : node.partitions.status ≠ .normal) : ∃ last, node.Merging 1 last := by
  have moving : node.partitions.status = .moving := by
    cases status : node.partitions.status with
    | normal => exact absurd status unsettled
    | moving => rfl
    | frozen => simpa [idle] using lifecycle.writing.mp status
    | stopped => exact absurd status lifecycle.running
  obtain ⟨index, there⟩ := List.mem_iff_getElem?.mp (lifecycle.moving moving).2
  have due : ∃ milliseconds, .drain index ∈ (node.advance milliseconds).tasks := by
    rcases lifecycle.drains index there with task | ⟨timer, member, same⟩
    · exact ⟨0, List.mem_append_left _ task⟩
    · refine ⟨timer.due, List.mem_append_right _ ?_⟩
      rw [← same]
      exact List.mem_map_of_mem (List.mem_filter.mpr ⟨member, by simp⟩)
  obtain ⟨milliseconds, member⟩ := due
  obtain ⟨position, lined⟩ := List.mem_iff_getElem?.mp member
  obtain ⟨partition, found, _⟩ : ∃ partition, node.partitions.get? index = some partition ∧
      partition.phase = .moving := by
    rwa [PartitionSet.getElem?_phases, Option.map_eq_some_iff] at there
  have picks : ((node.advance milliseconds).partitions.get? index).map
      (·.batch (node.advance milliseconds).settings.drainBatch) =
      some (partition.batch node.settings.drainBatch) := congrArg (Option.map _) found
  exact ⟨_, .merge (.pass .start milliseconds) (.least lined picks)⟩

namespace Merging

variable {count more : Nat}

theorem trans (first : node.Merging count later) (second : later.Merging more last) :
    node.Merging (count + more) last := by
  induction second with
  | start => exact first
  | pass _ milliseconds ih => exact ih.pass milliseconds
  | merge _ merges ih => exact ih.merge merges

theorem reachable (run : node.Merging count later) (reachable : node.Reachable) :
    later.Reachable := by
  induction run with
  | start => exact reachable
  | pass _ milliseconds ih => exact ih.next (.advance milliseconds) rfl
  | merge _ merges ih => exact ih.next _ merges.happened

theorem settings (run : node.Merging count later) : later.settings = node.settings := by
  induction run with
  | start => rfl
  | pass _ _ ih => exact ih
  | merge _ merges ih => exact merges.settings.trans ih

theorem writing (run : node.Merging count later) : later.writing = node.writing := by
  induction run with
  | start => rfl
  | pass _ _ ih => exact ih
  | merge _ merges ih => exact merges.writing.trans ih

/-- Each merge of a run takes something from what there is to do. -/
theorem mergeWork_le (run : node.Merging count later) (reachable : node.Reachable)
    (idle : node.writing = none) (positive : 0 < node.settings.drainBatch) :
    count + later.mergeWork ≤ node.mergeWork := by
  induction run with
  | start => exact Nat.le_of_eq (Nat.zero_add _)
  | @pass count later run milliseconds ih =>
      have same : (later.advance milliseconds).mergeWork = later.mergeWork :=
        congrArg (later.partitions.unmerged + ·) (comingMerges_advance later milliseconds)
      omega
  | merge run merges ih =>
      have less := merges.mergeWork_lt (run.reachable reachable).lifecycle (run.writing.trans idle)
        (run.settings ▸ positive)
      omega

theorem status_normal (run : node.Merging count later) (normal : node.partitions.status = .normal) :
    later.partitions.status = .normal := by
  induction run with
  | start => exact normal
  | pass _ _ ih => exact ih
  | merge _ merges ih => exact merges.status_normal ih

end Merging

/-- Where batches have room for a key and no writer runs, merging comes to an end, whatever keys
are picked and however long a merge has to wait.  The number of merges is bounded from the
start; as long as the status is not normal, another one is to come; and once it is normal it
stays so, and the next snapshot can be begun. -/
theorem Reachable.merging_ends (reachable : node.Reachable) (idle : node.writing = none)
    (positive : 0 < node.settings.drainBatch) :
    (∀ count later, node.Merging count later → count ≤ node.mergeWork ∧
      (later.partitions.status ≠ .normal → ∃ last, later.Merging 1 last) ∧
      (later.partitions.status = .normal → later.beginSnapshot?.isSome ∧
        ∀ more last, later.Merging more last → last.partitions.status = .normal)) ∧
    ∃ count later, node.Merging count later ∧ later.partitions.status = .normal := by
  have further {count : Nat} {later : Node} (run : node.Merging count later)
      (unsettled : later.partitions.status ≠ .normal) : ∃ last, later.Merging 1 last :=
    (run.reachable reachable).lifecycle.can_merge (run.writing.trans idle) unsettled
  have bounded {count : Nat} {later : Node} (run : node.Merging count later) :
      count + later.mergeWork ≤ node.mergeWork := run.mergeWork_le reachable idle positive
  constructor
  · intro count later run
    refine ⟨Nat.le_of_add_right_le (bounded run), further run, ?_⟩
    intro normal
    exact ⟨by simp [beginSnapshot?, normal], fun _ _ more => more.status_normal normal⟩
  · -- A run that is as long as it can be has come to the end.
    by_contra endless
    have unsettled {count : Nat} {later : Node} (run : node.Merging count later) :
        later.partitions.status ≠ .normal := fun normal => endless ⟨count, later, run, normal⟩
    have longer (count : Nat) : ∃ later, node.Merging count later := by
      induction count with
      | zero => exact ⟨node, .start⟩
      | succ count ih =>
          obtain ⟨later, run⟩ := ih
          obtain ⟨last, more⟩ := further run (unsettled run)
          exact ⟨last, run.trans more⟩
    obtain ⟨later, run⟩ := longer (node.mergeWork + 1)
    have := bounded run
    omega

/-! ### Batches without keys -/

/-- With batches of no keys nothing is merged, so the status stays as it is, and no other
snapshot is begun. -/
theorem Merging.stuck {count index : Nat} {partition : Partition}
    (run : node.Merging count later) (empty : node.settings.drainBatch = 0)
    (status : node.partitions.status = .moving)
    (found : node.partitions.get? index = some partition) (moving : partition.phase = .moving)
    (unmerged : partition.shadow.isEmpty = false) :
    later.partitions.get? index = some partition ∧ later.partitions.status = .moving ∧
      later.beginSnapshot? = none := by
  suffices there : later.partitions.get? index = some partition ∧ later.partitions.status = .moving by
    exact ⟨there.1, there.2, by simp [beginSnapshot?, there.2]⟩
  induction run with
  | start => exact ⟨found, status⟩
  | pass _ _ ih => exact ih
  | @merge _ position other picked later last run merges ih =>
      obtain ⟨same, still⟩ := ih
      have after : last.partitions.get? index = some partition := by
        rw [merges.partitions, PartitionSet.get?_drain]
        split
        · next here =>
            have none : picked = [] := by
              have batch := merges.batch partition (here ▸ same)
              rw [run.settings, empty] at batch
              exact batch.eq_nil
            rw [same, Option.map_some, none, Partition.drain_nil unmerged]
        · exact same
      have member : Phase.moving ∈ last.partitions.phases := by
        rw [← moving]
        exact List.mem_map_of_mem (List.mem_of_getElem? after)
      refine ⟨after, ?_⟩
      rw [merges.partitions] at member ⊢
      rw [PartitionSet.status_drain, if_pos member, still, ite_self]

/-- Such merges go on for ever. -/
theorem Reachable.merging_stuck (reachable : node.Reachable) (idle : node.writing = none)
    (empty : node.settings.drainBatch = 0) (status : node.partitions.status = .moving)
    {index : Nat} {partition : Partition} (found : node.partitions.get? index = some partition)
    (moving : partition.phase = .moving) (unmerged : partition.shadow.isEmpty = false) (count : Nat) :
    (∃ later, node.Merging count later) ∧
      ∀ later, node.Merging count later →
        later.partitions.status = .moving ∧ later.beginSnapshot? = none := by
  have stays {count : Nat} {later : Node} (run : node.Merging count later) :=
    (run.stuck empty status found moving unmerged).2
  refine ⟨?_, fun later run => stays run⟩
  induction count with
  | zero => exact ⟨node, .start⟩
  | succ count ih =>
      obtain ⟨later, run⟩ := ih
      have unsettled : later.partitions.status ≠ .normal := by simp [(stays run).1]
      obtain ⟨last, more⟩ :=
        (run.reachable reachable).lifecycle.can_merge (run.writing.trans idle) unsettled
      exact ⟨last, run.trans more⟩

/-- A key was written while a snapshot was, and batches have no keys. -/
def stalled : Node :=
  { Node.new { databases := 1, drainBatch := 0 } {} { wall := 1000 } with port := 7000 }.run
    [.connected 1 "127.0.0.1:40001", .runs 1 ["BGSAVE"], .runs 1 ["SET", "a", "1"], .report,
      .report]

/-- The settings may say so, and then no snapshot is ever written again. -/
theorem stalled_stuck :
    Settings.load (fun _ => none) ["--databases", "1", "--drain-batch", "0"] =
        .ok { databases := 1, drainBatch := 0 } ∧
      stalled.Reachable ∧ stalled.writing.isNone ∧
      ∀ count, (∃ later, stalled.Merging count later) ∧
        ∀ later, stalled.Merging count later →
          later.partitions.status = .moving ∧ later.beginSnapshot? = none := by
  have reachable : stalled.Reachable :=
    (@Reachable.start { databases := 1, drainBatch := 0 } {} { wall := 1000 } (.ok none)
      { node := Node.new { databases := 1, drainBatch := 0 } {} { wall := 1000 } } 7000 rfl).run _
  have idle : stalled.writing.isNone := by decide +kernel
  have found : stalled.partitions.get? 0 =
      some { shadow := (∅ : Shadow).insert "a" (.present { datum := .text "1" }), phase := .moving,
             drift := 1 } := by decide +kernel
  exact ⟨by decide +kernel, reachable, idle, reachable.merging_stuck (Option.isNone_iff_eq_none.mp idle)
    rfl (by decide +kernel) found rfl (by decide +kernel)⟩

end Node
end ReplicaStore
