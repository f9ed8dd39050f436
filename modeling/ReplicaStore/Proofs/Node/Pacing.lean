import ReplicaStore.Proofs.Node.Chronicle
import ReplicaStore.Proofs.Node.Merging

/-!
# The pace of merging

A merge that comes back schedules the next one of its partition for the end of an interval.  So
in less than an interval a partition is merged no more often than merges of it are to come at
the start, and each time takes no more slots than a batch has (`Node.Spell.merges_le`).

Only a snapshot adds to the merges that are to come, and one for each partition.  A partition
has at most one of them as long as no snapshot is begun while one is still to come, and at most
one more for each snapshot that is (`Node.Hasty.mergesOf_le`).

Such snapshots are begun.  A save or a flush ends what there is to merge, but not the merge that
is scheduled; and a merge that comes back to a frozen partition schedules another, although
there is nothing that it could do (`Node.drain_frozen`, `Node.hurried_twice`).
-/

namespace ReplicaStore

/-- Whether a report is that a partition has been written. -/
def Report.writes (index : Nat) : Report → Bool
  | written other => other == index
  | aborted _ | finished _ => false

/-- A writer reports of a partition no more than once that it is written. -/
theorem Storage.countP_reports (storage : Storage) (views : List Keyspace) (now : Int)
    (index : Nat) : (storage.reports views now).countP (Report.writes index) ≤ 1 := by
  have written (indices : List Nat) :
      (indices.map Report.written).countP (Report.writes index) = indices.count index := by
    rw [List.countP_map]
    rfl
  have aborted (indices : List Nat) :
      (indices.map Report.aborted).countP (Report.writes index) = 0 := by
    rw [List.countP_map]
    exact List.countP_eq_zero.mpr (by simp [Report.writes])
  have once : (List.range views.length).count index ≤ 1 :=
    List.nodup_iff_count.mp List.nodup_range index
  rw [Storage.reports]
  cases storage.breaksAfter with
  | none => simpa [List.countP_append, written, Report.writes] using once
  | some count =>
      have early := (List.take_sublist count (List.range views.length)).count_le index
      simp only [List.countP_append, written, aborted, List.countP_singleton, Report.writes]
      simp only [Bool.false_eq_true, if_false]
      omega

namespace Partition

variable {partition : Partition} {count : Nat} {picked : List String}

/-- No more slots are taken than a batch has room for. -/
theorem size_shadow_drain_add (batch : partition.IsBatch count picked) :
    partition.shadow.size ≤ (partition.drain picked).shadow.size + count := by
  rw [drain]
  split
  · have merged := size_shadow_promoteAll batch.nodup batch.subset
    have length := batch.length
    rw [shadow_settleIfMerged]
    omega
  · omega

end Partition

namespace Node

variable {before between after node later last : Node} {index : Nat}

/-- The merges of a partition that are due, or will be at a moment in question. -/
def mergesDue (node : Node) (index : Nat) (soon : Nat → Bool) : Nat :=
  node.coming (· == .drain index) soon

/-- The merges of a partition that are to come at all. -/
def mergesOf (node : Node) (index : Nat) : Nat :=
  node.mergesDue index fun _ => true

/-- How often a writer is still to report that a partition has been written. -/
def writesDue (node : Node) (index : Nat) : Nat :=
  (node.writing.getD []).countP (Report.writes index)

theorem mergesDue_le_mergesOf (node : Node) (index : Nat) (soon : Nat → Bool) :
    node.mergesDue index soon ≤ node.mergesOf index := by
  refine Nat.add_le_add_left (List.countP_mono_left ?_) _
  intro timer _ counts
  rw [Bool.and_true]
  exact (Bool.and_eq_true_iff.mp counts).1

variable {soon : Nat → Bool}

theorem mergesDue_scheduleDrain (other : Nat) (past : ∀ due ≤ node.clock.elapsed, soon due = true) :
    (node.scheduleDrain other).mergesDue index soon = node.mergesDue index soon +
      if other = index ∧ soon (node.clock.elapsed + node.settings.drainInterval) then 1 else 0 := by
  rw [mergesDue, scheduleDrain, coming_setTimer _ past]
  simp [mergesDue]

theorem mergesDue_eraseIdx {position : Nat} {task : Task}
    (lined : node.tasks[position]? = some task) (index : Nat) (soon : Nat → Bool) :
    { node with tasks := node.tasks.eraseIdx position }.mergesDue index soon +
      (if task = .drain index then 1 else 0) = node.mergesDue index soon := by
  simpa [mergesDue] using @coming_eraseIdx node (· == .drain index) soon _ _ lined

/-! ### What leaves the merges alone -/

/-- No time has passed, no merge has come or gone, and a writer has been set going only where
there was none. -/
structure Timeless (before after : Node) : Prop where
  settings : after.settings = before.settings
  elapsed : after.clock.elapsed = before.clock.elapsed
  merges : ∀ index soon, after.mergesDue index soon = before.mergesDue index soon
  writing : after.writing = before.writing ∨ before.writing = none ∧
    ∃ (storage : Storage) (views : List Keyspace) (now : Int),
      after.writing = some (storage.reports views now)

namespace Timeless

theorem refl (node : Node) : node.Timeless node :=
  ⟨rfl, rfl, fun _ _ => rfl, .inl rfl⟩

theorem trans (first : before.Timeless between) (second : between.Timeless after) :
    before.Timeless after where
  settings := second.settings.trans first.settings
  elapsed := second.elapsed.trans first.elapsed
  merges index soon := (second.merges index soon).trans (first.merges index soon)
  writing := by
    rcases first.writing with same | ⟨idle, begun⟩
    · rw [← same]
      exact second.writing
    · rcases second.writing with same | ⟨_, begun⟩
      · rw [same]
        exact .inr ⟨idle, begun⟩
      · exact .inr ⟨idle, begun⟩

/-- Where nothing but the data, the clients and the replication have changed. -/
theorem of_eq (settings : after.settings = before.settings) (clock : after.clock = before.clock)
    (timers : after.timers = before.timers) (tasks : after.tasks = before.tasks)
    (writing : after.writing = before.writing) : before.Timeless after where
  settings := settings
  elapsed := congrArg Clock.elapsed clock
  merges index soon := by rw [mergesDue, mergesDue, coming, coming, timers, tasks]
  writing := .inl writing

theorem beginSnapshot (lifecycle : node.Lifecycle) (begun : node.beginSnapshot? = some later) :
    node.Timeless later := by
  obtain ⟨normal, rfl⟩ := beginSnapshot?_inv begun
  exact ⟨rfl, rfl, fun _ _ => rfl, .inr ⟨lifecycle.idle (by simp [normal]), _, _, _, rfl⟩⟩

theorem scheduleFullSync (lifecycle : node.Lifecycle) : node.Timeless node.scheduleFullSync := by
  rcases node.scheduleFullSync_cases with ⟨_, same⟩ | ⟨_, _, same⟩ | ⟨begun, begins, same⟩ <;> rw [same]
  · exact refl node
  · exact .of_eq rfl rfl rfl rfl rfl
  · exact (beginSnapshot lifecycle begins).trans (.of_eq rfl rfl rfl rfl rfl)

theorem synchronise (lifecycle : node.Lifecycle) (id : ClientId) (history : String)
    (offset : Int) : node.Timeless (Command.synchronise id history offset node) := by
  rcases synchronise_cases id history offset node with ⟨_, _, same⟩ | ⟨_, same⟩ <;> rw [same]
  · exact .of_eq rfl rfl rfl rfl rfl
  · have scheduled (coordinator : Stream.Coordinator) :=
      @scheduleFullSync { node with coordinator }
        (lifecycle.congr rfl rfl rfl fun _ drains => drains)
    have touched (coordinator : Stream.Coordinator) : node.Timeless { node with coordinator } :=
      .of_eq rfl rfl rfl rfl rfl
    exact (touched _).trans (scheduled _)

theorem deed (lifecycle : node.Lifecycle) (deed : Deed) : node.Timeless (deed.apply node) := by
  cases deed with
  | save =>
      rcases node.save_cases with ⟨_, same⟩ | ⟨_, _, _, same⟩ <;> rw [Deed.apply, same]
      · exact refl node
      · exact .of_eq rfl rfl rfl rfl rfl
  | beginSnapshot =>
      simp only [Deed.apply]
      cases begun : node.beginSnapshot? with
      | none => exact refl node
      | some later => exact beginSnapshot lifecycle begun
  | synchronise id history offset => exact synchronise lifecycle id history offset
  | promote =>
      simp only [Deed.apply, Command.promote]
      split <;> exact .of_eq rfl rfl rfl rfl rfl
  | edit | flush | publish | subscription | listeningPort | close | acknowledge | follow
  | answerLeader | feed => exact .of_eq rfl rfl rfl rfl rfl

theorem becomes (lifecycle : node.Lifecycle) (becomes : node.Becomes Deed.IsOrdinary later) :
    node.Timeless later := by
  -- The life cycle goes along: a snapshot is begun only where it says that there is no writer.
  have kept := @Becomes.keeps _ _ _ (fun later => later.Lifecycle ∧ node.Timeless later) becomes
    (fun deed _ ordinary ⟨lifecycle, timeless⟩ =>
      ⟨lifecycle.deed deed ordinary, timeless.trans (.deed lifecycle deed)⟩)
    ⟨lifecycle, .refl node⟩
  exact kept.2

theorem dispatch (context : Context) (lifecycle : context.node.Lifecycle)
    (arguments : List String) :
    context.node.Timeless (Command.dispatch context arguments).2.node :=
  becomes lifecycle (Command.dispatch_ordinary context arguments)

theorem serve (lifecycle : node.Lifecycle) (id : ClientId) (value : Wire.Value) :
    node.Timeless (node.serve id value) := by
  have issued (client : Client) : node.Timeless (node.issued id client).node :=
    .of_eq rfl rfl rfl rfl rfl
  have cycle (client : Client) : (node.issued id client).node.Lifecycle :=
    lifecycle.congr rfl rfl rfl fun _ drains => drains
  rcases node.serve_cases id value with
    ⟨_, same⟩ | ⟨client, _, ⟨_, _, same⟩ | ⟨arguments, _, _, same⟩⟩ <;> rw [same]
  · exact refl node
  · exact .of_eq rfl rfl rfl rfl rfl
  · have ran := dispatch (node.issued id client) (cycle client) arguments
    exact ((issued client).trans ran).trans (.of_eq rfl rfl rfl rfl rfl)

theorem maintain (node : Node) : node.Timeless node.maintain := by
  simp only [Node.maintain]
  split
  · refine ⟨rfl, rfl, fun index soon => ?_, .inl rfl⟩
    simp [mergesDue, coming, List.countP_append]
  · exact .of_eq rfl rfl rfl rfl rfl

theorem takeLinkEvent (lifecycle : node.Lifecycle) (event : Link.LinkEvent) :
    node.Timeless (node.takeLinkEvent event) := by
  cases event with
  | state | heartbeat | failed => exact .of_eq rfl rfl rfl rfl rfl
  | fullSync id offset payload =>
      simp only [Node.takeLinkEvent, applyFullSync]
      split
      · exact .of_eq rfl rfl rfl rfl rfl
      · next commands _ =>
          have emptied : node.Timeless { node with
              partitions := node.partitions.flush
              coordinator := node.coordinator.changeBacklog fun backlog =>
                backlog.deactivate.reset offset } := .of_eq rfl rfl rfl rfl rfl
          have cycle : { node with
              partitions := node.partitions.flush
              coordinator := node.coordinator.changeBacklog fun backlog =>
                backlog.deactivate.reset offset }.Lifecycle := lifecycle.flush rfl rfl
          have loaded := becomes cycle (Command.load_ordinary commands _)
          exact (emptied.trans loaded).trans (.of_eq rfl rfl rfl rfl rfl)
  | continued id =>
      rcases node.continueStream_cases id with ⟨_, same⟩ | ⟨_, _, _, same⟩ <;>
        rw [Node.takeLinkEvent, same] <;> exact .of_eq rfl rfl rfl rfl rfl
  | command arguments raw =>
      have listening : node.Timeless node.listening.node := .of_eq rfl rfl rfl rfl rfl
      have cycle : node.listening.node.Lifecycle :=
        lifecycle.congr rfl rfl rfl fun _ drains => drains
      rcases node.follow_cases arguments raw with ⟨_, same⟩ | ⟨_, same⟩ <;>
        rw [Node.takeLinkEvent, same]
      · have heard := dispatch node.listening cycle arguments
        exact (listening.trans heard).trans (.of_eq rfl rfl rfl rfl rfl)
      · exact listening

end Timeless

/-! ### What happens to the merges -/

/-- The partition that is merged when something happens, if one is. -/
def mergedBy (node : Node) : Happening → Option Nat
  | .task position _ =>
      match node.tasks[position]? with
      | some (.drain index) => some index
      | _ => none
  | _ => none

/-- Whether a snapshot is begun from one node to the next. -/
def begins (before after : Node) : Bool :=
  before.writing.isNone && after.writing.isSome

/-- Some partitions have changed, and a merge of one may have been planned. -/
def Plans (node : Node) (other : Nat) (later : Node) : Prop :=
  ∃ partitions, later = { node with partitions } ∨
    later = { node with partitions }.scheduleDrain other

namespace Plans

variable {other : Nat}

theorem drain (node : Node) (other : Nat) (picked : List String) :
    node.Plans other (node.drain other picked) := by
  rw [Node.drain]
  refine ⟨node.partitions.drain other picked, ?_⟩
  split
  · exact .inr rfl
  · exact .inl rfl

theorem partitionWritten (node : Node) (other : Nat) :
    node.Plans other (node.partitionWritten other) := by
  rw [Node.partitionWritten]
  refine ⟨node.partitions.written other, ?_⟩
  split
  · exact .inr rfl
  · exact .inl rfl

theorem settings (plans : node.Plans other later) : later.settings = node.settings := by
  obtain ⟨partitions, rfl | rfl⟩ := plans
  · rfl
  · obtain ⟨_, _, same⟩ := scheduleDrain_eq { node with partitions } other
    rw [same]

theorem elapsed (plans : node.Plans other later) : later.clock.elapsed = node.clock.elapsed := by
  obtain ⟨partitions, rfl | rfl⟩ := plans
  · rfl
  · rw [clock_scheduleDrain]

theorem writing (plans : node.Plans other later) : later.writing = node.writing := by
  obtain ⟨partitions, rfl | rfl⟩ := plans
  · rfl
  · rw [writing_scheduleDrain]

/-- What is planned comes at the end of an interval. -/
theorem mergesDue (plans : node.Plans other later)
    (past : ∀ due ≤ node.clock.elapsed, soon due = true)
    (late : soon (node.clock.elapsed + node.settings.drainInterval) = false) :
    later.mergesDue index soon = node.mergesDue index soon := by
  obtain ⟨partitions, rfl | rfl⟩ := plans
  · rfl
  · have planned := @mergesDue_scheduleDrain { node with partitions } index soon other past
    rw [planned, if_neg (by simp [late])]
    rfl

theorem mergesOf_le (plans : node.Plans other later) (index : Nat) :
    later.mergesOf index ≤ node.mergesOf index + if other = index then 1 else 0 := by
  obtain ⟨partitions, rfl | rfl⟩ := plans
  · exact Nat.le_add_right _ _
  · have planned := @mergesDue_scheduleDrain { node with partitions } index (fun _ => true) other
      fun _ _ => rfl
    simp only [and_true] at planned
    exact Nat.le_of_eq planned

end Plans

/-- What one step does to the merges of a partition that are to come. -/
structure Paces (node : Node) (index : Nat) (happening : Happening) (later : Node) : Prop where
  settings : later.settings = node.settings
  elapsed : node.clock.elapsed ≤ later.clock.elapsed
  /-- Up to the end of an interval there are none but those that there were. -/
  merges : ∀ soon : Nat → Bool, (∀ due ≤ later.clock.elapsed, soon due = true) →
    soon (node.clock.elapsed + node.settings.drainInterval) = false →
    later.mergesDue index soon + (if node.mergedBy happening = some index then 1 else 0) =
      node.mergesDue index soon
  /-- One that is planned takes the place of another one or of a report. -/
  planned : later.mergesOf index + later.writesDue index ≤
    node.mergesOf index + node.writesDue index + if node.begins later then 1 else 0

variable {happening : Happening}

theorem Timeless.paces (timeless : node.Timeless later)
    (none : node.mergedBy happening = none) : node.Paces index happening later where
  settings := timeless.settings
  elapsed := Nat.le_of_eq timeless.elapsed.symm
  merges soon _ _ := by rw [none, if_neg (by simp), timeless.merges, Nat.add_zero]
  planned := by
    have merges : later.mergesOf index = node.mergesOf index := timeless.merges index _
    rcases timeless.writing with same | ⟨idle, storage, views, now, begun⟩
    · rw [merges, writesDue, same, ← writesDue]
      exact Nat.le_add_right _ _
    · have once := storage.countP_reports views now index
      simp only [merges, writesDue, begins, idle, begun, Option.getD_some, Option.getD_none,
        List.countP_nil, Option.isNone_none, Option.isSome_some, Bool.and_self, if_true]
      omega

/-- A merge takes its own place if it plans the next one. -/
theorem paces_drain {position other : Nat} (lined : node.tasks[position]? = some (.drain other))
    (picked : List String) (index : Nat) : node.Paces index (.task position picked)
      ({ node with tasks := node.tasks.eraseIdx position }.drain other picked) := by
  have taken := mergesDue_eraseIdx lined index
  simp only [Task.drain.injEq] at taken
  have merged : node.mergedBy (.task position picked) = some other := by simp [mergedBy, lined]
  have plans := Plans.drain { node with tasks := node.tasks.eraseIdx position } other picked
  refine ⟨plans.settings, Nat.le_of_eq plans.elapsed.symm, fun soon past late => ?_, ?_⟩
  · rw [plans.elapsed] at past
    rw [plans.mergesDue past late, merged, ← taken soon]
    simp
  · have most := plans.mergesOf_le index
    have all : _ = node.mergesOf index := taken fun _ => true
    rw [← mergesOf] at all
    rw [writesDue, plans.writing, ← all]
    exact Nat.le_trans (Nat.add_le_add_right most _) (Nat.le_add_right _ _)

/-- The report that a partition has been written gives way to a merge. -/
theorem paces_report (happened : node.next? .report = some later) (index : Nat) :
    node.Paces index .report later := by
  obtain ⟨report, reports, writing, storage, running, rfl, left⟩ := next?_report happened
  have spoken : node.writesDue index =
      reports.countP (Report.writes index) + if report.writes index then 1 else 0 := by
    rw [writesDue, running, Option.getD_some, List.countP_cons]
  have fewer : (writing.getD []).countP (Report.writes index) ≤ node.writesDue index := by
    rcases left with ⟨_, rfl⟩ | rfl
    · exact Nat.zero_le _
    · exact Nat.le_of_add_right_le (Nat.le_of_eq spoken.symm)
  cases report with
  | written other =>
      obtain ⟨⟨_, ⟨⟩⟩, _⟩ | rfl := left
      have plans := Plans.partitionWritten { node with writing := some reports, storage } other
      refine ⟨plans.settings, Nat.le_of_eq plans.elapsed.symm, fun soon past late => ?_, ?_⟩
      · rw [takeReport, plans.elapsed] at past
        rw [takeReport, plans.mergesDue past late]
        rfl
      · -- The merge that is planned makes up for the report that is taken.
        have most := plans.mergesOf_le index
        simp only [Report.writes, beq_iff_eq] at spoken
        rw [takeReport, writesDue, plans.writing, spoken]
        dsimp only [Option.getD_some]
        change _ ≤ node.mergesOf index + _ at most
        omega
  | aborted other =>
      refine ⟨rfl, Nat.le_refl _, fun _ _ _ => rfl, ?_⟩
      exact Nat.le_trans (Nat.add_le_add_left fewer _) (Nat.le_add_right _ _)
  | finished result =>
      cases result with
      | ok payload =>
          refine ⟨rfl, Nat.le_refl _, fun _ _ _ => rfl, ?_⟩
          exact Nat.le_trans (Nat.add_le_add_left fewer _) (Nat.le_add_right _ _)
      | error error =>
          refine ⟨rfl, Nat.le_refl _, fun _ _ _ => rfl, ?_⟩
          exact Nat.le_trans (Nat.add_le_add_left fewer _) (Nat.le_add_right _ _)

/-- Only the merge of a partition and the report that it is written plan one, and only a merge
takes one away. -/
theorem next_paces (lifecycle : node.Lifecycle) (happened : node.next? happening = some later)
    (index : Nat) : node.Paces index happening later := by
  cases happening with
  | command id value =>
      cases happened
      exact (Timeless.serve lifecycle id value).paces rfl
  | upkeep =>
      cases happened
      exact (Timeless.maintain node).paces rfl
  | link epoch event =>
      cases happened
      simp only [handle]
      split
      · exact (Timeless.takeLinkEvent lifecycle event).paces rfl
      · exact (Timeless.refl node).paces rfl
  | task position picked =>
      simp only [next?, Option.map_eq_some_iff] at happened
      obtain ⟨task, lined, rfl⟩ := happened
      cases task with
      | beginSnapshot =>
          have erased : node.Timeless { node with tasks := node.tasks.eraseIdx position } :=
            ⟨rfl, rfl, fun index soon => by simpa using mergesDue_eraseIdx lined index soon,
              .inl rfl⟩
          have none : node.mergedBy (.task position picked) = none := by
            rw [mergedBy, lined]
          simp only [Task.event, handle]
          split
          · exact (erased.trans (.scheduleFullSync (lifecycle.eraseIdx lined))).paces none
          · exact erased.paces none
      | drain other => exact paces_drain lined picked index
  | report => exact paces_report happened index
  | advance milliseconds =>
      cases happened
      refine ⟨rfl, Nat.le_add_right _ _, fun soon past _ => coming_advance past, ?_⟩
      have same : (node.advance milliseconds).mergesOf index = node.mergesOf index :=
        coming_advance fun _ _ => rfl
      rw [same]
      exact Nat.le_add_right _ _
  | connected | disconnected | setWall | setStorage | refuse | hangUp | deliver
  | deliverToLeader =>
      cases happened
      exact @Timeless.paces node _ _ _ ⟨rfl, rfl, fun _ _ => rfl, .inl rfl⟩ rfl

/-! ### Less than an interval -/

/-- The slots of a partition that are not merged yet. -/
def unmergedOf (node : Node) (index : Nat) : Nat :=
  ((node.partitions.get? index).map (·.shadow.size)).getD 0

/-- Whatever happens, with the number of merges of a partition among it and the number of slots
that they take. -/
inductive Spell (node : Node) (index : Nat) : Nat → Nat → Node → Prop
  | start : Spell node index 0 0 node
  | other {merges slots : Nat} {later last : Node} {happening : Happening}
      (spell : Spell node index merges slots later) (happened : later.next? happening = some last)
      (apart : later.mergedBy happening ≠ some index) : Spell node index merges slots last
  | merge {merges slots position : Nat} {picked : List String} {later last : Node}
      (spell : Spell node index merges slots later)
      (merge : later.MergeAt position index picked last) :
      Spell node index (merges + 1) (slots + (later.unmergedOf index - last.unmergedOf index)) last

/-- A merge takes no more slots than a batch has. -/
theorem MergeAt.unmergedOf_le {position : Nat} {picked : List String}
    (merge : node.MergeAt position index picked later) :
    node.unmergedOf index ≤ later.unmergedOf index + node.settings.drainBatch := by
  rw [unmergedOf, unmergedOf, merge.partitions, PartitionSet.get?_drain, if_pos rfl]
  cases found : node.partitions.get? index with
  | none => exact Nat.zero_le _
  | some partition => exact Partition.size_shadow_drain_add (merge.batch partition found)

namespace Spell

variable {merges slots : Nat}

theorem reachable (spell : node.Spell index merges slots later) (reachable : node.Reachable) :
    later.Reachable := by
  induction spell with
  | start => exact reachable
  | other _ happened _ ih => exact ih.next _ happened
  | merge _ merge ih => exact ih.next _ merge.happened

theorem frame (spell : node.Spell index merges slots later) (reachable : node.Reachable) :
    later.settings = node.settings ∧ node.clock.elapsed ≤ later.clock.elapsed := by
  induction spell with
  | start => exact ⟨rfl, Nat.le_refl _⟩
  | other spell happened _ ih =>
      have paces := next_paces (spell.reachable reachable).lifecycle happened index
      exact ⟨paces.settings.trans ih.1, Nat.le_trans ih.2 paces.elapsed⟩
  | merge spell merge ih =>
      have paces := next_paces (spell.reachable reachable).lifecycle merge.happened index
      exact ⟨paces.settings.trans ih.1, Nat.le_trans ih.2 paces.elapsed⟩

/-- Of the merges that come back before an interval is over, one is taken away whenever the
partition is merged, and none is added. -/
theorem mergesDue (spell : node.Spell index merges slots later) (reachable : node.Reachable)
    (happened : later.next? happening = some last)
    (short : last.clock.elapsed < node.clock.elapsed + node.settings.drainInterval) :
    last.mergesDue index (· < node.clock.elapsed + node.settings.drainInterval) +
        (if later.mergedBy happening = some index then 1 else 0) =
      later.mergesDue index (· < node.clock.elapsed + node.settings.drainInterval) := by
  obtain ⟨settings, elapsed⟩ := spell.frame reachable
  have paces := next_paces (spell.reachable reachable).lifecycle happened index
  apply paces.merges
  · intro due past
    exact decide_eq_true (Nat.lt_of_le_of_lt past short)
  · rw [settings, decide_eq_false_iff_not]
    omega

/-- In less than an interval no merge comes back that was not to come at the start. -/
theorem merges_le (spell : node.Spell index merges slots later) (reachable : node.Reachable)
    (short : later.clock.elapsed < node.clock.elapsed + node.settings.drainInterval) :
    merges ≤ node.mergesOf index ∧ slots ≤ merges * node.settings.drainBatch := by
  suffices counted :
      merges + later.mergesDue index (· < node.clock.elapsed + node.settings.drainInterval) ≤
        node.mergesDue index (· < node.clock.elapsed + node.settings.drainInterval) ∧
      slots ≤ merges * node.settings.drainBatch by
    have most := node.mergesDue_le_mergesOf index
      (· < node.clock.elapsed + node.settings.drainInterval)
    exact ⟨by omega, counted.2⟩
  induction spell with
  | start => exact ⟨Nat.le_of_eq (Nat.zero_add _), Nat.zero_le _⟩
  | other spell happened apart ih =>
      have step := spell.mergesDue reachable happened short
      have paces := next_paces (spell.reachable reachable).lifecycle happened index
      rw [if_neg apart, Nat.add_zero] at step
      rw [step]
      exact ih (Nat.lt_of_le_of_lt paces.elapsed short)
  | @merge merges slots position picked later last spell merge ih =>
      have step := spell.mergesDue reachable merge.happened short
      have paces := next_paces (spell.reachable reachable).lifecycle merge.happened index
      obtain ⟨counted, taken⟩ := ih (Nat.lt_of_le_of_lt paces.elapsed short)
      have merged : later.mergedBy (.task position picked) = some index := by
        simp [mergedBy, merge.lined]
      have batch := merge.unmergedOf_le
      rw [if_pos merged] at step
      rw [(spell.frame reachable).1] at batch
      refine ⟨by omega, ?_⟩
      rw [Nat.add_mul, Nat.one_mul]
      omega

end Spell

/-! ### Snapshots that are begun too early -/

/-- A node that has been started, and to which anything has happened since, with the number of
snapshots that were begun while a merge of a partition was still to come. -/
inductive Hasty (index : Nat) : Nat → Node → Prop
  | start {settings : Settings} {supply : Stream.IdSupply} {clock : Clock}
      {found : Except Snapshot.SnapshotError (Option Bytes)} {server : Server} (port : Nat)
      (started : Server.start settings supply clock found = .ok server) :
      Hasty index 0 { server.node with port }
  | next {count : Nat} {node later : Node} {happening : Happening} (hasty : Hasty index count node)
      (happened : node.next? happening = some later) :
      Hasty index (count + if node.begins later && 0 < node.mergesOf index then 1 else 0) later

theorem Hasty.reachable {count : Nat} (hasty : Hasty index count node) : node.Reachable := by
  induction hasty with
  | start port started => exact .start port started
  | next _ happened ih => exact ih.next _ happened

theorem Reachable.hasty (reachable : node.Reachable) (index : Nat) :
    ∃ count, Hasty index count node := by
  induction reachable with
  | start port started => exact ⟨0, .start port started⟩
  | next _ _ happened ih =>
      obtain ⟨count, hasty⟩ := ih
      exact ⟨_, hasty.next happened⟩

namespace Hasty

variable {count : Nat}

/-- A partition has no more than one merge to come, and one more for each snapshot that was begun
too early. -/
theorem mergesOf_le (hasty : Hasty index count node) :
    node.mergesOf index + node.writesDue index ≤ count + 1 := by
  induction hasty with
  | start port started =>
      obtain ⟨partitions, storage, role, _, same⟩ := start_new started
      rw [same]
      exact Nat.zero_le _
  | @next count node later happening hasty happened ih =>
      have planned := (next_paces hasty.reachable.lifecycle happened index).planned
      cases begins : node.begins later with
      | false =>
          rw [begins] at planned
          simpa using Nat.le_trans planned ih
      | true =>
          -- Where a snapshot is begun, no writer has anything left to report.
          have silent : node.writesDue index = 0 := by
            have idle := Option.isNone_iff_eq_none.mp (Bool.and_eq_true_iff.mp begins).1
            rw [writesDue, idle]
            rfl
          rw [begins, if_pos rfl] at planned
          simp only [Bool.true_and, decide_eq_true_eq]
          split <;> omega

/-- In less than an interval a partition is merged no more than once, and once more for each
snapshot that was begun too early, and no merge takes more slots than a batch has. -/
theorem throttled {merges slots : Nat} (hasty : Hasty index count node)
    (spell : node.Spell index merges slots later)
    (short : later.clock.elapsed < node.clock.elapsed + node.settings.drainInterval) :
    merges ≤ count + 1 ∧ slots ≤ (count + 1) * node.settings.drainBatch := by
  obtain ⟨merged, taken⟩ := spell.merges_le hasty.reachable short
  have most := hasty.mergesOf_le
  have fewer : merges ≤ count + 1 := by omega
  exact ⟨fewer, Nat.le_trans taken (Nat.mul_le_mul_right _ fewer)⟩

end Hasty

/-- A merge that comes back to a frozen partition plans another one, and that is all it does. -/
theorem drain_frozen {partition : Partition}
    (found : node.partitions.get? index = some partition) (frozen : partition.phase = .frozen)
    (picked : List String) : node.drain index picked = node.scheduleDrain index := by
  have still : partition.drain picked = partition := by
    rw [Partition.drain, if_neg (by simp [frozen])]
  have same : node.partitions.modify index (·.drain picked) = node.partitions :=
    (PartitionSet.modify_congr found still).trans (PartitionSet.modify_id ..)
  have left : node.partitions.drain index picked = node.partitions := by
    rw [PartitionSet.drain, same]
    simp [PartitionSet.inPhase, found, frozen]
  rw [Node.drain, left]
  simp [PartitionSet.unsettled, found, frozen]

/-- A merge was planned, a save did its work, and the next snapshot was begun before the merge came
back.  It came back before that snapshot had been written. -/
def hurried : Node :=
  { Node.new { databases := 1, drainBatch := 1 } {} { wall := 1000 } with port := 7000 }.run
    [.connected 1 "127.0.0.1:40001", .runs 1 ["BGSAVE"], .runs 1 ["SET", "a", "1"], .report,
      .report, .runs 1 ["SAVE"], .runs 1 ["BGSAVE"], .runs 1 ["SET", "b", "1"],
      .runs 1 ["SET", "c", "1"], .runs 1 ["SET", "d", "1"], .advance 101, .task 0 [], .report,
      .report, .advance 101]

/-- Two merges of the one partition are due then.  They take two slots at the same moment, although
a batch is one. -/
theorem hurried_twice :
    hurried.Reachable ∧ hurried.settings.drainBatch = 1 ∧ hurried.mergesOf 0 = 2 ∧
      ∃ later, hurried.Spell 0 2 2 later ∧ later.clock = hurried.clock := by
  have reachable : hurried.Reachable :=
    (@Reachable.start { databases := 1, drainBatch := 1 } {} { wall := 1000 } (.ok none)
      { node := Node.new { databases := 1, drainBatch := 1 } {} { wall := 1000 } } 7000 rfl).run _
  have first : hurried.MergeAt 0 0 ["b"] (hurried.run [.task 0 ["b"]]) :=
    .least (by decide +kernel) (by decide +kernel)
  have second : (hurried.run [.task 0 ["b"]]).MergeAt 0 0 ["c"]
      ((hurried.run [.task 0 ["b"]]).run [.task 0 ["c"]]) :=
    .least (by decide +kernel) (by decide +kernel)
  exact ⟨reachable, rfl, by decide +kernel, _, (Spell.start.merge first).merge second,
    by decide +kernel⟩

end Node
end ReplicaStore
