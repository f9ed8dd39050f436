import ReplicaStore.Proofs.Command.Running
import ReplicaStore.Proofs.Node.Run
import ReplicaStore.Proofs.Node.Steps
import ReplicaStore.Proofs.Partition.Phases

/-!
# The life cycle of snapshots

Four things go together in every node: the phases of its partitions, the status over
them, the writer that runs in the background, and the merges that are still to come.
`Node.Lifecycle` says how, and every step of a node keeps it: it holds at the start,
each kind of deed and each event keeps it, and so it holds in every reachable node.
-/

namespace ReplicaStore

namespace Node

/-- Whether a merge of a partition is still to come. -/
def Drains (node : Node) (index : Nat) : Prop :=
  .drain index ∈ node.tasks ∨ ∃ timer ∈ node.timers, timer.task = .drain index

theorem mem_insertTimer {timer other : Timer} (timers : List Timer) :
    other ∈ insertTimer timer timers ↔ other = timer ∨ other ∈ timers := by
  induction timers with
  | nil => simp [insertTimer]
  | cons first rest ih =>
      simp only [insertTimer]
      split
      · simp only [List.mem_cons, ih]
        exact or_left_comm
      · simp

theorem drains_setTimer (node : Node) (timer : Timer) (index : Nat) :
    (node.setTimer timer).Drains index ↔ node.Drains index ∨ timer.task = .drain index := by
  simp only [setTimer, Drains]
  split
  · simp only [List.mem_append, List.mem_singleton, eq_comm (a := Task.drain index)]
    exact or_right_comm
  · simp only [mem_insertTimer, exists_eq_or_imp, or_assoc, or_comm (a := timer.task = _)]

theorem drains_scheduleDrain (node : Node) (index other : Nat) :
    (node.scheduleDrain index).Drains other ↔ node.Drains other ∨ index = other := by
  simp [scheduleDrain, drains_setTimer]

@[simp] theorem partitions_scheduleDrain (node : Node) (index : Nat) :
    (node.scheduleDrain index).partitions = node.partitions := by
  obtain ⟨_, _, same⟩ := node.scheduleDrain_eq index
  rw [same]

@[simp] theorem writing_scheduleDrain (node : Node) (index : Nat) :
    (node.scheduleDrain index).writing = node.writing := by
  obtain ⟨_, _, same⟩ := node.scheduleDrain_eq index
  rw [same]

@[simp] theorem clock_scheduleDrain (node : Node) (index : Nat) :
    (node.scheduleDrain index).clock = node.clock := by
  obtain ⟨_, _, same⟩ := node.scheduleDrain_eq index
  rw [same]

/-- Time that passes turns timers into tasks. -/
theorem drains_advance (node : Node) (milliseconds index : Nat) (drains : node.Drains index) :
    (node.advance milliseconds).Drains index := by
  rcases drains with task | ⟨timer, member, same⟩
  · exact .inl (List.mem_append_left _ task)
  · by_cases due : timer.due ≤ node.clock.elapsed + milliseconds
    · apply Or.inl
      apply List.mem_append_right
      rw [← same]
      exact List.mem_map_of_mem (List.mem_filter.mpr ⟨member, by simpa using due⟩)
    · refine .inr ⟨timer, List.mem_filter.mpr ⟨member, ?_⟩, same⟩
      simpa using due

/-- A task that comes back takes no other with it. -/
theorem drains_eraseIdx {node : Node} {position : Nat} {task : Task}
    (found : node.tasks[position]? = some task) {index : Nat} (other : .drain index ≠ task)
    (drains : node.Drains index) :
    { node with tasks := node.tasks.eraseIdx position }.Drains index := by
  rcases drains with member | timer
  · refine .inl ?_
    obtain ⟨place, there⟩ := List.mem_iff_getElem?.mp member
    have apart : place ≠ position := by
      rintro rfl
      exact other (Option.some.inj (there.symm.trans found))
    exact List.mem_eraseIdx_iff_getElem?.mpr ⟨place, apart, there⟩
  · exact .inr timer

/-- Reports that end with the only one of a finished snapshot. -/
def EndsOnce (reports : List Report) : Prop :=
  ∃ progress result, reports = progress ++ [.finished result] ∧
    ∀ report ∈ progress, ∀ result, report ≠ .finished result

theorem endsOnce_reports (storage : Storage) (views : List Keyspace) (now : Int) :
    EndsOnce (storage.reports views now) := by
  simp only [Storage.reports]
  cases storage.breaksAfter with
  | none => exact ⟨_, _, rfl, by simp⟩
  | some count =>
      refine ⟨_, _, rfl, ?_⟩
      intro report member result
      rcases List.mem_append.mp member with written | aborted
      · obtain ⟨index, _, rfl⟩ := List.mem_map.mp written
        simp
      · obtain ⟨index, _, rfl⟩ := List.mem_map.mp aborted
        simp

/-- A writer speaks of every partition that it is given. -/
theorem mem_reports {storage : Storage} {views : List Keyspace} {now : Int} {index : Nat}
    (inside : index < views.length) :
    .written index ∈ storage.reports views now ∨ .aborted index ∈ storage.reports views now := by
  have member : index ∈ List.range views.length := List.mem_range.mpr inside
  simp only [Storage.reports]
  cases storage.breaksAfter with
  | none => exact .inl (List.mem_append_left _ (List.mem_map_of_mem member))
  | some count =>
      rw [← List.take_append_drop count (List.range views.length)] at member
      rcases List.mem_append.mp member with early | late
      · have written : Report.written index ∈ ((List.range views.length).take count).map .written :=
          List.mem_map_of_mem early
        exact .inl (List.mem_append_left _ (List.mem_append_left _ written))
      · have aborted : Report.aborted index ∈ ((List.range views.length).drop count).map .aborted :=
          List.mem_map_of_mem late
        exact .inr (List.mem_append_left _ (List.mem_append_right _ aborted))

/-- How phases, status, writer and merges go together. -/
structure Lifecycle (node : Node) : Prop where
  /-- The status is frozen as long as there is a writer. -/
  writing : node.partitions.status = .frozen ↔ node.writing.isSome
  ends : ∀ reports, node.writing = some reports → EndsOnce reports
  /-- The writer has yet to speak of every partition that is frozen. -/
  awaited : ∀ reports, node.writing = some reports → ∀ index,
    node.partitions.phases[index]? = some .frozen →
      .written index ∈ reports ∨ .aborted index ∈ reports
  running : node.partitions.status ≠ .stopped
  unstopped : ∀ phase ∈ node.partitions.phases, phase ≠ .stopped
  normal : node.partitions.status = .normal → ∀ phase ∈ node.partitions.phases, phase = .normal
  moving : node.partitions.status = .moving →
    (∀ phase ∈ node.partitions.phases, phase = .normal ∨ phase = .moving) ∧
    .moving ∈ node.partitions.phases
  drains : ∀ index, node.partitions.phases[index]? = some .moving → node.Drains index

namespace Lifecycle

variable {node later : Node}

/-- Nothing but these parts of a node matters, and more merges to come do no harm. -/
theorem congr (lifecycle : node.Lifecycle) (status : later.partitions.status = node.partitions.status)
    (phases : later.partitions.phases = node.partitions.phases)
    (writing : later.writing = node.writing)
    (drains : ∀ index, node.Drains index → later.Drains index) : later.Lifecycle := by
  constructor
  · rw [status, writing]
    exact lifecycle.writing
  · rw [writing]
    exact lifecycle.ends
  · rw [writing, phases]
    exact lifecycle.awaited
  · rw [status]
    exact lifecycle.running
  · rw [phases]
    exact lifecycle.unstopped
  · rw [status, phases]
    exact lifecycle.normal
  · rw [status, phases]
    exact lifecycle.moving
  · rw [phases]
    exact fun index moving => drains index (lifecycle.drains index moving)

/-- A node all of whose partitions are normal and that has no writer. -/
theorem of_normal (status : node.partitions.status = .normal)
    (phases : ∀ phase ∈ node.partitions.phases, phase = .normal) (idle : node.writing = none) :
    node.Lifecycle where
  writing := by simp [status, idle]
  ends := by simp [idle]
  awaited := by simp [idle]
  running := by simp [status]
  unstopped := by
    intro phase member
    simp [phases phase member]
  normal := fun _ => phases
  moving := by simp [status]
  drains := by
    intro index moving
    have normal := phases _ (List.mem_of_getElem? moving)
    cases normal

theorem idle (lifecycle : node.Lifecycle) (status : node.partitions.status ≠ .frozen) :
    node.writing = none := by
  have noWriter : ¬node.writing.isSome := fun some => status (lifecycle.writing.mpr some)
  simpa using noWriter

/-! ### Deeds -/

theorem beginSnapshot (begun : node.beginSnapshot? = some later) : later.Lifecycle := by
  obtain ⟨_, rfl⟩ := beginSnapshot?_inv begun
  constructor
  · simp [PartitionSet.freeze]
  · intro reports same
    cases same
    exact endsOnce_reports ..
  · intro reports same index frozen
    cases same
    apply mem_reports
    have inside := (List.getElem?_eq_some_iff.mp frozen).1
    simpa [PartitionSet.phases, PartitionSet.views] using inside
  · simp [PartitionSet.freeze]
  · intro phase member
    simp [PartitionSet.phases_freeze _ phase member]
  · simp [PartitionSet.freeze]
  · simp [PartitionSet.freeze]
  · intro index moving
    have frozen := PartitionSet.phases_freeze _ _ (List.mem_of_getElem? moving)
    cases frozen

theorem save (lifecycle : node.Lifecycle) : node.save.2.Lifecycle := by
  rcases node.save_cases with ⟨_, same⟩ | ⟨status, _, _, same⟩ <;> rw [same]
  · exact lifecycle
  · apply of_normal
    · rfl
    · exact PartitionSet.phases_resume _
    · exact lifecycle.idle (by rcases status with normal | moving <;> simp [*])

theorem flush (lifecycle : node.Lifecycle) (partitions : later.partitions = node.partitions.flush)
    (writing : later.writing = node.writing) : later.Lifecycle := by
  have normal : ∀ phase ∈ later.partitions.phases, phase = .normal := by
    rw [partitions]
    exact PartitionSet.phases_flush _
  by_cases frozen : node.partitions.status = .frozen
  · have status : later.partitions.status = .frozen := by
      rw [partitions]
      simp [PartitionSet.flush, frozen]
    constructor
    · rw [status, writing, ← lifecycle.writing]
      simp [frozen]
    · rw [writing]
      exact lifecycle.ends
    · intro reports _ index frozen
      cases normal _ (List.mem_of_getElem? frozen)
    · simp [status]
    · intro phase member
      simp [normal phase member]
    · simp [status]
    · simp [status]
    · intro index moving
      cases normal _ (List.mem_of_getElem? moving)
  · apply of_normal
    · rw [partitions]
      simp [PartitionSet.flush, frozen]
    · exact normal
    · rw [writing]
      exact lifecycle.idle frozen

theorem scheduleFullSync (lifecycle : node.Lifecycle) : node.scheduleFullSync.Lifecycle := by
  rcases node.scheduleFullSync_cases with ⟨_, same⟩ | ⟨_, _, same⟩ | ⟨begun, begins, same⟩ <;> rw [same]
  · exact lifecycle
  · exact lifecycle.congr rfl rfl rfl fun _ drains => drains
  · exact (beginSnapshot begins).congr rfl rfl rfl fun _ drains => drains

theorem synchronise (lifecycle : node.Lifecycle) (id : ClientId) (history : String)
    (offset : Int) : (Command.synchronise id history offset node).Lifecycle := by
  rcases synchronise_cases id history offset node with ⟨_, _, same⟩ | ⟨_, same⟩ <;> rw [same]
  · exact lifecycle.congr rfl rfl rfl fun _ drains => drains
  · apply scheduleFullSync
    exact lifecycle.congr rfl rfl rfl fun _ drains => drains

/-- Every deed of a command keeps the life cycle. -/
theorem deed (lifecycle : node.Lifecycle) (deed : Deed) (ordinary : deed.IsOrdinary) :
    (deed.apply node).Lifecycle := by
  cases deed with
  | edit index operation =>
      have phases : (node.partitions.modify index fun partition =>
          (partition.perform operation).2).phases = node.partitions.phases :=
        PartitionSet.phases_modify (Partition.phase_perform ordinary) _ index
      exact lifecycle.congr rfl phases rfl fun _ drains => drains
  | flush => exact lifecycle.flush rfl rfl
  | save => exact lifecycle.save
  | beginSnapshot =>
      simp only [Deed.apply]
      cases begun : node.beginSnapshot? with
      | none => exact lifecycle
      | some later => exact beginSnapshot begun
  | synchronise id history offset => exact lifecycle.synchronise id history offset
  | promote =>
      simp only [Deed.apply, Command.promote]
      split
      · exact lifecycle.congr rfl rfl rfl fun _ drains => drains
      · exact lifecycle
  | publish | subscription | listeningPort | close | acknowledge | follow | answerLeader | feed =>
      exact lifecycle.congr rfl rfl rfl fun _ drains => drains

theorem becomes (lifecycle : node.Lifecycle) (becomes : node.Becomes Deed.IsOrdinary later) :
    later.Lifecycle :=
  becomes.keeps (fun deed _ ordinary lifecycle => lifecycle.deed deed ordinary) lifecycle

theorem dispatch (context : Context) (lifecycle : context.node.Lifecycle)
    (arguments : List String) : (Command.dispatch context arguments).2.node.Lifecycle :=
  lifecycle.becomes (Command.dispatch_ordinary context arguments)

/-! ### Events -/

theorem serve (lifecycle : node.Lifecycle) (id : ClientId) (value : Wire.Value) :
    (node.serve id value).Lifecycle := by
  have issued (client : Client) : (node.issued id client).node.Lifecycle :=
    lifecycle.congr rfl rfl rfl fun _ drains => drains
  rcases node.serve_cases id value with
    ⟨_, same⟩ | ⟨client, _, ⟨_, _, same⟩ | ⟨arguments, _, _, same⟩⟩ <;> rw [same]
  · exact lifecycle
  · exact lifecycle.congr rfl rfl rfl fun _ drains => drains
  · have ran := dispatch (node.issued id client) (issued client) arguments
    exact ran.congr rfl rfl rfl fun _ drains => drains

theorem maintain (lifecycle : node.Lifecycle) : node.maintain.Lifecycle := by
  simp only [Node.maintain]
  split
  · refine lifecycle.congr rfl rfl rfl ?_
    rintro index (task | timer)
    · exact .inl (List.mem_append_left _ task)
    · exact .inr timer
  · exact lifecycle.congr rfl rfl rfl fun _ drains => drains

theorem applyFullSync (lifecycle : node.Lifecycle) (id : String) (offset : Int)
    (payload : Bytes) : (node.applyFullSync id offset payload).Lifecycle := by
  simp only [Node.applyFullSync]
  split
  · exact lifecycle.congr rfl rfl rfl fun _ drains => drains
  · next commands _ =>
      have emptied : { node with
          partitions := node.partitions.flush
          coordinator := node.coordinator.changeBacklog fun backlog =>
            backlog.deactivate.reset offset }.Lifecycle := lifecycle.flush rfl rfl
      have loaded := emptied.becomes (Command.load_ordinary commands _)
      exact loaded.congr rfl rfl rfl fun _ drains => drains

theorem continueStream (lifecycle : node.Lifecycle) (id : Option String) :
    (node.continueStream id).Lifecycle := by
  rcases node.continueStream_cases id with ⟨_, same⟩ | ⟨_, _, _, same⟩ <;> rw [same]
  · exact lifecycle.congr rfl rfl rfl fun _ drains => drains
  · exact lifecycle.congr rfl rfl rfl fun _ drains => drains

theorem follow (lifecycle : node.Lifecycle) (arguments : List String) (raw : Bytes) :
    (node.follow arguments raw).Lifecycle := by
  have listening : node.listening.node.Lifecycle :=
    lifecycle.congr rfl rfl rfl fun _ drains => drains
  rcases node.follow_cases arguments raw with ⟨_, same⟩ | ⟨_, same⟩ <;> rw [same]
  · have ran := dispatch node.listening listening arguments
    exact ran.congr rfl rfl rfl fun _ drains => drains
  · exact listening

theorem takeLinkEvent (lifecycle : node.Lifecycle) (event : Link.LinkEvent) :
    (node.takeLinkEvent event).Lifecycle := by
  cases event with
  | fullSync id offset payload => exact lifecycle.applyFullSync id offset payload
  | continued id => exact lifecycle.continueStream id
  | command arguments raw => exact lifecycle.follow arguments raw
  | state | heartbeat | failed => exact lifecycle.congr rfl rfl rfl fun _ drains => drains

/-- A node that differs by a merge, if it plans the next one. -/
theorem of_drain (lifecycle : node.Lifecycle) {index : Nat} {picked : List String}
    (partitions : later.partitions = node.partitions.drain index picked)
    (writing : later.writing = node.writing)
    (drains : ∀ other, later.partitions.phases[other]? = some .moving → later.Drains other) :
    later.Lifecycle := by
  have changed (other : Nat) := node.partitions.getElem?_phases_drain index other picked
  have status := node.partitions.status_drain index picked
  rw [← partitions] at changed status
  have unchanged {other : Nat} {phase : Phase} (notNormal : phase ≠ .normal)
      (found : later.partitions.phases[other]? = some phase) :
      node.partitions.phases[other]? = some phase := by
    rcases changed other with same | ⟨_, _, normal⟩
    · rw [← same, found]
    · rw [found] at normal
      cases normal
      exact absurd rfl notNormal
  have members : ∀ phase ∈ later.partitions.phases,
      phase = .normal ∨ phase ∈ node.partitions.phases := by
    intro phase member
    by_cases normal : phase = .normal
    · exact .inl normal
    · obtain ⟨other, found⟩ := List.mem_iff_getElem?.mp member
      exact .inr (List.mem_of_getElem? (unchanged normal found))
  constructor
  · rw [writing, ← lifecycle.writing, status]
    split
    · next last =>
        rw [last.1]
        split <;> simp
    · exact Iff.rfl
  · rw [writing]
    exact lifecycle.ends
  · rw [writing]
    intro reports running other frozen
    exact lifecycle.awaited reports running other (unchanged (by simp) frozen)
  · rw [status]
    split
    · split <;> simp
    · exact lifecycle.running
  · intro phase member
    rcases members phase member with normal | before
    · simp [normal]
    · exact lifecycle.unstopped phase before
  · intro normal phase member
    rcases members phase member with same | before
    · exact same
    · rw [status] at normal
      split at normal
      · next last =>
          rcases (lifecycle.moving last.1).1 phase before with settled | moving
          · exact settled
          · rw [if_pos (moving ▸ member)] at normal
            cases normal
      · exact lifecycle.normal normal phase before
  · intro moving
    have before : node.partitions.status = .moving := by
      rw [status] at moving
      split at moving
      · next last => exact last.1
      · exact moving
    obtain ⟨all, some⟩ := lifecycle.moving before
    constructor
    · intro phase member
      rcases members phase member with normal | member
      · exact .inl normal
      · exact all phase member
    · obtain ⟨other, found⟩ := List.mem_iff_getElem?.mp some
      rcases changed other with same | ⟨rfl, _, last⟩
      · exact List.mem_of_getElem? (same.trans found)
      · rw [status, if_pos ⟨before, last⟩] at moving
        split at moving
        · next member => exact member
        · cases moving
  · exact drains

/-- A merge that comes back is not planned any more.  Either it was the last one of its
partition, or it plans the next. -/
theorem drain {index : Nat} (lifecycle : node.Lifecycle) (rest : Node)
    (partitions : rest.partitions = node.partitions) (writing : rest.writing = node.writing)
    (others : ∀ other, index ≠ other → node.Drains other → rest.Drains other)
    (picked : List String) : (rest.drain index picked).Lifecycle := by
  have before {other : Nat}
      (moving : (node.partitions.drain index picked).phases[other]? = some .moving) :
      node.Drains other := by
    rcases node.partitions.getElem?_phases_drain index other picked with same | ⟨_, _, normal⟩
    · exact lifecycle.drains other (same.symm.trans moving)
    · rw [moving] at normal
      cases normal
  simp only [Node.drain, partitions]
  split
  · refine lifecycle.of_drain (partitions_scheduleDrain ..)
      ((writing_scheduleDrain ..).trans writing) ?_
    intro other moving
    rw [partitions_scheduleDrain] at moving
    rw [drains_scheduleDrain]
    by_cases here : index = other
    · exact .inr here
    · exact .inl (others other here (before moving))
  · next settled =>
      refine @of_drain _ { rest with partitions := _ } lifecycle index picked rfl writing ?_
      intro other moving
      by_cases here : index = other
      · subst here
        exact absurd (PartitionSet.unsettled_of_moving moving) settled
      · exact others other here (before moving)

theorem ends_tail {report : Report} {reports : List Report} (ends : EndsOnce (report :: reports))
    (progress : ∀ result, report ≠ .finished result) : EndsOnce reports := by
  obtain ⟨before, result, same, unfinished⟩ := ends
  cases before with
  | nil =>
      cases same
      exact absurd rfl (progress result)
  | cons first before =>
      cases same
      exact ⟨before, result, rfl, fun report member => unfinished report (List.mem_cons_of_mem _ member)⟩

/-- The writer has spoken of a partition, which is not frozen any more, and goes on. -/
theorem of_progress {report : Report} {reports : List Report} {index : Nat}
    (lifecycle : node.Lifecycle) (running : node.writing = some (report :: reports))
    (about : report = .written index ∨ report = .aborted index)
    (status : later.partitions.status = node.partitions.status)
    (phases : ∀ other, later.partitions.phases[other]? = node.partitions.phases[other]? ∧
      (index = other → node.partitions.phases[other]? ≠ some .frozen) ∨
      index = other ∧ (later.partitions.phases[other]? = some .normal ∨
        later.partitions.phases[other]? = some .moving))
    (writing : later.writing = some reports)
    (drains : ∀ other, node.Drains other ∨
      index = other ∧ later.partitions.phases[other]? = some .moving → later.Drains other) :
    later.Lifecycle := by
  have progress : ∀ result, report ≠ .finished result := by
    rintro result rfl
    rcases about with same | same <;> cases same
  have frozen : later.partitions.status = .frozen := by
    rw [status, lifecycle.writing, running]
    rfl
  constructor
  · simp [frozen, writing]
  · intro left same
    rw [writing] at same
    cases same
    exact ends_tail (lifecycle.ends _ running) progress
  · intro left same other stillFrozen
    rw [writing] at same
    cases same
    rcases phases other with ⟨unchanged, apart⟩ | ⟨_, normal | moving⟩
    · rw [unchanged] at stillFrozen
      have elsewhere : index ≠ other := fun here => apart here stillFrozen
      rcases lifecycle.awaited _ running other stillFrozen with member | member
      · rcases List.mem_cons.mp member with same | member
        · subst same
          rcases about with same | same <;> cases same
          exact absurd rfl elsewhere
        · exact .inl member
      · rcases List.mem_cons.mp member with same | member
        · subst same
          rcases about with same | same <;> cases same
          exact absurd rfl elsewhere
        · exact .inr member
    · rw [stillFrozen] at normal
      cases normal
    · rw [stillFrozen] at moving
      cases moving
  · simp [frozen]
  · intro phase member
    obtain ⟨other, found⟩ := List.mem_iff_getElem?.mp member
    rcases phases other with ⟨unchanged, _⟩ | ⟨_, normal | moving⟩
    · exact lifecycle.unstopped phase (List.mem_of_getElem? (unchanged.symm.trans found))
    · rw [found] at normal
      cases normal
      simp
    · rw [found] at moving
      cases moving
      simp
  · simp [frozen]
  · simp [frozen]
  · intro other moving
    apply drains
    rcases phases other with ⟨unchanged, _⟩ | ⟨here, _⟩
    · exact .inl (lifecycle.drains other (unchanged.symm.trans moving))
    · exact .inr ⟨here, moving⟩

theorem partitionWritten {reports : List Report} {index : Nat} (lifecycle : node.Lifecycle)
    (running : node.writing = some (.written index :: reports)) :
    ({ node with writing := some reports }.partitionWritten index).Lifecycle := by
  have phases (other : Nat) := node.partitions.getElem?_phases_written index other
  simp only [Node.partitionWritten]
  split
  · refine lifecycle.of_progress running (.inl rfl) ?_ ?_ ?_ ?_
    · rw [partitions_scheduleDrain]
      rfl
    · rw [partitions_scheduleDrain]
      exact phases
    · rw [writing_scheduleDrain]
    · intro other
      rw [drains_scheduleDrain]
      rintro (drains | ⟨here, _⟩)
      · exact .inl drains
      · exact .inr here
  · next settled =>
      refine lifecycle.of_progress running (.inl rfl) rfl phases rfl ?_
      rintro other (drains | ⟨rfl, moving⟩)
      · exact drains
      · exact absurd ((PartitionSet.inPhase_eq ..).mpr moving) settled

theorem partitionAborted {reports : List Report} {index : Nat} (lifecycle : node.Lifecycle)
    (running : node.writing = some (.aborted index :: reports)) :
    { node with
      writing := some reports
      partitions := node.partitions.aborted index }.Lifecycle := by
  have aborted (other : Nat) := node.partitions.getElem?_phases_aborted index other
  refine lifecycle.of_progress running (.inr rfl) rfl ?_ rfl ?_
  · intro other
    rcases aborted other with same | ⟨here, normal⟩
    · exact .inl same
    · exact .inr ⟨here, .inl normal⟩
  · rintro other (drains | ⟨rfl, moving⟩)
    · exact drains
    · rcases aborted index with ⟨same, _⟩ | ⟨_, normal⟩
      · exact lifecycle.drains index (same.symm.trans moving)
      · exact absurd (normal.symm.trans moving) (by simp)

/-- The last report leaves no partition frozen. -/
theorem settle {result : Except Snapshot.SnapshotError Bytes} {reports : List Report}
    (lifecycle : node.Lifecycle) (running : node.writing = some (.finished result :: reports))
    (partitions : later.partitions = node.partitions.settle) (writing : later.writing = none)
    (drains : ∀ index, node.Drains index → later.Drains index) : later.Lifecycle := by
  have last : reports = [] := by
    obtain ⟨before, _, same, unfinished⟩ := lifecycle.ends _ running
    cases before with
    | nil =>
        cases same
        rfl
    | cons first before =>
        cases same
        exact absurd rfl (unfinished _ (List.mem_cons_self ..) result)
  have phases : later.partitions.phases = node.partitions.phases := by
    rw [partitions]
    rfl
  have settled : ∀ phase ∈ later.partitions.phases, phase = .normal ∨ phase = .moving := by
    rw [phases]
    intro phase member
    cases phase with
    | normal => exact .inl rfl
    | moving => exact .inr rfl
    | stopped => exact absurd rfl (lifecycle.unstopped _ member)
    | frozen =>
        obtain ⟨index, found⟩ := List.mem_iff_getElem?.mp member
        have awaited := lifecycle.awaited _ running index found
        simp [last] at awaited
  have status : later.partitions.status =
      if Phase.moving ∈ later.partitions.phases then .moving else .normal := by
    rw [phases, partitions, PartitionSet.status_settle]
  constructor
  · rw [writing, status]
    split <;> simp
  · simp [writing]
  · simp [writing]
  · rw [status]
    split <;> simp
  · intro phase member
    rcases settled phase member with same | same <;> simp [same]
  · intro normal phase member
    rcases settled phase member with same | moving
    · exact same
    · rw [status, if_pos (moving ▸ member)] at normal
      cases normal
  · intro moving
    refine ⟨settled, ?_⟩
    rw [status] at moving
    split at moving
    · next member => exact member
    · cases moving
  · rw [phases]
    exact fun index moving => drains index (lifecycle.drains index moving)

/-- A snapshot that is to be begun for replicas is no merge. -/
theorem eraseIdx {position : Nat} (lifecycle : node.Lifecycle)
    (found : node.tasks[position]? = some .beginSnapshot) :
    { node with tasks := node.tasks.eraseIdx position }.Lifecycle :=
  lifecycle.congr rfl rfl rfl fun _ => drains_eraseIdx found (by simp)

/-- Whatever happens to a node keeps the life cycle. -/
theorem next {happening : Happening} (lifecycle : node.Lifecycle)
    (happened : node.next? happening = some later) : later.Lifecycle := by
  cases happening with
  | command id value =>
      cases happened
      exact lifecycle.serve id value
  | upkeep =>
      cases happened
      exact lifecycle.maintain
  | link epoch event =>
      cases happened
      simp only [Node.handle]
      split
      · exact lifecycle.takeLinkEvent event
      · exact lifecycle
  | task position picked =>
      simp only [Node.next?, Option.map_eq_some_iff] at happened
      obtain ⟨task, found, rfl⟩ := happened
      cases task with
      | beginSnapshot =>
          have rest := lifecycle.eraseIdx found
          simp only [Task.event, Node.handle]
          split
          · exact rest.scheduleFullSync
          · exact rest
      | drain index =>
          refine lifecycle.drain { node with tasks := node.tasks.eraseIdx position } rfl rfl ?_ picked
          intro other apart
          exact drains_eraseIdx found (by simpa using Ne.symm apart)
  | report =>
      simp only [Node.next?, Node.stepWriter?] at happened
      cases running : node.writing with
      | none => simp [running] at happened
      | some reports =>
          cases reports with
          | nil => simp [running] at happened
          | cons report reports =>
              simp only [running, Option.map_some, Option.some.injEq] at happened
              subst happened
              cases report with
              | written index => exact lifecycle.partitionWritten running
              | aborted index => exact lifecycle.partitionAborted running
              | finished result =>
                  cases result with
                  | ok payload => exact lifecycle.settle running rfl rfl fun _ drains => drains
                  | error error => exact lifecycle.settle running rfl rfl fun _ drains => drains
  | advance milliseconds =>
      cases happened
      exact lifecycle.congr rfl rfl rfl fun index => drains_advance node milliseconds index
  | connected | disconnected | setWall | setStorage | refuse | hangUp | deliver
  | deliverToLeader =>
      cases happened
      exact lifecycle.congr rfl rfl rfl fun _ drains => drains

end Lifecycle

theorem lifecycle_new (settings : Settings) (supply : Stream.IdSupply) (clock : Clock) :
    (Node.new settings supply clock).Lifecycle := by
  apply Lifecycle.of_normal
  · rfl
  · simp [PartitionSet.phases, Node.new, PartitionSet.new]
  · rfl

theorem lifecycle_start {settings : Settings} {supply : Stream.IdSupply} {clock : Clock}
    {found : Except Snapshot.SnapshotError (Option Bytes)} {server : Server}
    (started : Server.start settings supply clock found = .ok server) :
    server.node.Lifecycle := by
  obtain ⟨loaded, made, role⟩ := Server.start_inv started
  have lifecycle : loaded.Lifecycle := by
    have new {storage : Storage} : { Node.new settings supply clock with storage }.Lifecycle :=
      (lifecycle_new settings supply clock).congr rfl rfl rfl fun _ drains => drains
    rcases made with rfl | ⟨bytes, commands, _, rfl⟩
    · exact new
    · exact new.becomes (Command.load_ordinary commands _)
  rcases role with same | ⟨host, port, same⟩
  · rw [same]
    exact lifecycle
  · rw [same]
    exact lifecycle.congr rfl rfl rfl fun _ drains => drains

theorem Reachable.lifecycle {node : Node} (reachable : node.Reachable) : node.Lifecycle := by
  induction reachable with
  | start port started =>
      exact (lifecycle_start started).congr rfl rfl rfl fun _ drains => drains
  | next happening _ happened ih => exact ih.next happened

/-- In every reachable node the status is frozen as long as a background writer has not
been heard to its end, and no other can be begun meanwhile.  Nothing is stopped.  A normal
status covers normal partitions only, a moving one such as are normal or moving, one of
them at least moving.  For every moving partition a merge is to come. -/
theorem Reachable.snapshot_cycle {node : Node} (reachable : node.Reachable) :
    (node.partitions.status = .frozen ↔ node.writing.isSome) ∧
    (node.writing.isSome → node.beginSnapshot? = none) ∧
    node.partitions.status ≠ .stopped ∧
    (∀ partition ∈ node.partitions.partitions, partition.phase ≠ .stopped) ∧
    (node.partitions.status = .normal →
      ∀ partition ∈ node.partitions.partitions, partition.phase = .normal) ∧
    (node.partitions.status = .moving →
      (∀ partition ∈ node.partitions.partitions,
        partition.phase = .normal ∨ partition.phase = .moving) ∧
      ∃ partition ∈ node.partitions.partitions, partition.phase = .moving) ∧
    ∀ index partition, node.partitions.get? index = some partition →
      partition.phase = .moving → node.Drains index := by
  have lifecycle := reachable.lifecycle
  have phase_mem {partition : Partition} (member : partition ∈ node.partitions.partitions) :
      partition.phase ∈ node.partitions.phases := List.mem_map_of_mem member
  refine ⟨lifecycle.writing, ?_, lifecycle.running, ?_, ?_, ?_, ?_⟩
  · intro running
    have frozen := lifecycle.writing.mpr running
    simp [beginSnapshot?, frozen]
  · intro partition member
    exact lifecycle.unstopped _ (phase_mem member)
  · intro normal partition member
    exact lifecycle.normal normal _ (phase_mem member)
  · intro moving
    obtain ⟨all, some⟩ := lifecycle.moving moving
    constructor
    · intro partition member
      exact all _ (phase_mem member)
    · exact List.mem_map.mp some
  · intro index partition found moving
    apply lifecycle.drains
    rw [PartitionSet.getElem?_phases, found, Option.map_some, moving]

/-- A key is written while a snapshot is, which leaves something to merge. -/
theorem snapshot_cycle_with_write :
    ∃ node : Node, node.Reachable ∧ node.partitions.status = .frozen ∧ node.writing.isSome ∧
      node.beginSnapshot? = none ∧
      ∃ partition, node.partitions.get? 0 = some partition ∧ partition.phase = .moving ∧
        node.Drains 0 := by
  have start := @Reachable.start { databases := 2 } {} { wall := 0 } (.ok none)
    { node := { Node.new { databases := 2 } {} { wall := 0 } with storage := {} } } 7000 rfl
  have connected := start.next (.connected 1 "127.0.0.1:40000") rfl
  have begun := connected.next (.command 1 (.command ["BGSAVE"])) rfl
  have stored := begun.next (.command 1 (.command ["SET", "a", "1"])) rfl
  have written := stored.next .report rfl
  have cycle := Reachable.snapshot_cycle written
  refine ⟨_, written, rfl, cycle.1.mp rfl, cycle.2.1 (cycle.1.mp rfl), _, rfl, rfl, ?_⟩
  exact cycle.2.2.2.2.2.2 0 _ rfl rfl

end Node
end ReplicaStore
