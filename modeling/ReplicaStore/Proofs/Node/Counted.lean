import ReplicaStore.Proofs.Command.Blind
import ReplicaStore.Proofs.Node.Sound

/-!
# How many keys there are

The databases of every reachable node count their keys rightly, whatever their phases are.
Commands change a database by operations that keep the count, and so do the reports of a
snapshot writer and the merging after it.
-/

namespace ReplicaStore

namespace PartitionSet

variable {set : PartitionSet}

theorem Counted.new (count : Nat) : (PartitionSet.new count).Counted := by
  intro partition member
  rw [List.eq_of_mem_replicate member]
  exact .new

theorem Counted.map (counted : set.Counted) {change : Partition → Partition}
    (kept : ∀ partition : Partition, partition.Counted → (change partition).Counted)
    (status : Phase) : Counted { partitions := set.partitions.map change, status } := by
  intro partition member
  obtain ⟨earlier, among, rfl⟩ := List.mem_map.mp member
  exact kept earlier (counted earlier among)

theorem Counted.modify (counted : set.Counted) (index : Nat) {change : Partition → Partition}
    (kept : ∀ partition : Partition, partition.Counted → (change partition).Counted) :
    (set.modify index change).Counted :=
  forall_modify counted fun partition found =>
    kept partition (counted partition (List.mem_of_getElem? found))

theorem Counted.freeze (counted : set.Counted) : set.freeze.Counted :=
  counted.map (fun _ counted => counted.perform .freeze) .frozen

theorem Counted.saved (counted : set.Counted) : set.stop.resume.Counted := by
  have stopped : set.stop.Counted := by
    apply counted.map _ .stopped
    intro partition counted
    split
    · exact (counted.perform .mergeAll).perform .stop
    · exact counted.perform .stop
  exact stopped.map (fun _ counted => counted.perform .mergeAll) .normal

theorem Counted.written (counted : set.Counted) (index : Nat) : (set.written index).Counted :=
  counted.modify index fun _ counted => counted.finishWrite

theorem Counted.aborted (counted : set.Counted) (index : Nat) : (set.aborted index).Counted := by
  apply counted.modify index
  intro partition counted
  split
  · exact counted.perform .mergeAll
  · exact counted

theorem Counted.drain (counted : set.Counted) (index : Nat) (picked : List String) :
    (set.drain index picked).Counted := by
  have drained : (set.modify index (·.drain picked)).Counted :=
    counted.modify index fun _ counted => counted.drain picked
  simp only [PartitionSet.drain]
  split
  · exact drained
  · exact drained

end PartitionSet

namespace Node

variable {node later : Node}

/-- The count of keys is right in every database. -/
def Counted (node : Node) : Prop :=
  node.partitions.Counted

theorem save_counted (counted : node.Counted) : node.save.2.Counted := by
  rcases node.save_cases with ⟨_, same⟩ | ⟨_, _, _, same⟩ <;> rw [same]
  · exact counted
  · exact PartitionSet.Counted.saved counted

theorem beginSnapshot_counted (counted : node.Counted) (begun : node.beginSnapshot? = some later) :
    later.Counted := by
  obtain ⟨_, rfl⟩ := beginSnapshot?_inv begun
  exact PartitionSet.Counted.freeze counted

theorem scheduleFullSync_counted (counted : node.Counted) : node.scheduleFullSync.Counted := by
  rcases node.scheduleFullSync_cases with ⟨_, same⟩ | ⟨_, _, same⟩ | ⟨begun, begins, same⟩ <;> rw [same]
  · exact counted
  · exact counted
  · have counted := beginSnapshot_counted counted begins
    exact counted

end Node

namespace Deed

/-- Whatever a command is made of, keys are counted rightly. -/
theorem counted_apply (deed : Deed) {node : Node} (counted : node.Counted) :
    (deed.apply node).Counted := by
  cases deed with
  | edit index operation =>
      exact PartitionSet.Counted.modify counted index fun _ counted => counted.perform operation
  | flush => exact .flush node.partitions
  | save => exact Node.save_counted counted
  | beginSnapshot =>
      simp only [apply]
      cases begun : node.beginSnapshot? with
      | none => exact counted
      | some later => exact Node.beginSnapshot_counted counted begun
  | synchronise id history offset =>
      rcases Node.synchronise_cases id history offset node with ⟨_, _, same⟩ | ⟨_, same⟩ <;>
        rw [apply, same]
      · exact counted
      · exact Node.scheduleFullSync_counted counted
  | promote =>
      simp only [apply, Command.promote]
      split <;> exact counted
  | publish | subscription | listeningPort | close | acknowledge | follow | answerLeader | feed =>
      exact counted

end Deed

namespace Node

variable {allowed : Deed → Prop} {node later : Node}

theorem Becomes.counted (becomes : node.Becomes allowed later) (counted : node.Counted) :
    later.Counted :=
  becomes.keeps (fun deed _ _ counted => deed.counted_apply counted) counted

theorem serve_counted (counted : node.Counted) (id : ClientId) (value : Wire.Value) :
    (node.serve id value).Counted := by
  rcases node.serve_cases id value with
    ⟨_, same⟩ | ⟨client, _, ⟨_, _, same⟩ | ⟨arguments, _, _, same⟩⟩ <;> rw [same]
  · exact counted
  · exact counted
  · have ran := (Command.dispatch_ordinary (node.issued id client) arguments).counted counted
    exact ran

theorem takeLinkEvent_counted (counted : node.Counted) (event : Link.LinkEvent) :
    (node.takeLinkEvent event).Counted := by
  cases event with
  | fullSync id offset payload =>
      simp only [takeLinkEvent, applyFullSync]
      split
      · exact counted
      · exact (Command.load_ordinary _ _).counted (.flush node.partitions)
  | continued id =>
      rcases node.continueStream_cases id with ⟨_, same⟩ | ⟨_, _, _, same⟩ <;> rw [takeLinkEvent, same]
      · exact counted
      · exact counted
  | command arguments raw =>
      rcases node.follow_cases arguments raw with ⟨_, same⟩ | ⟨_, same⟩ <;> rw [takeLinkEvent, same]
      · have ran := (Command.dispatch_ordinary node.listening arguments).counted counted
        exact ran
      · exact counted
  | state | heartbeat | failed => exact counted

theorem takeReport_counted (counted : node.Counted) (report : Report) :
    (node.takeReport report).Counted := by
  cases report with
  | written index =>
      obtain ⟨_, _, same⟩ := node.partitionWritten_eq index
      rw [takeReport, same]
      exact PartitionSet.Counted.written counted index
  | aborted index => exact PartitionSet.Counted.aborted counted index
  | finished result => cases result <;> exact counted

theorem drain_counted (counted : node.Counted) (index : Nat) (picked : List String) :
    (node.drain index picked).Counted := by
  obtain ⟨_, _, same⟩ := node.drain_eq index picked
  rw [same]
  exact PartitionSet.Counted.drain counted index picked

/-- Whatever happens to a node, its keys are counted rightly. -/
theorem next_counted {happening : Happening} (counted : node.Counted)
    (happened : node.next? happening = some later) : later.Counted := by
  cases happening with
  | command id value =>
      cases happened
      exact serve_counted counted id value
  | upkeep =>
      cases happened
      rw [handle, Counted, partitions_maintain]
      exact counted
  | link epoch event =>
      cases happened
      simp only [handle]
      split
      · exact takeLinkEvent_counted counted event
      · exact counted
  | task position picked =>
      simp only [next?, Option.map_eq_some_iff] at happened
      obtain ⟨task, _, rfl⟩ := happened
      cases task with
      | beginSnapshot =>
          simp only [Task.event, handle]
          split
          · exact @scheduleFullSync_counted { node with tasks := node.tasks.eraseIdx position } counted
          · exact counted
      | drain index =>
          exact @drain_counted { node with tasks := node.tasks.eraseIdx position } counted index picked
  | report =>
      obtain ⟨report, _, writing, storage, _, rfl, _⟩ := next?_report happened
      exact @takeReport_counted { node with writing, storage } counted report
  | connected | disconnected | advance | setWall | setStorage | refuse | hangUp | deliver
  | deliverToLeader =>
      cases happened
      exact counted

/-- The keys of every reachable node are counted rightly. -/
theorem Reachable.counted (reachable : node.Reachable) : node.Counted := by
  induction reachable with
  | start port started =>
      obtain ⟨loaded, made, role⟩ := Server.start_inv started
      have counted : loaded.Counted := by
        rcases made with rfl | ⟨bytes, commands, _, rfl⟩
        · exact .new _
        · exact (Command.load_ordinary commands _).counted (.new _)
      rcases role with same | ⟨host, port, same⟩
      · rw [same]
        exact counted
      · rw [same]
        exact counted
  | next happening _ happened ih => exact next_counted ih happened

end Node
end ReplicaStore
