import ReplicaStore.Proofs.Command.Loading
import ReplicaStore.Proofs.Node.Lifecycle

/-!
# Sound databases

The databases of every reachable node are sound: nothing is left behind in a normal phase,
and a snapshot can carry all that clients see.  Commands that write are uniform and keep
this for that reason; all else that happens to a database at most reaps keys, or changes
the phase and leaves what clients see as it is (`PartitionSet.Retains`).
-/

namespace ReplicaStore

namespace Partition

variable {partition : Partition}

/-- A change of the phase that clients do not see. -/
structure Retains (before after : Partition) : Prop where
  settled : after.Settled
  visible : after.visible = before.visible

namespace Retains

theorem refl (sound : partition.Sound) : partition.Retains partition :=
  ⟨sound.settled, rfl⟩

theorem freeze (partition : Partition) : partition.Retains partition.freeze :=
  ⟨.of_phase_ne (by simp [Partition.freeze]), visible_congr rfl rfl⟩

theorem mergeAll (partition : Partition) : partition.Retains partition.mergeAll :=
  ⟨.mergeAll partition, visible_mergeAll partition⟩

theorem finishWrite (sound : partition.Sound) : partition.Retains partition.finishWrite :=
  ⟨sound.settled.finishWrite, visible_finishWrite partition⟩

theorem drain (sound : partition.Sound) (picked : List String) :
    partition.Retains (partition.drain picked) :=
  ⟨sound.settled.drain picked, visible_drain partition picked⟩

theorem abort (sound : partition.Sound) :
    partition.Retains (if partition.phase = .frozen then partition.mergeAll else partition) := by
  split
  · exact .mergeAll partition
  · exact .refl sound

/-- Stopping merges first what is still to be merged. -/
theorem stop (partition : Partition) :
    partition.Retains
      (if partition.phase = .moving then partition.mergeAll else partition).stop := by
  refine ⟨.of_phase_ne (by simp [Partition.stop]), ?_⟩
  split
  · exact (visible_congr rfl rfl).trans (visible_mergeAll partition)
  · exact visible_congr rfl rfl

end Retains
end Partition

namespace PartitionSet

/-- The databases are sound, and clients see of each what they saw before. -/
structure Retains (before after : PartitionSet) : Prop where
  sound : after.Sound
  live : ∀ now, after.live now = before.live now

namespace Retains

variable {before between after set : PartitionSet}

theorem refl (sound : set.Sound) : set.Retains set :=
  ⟨sound, fun _ => rfl⟩

theorem trans (first : before.Retains between) (second : between.Retains after) :
    before.Retains after :=
  ⟨second.sound, fun now => (second.live now).trans (first.live now)⟩

theorem count (retains : before.Retains after) : after.count = before.count := by
  rw [← count_live after 0, retains.live 0, count_live]

theorem map (sound : set.Sound) {change : Partition → Partition}
    (retains : ∀ partition : Partition, partition.Sound → partition.Retains (change partition))
    (status : Phase) : set.Retains { partitions := set.partitions.map change, status } where
  sound := by
    intro partition member
    obtain ⟨earlier, among, rfl⟩ := List.mem_map.mp member
    have kept := retains earlier (sound earlier among)
    exact (sound earlier among).of_visible kept.settled kept.visible
  live := by
    intro now
    simp only [PartitionSet.live, List.map_map]
    apply List.map_congr_left
    intro partition among
    simp only [Function.comp, Partition.live, (retains partition (sound partition among)).visible]

theorem modify (sound : set.Sound) (index : Nat) {change : Partition → Partition}
    (retains : ∀ partition : Partition, partition.Sound → partition.Retains (change partition)) :
    set.Retains (set.modify index change) where
  sound := by
    apply sound.modify
    intro partition found
    have kept := retains partition (sound.get found)
    exact (sound.get found).of_visible kept.settled kept.visible
  live := by
    intro now
    cases found : set.get? index with
    | none =>
        have same : set.partitions.modify index change = set.partitions := by
          apply List.modify_eq_self
          exact List.getElem?_eq_none_iff.mp found
        simp only [PartitionSet.live, PartitionSet.modify, same]
    | some partition =>
        apply live_modify_of_same found
        simp only [Partition.live, (retains partition (sound.get found)).visible]

/-- The status over the partitions does not matter. -/
theorem congr (retains : set.Retains after) {other : PartitionSet}
    (same : other.partitions = after.partitions) : set.Retains other := by
  constructor
  · rw [PartitionSet.Sound, same]
    exact retains.sound
  · intro now
    rw [PartitionSet.live, same]
    exact retains.live now

theorem freeze (sound : set.Sound) : set.Retains set.freeze :=
  map sound (fun partition _ => .freeze partition) .frozen

theorem stop (sound : set.Sound) : set.Retains set.stop :=
  map sound (fun partition _ => .stop partition) .stopped

theorem resume (sound : set.Sound) : set.Retains set.resume :=
  map sound (fun partition _ => .mergeAll partition) .normal

theorem written (sound : set.Sound) (index : Nat) : set.Retains (set.written index) :=
  modify sound index fun _ => .finishWrite

theorem aborted (sound : set.Sound) (index : Nat) : set.Retains (set.aborted index) :=
  modify sound index fun _ => .abort

theorem drain (sound : set.Sound) (index : Nat) (picked : List String) :
    set.Retains (set.drain index picked) := by
  have drained : set.Retains (set.modify index (·.drain picked)) :=
    modify sound index fun _ sound => .drain sound picked
  simp only [PartitionSet.drain]
  split
  · exact drained.congr rfl
  · exact drained

end Retains
end PartitionSet

namespace Node

/-- The databases of a node are sound. -/
def Sound (node : Node) : Prop :=
  node.partitions.Sound

variable {node later : Node}

theorem save_retains (sound : node.Sound) :
    node.partitions.Retains node.save.2.partitions := by
  have resumed := (PartitionSet.Retains.stop sound).trans (.resume (PartitionSet.Retains.stop sound).sound)
  rcases node.save_cases with ⟨_, same⟩ | ⟨_, _, _, same⟩ <;> rw [same]
  · exact .refl sound
  · exact resumed

theorem beginSnapshot_retains (sound : node.Sound)
    (begun : node.beginSnapshot? = some later) : node.partitions.Retains later.partitions := by
  obtain ⟨_, rfl⟩ := beginSnapshot?_inv begun
  exact .freeze sound

theorem scheduleFullSync_retains (sound : node.Sound) :
    node.partitions.Retains node.scheduleFullSync.partitions := by
  rcases node.scheduleFullSync_cases with ⟨_, same⟩ | ⟨_, _, same⟩ | ⟨begun, begins, same⟩ <;> rw [same]
  · exact .refl sound
  · exact .refl sound
  · exact (beginSnapshot_retains sound begins).congr rfl

theorem synchronise_retains (sound : node.Sound) (id : ClientId) (history : String)
    (offset : Int) :
    node.partitions.Retains (Command.synchronise id history offset node).partitions := by
  rcases synchronise_cases id history offset node with ⟨_, _, same⟩ | ⟨_, same⟩ <;> rw [same]
  · exact .refl sound
  · have scheduled (coordinator : Stream.Coordinator) :=
      @scheduleFullSync_retains { node with coordinator } sound
    exact scheduled
      ((node.coordinator.remove id).beginFullResync node.clients node.clock.elapsed id offset)

end Node

/-! ### Deeds -/

/-- All deeds but those that store something. -/
def Deed.IsSafe : Deed → Prop
  | edit _ operation => ∃ moment, operation.reads moment = true
  | _ => True

theorem Deed.sound_apply {deed : Deed} (safe : deed.IsSafe) {node : Node}
    (sound : node.Sound) : (deed.apply node).Sound := by
  cases deed with
  | edit index operation =>
      apply sound.modify
      intro partition found
      obtain ⟨moment, reads⟩ := safe
      cases operation with
      | get key now | contains key now => exact (sound.get found).touch key now
      | _ => cases reads
  | flush => exact .flush node.partitions
  | save => exact (Node.save_retains sound).sound
  | beginSnapshot =>
      simp only [apply]
      cases begun : node.beginSnapshot? with
      | none => exact sound
      | some later => exact (Node.beginSnapshot_retains sound begun).sound
  | synchronise id history offset => exact (Node.synchronise_retains sound id history offset).sound
  | promote =>
      simp only [apply, Command.promote]
      split
      · exact sound
      · exact sound
  | publish | subscription | listeningPort | close | acknowledge | follow | answerLeader | feed =>
      exact sound

/-- Every deed of a command that does not write is safe. -/
theorem Effect.safe {effect : Effect} (other : effect ≠ .write) {moment : Int} {deed : Deed}
    (allowed : effect.allows moment deed) : deed.IsSafe := by
  cases deed with
  | edit index operation =>
      cases effect with
      | write => exact absurd rfl other
      | read =>
          rcases allowed with reads | listens
          · exact ⟨moment, reads⟩
          · cases listens
      | broadcast => cases allowed
      | admin => rcases allowed with turn | notice <;> contradiction
  | _ => trivial

namespace Command

/-! ### Commands -/

theorem basic_sound {command : Command} (member : command ∈ basic) :
    Keeps Node.Sound command.handler := by
  intro arguments context sound
  by_cases writes : command.effect = .write
  · have same : Context.Alike context.node.clock.wall context context :=
      ⟨rfl, rfl, rfl, .refl sound _⟩
    exact (basic_uniform member writes arguments context context same).2.1.partitions.soundLeft
  · rcases basic_does member with rfl | rfl | does
    · dsimp only
      rcases outcome_select arguments context with unchanged | ⟨index, _, changed⟩
      · rw [unchanged]
        exact sound
      · rw [changed]
        exact sound
    · exact absurd rfl writes
    · exact (does arguments context).becomes.keeps
        (fun _ _ allowed => Deed.sound_apply (Effect.safe writes allowed)) sound

/-- Storing generated keys does the same everywhere. -/
theorem populateBy_uniform (argument : String) (moment : Int) :
    (populateBy argument).Uniform moment := by
  apply CommandM.Uniform.integer
  intro count _
  split
  · exact .throw _
  · have puts (indices : List Nat) : Partition.Uniform moment fun partition =>
        ((), indices.foldl
          (fun partition index =>
            partition.put s!"key:{index}" { datum := .text s!"value:{index}" })
          partition) := by
      induction indices with
      | nil => exact fun left right alike => ⟨rfl, alike⟩
      | cons index indices ih =>
          intro left right alike
          exact ih _ _ (alike.put _ ⟨by simp, by simp⟩)
    exact (CommandM.Uniform.onPartition (puts (List.range count.toNat))).map fun _ => [Wire.Value.ok]

theorem feed_sound (node : Node) (data : Bytes) (database : Nat)
    (sound : node.Sound) : (node.feed data (some database)).Sound :=
  sound

theorem all_sound {command : Command} (member : command ∈ all) :
    Keeps Node.Sound command.handler := by
  rcases List.mem_cons.mp member with rfl | basic
  · intro arguments context sound
    dsimp only
    rcases debug_cases Command.basic arguments context with
      ⟨_, _, _, form⟩ | ⟨_, count, _, _, form⟩ | does
    · rw [form]
      apply reload_keeps
      · exact fun _ sound => (Node.save_retains sound).sound
      · exact fun node _ => .flush node.partitions
      · exact loadFrom_keeps feed_sound fun _ => basic_sound
      · exact sound
    · rw [form]
      have same : Context.Alike context.node.clock.wall context context :=
        ⟨rfl, rfl, rfl, .refl sound _⟩
      exact (populateBy_uniform count _ context context same).2.1.partitions.soundLeft
    · refine does.becomes.keeps (fun deed _ allowed => Deed.sound_apply ?_) sound
      rcases allowed with reads | ⟨id, rfl⟩
      · exact @Effect.safe .read (by simp) context.node.clock.wall deed (.inl reads)
      · trivial
  · exact basic_sound basic

theorem dispatch_sound (context : Context) (arguments : List String)
    (sound : context.node.Sound) :
    (dispatch context arguments).2.node.Sound :=
  dispatchFrom_keeps feed_sound (fun _ => all_sound) context arguments sound

theorem load_sound (commands : List (List String)) (node : Node)
    (sound : node.Sound) : (load commands node).2.Sound :=
  loadFrom_keeps feed_sound (fun _ => all_sound) commands node sound

end Command

/-! ### Events -/

namespace Node

variable {node later : Node}

theorem serve_sound (sound : node.Sound) (id : ClientId) (value : Wire.Value) :
    (node.serve id value).Sound := by
  rcases node.serve_cases id value with
    ⟨_, same⟩ | ⟨client, _, ⟨_, _, same⟩ | ⟨arguments, _, _, same⟩⟩ <;> rw [same]
  · exact sound
  · exact sound
  · have ran := Command.dispatch_sound (node.issued id client) arguments sound
    exact ran

theorem partitions_maintain (node : Node) : node.maintain.partitions = node.partitions := by
  simp only [maintain]
  split <;> rfl

theorem takeLinkEvent_sound (sound : node.Sound) (event : Link.LinkEvent) :
    (node.takeLinkEvent event).Sound := by
  cases event with
  | fullSync id offset payload =>
      simp only [takeLinkEvent, applyFullSync]
      split
      · exact sound
      · exact Command.load_sound _ _ (.flush node.partitions)
  | continued id =>
      rcases node.continueStream_cases id with ⟨_, same⟩ | ⟨_, _, _, same⟩ <;> rw [takeLinkEvent, same]
      · exact sound
      · exact sound
  | command arguments raw =>
      rcases node.follow_cases arguments raw with ⟨_, same⟩ | ⟨_, same⟩ <;> rw [takeLinkEvent, same]
      · have ran := Command.dispatch_sound node.listening arguments sound
        exact ran
      · exact sound
  | state | heartbeat | failed => exact sound

/-- A writer that speaks changes phases at most. -/
theorem takeReport_retains (sound : node.Sound) (report : Report) :
    node.partitions.Retains (node.takeReport report).partitions := by
  cases report with
  | written index =>
      obtain ⟨_, _, same⟩ := node.partitionWritten_eq index
      rw [takeReport, same]
      exact .written sound index
  | aborted index => exact .aborted sound index
  | finished result =>
      have settled : node.partitions.Retains node.partitions.settle :=
        (PartitionSet.Retains.refl sound).congr rfl
      cases result with
      | ok payload => exact settled
      | error error => exact settled

theorem drain_retains (sound : node.Sound) (index : Nat) (picked : List String) :
    node.partitions.Retains (node.drain index picked).partitions := by
  obtain ⟨_, _, same⟩ := node.drain_eq index picked
  rw [same]
  exact .drain sound index picked

theorem next_sound {happening : Happening} (sound : node.Sound)
    (happened : node.next? happening = some later) : later.Sound := by
  cases happening with
  | command id value =>
      cases happened
      exact serve_sound sound id value
  | upkeep =>
      cases happened
      rw [handle, Sound, partitions_maintain]
      exact sound
  | link epoch event =>
      cases happened
      simp only [handle]
      split
      · exact takeLinkEvent_sound sound event
      · exact sound
  | task position picked =>
      simp only [next?, Option.map_eq_some_iff] at happened
      obtain ⟨task, _, rfl⟩ := happened
      cases task with
      | beginSnapshot =>
          simp only [Task.event, handle]
          split
          · exact (@scheduleFullSync_retains { node with tasks := node.tasks.eraseIdx position }
              sound).sound
          · exact sound
      | drain index =>
          exact (@drain_retains { node with tasks := node.tasks.eraseIdx position } sound index
            picked).sound
  | report =>
      obtain ⟨report, _, writing, storage, _, rfl, _⟩ := next?_report happened
      exact (@takeReport_retains { node with writing, storage } sound report).sound
  | connected | disconnected | advance | setWall | setStorage | refuse | hangUp | deliver
  | deliverToLeader =>
      cases happened
      exact sound

/-- The databases of every reachable node are sound. -/
theorem Reachable.sound (reachable : node.Reachable) : node.Sound := by
  induction reachable with
  | start port started =>
      obtain ⟨loaded, made, role⟩ := Server.start_inv started
      have new (count : Nat) : (PartitionSet.new count).Sound := by
        intro partition member
        rw [List.eq_of_mem_replicate member]
        exact .new
      have sound : loaded.Sound := by
        rcases made with rfl | ⟨bytes, commands, _, rfl⟩
        · exact new _
        · exact Command.load_sound commands _ (new _)
      rcases role with same | ⟨host, port, same⟩
      · rw [same]
        exact sound
      · rw [same]
        exact sound
  | next happening _ happened ih => exact next_sound ih happened

end Node
end ReplicaStore
