import ReplicaStore.Proofs.Command.Outcome
import ReplicaStore.Proofs.Partition.PlainMap

/-!
# The deeds of a command

All that a command can do to its node is a sequence of a few kinds of change, the
`Deed`s.  Saying once which deeds a command is made of, every fact about what commands
leave alone or keep up is proved by looking at the kinds of deed, and no longer at the
commands.
-/

namespace ReplicaStore

/-- One change that a command makes to its node. -/
inductive Deed where
  /-- An operation on one database. -/
  | edit (index : Nat) (operation : Operation)
  | flush
  | save
  | beginSnapshot
  | publish (listeners : List ClientId) (bytes : Bytes)
  | subscription (id : ClientId) (channel : String) (listen : Bool)
  | listeningPort (id : ClientId) (port : Nat)
  | close (id : ClientId)
  | acknowledge (id : ClientId) (offset : Int)
  | synchronise (id : ClientId) (history : String) (offset : Int)
  | promote
  | follow (host : String) (port : Nat)
  | answerLeader
  | feed (data : Bytes) (database : Nat)

namespace Deed

/-- The node after a deed. -/
def apply : Deed → Node → Node
  | edit index operation, node =>
      { node with
        partitions := node.partitions.modify index fun partition =>
          (partition.perform operation).2 }
  | flush, node => { node with partitions := node.partitions.flush }
  | save, node => node.save.2
  | beginSnapshot, node => node.beginSnapshot?.getD node
  | publish listeners bytes, node =>
      { node with clients := node.clients.sendAll listeners bytes }
  | subscription id channel listen, node => Command.changeSubscription id channel listen node
  | listeningPort id port, node =>
      { node with
        clients := node.clients.modify id fun client => { client with listeningPort := some port } }
  | close id, node => { node with clients := node.clients.close id }
  | acknowledge id offset, node =>
      { node with coordinator := node.coordinator.acknowledge node.clock.elapsed id offset }
  | synchronise id history offset, node => Command.synchronise id history offset node
  | promote, node => Command.promote node
  | follow host port, node => Command.follow host port node
  | answerLeader, node =>
      { node with role := node.role.send (Link.Role.acknowledgement node.coordinator.offset) }
  | feed data database, node => node.feed data (some database)

/-- The node after several deeds. -/
def applyAll (deeds : List Deed) (node : Node) : Node :=
  deeds.foldl (fun node deed => deed.apply node) node

@[simp] theorem applyAll_nil (node : Node) : applyAll [] node = node := rfl

@[simp] theorem applyAll_cons (deed : Deed) (deeds : List Deed) (node : Node) :
    applyAll (deed :: deeds) node = applyAll deeds (deed.apply node) := rfl

@[simp] theorem applyAll_append (left right : List Deed) (node : Node) :
    applyAll (left ++ right) node = applyAll right (applyAll left node) :=
  List.foldl_append ..

end Deed

/-- One node comes of another by allowed deeds. -/
def Node.Becomes (allowed : Deed → Prop) (before after : Node) : Prop :=
  ∃ deeds : List Deed, (∀ deed ∈ deeds, allowed deed) ∧ after = Deed.applyAll deeds before

namespace Node.Becomes

variable {allowed wider : Deed → Prop} {before between after : Node}

theorem refl (node : Node) : node.Becomes allowed node :=
  ⟨[], by simp, rfl⟩

theorem trans (first : before.Becomes allowed between) (second : between.Becomes allowed after) :
    before.Becomes allowed after := by
  obtain ⟨deeds, all, rfl⟩ := first
  obtain ⟨later, allLater, rfl⟩ := second
  refine ⟨deeds ++ later, ?_, by rw [Deed.applyAll_append]⟩
  intro deed member
  rcases List.mem_append.mp member with here | there
  · exact all deed here
  · exact allLater deed there

theorem mono (becomes : before.Becomes allowed after) (widen : ∀ deed, allowed deed → wider deed) :
    before.Becomes wider after := by
  obtain ⟨deeds, all, reached⟩ := becomes
  exact ⟨deeds, fun deed member => widen deed (all deed member), reached⟩

/-- A single deed. -/
theorem deed (deed : Deed) (ok : allowed deed) (node : Node) :
    node.Becomes allowed (deed.apply node) :=
  ⟨[deed], by simpa using ok, rfl⟩

/-- What every allowed deed keeps is kept. -/
theorem keeps {holds : Node → Prop} (becomes : before.Becomes allowed after)
    (step : ∀ deed node, allowed deed → holds node → holds (deed.apply node))
    (start : holds before) : holds after := by
  obtain ⟨deeds, all, rfl⟩ := becomes
  induction deeds generalizing before with
  | nil => exact start
  | cons deed deeds ih =>
      apply ih
      · exact step deed before (all deed (List.mem_cons_self ..)) start
      · intro later member
        exact all later (List.mem_cons_of_mem _ member)

/-- What no allowed deed changes is the same. -/
theorem same {α : Type} (becomes : before.Becomes allowed after) (view : Node → α)
    (step : ∀ deed node, allowed deed → view (deed.apply node) = view node) :
    view after = view before :=
  @keeps _ _ _ (fun later => view later = view before) becomes
    (fun deed later member same => (step deed later member).trans same) rfl

end Node.Becomes

/-- One context follows from another by allowed deeds, and the session is the same. -/
structure Context.Does (allowed : Deed → Prop) (before after : Context) : Prop where
  becomes : before.node.Becomes allowed after.node
  session : after.session = before.session

namespace Context.Does

variable {allowed wider : Deed → Prop} {before between after : Context}

theorem refl (context : Context) : context.Does allowed context :=
  ⟨.refl _, rfl⟩

theorem trans (first : before.Does allowed between) (second : between.Does allowed after) :
    before.Does allowed after :=
  ⟨first.becomes.trans second.becomes, second.session.trans first.session⟩

theorem mono (does : before.Does allowed after) (widen : ∀ deed, allowed deed → wider deed) :
    before.Does wider after :=
  ⟨does.becomes.mono widen, does.session⟩

end Context.Does

namespace CommandM

variable {α β : Type} {allowed wider : Deed → Prop} {context : Context}

/-- A step of a command is made of allowed deeds, whether it fails or not. -/
def Does (allowed : Deed → Prop) (context : Context) (step : CommandM α) : Prop :=
  context.Does allowed (step.outcome context).2

namespace Does

theorem pure (value : α) : (Pure.pure value : CommandM α).Does allowed context :=
  .refl context

theorem throw (error : CommandError) :
    (throw error : CommandM α).Does allowed context :=
  .refl context

theorem mono {step : CommandM α} (does : step.Does allowed context)
    (widen : ∀ deed, allowed deed → wider deed) : step.Does wider context :=
  Context.Does.mono does widen

theorem bind {first : CommandM α} {next : α → CommandM β} (does : first.Does allowed context)
    (later : ∀ value after, first.outcome context = (.ok value, after) →
      (next value).Does allowed after) :
    (first >>= next).Does allowed context := by
  rw [Does, outcome_bind]
  have done := does
  rw [Does] at done
  cases outcome : first.outcome context with
  | mk result after =>
      rw [outcome] at done
      cases result with
      | error error => exact done
      | ok value => exact done.trans (later value after outcome)

/-- A step that only looks at the context. -/
theorem look {first : CommandM α} {next : α → CommandM β} {value : α}
    (given : first.outcome context = (.ok value, context))
    (later : (next value).Does allowed context) : (first >>= next).Does allowed context := by
  rw [Does, outcome_bind_ok given]
  exact later

theorem node {next : Node → CommandM β} (later : (next context.node).Does allowed context) :
    (CommandM.node >>= next).Does allowed context :=
  look (outcome_node context) later

theorem session {next : Session → CommandM β}
    (later : (next context.session).Does allowed context) :
    (CommandM.session >>= next).Does allowed context :=
  look (outcome_session context) later

theorem now {next : Int → CommandM β}
    (later : (next context.node.clock.wall).Does allowed context) :
    (CommandM.now >>= next).Does allowed context :=
  look (outcome_now context) later

/-- A step that fails or gives a value without touching anything. -/
theorem given {first : CommandM α} {next : α → CommandM β} {result : Except CommandError α}
    (outcome : first.outcome context = (result, context))
    (later : ∀ value, result = .ok value → (next value).Does allowed context) :
    (first >>= next).Does allowed context := by
  rw [Does]
  cases result with
  | error error =>
      rw [outcome_bind_error outcome]
      exact .refl context
  | ok value =>
      rw [outcome_bind_ok outcome]
      exact later value rfl

theorem orFail {error : CommandError} {value : Option α} {next : α → CommandM β}
    (later : ∀ found, (next found).Does allowed context) :
    (CommandM.orFail error value >>= next).Does allowed context :=
  given (outcome_orFail error value context) fun found _ => later found

theorem integer {argument : String} {next : Int → CommandM β}
    (later : ∀ value, (next value).Does allowed context) :
    (CommandM.integer argument >>= next).Does allowed context :=
  given (outcome_integer argument context) fun value _ => later value

theorem becoming {change : Node → Node}
    (becomes : context.node.Becomes allowed (change context.node)) :
    (CommandM.changeNode change).Does allowed context := by
  rw [Does, outcome_changeNode]
  exact ⟨becomes, rfl⟩

theorem changeNode {change : Node → Node} (deed : Deed) (ok : allowed deed)
    (same : change context.node = deed.apply context.node) :
    (CommandM.changeNode change).Does allowed context := by
  apply becoming
  rw [same]
  exact .deed deed ok context.node

theorem ok : CommandM.ok.Does allowed context :=
  .refl context

theorem count (value : Nat) : (CommandM.count value).Does allowed context :=
  .refl context

end Does
end CommandM

namespace Partition

/-- One partition follows from another by a sequence of operations. -/
def Follows (allowed : Operation → Prop) (before after : Partition) : Prop :=
  ∃ operations : List Operation, (∀ operation ∈ operations, allowed operation) ∧
    after = operations.foldl (fun partition operation => (partition.perform operation).2) before

namespace Follows

variable {allowed : Operation → Prop} {before between after : Partition}

theorem refl (partition : Partition) : partition.Follows allowed partition :=
  ⟨[], by simp, rfl⟩

theorem trans (first : before.Follows allowed between) (second : between.Follows allowed after) :
    before.Follows allowed after := by
  obtain ⟨operations, all, rfl⟩ := first
  obtain ⟨later, allLater, rfl⟩ := second
  refine ⟨operations ++ later, ?_, by rw [List.foldl_append]⟩
  intro operation member
  rcases List.mem_append.mp member with here | there
  · exact all operation here
  · exact allLater operation there

theorem perform (operation : Operation) (ok : allowed operation) (partition : Partition) :
    partition.Follows allowed (partition.perform operation).2 :=
  ⟨[operation], by simpa using ok, rfl⟩

theorem foldl {α : Type} {step : Partition → α → Partition}
    (does : ∀ (partition : Partition) item, partition.Follows allowed (step partition item))
    (items : List α) (partition : Partition) :
    partition.Follows allowed (items.foldl step partition) := by
  induction items generalizing partition with
  | nil => exact refl partition
  | cons item items ih => exact (does partition item).trans (ih _)

end Follows
end Partition

namespace PartitionSet

/-- Changing one partition twice is changing it once by both. -/
theorem modify_modify (set : PartitionSet) (index : Nat) (first second : Partition → Partition) :
    (set.modify index first).modify index second =
      set.modify index fun partition => second (first partition) := by
  simp only [modify, List.modify_modify_eq]
  rfl

theorem modify_id (set : PartitionSet) (index : Nat) :
    set.modify index (fun partition => partition) = set := by
  have same : set.partitions.modify index (fun partition => partition) = set.partitions :=
    List.modify_id index set.partitions
  simp only [modify, same]

/-- Only what a change makes of the partition that is there matters. -/
theorem modify_congr {set : PartitionSet} {index : Nat} {partition : Partition}
    (found : set.get? index = some partition) {first second : Partition → Partition}
    (same : first partition = second partition) :
    set.modify index first = set.modify index second := by
  have lists : set.partitions.modify index first = set.partitions.modify index second := by
    apply List.ext_getElem?
    intro other
    simp only [List.getElem?_modify]
    by_cases here : index = other
    · subst here
      have there : set.partitions[index]? = some partition := found
      simp [there, same]
    · simp [here]
  simp only [modify, lists]

end PartitionSet

namespace Deed

/-- Several operations on one database are one change of it. -/
theorem applyAll_edit (index : Nat) (operations : List Operation) (node : Node) :
    applyAll (operations.map (edit index)) node =
      { node with
        partitions := node.partitions.modify index fun partition =>
          operations.foldl (fun partition operation => (partition.perform operation).2)
            partition } := by
  induction operations generalizing node with
  | nil => simp [PartitionSet.modify_id]
  | cons operation operations ih =>
      rw [List.map_cons, applyAll_cons, ih]
      simp only [apply, List.foldl_cons, PartitionSet.modify_modify]

end Deed

namespace CommandM.Does

variable {α β : Type} {allowed : Deed → Prop} {context : Context}

/-- The use of a database is made of the operations that are done to it. -/
theorem onPartition {use : Partition → α × Partition} {operations : Operation → Prop}
    (follows : ∀ partition : Partition, partition.Follows operations (use partition).2)
    (ok : ∀ operation, operations operation →
      allowed (.edit context.session.database operation)) :
    (CommandM.onPartition use).Does allowed context := by
  rw [Does, outcome_onPartition]
  cases found : context.node.partitions.get? context.session.database with
  | none => exact .refl context
  | some partition =>
      obtain ⟨steps, all, reached⟩ := follows partition
      refine ⟨⟨steps.map (.edit context.session.database), ?_, ?_⟩, rfl⟩
      · intro deed member
        obtain ⟨operation, among, rfl⟩ := List.mem_map.mp member
        exact ok operation (all operation among)
      · rw [Deed.applyAll_edit]
        have same : (context.node.partitions.modify context.session.database
              fun _ => (use partition).2) =
            context.node.partitions.modify context.session.database fun partition =>
              steps.foldl (fun partition operation => (partition.perform operation).2) partition :=
          PartitionSet.modify_congr found reached
        dsimp only
        rw [same]

end CommandM.Does
end ReplicaStore
