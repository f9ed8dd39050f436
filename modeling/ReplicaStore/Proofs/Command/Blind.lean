import ReplicaStore.Proofs.Command.Running
import ReplicaStore.Proofs.Command.Uniform
import ReplicaStore.Proofs.Partition.Count

/-!
# What commands cannot tell apart

Two databases of which clients see the same are twins, however different their phases and
their shadows are.  Unlike databases of which the same can be read at one moment, twins hold
the same expired keys, so that they stay alike at any other moment, and count the same keys.
A step that gives the same on twins and leaves twins is called blind.  Every command on keys
is.
-/

namespace ReplicaStore

namespace Partition

variable {α β : Type} {left right : Partition}

/-- Clients see the same of both, and both count it rightly. -/
structure Twins (left right : Partition) : Prop where
  countedLeft : left.Counted
  countedRight : right.Counted
  visible : left.visible = right.visible

/-- Twins answer every operation alike and stay twins. -/
theorem Twins.perform (twins : Twins left right) (operation : Operation) :
    (left.perform operation).1 = (right.perform operation).1 ∧
      Twins (left.perform operation).2 (right.perform operation).2 := by
  have here := perform_eq twins.countedLeft.settled operation
  have there := perform_eq twins.countedRight.settled operation
  rw [twins.visible, ← there] at here
  obtain ⟨same, visible⟩ := Prod.ext_iff.mp here
  exact ⟨same, twins.countedLeft.perform operation, twins.countedRight.perform operation, visible⟩

/-- The use of a partition gives the same on twins and leaves twins. -/
def Blind (use : Partition → α × Partition) : Prop :=
  ∀ left right, Twins left right → (use left).1 = (use right).1 ∧ Twins (use left).2 (use right).2

namespace Blind

theorem pure (value : α) : Blind fun partition => (value, partition) :=
  fun _ _ twins => ⟨rfl, twins⟩

theorem bind {use : Partition → α × Partition} (blind : Blind use)
    (next : α → Partition → β × Partition) (later : ∀ value, Blind (next value)) :
    Blind fun partition => next (use partition).1 (use partition).2 := by
  intro left right twins
  obtain ⟨same, after⟩ := blind left right twins
  dsimp only
  rw [same]
  exact later _ _ _ after

/-- What is an operation, but for the form of its answer, is blind. -/
theorem of_perform {use : Partition → α × Partition} (operation : Operation) {form : α → Answer}
    (faithful : ∀ first second, form first = form second → first = second)
    (performs : ∀ partition : Partition, partition.perform operation = (use partition).map form id) :
    Blind use := by
  intro left right twins
  obtain ⟨same, after⟩ := twins.perform operation
  rw [performs, performs] at same after
  exact ⟨faithful _ _ same, after⟩

theorem get (key : String) (now : Int) : Blind (Partition.get · key now) :=
  of_perform (.get key now) (fun _ _ => Answer.value.inj) fun _ => rfl

theorem contains (key : String) (now : Int) : Blind (Partition.contains · key now) :=
  of_perform (.contains key now) (fun _ _ => Answer.existed.inj) fun _ => rfl

theorem remove (key : String) : Blind (Partition.remove · key) :=
  of_perform (.delete key) (fun _ _ => Answer.existed.inj) fun _ => rfl

theorem modify (key : String) (now : Int) (change : Datum → Datum) :
    Blind (Partition.modify · key now change) :=
  of_perform (.modify key now change) (fun _ _ => Answer.value.inj) fun _ => rfl

theorem put (key : String) (entry : Entry) :
    Blind fun partition => ((), partition.put key entry) :=
  fun _ _ twins => ⟨rfl, (twins.perform (.put key entry)).2⟩

theorem delete (key : String) : Blind fun partition => ((), partition.delete key) :=
  fun _ _ twins => ⟨rfl, (twins.perform (.delete key)).2⟩

theorem size : Blind fun partition => (partition.size, partition) := by
  intro left right twins
  refine ⟨?_, twins⟩
  dsimp only
  rw [twins.countedLeft.size_eq, twins.countedRight.size_eq, twins.visible]

theorem forEach {step : Partition → String → α × Partition}
    (blind : ∀ key, Blind (step · key)) (keys : List String) :
    Blind (Command.forEach step keys) :=
  fun _ _ => Command.forEach_relates blind keys

theorem removeLive (key : String) (now : Int) : Blind (Command.removeLive now · key) := by
  refine bind (contains key now)
    (fun found partition => if found then partition.remove key else (false, partition)) ?_
  intro found
  cases found with
  | true => exact remove key
  | false => exact pure false

theorem expireAt (key : String) (moment now : Int) : Blind (Command.expireAt now key moment) := by
  intro left right twins
  obtain ⟨same, after⟩ := get key now left right twins
  simp only [Command.expireAt]
  cases here : left.get key now with
  | mk found touchedLeft =>
      cases there : right.get key now with
      | mk other touchedRight =>
          dsimp only at same after
          rw [here, there] at same after
          cases same
          cases found with
          | none => exact ⟨rfl, after⟩
          | some datum =>
              dsimp only
              split
              · exact ⟨rfl, (after.perform (.delete key)).2⟩
              · exact ⟨rfl, (after.perform (.put key _)).2⟩

theorem putPairs (arguments : List String) :
    Blind fun partition => ((), Command.putPairs partition arguments) := by
  intro left right twins
  refine ⟨rfl, ?_⟩
  dsimp only
  fun_induction Command.putPairs left arguments generalizing right with
  | case1 left key value rest ih =>
      rw [Command.putPairs]
      exact ih _ (twins.perform (.put key _)).2
  | case2 left arguments short =>
      rw [Command.putPairs]
      · exact twins
      · exact short

end Blind
end Partition

namespace PartitionSet

/-- The count of keys is right in every partition. -/
def Counted (set : PartitionSet) : Prop :=
  ∀ partition ∈ set.partitions, partition.Counted

theorem Counted.flush (set : PartitionSet) : set.flush.Counted := by
  simp [Counted, PartitionSet.flush, Partition.flush, Partition.Counted.new]

/-- Two sets of databases of which clients see the same. -/
structure Twins (left right : PartitionSet) : Prop where
  countedLeft : left.Counted
  countedRight : right.Counted
  contents : left.contents = right.contents

namespace Twins

variable {left right : PartitionSet}

theorem count (twins : Twins left right) : left.count = right.count := by
  rw [← count_contents left, twins.contents, count_contents]

/-- The partitions of one number are twins, or there are none. -/
theorem get (twins : Twins left right) (index : Nat) :
    (left.get? index = none ∧ right.get? index = none) ∨
    ∃ here there, left.get? index = some here ∧ right.get? index = some there ∧
      Partition.Twins here there := by
  rcases get?_of_map_eq twins.contents index with none | ⟨here, there, foundLeft, foundRight, same⟩
  · exact .inl none
  · exact .inr ⟨here, there, foundLeft, foundRight,
      twins.countedLeft _ (List.mem_of_getElem? foundLeft),
      twins.countedRight _ (List.mem_of_getElem? foundRight), same⟩

theorem modify (twins : Twins left right) {index : Nat} {here there : Partition}
    (foundLeft : left.get? index = some here) (foundRight : right.get? index = some there)
    {changedLeft changedRight : Partition} (changed : Partition.Twins changedLeft changedRight) :
    Twins (left.modify index fun _ => changedLeft) (right.modify index fun _ => changedRight) where
  countedLeft := forall_modify twins.countedLeft fun _ _ => changed.countedLeft
  countedRight := forall_modify twins.countedRight fun _ _ => changed.countedRight
  contents := by
    have same := changed.visible
    rw [PartitionSet.contents, PartitionSet.contents, map_modify foundLeft, map_modify foundRight,
      same]
    exact congrArg (List.set · index changedRight.visible) twins.contents

theorem flush (twins : Twins left right) : Twins left.flush right.flush where
  countedLeft := .flush left
  countedRight := .flush right
  contents := by
    have flushed : Partition.visible ∘ Partition.flush = fun _ => Partition.visible {} := rfl
    have count := twins.count
    rw [PartitionSet.count, PartitionSet.count] at count
    simp only [PartitionSet.contents, PartitionSet.flush, List.map_map, flushed, List.map_const',
      count]

end Twins
end PartitionSet

/-- Two contexts that a command on keys cannot tell apart. -/
structure Context.Twins (left right : Context) : Prop where
  wall : left.node.clock.wall = right.node.clock.wall
  following : left.node.following = right.node.following
  session : left.session = right.session
  partitions : left.node.partitions.Twins right.node.partitions

namespace CommandM

variable {α β : Type}

/-- A step of a command gives the same on twins and leaves twins. -/
def Blind (step : CommandM α) : Prop :=
  ∀ left right, Context.Twins left right →
    (step.outcome left).1 = (step.outcome right).1 ∧
      Context.Twins (step.outcome left).2 (step.outcome right).2

namespace Blind

theorem pure (value : α) : (Pure.pure value : CommandM α).Blind :=
  fun _ _ twins => ⟨rfl, twins⟩

theorem throw (error : CommandError) : (throw error : CommandM α).Blind :=
  fun _ _ twins => ⟨rfl, twins⟩

theorem bind {first : CommandM α} (blind : first.Blind) {next : α → CommandM β}
    (later : ∀ value, (next value).Blind) : (first >>= next).Blind := by
  intro left right twins
  obtain ⟨same, after⟩ := blind left right twins
  rw [outcome_bind, outcome_bind]
  cases outLeft : first.outcome left with
  | mk resultLeft afterLeft =>
      cases outRight : first.outcome right with
      | mk resultRight afterRight =>
          rw [outLeft, outRight] at same after
          cases same
          cases resultLeft with
          | error error => exact ⟨rfl, after⟩
          | ok value => exact later value afterLeft afterRight after

theorem now : CommandM.now.Blind := by
  intro left right twins
  rw [outcome_now, outcome_now]
  exact ⟨congrArg Except.ok twins.wall, twins⟩

theorem orFail (error : CommandError) (value : Option α) : (CommandM.orFail error value).Blind := by
  cases value with
  | none => exact throw error
  | some value => exact pure value

theorem integer (argument : String) : (CommandM.integer argument).Blind :=
  orFail .notAnInteger (Text.readSigned64 argument)

theorem changeSession (change : Session → Session) : (CommandM.changeSession change).Blind := by
  intro left right twins
  rw [outcome_changeSession, outcome_changeSession]
  exact ⟨rfl, twins.wall, twins.following, congrArg change twins.session, twins.partitions⟩

theorem onPartition {use : Partition → α × Partition} (blind : Partition.Blind use) :
    (CommandM.onPartition use).Blind := by
  intro left right twins
  rw [outcome_onPartition, outcome_onPartition, ← twins.session]
  rcases twins.partitions.get left.session.database with ⟨here, there⟩ |
    ⟨here, there, foundLeft, foundRight, same⟩
  · rw [here, there]
    exact ⟨rfl, twins⟩
  · obtain ⟨given, after⟩ := blind here there same
    rw [foundLeft, foundRight]
    exact ⟨congrArg Except.ok given, twins.wall, twins.following, rfl,
      twins.partitions.modify foundLeft foundRight after⟩

end Blind
end CommandM

namespace Command

open CommandM

/-! ### Commands on keys -/

theorem get_blind (arguments : List String) : (get arguments).Blind := by
  match arguments with
  | [key] =>
      refine .bind .now fun now => .bind (.onPartition (.get key now)) fun found => ?_
      match found with
      | some (.text content) => exact .pure _
      | some (.list items) => exact .throw _
      | none => exact .pure _
  | [] | _ :: _ :: _ => exact .throw _

theorem mget_blind (keys : List String) : (mget keys).Blind :=
  .bind .now fun now => .bind (.onPartition (.forEach (.get · now) keys)) fun _ => .pure _

theorem set_blind (arguments : List String) : (set arguments).Blind := by
  match arguments with
  | [] | [_] => exact .throw _
  | key :: value :: options =>
      intro left right twins
      rw [outcome_set, outcome_set, twins.wall]
      cases setExpiry? right.node.clock.wall none options with
      | error error => exact ⟨rfl, twins⟩
      | ok expiry =>
          have stores : (store key value (expiry.map (·.moment))).Blind :=
            .bind (.onPartition (.put key _)) fun _ => .pure _
          apply stores
          exact ⟨twins.wall, twins.following, congrArg (noteForm key value expiry) twins.session,
            twins.partitions⟩

theorem mset_blind (arguments : List String) : (mset arguments).Blind := by
  rw [mset_eq]
  split
  · exact .throw _
  · exact .bind (.onPartition (.putPairs arguments)) fun _ => .pure _

theorem del_blind (keys : List String) : (del keys).Blind :=
  .bind .now fun now => .bind (.onPartition (.forEach (.removeLive · now) keys)) fun _ => .pure _

theorem countExisting_blind (keys : List String) : (countExisting keys).Blind :=
  .bind .now fun now => .bind (.onPartition (.forEach (.contains · now) keys)) fun _ => .pure _

theorem dbsize_blind (arguments : List String) : (dbsize arguments).Blind :=
  .bind (.onPartition .size) fun _ => .pure _

theorem pexpireat_blind (arguments : List String) : (pexpireat arguments).Blind := by
  match arguments with
  | [key, moment] =>
      exact .bind (.integer moment) fun moment => .bind .now fun now =>
        .bind (.onPartition (.expireAt key moment now)) fun _ => .pure _
  | [] | [_] | _ :: _ :: _ :: _ => exact .throw _

theorem flushall_blind (arguments : List String) : (flushall arguments).Blind := by
  rcases flushall_eq arguments with form | form
  · rw [form]
    exact .throw _
  · rw [form]
    intro left right twins
    exact ⟨rfl, twins.wall, twins.following, twins.session, twins.partitions.flush⟩

theorem items_blind (found : Option Datum) : (items? found).Blind := by
  match found with
  | some (.list items) => exact .pure _
  | some (.text content) => exact .throw _
  | none => exact .pure _

theorem changeList_blind (key : String) (change : List String → List String) :
    (changeList key change).Blind :=
  .bind .now fun now => .bind (.onPartition (.modify key now _)) items_blind

theorem readList_blind (key : String) : (readList key).Blind :=
  .bind .now fun now => .bind (.onPartition (.get key now)) items_blind

theorem push_blind (name : String) (side : Side) (onlyExisting : Bool) (arguments : List String) :
    (push name side onlyExisting arguments).Blind := by
  match arguments with
  | key :: value :: more =>
      refine .bind (changeList_blind key _) fun found => ?_
      cases found with
      | some items => exact .pure _
      | none =>
          cases onlyExisting with
          | true => exact .pure _
          | false => exact .bind (.onPartition (.put key _)) fun _ => .pure _
  | [] | [_] => exact .throw _

theorem pop_blind (key : String) (count : Nat) : (pop key count).Blind := by
  refine .bind (changeList_blind key _) fun found => ?_
  cases found with
  | none => exact .pure _
  | some items =>
      dsimp only
      split
      · exact .bind (.onPartition (.delete key)) fun _ => .pure _
      · exact .pure _

theorem lpop_blind (arguments : List String) : (lpop arguments).Blind := by
  match arguments with
  | [key] =>
      refine .bind (pop_blind key 1) fun found => ?_
      match found with
      | some (item :: _) => exact .pure _
      | some [] | none => exact .pure _
  | [key, count] =>
      rw [lpop_eq]
      refine .bind (.integer count) fun count => ?_
      split
      · exact .throw _
      · refine .bind (pop_blind key count.toNat) fun found => ?_
        cases found <;> exact .pure _
  | [] | _ :: _ :: _ :: _ => exact .throw _

theorem lrange_blind (arguments : List String) : (lrange arguments).Blind := by
  match arguments with
  | [key, start, stop] =>
      exact .bind (.integer start) fun _ => .bind (.integer stop) fun _ =>
        .bind (readList_blind key) fun _ => .pure _
  | [] | [_] | [_, _] | _ :: _ :: _ :: _ :: _ => exact .throw _

theorem llen_blind (arguments : List String) : (llen arguments).Blind := by
  match arguments with
  | [key] => exact .bind (readList_blind key) fun _ => .pure _
  | [] | _ :: _ :: _ => exact .throw _

theorem select_blind (arguments : List String) : (select arguments).Blind := by
  match arguments with
  | [index] =>
      refine .bind (.integer index) fun index => ?_
      intro left right twins
      rw [outcome_bind, outcome_bind, outcome_node, outcome_node]
      dsimp only
      rw [twins.partitions.count]
      have selects : (if 0 ≤ index ∧ index < (right.node.partitions.count : Int) then do
          CommandM.changeSession fun session => { session with database := index.toNat }
          ok
        else throw .noSuchDatabase : CommandM Reply).Blind := by
        split
        · exact .bind (.changeSession _) fun _ => .pure _
        · exact .throw _
      exact selects left right twins
  | [] | _ :: _ :: _ => exact .throw _

/-- The commands on keys, and the choice of a database. -/
def onKeys : List String :=
  ["GET", "SET", "MSET", "MGET", "DEL", "EXISTS", "DBSIZE", "PEXPIREAT", "FLUSHALL", "LPUSH",
    "RPUSH", "LPUSHX", "RPUSHX", "LRANGE", "LLEN", "LPOP", "SELECT"]

/-- Every command on keys is blind. -/
theorem onKeys_blind {command : Command} (member : command ∈ all) (named : command.name ∈ onKeys)
    (arguments : List String) : (command.handler arguments).Blind := by
  simp only [all, basic, List.mem_cons, List.not_mem_nil, or_false] at member
  rcases member with rfl | rfl | rfl | rfl | rfl | rfl | rfl | rfl | rfl | rfl | rfl | rfl | rfl |
    rfl | rfl | rfl | rfl | rfl | rfl | rfl | rfl | rfl | rfl | rfl | rfl | rfl | rfl | rfl | rfl | rfl
  all_goals try exact absurd named (by decide)
  · exact select_blind arguments
  · exact get_blind arguments
  · exact mget_blind arguments
  · exact set_blind arguments
  · exact mset_blind arguments
  · exact del_blind arguments
  · exact countExisting_blind arguments
  · exact dbsize_blind arguments
  · exact pexpireat_blind arguments
  · exact flushall_blind arguments
  · exact push_blind "lpush" .head false arguments
  · exact push_blind "rpush" .tail false arguments
  · exact push_blind "lpushx" .head true arguments
  · exact push_blind "rpushx" .tail true arguments
  · exact lrange_blind arguments
  · exact llen_blind arguments
  · exact lpop_blind arguments

/-- Whether a command is one on keys, or chooses a database. -/
def concernsKeys : List String → Bool
  | [] => false
  | name :: _ => onKeys.contains (Text.upper name)

/-- What running a command adds to the stream does not matter to commands on keys. -/
theorem runFrom_blind {arguments : List String} (concerns : concernsKeys arguments = true) :
    (runFrom all arguments).Blind := by
  cases arguments with
  | nil => cases concerns
  | cons name arguments =>
      intro left right twins
      rw [outcome_runFrom_cons, outcome_runFrom_cons, ← twins.session, ← twins.following]
      cases found : find? all name with
      | none => exact ⟨rfl, twins⟩
      | some command =>
          obtain ⟨member, named⟩ := find?_inv found
          have on : command.name ∈ onKeys := by
            rw [named]
            simpa [concernsKeys] using concerns
          have ready : Context.Twins left.ready right.ready :=
            ⟨twins.wall, twins.following,
              congrArg (fun session : Session => { session with propagateAs := none }) twins.session,
              twins.partitions⟩
          obtain ⟨same, after⟩ := onKeys_blind member on arguments left.ready right.ready ready
          dsimp only
          split
          · exact ⟨rfl, twins⟩
          · split
            · exact ⟨rfl, twins⟩
            · cases outLeft : (command.handler arguments).outcome left.ready with
              | mk resultLeft afterLeft =>
                  cases outRight : (command.handler arguments).outcome right.ready with
                  | mk resultRight afterRight =>
                      rw [outLeft, outRight] at same after
                      cases same
                      cases resultLeft with
                      | error error => exact ⟨rfl, after⟩
                      | ok reply =>
                          refine ⟨rfl, ?_⟩
                          dsimp only
                          rw [after.following]
                          split
                          · exact ⟨after.wall, after.following,
                              congrArg (fun session => { session with propagateAs := none })
                                after.session, after.partitions⟩
                          · exact after

theorem dispatch_blind {arguments : List String} (concerns : concernsKeys arguments = true)
    {left right : Context} (twins : Context.Twins left right) :
    (dispatch left arguments).1 = (dispatch right arguments).1 ∧
      Context.Twins (dispatch left arguments).2 (dispatch right arguments).2 := by
  obtain ⟨same, after⟩ := runFrom_blind concerns left right twins
  rw [dispatch, dispatch, dispatchFrom_eq, dispatchFrom_eq]
  cases outLeft : (runFrom all arguments).outcome left with
  | mk resultLeft afterLeft =>
      cases outRight : (runFrom all arguments).outcome right with
      | mk resultRight afterRight =>
          rw [outLeft, outRight] at same after
          cases same
          cases resultLeft <;> exact ⟨rfl, after⟩

end Command
end ReplicaStore
