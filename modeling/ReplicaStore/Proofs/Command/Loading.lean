import ReplicaStore.Proofs.Command.Running
import ReplicaStore.Proofs.Command.Uniform
import ReplicaStore.Proofs.Snapshot.RoundTrip

/-!
# Loading what was written

The commands of a snapshot, run one after the other on empty databases, all succeed and leave
databases of which the same can be read as of those that were written, whatever the order of
the entries was.  Of the rest of the node they change nothing.
-/

namespace ReplicaStore

namespace Context

/-- The context after its database has become another one. -/
def setPartition (context : Context) (partition : Partition) : Context :=
  { context with
    node := { context.node with
      partitions := context.node.partitions.modify context.session.database fun _ => partition } }

/-- A context in which commands are run that nobody passes on: of the node it started with
only the databases have changed, one of them is selected, and these can be read. -/
structure Loads (base : Node) (index : Nat) (contents : List Keyspace) (context : Context) :
    Prop where
  source : context.session.source.isClient = false
  database : context.session.database = index
  frame : context.node = { base with partitions := context.node.partitions }
  sound : context.node.partitions.Sound
  live : context.node.partitions.live base.clock.wall = contents

namespace Loads

variable {base : Node} {index : Nat} {contents : List Keyspace} {context : Context}

theorem wall (loads : context.Loads base index contents) :
    context.node.clock.wall = base.clock.wall := by
  rw [loads.frame]

theorem ready (loads : context.Loads base index contents) :
    context.ready.Loads base index contents :=
  ⟨loads.source, loads.database, loads.frame, loads.sound, loads.live⟩

/-- The selected database, of which is known what can be read. -/
theorem get (loads : context.Loads base index contents) {view : Keyspace}
    (there : contents[index]? = some view) :
    ∃ partition, context.node.partitions.get? context.session.database = some partition ∧
      partition.Sound ∧ partition.live base.clock.wall = view := by
  rw [← loads.live, PartitionSet.getElem?_live, ← loads.database] at there
  obtain ⟨partition, found, live⟩ := Option.map_eq_some_iff.mp there
  exact ⟨partition, found, loads.sound.get found, live⟩

theorem setPartition (loads : context.Loads base index contents) {partition later : Partition}
    (found : context.node.partitions.get? context.session.database = some partition)
    (sound : later.Sound) {view : Keyspace} (live : later.live base.clock.wall = view) :
    (context.setPartition later).Loads base index (contents.set index view) where
  source := loads.source
  database := loads.database
  frame := by
    have same := loads.frame
    rw [Context.setPartition, same]
  sound := loads.sound.modify fun _ _ => sound
  live := by
    have changed := @PartitionSet.live_modify _ _ base.clock.wall _ found fun _ => later
    rw [loads.live, live] at changed
    exact changed.trans (by rw [loads.database])

end Loads
end Context

namespace Keyspace

/-- The entries of a keyspace have different keys, in any order. -/
theorem distinct_of_perm {order : List (String × Entry)} {view : Keyspace}
    (perm : order.Perm view.toList) : order.Pairwise fun left right => left.1 ≠ right.1 := by
  have sorted : view.toList.Pairwise fun left right => left.1 ≠ right.1 :=
    Std.ExtTreeMap.distinct_keys_toList.imp fun apart equal => apart (by simp [equal])
  exact perm.symm.pairwise sorted fun apart => Ne.symm apart

/-- A keyspace is made again of its entries, in any order. -/
theorem foldl_insert_of_perm {order : List (String × Entry)} {view : Keyspace}
    (perm : order.Perm view.toList) :
    order.foldl (fun view pair => view.insert pair.1 pair.2) (∅ : Keyspace) = view := by
  have distinct := distinct_of_perm perm
  have apart : order.Pairwise fun left right => ¬compare left.1 right.1 = .eq :=
    distinct.imp fun apart equal => apart (Std.LawfulEqCmp.eq_of_compare equal)
  rw [← Std.ExtTreeMap.ofList_eq_foldl]
  apply Keyspace.ext
  intro key
  cases found : view[key]? with
  | none =>
      apply Std.ExtTreeMap.getElem?_ofList_of_contains_eq_false
      rw [Bool.eq_false_iff]
      intro contained
      obtain ⟨⟨other, entry⟩, among, rfl⟩ := List.mem_map.mp (List.contains_iff_mem.mp contained)
      rw [perm.mem_iff, Std.ExtTreeMap.mem_toList_iff_getElem?_eq_some, found] at among
      cases among
  | some entry =>
      exact Std.ExtTreeMap.getElem?_ofList_of_mem (by simp) apart
        (perm.mem_iff.mpr (Std.ExtTreeMap.mem_toList_iff_getElem?_eq_some.mpr found))

end Keyspace

namespace Partition

variable {partition : Partition} {now : Int}

theorem live_put_unexpired (sound : partition.Sound) (key : String) {entry : Entry}
    (unexpired : entry.expired now = false) :
    (partition.put key entry).live now = (partition.live now).insert key entry := by
  rw [live_put sound.settled, unexpired]
  rfl

/-- A list that is pushed to a key without a value. -/
theorem live_pushing (sound : partition.Sound) {key : String}
    (absent : (partition.live now)[key]? = none) (side : Command.Side) {values : List String}
    (given : values ≠ []) :
    (Command.pushing side false key values now partition).1 = none ∧
    (Command.pushing side false key values now partition).2.Sound ∧
    (Command.pushing side false key values now partition).2.live now =
      (partition.live now).insert key { datum := .list (side.push values []) } := by
  have after := Command.pushing_uniform side false key given now partition partition
    (.refl sound now)
  refine and_left_comm.mpr ⟨after.2.soundLeft, ?_⟩
  have before := modify_fst sound.settled key now (Command.onItems (side.push values))
  have touched := live_modify sound.settled key now (Command.onItems (side.push values))
  have settled := sound.settled.modify key now (Command.onItems (side.push values))
  rw [absent] at before touched
  simp only [Command.pushing]
  cases changed : partition.modify key now (Command.onItems (side.push values)) with
  | mk datum later =>
      rw [changed] at before touched settled
      cases before
      dsimp only at touched settled ⊢
      refine ⟨rfl, ?_⟩
      rw [if_neg (by simp), live_put settled, touched]
      rfl

/-- An expiry that is given to a key with a value. -/
theorem live_expireAt (sound : partition.Sound) {key : String} {entry : Entry}
    (there : (partition.live now)[key]? = some entry) {moment : Int} (later : now < moment)
    (fits : moment ≤ Text.maxSigned64) :
    (Command.expireAt now key moment partition).2.Sound ∧
    (Command.expireAt now key moment partition).2.live now =
      (partition.live now).insert key { entry with expiry := some moment } := by
  have after := Partition.Uniform.expireAt key fits now partition partition (.refl sound now)
  refine ⟨after.2.soundLeft, ?_⟩
  have before := get_fst sound.settled key now
  have touched : (partition.get key now).2.live now = partition.live now :=
    live_touch sound.settled key now
  have still : (partition.get key now).2.Sound := sound.touch key now
  rw [there] at before
  simp only [Command.expireAt]
  cases read : partition.get key now with
  | mk datum remaining =>
      rw [read] at before touched still
      cases before
      dsimp only at touched still ⊢
      have unexpired : Entry.expired { datum := entry.datum, expiry := some moment } now = false := by
        simp [Entry.expired, later]
      rw [if_neg (by omega), live_put_unexpired still key unexpired, touched]

end Partition

namespace Command

open CommandM

/-! ### Running commands that nobody passes on -/

/-- Commands that nobody passes on lead from one context to another without a failure. -/
def Replays (table : List Command) (commands : List (List String)) (before after : Context) :
    Prop :=
  ∀ failed, commands.foldl (loadStep table) (failed, before) = (failed, after)

namespace Replays

variable {table : List Command} {before between after : Context}

theorem nil (table : List Command) (context : Context) : Replays table [] context context :=
  fun _ => rfl

theorem append {first second : List (List String)} (left : Replays table first before between)
    (right : Replays table second between after) : Replays table (first ++ second) before after := by
  intro failed
  rw [List.foldl_append, left, right]

theorem cons {first : List String} {commands : List (List String)}
    (left : Replays table [first] before between) (right : Replays table commands between after) :
    Replays table (first :: commands) before after :=
  append left right

/-- A command that no client has issued gives the reply of its handler. -/
theorem known {name : String} {command : Command} {arguments : List String} {reply : Reply}
    (found : find? table name = some command)
    (accepts : command.accepts (arguments.length + 1) = true)
    (source : before.session.source.isClient = false)
    (ran : (command.handler arguments).outcome before.ready = (.ok reply, after))
    (fine : isFailure reply = false) : Replays table [name :: arguments] before after := by
  have dispatched : dispatchFrom table before (name :: arguments) = (reply, after) := by
    rw [dispatchFrom_eq, outcome_runFrom_cons, found]
    simp only [accepts, source, Bool.not_true, Bool.false_eq_true, if_false, Bool.false_and, ran]
  intro failed
  rw [List.foldl_cons, List.foldl_nil, loadStep, dispatched]
  simp only [fine, Bool.false_eq_true, if_false]

/-- Loading counts no failure then. -/
theorem loadFrom {commands : List (List String)} {node : Node}
    (replays : Replays table commands { node, session := { source := .loader } } after) :
    Command.loadFrom table commands node = (0, after.node) :=
  congrArg (fun state => (state.1, state.2.node)) (replays 0)

end Replays

/-- A table that has all commands by which a snapshot is loaded. -/
structure Restores (table : List Command) : Prop where
  select : find? table "SELECT" = some ⟨"SELECT", 2, .read, select⟩
  set : find? table "SET" = some ⟨"SET", -3, .write, set⟩
  rpush : find? table "RPUSH" = some ⟨"RPUSH", -3, .write, rpush⟩
  pexpireat : find? table "PEXPIREAT" = some ⟨"PEXPIREAT", 3, .write, pexpireat⟩

theorem restores_basic : Restores basic :=
  ⟨rfl, rfl, rfl, rfl⟩

theorem restores_all : Restores all :=
  ⟨rfl, rfl, rfl, rfl⟩

theorem outcome_store {context : Context} {partition : Partition}
    (found : context.node.partitions.get? context.session.database = some partition)
    (key value : String) (moment : Option Int) :
    (store key value moment).outcome context =
      (.ok [.ok], context.setPartition (partition.put key { datum := .text value, expiry := moment })) := by
  rw [store, outcome_bind, outcome_onPartition, found]
  rfl

/-! ### What loading leaves alone -/

section

variable {table : List Command} (restores : Restores table)

include restores

/-- The four commands by which a snapshot is loaded write at most. -/
theorem restoring_does {arguments : List String} (restoring : Snapshot.Restoring arguments)
    {context : Context} (source : context.session.source.isClient = false) :
    context.node.Becomes Deed.IsWrite (dispatchFrom table context arguments).2.node ∧
    (dispatchFrom table context arguments).2.session.source = context.session.source := by
  obtain ⟨name, rest, rfl, among⟩ := restoring.cases
  have ran {command : Command} (known : find? table name = some command)
      (does : context.node.Becomes Deed.IsWrite
          ((command.handler rest).outcome context.ready).2.node ∧
        ((command.handler rest).outcome context.ready).2.session.source =
          context.session.source) :
      context.node.Becomes Deed.IsWrite (dispatchFrom table context (name :: rest)).2.node ∧
      (dispatchFrom table context (name :: rest)).2.session.source = context.session.source := by
    rw [dispatchFrom_context, outcome_runFrom_cons, known]
    simp only [source, Bool.false_and, Bool.false_eq_true, if_false]
    split
    · exact ⟨.refl _, rfl⟩
    · split
      · next given =>
          rw [given] at does
          exact does
      · next given =>
          rw [given] at does
          exact does
  rcases among with rfl | rfl | rfl | rfl
  · apply ran restores.select
    rcases outcome_select rest context.ready with unchanged | ⟨index, _, changed⟩
    · rw [unchanged]
      exact ⟨.refl _, rfl⟩
    · rw [changed]
      exact ⟨.refl _, rfl⟩
  · apply ran restores.set
    obtain ⟨form, does⟩ := set_does rest context.ready
    exact ⟨does.becomes, (congrArg Session.source does.session).trans rfl⟩
  · apply ran restores.rpush
    have does : context.ready.Does Deed.IsWrite _ := push_does "rpush" .tail false rest
    exact ⟨does.becomes, (congrArg Session.source does.session).trans rfl⟩
  · apply ran restores.pexpireat
    have does : context.ready.Does Deed.IsWrite _ := pexpireat_does rest
    exact ⟨does.becomes, (congrArg Session.source does.session).trans rfl⟩

/-- Whatever a snapshot holds, loading it only writes. -/
theorem loadFrom_does {bytes : Bytes} {commands : List (List String)}
    (read : Snapshot.commandsOf bytes = .ok commands) (node : Node) :
    node.Becomes Deed.IsWrite (loadFrom table commands node).2 := by
  have restoring := Snapshot.commandsOf_restoring read
  clear read
  have writes (context : Context) (source : context.session.source.isClient = false) :
      context.node.Becomes Deed.IsWrite (runAll table commands context).node := by
    induction commands generalizing context with
    | nil => exact .refl _
    | cons first commands ih =>
        obtain ⟨becomes, same⟩ :=
          restoring_does restores (restoring first List.mem_cons_self) source
        apply becomes.trans
        apply ih (fun arguments member => restoring arguments (List.mem_cons_of_mem _ member))
        rw [same]
        exact source
  rw [loadFrom_eq]
  exact writes _ rfl

end

/-! ### Entries -/

section

variable {table : List Command} (restores : Restores table)
variable {base : Node} {index : Nat} {contents : List Keyspace} {context : Context}
variable {key : String} (loads : context.Loads base index contents)

include restores loads

theorem loads_text {view : Keyspace} (there : contents[index]? = some view) {content : String}
    {expiry : Option Int} (since : 0 ≤ base.clock.wall)
    (later : ∀ moment, expiry = some moment →
      base.clock.wall < moment ∧ moment ≤ Text.maxSigned64) :
    ∃ after, Replays table (Snapshot.Record.entryCommands key { datum := .text content, expiry })
        context after ∧
      after.Loads base index (contents.set index (view.insert key { datum := .text content, expiry })) := by
  obtain ⟨partition, found, sound, live⟩ := loads.ready.get there
  have unexpired : Entry.expired { datum := .text content, expiry } base.clock.wall = false := by
    cases expiry with
    | none => rfl
    | some moment => simpa [Entry.expired] using (later moment rfl).1
  have storable : Entry.Storable { datum := .text content, expiry } :=
    ⟨fun moment given => (later moment given).2, by simp⟩
  have shows := Partition.live_put_unexpired sound key unexpired
  rw [live] at shows
  cases expiry with
  | none =>
      have stored := loads.ready.setPartition found (sound.put key storable) shows
      refine ⟨_, .known restores.set rfl loads.source ?_ (rfl : isFailure [.ok] = false), stored⟩
      dsimp only
      rw [outcome_set]
      exact outcome_store found key content none
  | some moment =>
      obtain ⟨after, fits⟩ := later moment rfl
      have read : Text.readSigned64 moment.repr = some moment :=
        Text.readSigned64_toString_int (Int.le_trans since (Int.le_of_lt after)) fits
      have options : setExpiry? context.ready.node.clock.wall none ["PXAT", toString moment] =
          .ok (some ⟨moment, false⟩) := by
        have word : Text.upper "PXAT" = "PXAT" := rfl
        have positive : ¬moment ≤ 0 := by omega
        simp [setExpiry?, read, positive, word]
      have stored := loads.ready.setPartition found (sound.put key storable) shows
      refine ⟨_, .known restores.set rfl loads.source ?_ (rfl : isFailure [.ok] = false), stored⟩
      dsimp only
      rw [outcome_set, options]
      exact outcome_store found key content (some moment)

theorem loads_list {view : Keyspace} (there : contents[index]? = some view)
    (absent : view[key]? = none) {items : List String} (given : items ≠ []) :
    ∃ after, Replays table ["RPUSH" :: key :: items] context after ∧
      after.Loads base index (contents.set index (view.insert key { datum := .list items })) := by
  obtain ⟨partition, found, sound, live⟩ := loads.ready.get there
  rw [← live] at absent
  obtain ⟨nothing, pushes, shows⟩ := Partition.live_pushing sound absent .tail given
  rw [live] at shows
  have stored := loads.ready.setPartition found pushes shows
  cases items with
  | nil => exact absurd rfl given
  | cons first rest =>
      have many : (⟨"RPUSH", -3, .write, rpush⟩ : Command).accepts
          ((key :: first :: rest).length + 1) = true := by
        simp [accepts]
        omega
      have length : isFailure [.integer ((Side.tail.push (first :: rest) []).length : Nat)] = false :=
        rfl
      refine ⟨_, .known restores.rpush many loads.source ?_ length, stored⟩
      dsimp only
      rw [rpush, outcome_push, outcome_transact, found, loads.ready.wall]
      dsimp only
      rw [nothing]
      rfl

theorem loads_expiry {view : Keyspace} (there : contents[index]? = some view) {entry : Entry}
    (present : view[key]? = some entry) {moment : Int} (since : 0 ≤ base.clock.wall)
    (later : base.clock.wall < moment) (fits : moment ≤ Text.maxSigned64) :
    ∃ after, Replays table [["PEXPIREAT", key, toString moment]] context after ∧
      after.Loads base index
        (contents.set index (view.insert key { entry with expiry := some moment })) := by
  obtain ⟨partition, found, sound, live⟩ := loads.ready.get there
  rw [← live] at present
  obtain ⟨expires, shows⟩ := Partition.live_expireAt sound present later fits
  rw [live] at shows
  have stored := loads.ready.setPartition found expires shows
  have read : Text.readSigned64 (toString moment) = some moment :=
    Text.readSigned64_toString_int (Int.le_trans since (Int.le_of_lt later)) fits
  have fine (found : Bool) : isFailure [.integer ((if found then 1 else 0 : Nat) : Int)] = false :=
    rfl
  refine ⟨_, .known restores.pexpireat rfl loads.source ?_
    (fine (expireAt base.clock.wall key moment partition).1), stored⟩
  dsimp only
  rw [pexpireat, outcome_bind, outcome_integer, read]
  dsimp only
  rw [outcome_bind, outcome_now]
  dsimp only
  rw [outcome_bind, outcome_onPartition, found, loads.ready.wall]
  rfl

/-- What the commands of an entry leave is the entry, if the key was not there before. -/
theorem loads_entry {view : Keyspace} (there : contents[index]? = some view)
    (absent : view[key]? = none) {entry : Entry} (storable : entry.Storable)
    (since : 0 ≤ base.clock.wall) (unexpired : entry.expired base.clock.wall = false) :
    ∃ after, Replays table (Snapshot.Record.entryCommands key entry) context after ∧
      after.Loads base index (contents.set index (view.insert key entry)) := by
  obtain ⟨datum, expiry⟩ := entry
  have later : ∀ moment, expiry = some moment →
      base.clock.wall < moment ∧ moment ≤ Text.maxSigned64 := by
    rintro moment rfl
    refine ⟨?_, storable.expiry moment rfl⟩
    simpa [Entry.expired] using unexpired
  match datum with
  | .text content => exact loads_text restores loads there since later
  | .list [] => exact absurd rfl storable.datum
  | .list (first :: rest) =>
      obtain ⟨between, pushes, list⟩ :=
        loads_list restores loads there absent (List.cons_ne_nil first rest)
      cases expiry with
      | none => exact ⟨between, pushes, list⟩
      | some moment =>
          obtain ⟨after, fits⟩ := later moment rfl
          have inside : index < contents.length := (List.getElem?_eq_some_iff.mp there).1
          have shown : (contents.set index
              (view.insert key { datum := .list (first :: rest) }))[index]? =
              some (view.insert key { datum := .list (first :: rest) }) := by
            rw [List.getElem?_set_self inside]
          have last : ((view.insert key { datum := .list (first :: rest) } : Keyspace).insert key
              { datum := .list (first :: rest), expiry := some moment } : Keyspace) =
              view.insert key { datum := .list (first :: rest), expiry := some moment } := by
            apply Keyspace.ext
            intro other
            simp only [Keyspace.getElem?_insert]
            split <;> rfl
          obtain ⟨final, expired, expires⟩ := loads_expiry restores list shown
            Std.ExtTreeMap.getElem?_insert_self since after fits
          rw [List.set_set, last] at expires
          exact ⟨final, pushes.cons expired, expires⟩

end

/-! ### Databases -/

section

variable {table : List Command} (restores : Restores table) {base : Node}
variable (since : 0 ≤ base.clock.wall)

include restores since

/-- Entries of different keys are added one after the other. -/
theorem loads_entries {entries : List (String × Entry)} {index : Nat} {contents : List Keyspace}
    {context : Context} {view : Keyspace}
    (distinct : entries.Pairwise fun left right => left.1 ≠ right.1)
    (good : ∀ pair ∈ entries, pair.2.Storable ∧ pair.2.expired base.clock.wall = false)
    (there : contents[index]? = some view) (absent : ∀ pair ∈ entries, view[pair.1]? = none)
    (loads : context.Loads base index contents) :
    ∃ after, Replays table
        (entries.flatMap fun pair => Snapshot.Record.entryCommands pair.1 pair.2) context after ∧
      after.Loads base index (contents.set index
        (entries.foldl (fun view pair => view.insert pair.1 pair.2) view)) := by
  induction entries generalizing context contents view with
  | nil =>
      have same : contents.set index view = contents := by
        obtain ⟨inside, here⟩ := List.getElem?_eq_some_iff.mp there
        rw [← here, List.set_getElem_self]
      rw [List.foldl_nil, same]
      exact ⟨context, .nil _ _, loads⟩
  | cons first entries ih =>
      obtain ⟨apart, later⟩ := List.pairwise_cons.mp distinct
      obtain ⟨storable, unexpired⟩ := good first List.mem_cons_self
      obtain ⟨between, entered, stored⟩ := loads_entry restores loads there
        (absent first List.mem_cons_self) storable since unexpired
      have inside : index < contents.length := (List.getElem?_eq_some_iff.mp there).1
      obtain ⟨after, rest, last⟩ := @ih (contents.set index (view.insert first.1 first.2)) _
        (view.insert first.1 first.2) later
        (fun pair member => good pair (List.mem_cons_of_mem _ member))
        (List.getElem?_set_self inside)
        (fun pair member => by
          rw [Keyspace.getElem?_insert, if_neg (apart pair member)]
          exact absent pair (List.mem_cons_of_mem _ member))
        stored
      rw [List.set_set] at last
      rw [List.flatMap_cons, List.foldl_cons]
      exact ⟨after, entered.append rest, last⟩

omit since in
theorem loads_select {index selected : Nat} {contents : List Keyspace} {context : Context}
    (inside : index < contents.length) (fits : (index : Int) ≤ Text.maxSigned64)
    (loads : context.Loads base selected contents) :
    ∃ after, Replays table [["SELECT", toString index]] context after ∧
      after.Loads base index contents := by
  have size : context.node.partitions.count = contents.length := by
    rw [← PartitionSet.count_live _ base.clock.wall, loads.live]
  have read : Text.readSigned64 (toString index) = some (index : Int) :=
    Text.readSigned64_toString fits
  have range : 0 ≤ (index : Int) ∧ (index : Int) < context.ready.node.partitions.count := by
    have same : context.ready.node.partitions.count = contents.length := size
    omega
  refine ⟨{ context.ready with session := { context.ready.session with database := index } },
    .known restores.select rfl loads.source ?_ (rfl : isFailure [.ok] = false),
    loads.source, rfl, loads.frame, loads.sound, loads.live⟩
  dsimp only
  rw [select, outcome_bind, outcome_integer, read]
  dsimp only
  rw [outcome_bind, outcome_node]
  dsimp only
  rw [if_pos range]
  rfl

/-- The commands of one database leave what could be read of it, in whatever order its entries
come. -/
theorem loads_restoring {index selected : Nat} {contents : List Keyspace} {context : Context}
    {view : Keyspace} {order : List (String × Entry)}
    (perm : order.Perm (view.unexpired base.clock.wall).toList) (there : contents[index]? = some ∅)
    (fits : (index : Int) ≤ Text.maxSigned64)
    (storable : ∀ (key : String) (entry : Entry), view[key]? = some entry → entry.Storable)
    (loads : context.Loads base selected contents) :
    ∃ selected after, Replays table (Snapshot.restoring order index view) context after ∧
      after.Loads base selected (contents.set index (view.unexpired base.clock.wall)) := by
  have inside : index < contents.length := (List.getElem?_eq_some_iff.mp there).1
  rw [Snapshot.restoring]
  split
  · next empty =>
      have nothing : view.unexpired base.clock.wall = ∅ := by
        apply Keyspace.ext
        intro key
        rw [Keyspace.getElem?_unexpired, Std.ExtTreeMap.isEmpty_iff.mp empty]
        simp
      have same : contents.set index ∅ = contents := by
        obtain ⟨_, here⟩ := List.getElem?_eq_some_iff.mp there
        rw [← here, List.set_getElem_self]
      rw [nothing, same]
      exact ⟨selected, context, .nil _ _, loads⟩
  · obtain ⟨between, selects, chosen⟩ := loads_select restores inside fits loads
    obtain ⟨after, entered, entries⟩ := loads_entries restores since
      (Keyspace.distinct_of_perm perm)
      (fun pair member => by
        have found := Std.ExtTreeMap.mem_toList_iff_getElem?_eq_some.mp (perm.mem_iff.mp member)
        rw [Keyspace.getElem?_unexpired, Option.filter_eq_some_iff] at found
        exact ⟨storable pair.1 pair.2 found.1, by simpa using found.2⟩)
      there (fun pair _ => by simp) chosen
    rw [Keyspace.foldl_insert_of_perm perm] at entries
    exact ⟨index, after, selects.cons entered, entries⟩

/-- The commands of all databases from one on.  Those before are there already, and those that
the snapshot does not know stay empty. -/
theorem loads_restored {orders : Snapshot.Orders} {views : List Keyspace} {done : List Keyspace}
    {extra selected : Nat} {context : Context}
    (perm : ∀ (index : Nat) (view : Keyspace), views[index]? = some view →
      (orders (done.length + index)).Perm (view.unexpired base.clock.wall).toList)
    (count : ((done.length + views.length : Nat) : Int) ≤ Text.maxSigned64)
    (storable : ∀ view ∈ views, ∀ (key : String) (entry : Entry),
      view[key]? = some entry → entry.Storable)
    (loads : context.Loads base selected (done ++ List.replicate (views.length + extra) ∅)) :
    ∃ selected after, Replays table ((views.zipIdx done.length).flatMap fun (view, index) =>
        Snapshot.restoring (orders index) index view) context after ∧
      after.Loads base selected
        (done ++ views.map (·.unexpired base.clock.wall) ++ List.replicate extra ∅) := by
  induction views generalizing done selected context with
  | nil => exact ⟨selected, context, .nil _ _, by simpa using loads⟩
  | cons view views ih =>
      have more : (view :: views).length + extra = (views.length + extra) + 1 := by
        simp only [List.length_cons]
        omega
      have there : (done ++ List.replicate ((view :: views).length + extra)
          (∅ : Keyspace))[done.length]? = some ∅ := by
        rw [more]
        simp
      have first := perm 0 view rfl
      obtain ⟨between, middle, begun, shown⟩ := loads_restoring restores since first there
        (by simp only [List.length_cons] at count; omega) (storable view List.mem_cons_self) loads
      have added : (done ++ List.replicate ((view :: views).length + extra) (∅ : Keyspace)).set
          done.length (view.unexpired base.clock.wall) =
          (done ++ [view.unexpired base.clock.wall]) ++ List.replicate (views.length + extra) ∅ := by
        rw [more]
        simp [List.replicate_succ]
      rw [added] at shown
      obtain ⟨after, last, goes, rest⟩ := @ih (done ++ [view.unexpired base.clock.wall]) between middle
        (fun index other found => by
          have next := perm (index + 1) other found
          simpa [Nat.add_assoc, Nat.add_comm 1] using next)
        (by simp only [List.length_append, List.length_cons, List.length_nil] at count ⊢; omega)
        (fun other member => storable other (List.mem_cons_of_mem _ member)) shown
      refine ⟨after, last, ?_, ?_⟩
      · rw [List.zipIdx_cons, List.flatMap_cons]
        exact begun.append (by simpa using goes)
      · simpa using rest

/-- Loading what was written of some databases, on at least as many empty ones. -/
theorem loadFrom_restored {orders : Snapshot.Orders} {views : List Keyspace}
    (of : orders.Of views base.clock.wall) (count : (views.length : Int) ≤ Text.maxSigned64)
    (storable : ∀ view ∈ views, ∀ (key : String) (entry : Entry),
      view[key]? = some entry → entry.Storable)
    (room : views.length ≤ base.partitions.count) :
    ∃ partitions : PartitionSet,
      loadFrom table (views.zipIdx.flatMap fun (view, index) =>
        Snapshot.restoring (orders index) index view)
        { base with partitions := base.partitions.flush } = (0, { base with partitions }) ∧
      partitions.Sound ∧
      partitions.live base.clock.wall = views.map (·.unexpired base.clock.wall) ++
        List.replicate (base.partitions.count - views.length) ∅ := by
  have empty : Partition.live {} base.clock.wall = ∅ := by
    apply Keyspace.ext
    intro key
    simp [Partition.live, Partition.lookup, Keyspace.getElem?_unexpired]
  have start : Context.Loads base 0
      ([] ++ List.replicate (views.length + (base.partitions.count - views.length)) ∅)
      { node := { base with partitions := base.partitions.flush },
        session := { source := .loader } } := by
    refine ⟨rfl, rfl, rfl, ?_, ?_⟩
    · exact .flush base.partitions
    · rw [PartitionSet.live_flush, empty, Nat.add_sub_cancel' room]
      rfl
  obtain ⟨selected, after, replays, loaded⟩ := @loads_restored _ restores _ since orders views []
    _ _ _ (fun index view found => by simpa using of index view found) (by simpa using count) storable start
  refine ⟨after.node.partitions, ?_, loaded.sound, by simpa using loaded.live⟩
  exact replays.loadFrom.trans (congrArg (Prod.mk 0) loaded.frame)

end

end Command
end ReplicaStore
