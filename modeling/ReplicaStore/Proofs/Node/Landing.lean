import ReplicaStore.Proofs.Node.Chain
import ReplicaStore.Proofs.Node.ReadOnly
import ReplicaStore.Proofs.Stream.Routing

/-!
# Where commands of others land

Snapshots and streams name a database once for all the commands behind.  A command adds
entries to no database but the one that its session has selected (`Command.dispatch_within`),
and the session goes along with the sender as long as the node has the databases that are
named.  So what a sender has put into a database that the node has is stored there and nowhere
else (`Node.load_lands`, `Node.Routed.lands`, `Node.Routed.stores`).

A database that the node does not have is refused, and nothing else is made of that: what the
sender puts there is stored in the database that was selected before (`Node.strays`).
-/

namespace ReplicaStore

open ReplicaStore.Stream (Piece selectedBy selectedByAll)

/-- What holds at the end of a run and not at its start holds since one of its steps. -/
theorem foldl_begins {α β : Type} {step : α → β → α} {holds : α → Prop} {items : List β} {start : α}
    (ends : holds (items.foldl step start)) :
    holds start ∨ ∃ earlier item later, items = earlier ++ item :: later ∧
      ¬holds (earlier.foldl step start) ∧ holds (step (earlier.foldl step start) item) := by
  induction items generalizing start with
  | nil => exact .inl ends
  | cons first items ih =>
      rcases ih ends with behind | ⟨earlier, item, later, rfl, before, after⟩
      · by_cases already : holds start
        · exact .inl already
        · exact .inr ⟨[], first, items, rfl, already, behind⟩
      · exact .inr ⟨first :: earlier, item, later, rfl, before, after⟩

namespace PartitionSet

variable {set before between after : PartitionSet} {index : Nat}

/-- What can be read under a key of one database at a moment. -/
def stored? (set : PartitionSet) (moment : Int) (index : Nat) (key : String) : Option Entry :=
  (set.get? index).bind fun partition => (partition.live moment)[key]?

theorem stored?_eq (set : PartitionSet) (moment : Int) (index : Nat) (key : String) :
    set.stored? moment index key = (set.live moment)[index]?.bind (·[key]?) := by
  rw [getElem?_live, stored?]
  cases set.get? index <;> rfl

theorem stored?_flush (set : PartitionSet) (moment : Int) (index : Nat) (key : String) :
    set.flush.stored? moment index key = none := by
  have empty : (Partition.live {} moment)[key]? = none := by
    simp [Partition.live, Partition.lookup, Keyspace.getElem?_unexpired]
  rw [stored?_eq, live_flush, List.getElem?_replicate]
  split
  · exact empty
  · rfl

/-- Nothing has been added outside one database. -/
structure Within (index : Nat) (before after : PartitionSet) : Prop where
  count : after.count = before.count
  kept : ∀ (moment : Int) (other : Nat) (key : String) (entry : Entry), other ≠ index →
    after.stored? moment other key = some entry → before.stored? moment other key = some entry

namespace Within

theorem refl (index : Nat) (set : PartitionSet) : set.Within index set :=
  ⟨rfl, fun _ _ _ _ _ found => found⟩

theorem trans (first : before.Within index between) (second : between.Within index after) :
    before.Within index after where
  count := second.count.trans first.count
  kept moment other key entry apart found :=
    first.kept moment other key entry apart (second.kept moment other key entry apart found)

theorem retains (retains : before.Retains after) (index : Nat) : before.Within index after where
  count := retains.count
  kept moment other key entry _ found := by
    rwa [stored?_eq, retains.live, ← stored?_eq] at found

theorem modify (set : PartitionSet) (index : Nat) (change : Partition → Partition) :
    set.Within index (set.modify index change) where
  count := List.length_modify ..
  kept moment other key entry apart found := by
    have same : (set.modify index change).get? other = set.get? other := by
      simp [get?, PartitionSet.modify, apart.symm]
    rwa [stored?, same] at found

theorem flush (set : PartitionSet) (index : Nat) : set.Within index set.flush where
  count := List.length_map ..
  kept moment other key entry _ found := by
    rw [stored?_flush] at found
    cases found

/-- Reaping a key adds nothing anywhere. -/
theorem touch (sound : set.Sound) (place : Nat) (key : String) (now : Int) (index : Nat) :
    set.Within index (set.modify place (·.touch key now)) where
  count := List.length_modify ..
  kept moment other wanted entry _ found := by
    by_cases here : other = place
    · subst here
      cases there : set.get? other with
      | none =>
          rw [modify_of_none there] at found
          exact found
      | some partition =>
          rw [stored?, get?_modify there, Option.bind_some, Partition.live,
            Partition.visible_touch (sound.get there).settled, Keyspace.touch] at found
          rw [stored?, there, Option.bind_some, Partition.live]
          split at found
          · rw [Keyspace.getElem?_unexpired, Keyspace.getElem?_erase] at found
            rw [Keyspace.getElem?_unexpired]
            split at found
            · cases found
            · exact found
          · exact found
    · exact (modify set place (·.touch key now)).kept moment other wanted entry here found

end Within
end PartitionSet

/-- Whatever stores nothing adds nothing to any database. -/
theorem Deed.within {deed : Deed} (safe : deed.IsSafe) {node : Node} (sound : node.Sound)
    (index : Nat) : node.partitions.Within index (deed.apply node).partitions := by
  cases deed with
  | edit place operation =>
      obtain ⟨moment, reads⟩ := safe
      cases operation with
      | get key now | contains key now => exact .touch sound place key now index
      | _ => cases reads
  | flush => exact .flush node.partitions index
  | save => exact .retains (Node.save_retains sound) index
  | beginSnapshot =>
      simp only [apply]
      cases begun : node.beginSnapshot? with
      | none => exact .refl index _
      | some later => exact .retains (Node.beginSnapshot_retains sound begun) index
  | synchronise id history offset =>
      exact .retains (Node.synchronise_retains sound id history offset) index
  | promote =>
      simp only [apply, Command.promote]
      split <;> exact .refl index _
  | publish | subscription | listeningPort | close | acknowledge | follow | answerLeader | feed =>
      exact .refl index _

theorem Node.Becomes.within {node later : Node} (becomes : node.Becomes Deed.IsSafe later)
    (sound : node.Sound) (index : Nat) : node.partitions.Within index later.partitions := by
  have kept : later.Sound ∧ node.partitions.Within index later.partitions := by
    apply @Node.Becomes.keeps _ _ _ (fun later : Node =>
      later.Sound ∧ node.partitions.Within index later.partitions) becomes
    · rintro deed between safe ⟨sound, within⟩
      exact ⟨Deed.sound_apply safe sound, within.trans (Deed.within safe sound index)⟩
    · exact ⟨sound, .refl index _⟩
  exact kept.2

namespace CommandM

variable {α β : Type} {context : Context}

/-- A step of a command that adds to no database but the selected one, which stays selected. -/
structure Lands (step : CommandM α) (context : Context) : Prop where
  database : (step.outcome context).2.session.database = context.session.database
  within : context.node.partitions.Within context.session.database
    (step.outcome context).2.node.partitions

namespace Lands

theorem still {step : CommandM α} (same : (step.outcome context).2 = context) :
    step.Lands context := by
  constructor
  · rw [same]
  · rw [same]
    exact .refl _ _

theorem pure (value : α) : (pure value : CommandM α).Lands context :=
  still rfl

theorem throw (error : CommandError) : (throw error : CommandM α).Lands context :=
  still rfl

theorem bind {first : CommandM α} {next : α → CommandM β} (lands : first.Lands context)
    (later : ∀ value after, first.outcome context = (.ok value, after) → (next value).Lands after) :
    (first >>= next).Lands context := by
  obtain ⟨database, within⟩ := lands
  cases outcome : first.outcome context with
  | mk result after =>
      rw [outcome] at database within
      cases result with
      | error error =>
          have ran := outcome_bind_error outcome next
          exact ⟨by rw [ran]; exact database, by rw [ran]; exact within⟩
      | ok value =>
          have ran := outcome_bind_ok outcome next
          obtain ⟨databaseLater, withinLater⟩ := later value after outcome
          dsimp only at database within
          rw [database] at databaseLater withinLater
          exact ⟨by rw [ran]; exact databaseLater, by rw [ran]; exact within.trans withinLater⟩

theorem now {next : Int → CommandM β} (lands : (next context.node.clock.wall).Lands context) :
    (CommandM.now >>= next).Lands context :=
  bind (.still rfl) fun _ _ outcome => by
    cases outcome
    exact lands

theorem integer {argument : String} {next : Int → CommandM β}
    (lands : ∀ value, (next value).Lands context) :
    (CommandM.integer argument >>= next).Lands context :=
  bind (.still (by rw [outcome_integer])) fun value after outcome => by
    rw [outcome_integer] at outcome
    obtain ⟨_, rfl⟩ := Prod.mk.inj outcome
    exact lands value

theorem onPartition (use : Partition → α × Partition) : (CommandM.onPartition use).Lands context where
  database := by
    rw [outcome_onPartition]
    cases context.node.partitions.get? context.session.database <;> rfl
  within := by
    rw [partitions_onPartition]
    exact .modify _ _ _

/-- What stores nothing adds nothing to the selected database either. -/
theorem safe {step : CommandM α} (does : step.Does Deed.IsSafe context) (sound : context.node.Sound) :
    step.Lands context where
  database := congrArg Session.database (Context.Does.session does)
  within := (Context.Does.becomes does).within sound _

end Lands
end CommandM

namespace Command

open CommandM

variable {context : Context}

/-! ### Commands -/

theorem store_lands (key value : String) (moment : Option Int) :
    (store key value moment).Lands context :=
  .bind (.onPartition _) fun _ _ _ => .pure _

theorem set_lands (arguments : List String) : (set arguments).Lands context := by
  match arguments with
  | [] | [_] => exact .throw _
  | key :: value :: options =>
      cases read : setExpiry? context.node.clock.wall none options with
      | error error => exact .still (by rw [outcome_set, read])
      | ok expiry =>
          have ran : (set (key :: value :: options)).outcome context = _ :=
            (outcome_set key value options context).trans (by rw [read])
          have noted : (noteForm key value expiry context.session).database =
              context.session.database := by
            simp only [noteForm]
            split <;> rfl
          have lands := @store_lands
            { context with session := noteForm key value expiry context.session } key value
            (expiry.map (·.moment))
          constructor
          · rw [ran]
            exact lands.database.trans noted
          · rw [ran, ← noted]
            exact lands.within

theorem mset_lands (arguments : List String) : (mset arguments).Lands context := by
  rw [mset_eq]
  split
  · exact .throw _
  · exact .bind (.onPartition _) fun _ _ _ => .pure _

theorem del_lands (keys : List String) : (del keys).Lands context :=
  .now (.bind (.onPartition _) fun _ _ _ => .pure _)

theorem pexpireat_lands (arguments : List String) : (pexpireat arguments).Lands context := by
  match arguments with
  | [key, moment] => exact .integer fun _ => .now (.bind (.onPartition _) fun _ _ _ => .pure _)
  | [] | [_] | _ :: _ :: _ :: _ => exact .throw _

theorem flushall_lands (arguments : List String) : (flushall arguments).Lands context := by
  rcases flushall_eq arguments with form | form
  · rw [form]
    exact .throw _
  · rw [form]
    exact ⟨rfl, .flush _ _⟩

theorem changeList_lands (key : String) (change : List String → List String) :
    (changeList key change).Lands context := by
  refine .now (.bind (.onPartition _) fun found after _ => ?_)
  match found with
  | some (.list _) | none => exact .pure _
  | some (.text _) => exact .throw _

theorem push_lands (name : String) (side : Side) (onlyExisting : Bool) (arguments : List String) :
    (push name side onlyExisting arguments).Lands context := by
  match arguments with
  | key :: value :: more =>
      refine .bind (changeList_lands key _) fun items after _ => ?_
      match items with
      | some items => exact .pure _
      | none =>
          dsimp only
          split
          · exact .pure _
          · exact .bind (.onPartition _) fun _ _ _ => .pure _
  | [] | [_] => exact .throw _

theorem pop_lands (key : String) (count : Nat) : (pop key count).Lands context := by
  refine .bind (changeList_lands key _) fun items after _ => ?_
  match items with
  | none => exact .pure _
  | some items =>
      dsimp only
      split
      · exact .bind (.onPartition _) fun _ _ _ => .pure _
      · exact .pure _

theorem lpop_lands (arguments : List String) : (lpop arguments).Lands context := by
  match arguments with
  | [key] =>
      refine .bind (pop_lands key 1) fun items after _ => ?_
      match items with
      | some (_ :: _) | some [] | none => exact .pure _
  | [key, count] =>
      rw [lpop_eq]
      refine .integer fun count => ?_
      split
      · exact .throw _
      · refine .bind (pop_lands key _) fun items after _ => ?_
        match items with
        | some _ | none => exact .pure _
  | [] | _ :: _ :: _ :: _ => exact .throw _

theorem populateBy_lands (argument : String) : (populateBy argument).Lands context := by
  refine .integer fun count => ?_
  split
  · exact .throw _
  · exact .bind (.onPartition _) fun _ _ _ => .pure _

/-- Every command that writes does so in the selected database. -/
theorem writing_lands {command : Command} (member : command ∈ basic) (writes : command.effect = .write)
    (arguments : List String) : (command.handler arguments).Lands context := by
  simp only [basic, List.mem_cons, List.not_mem_nil, or_false] at member
  rcases member with rfl | rfl | rfl | rfl | rfl | rfl | rfl | rfl | rfl | rfl | rfl | rfl | rfl |
    rfl | rfl | rfl | rfl | rfl | rfl | rfl | rfl | rfl | rfl | rfl | rfl | rfl | rfl | rfl | rfl
  all_goals try cases writes
  · exact set_lands arguments
  · exact mset_lands arguments
  · exact del_lands arguments
  · exact pexpireat_lands arguments
  · exact flushall_lands arguments
  · exact push_lands _ _ _ arguments
  · exact push_lands _ _ _ arguments
  · exact push_lands _ _ _ arguments
  · exact push_lands _ _ _ arguments
  · exact lpop_lands arguments

theorem debug_lands (sound : context.node.Sound) {arguments : List String}
    (plain : ∀ option, arguments = [option] → Text.upper option ≠ "RELOAD") :
    (debug basic arguments).Lands context := by
  rcases debug_cases basic arguments context with
    ⟨option, reload, given, _⟩ | ⟨_, count, _, _, form⟩ | does
  · exact absurd reload (plain option given)
  · rw [form]
    exact populateBy_lands count
  · refine .safe (does.mono fun deed allowed => ?_) sound
    rcases allowed with reads | ⟨id, rfl⟩
    · exact @Effect.safe .read (by simp) context.node.clock.wall deed (.inl reads)
    · trivial

/-- Every command but those that select a database or load what has been saved. -/
theorem all_lands {command : Command} (member : command ∈ all) (sound : context.node.Sound)
    (apart : command ≠ ⟨"SELECT", 2, .read, select⟩) {arguments : List String}
    (plain : ∀ option, command.name = "DEBUG" → arguments = [option] → Text.upper option ≠ "RELOAD") :
    (command.handler arguments).Lands context := by
  rcases List.mem_cons.mp member with rfl | basic
  · exact debug_lands sound fun option => plain option rfl
  · by_cases writes : command.effect = .write
    · exact writing_lands basic writes arguments
    · rcases basic_does basic with selects | rfl | does
      · exact absurd selects apart
      · exact absurd rfl writes
      · exact .safe ((does arguments context).mono fun _ => Effect.safe writes) sound

/-! ### Selecting a database -/

/-- How a command names the database that it selects, if it selects one. -/
def naming? : List String → Option String
  | [name, argument] => if Text.upper name = "SELECT" then some argument else none
  | _ => none

/-- A command that names databases as senders do, by their numbers. -/
def Addressed (arguments : List String) : Prop :=
  ∀ argument, naming? arguments = some argument → ∃ index : Nat, argument = toString index

/-- The database that a session has selected behind a command, where there are so many. -/
def selectedAfter (count database : Nat) (arguments : List String) : Nat :=
  match (naming? arguments).bind Text.readSigned64 with
  | some index => if 0 ≤ index ∧ index < count then index.toNat else database
  | none => database

theorem naming?_inv {arguments : List String} {argument : String}
    (named : naming? arguments = some argument) :
    ∃ name, arguments = [name, argument] ∧ Text.upper name = "SELECT" := by
  match arguments with
  | [name, other] =>
      simp only [naming?] at named
      split at named
      · next selects =>
          cases named
          exact ⟨name, rfl, selects⟩
      · cases named
  | [] | [_] | _ :: _ :: _ :: _ => cases named

theorem naming?_of_accepts {name : String} {rest : List String} (selects : Text.upper name = "SELECT")
    (accepts : Command.accepts ⟨"SELECT", 2, .read, select⟩ (rest.length + 1) = true) :
    ∃ argument, naming? (name :: rest) = some argument := by
  match rest with
  | [argument] => exact ⟨argument, if_pos selects⟩
  | [] => cases accepts
  | _ :: _ :: rest =>
      simp only [Command.accepts, List.length_cons] at accepts
      simp at accepts
      omega

theorem selectedBy_eq (database : Nat) (arguments : List String) :
    selectedBy database arguments =
      ((naming? arguments).bind fun argument => Text.numeral? argument.toList).getD database := by
  match arguments with
  | [name, argument] =>
      simp only [selectedBy, naming?]
      split <;> rfl
  | [] | [_] | _ :: _ :: _ :: _ => rfl

/-- Whoever has selected what the sender has selected goes along with it to every database that
there is. -/
theorem selectedAfter_eq {count there here : Nat} (fits : (count : Int) ≤ Text.maxSigned64)
    (agrees : there < count → here = there) {arguments : List String} (addressed : Addressed arguments)
    (inside : selectedBy there arguments < count) :
    selectedAfter count here arguments = selectedBy there arguments := by
  rw [selectedBy_eq] at inside ⊢
  rw [selectedAfter]
  cases named : naming? arguments with
  | none =>
      rw [named] at inside
      exact agrees inside
  | some argument =>
      -- Both read the same number, which fits because there is such a database.
      obtain ⟨index, rfl⟩ := addressed argument named
      have digits : (toString index).toList = Nat.toDigits 10 index := by
        simp [toString, Nat.repr]
      rw [named] at inside
      simp only [Option.bind_some, digits, Text.numeral_toDigits, Option.getD_some] at inside ⊢
      rw [Text.readSigned64_toString (by omega)]
      simp only [Int.natCast_nonneg, Int.ofNat_lt, inside, and_self, if_true, Int.toNat_natCast]

/-! ### Whole commands -/

/-- As far as databases go, a command does what its handler does, unless it is not run. -/
theorem dispatch_handler (context : Context) (name : String) (rest : List String) :
    (dispatch context (name :: rest)).2 = context ∨
    ∃ command, find? all name = some command ∧ command.accepts (rest.length + 1) = true ∧
      (dispatch context (name :: rest)).2.session.database =
        ((command.handler rest).outcome context.ready).2.session.database ∧
      (dispatch context (name :: rest)).2.node.partitions =
        ((command.handler rest).outcome context.ready).2.node.partitions := by
  by_cases runs : ∃ command, find? all name = some command ∧
      command.accepts (rest.length + 1) = true ∧
      (context.session.source.isClient && context.node.following && command.effect == .write) = false
  · obtain ⟨command, known, accepts, allowed⟩ := runs
    refine .inr ⟨command, known, accepts, ?_⟩
    rw [dispatch_known known accepts allowed]
    match (command.handler rest).outcome context.ready with
    | (.error error, after) => exact ⟨rfl, rfl⟩
    | (.ok reply, after) =>
        dsimp only
        split <;> exact ⟨rfl, rfl⟩
  · refine .inl (dispatch_refused fun command known accepts => ?_)
    cases allowed : (context.session.source.isClient && context.node.following &&
      command.effect == .write) with
    | true => rfl
    | false => exact absurd ⟨command, known, accepts, allowed⟩ runs

/-- Selecting a database that there is leaves it selected, and any other leaves the one before. -/
theorem dispatch_select (context : Context) {name : String} (selects : Text.upper name = "SELECT")
    (argument : String) :
    (dispatch context [name, argument]).2.session.database =
        selectedAfter context.node.partitions.count context.session.database [name, argument] ∧
      (dispatch context [name, argument]).2.node.partitions = context.node.partitions := by
  have known : find? all name = some ⟨"SELECT", 2, .read, select⟩ := by
    rw [find?, selects]
    rfl
  have allowed : (context.session.source.isClient && context.node.following &&
      (Effect.read == Effect.write)) = false := by
    rw [show (Effect.read == Effect.write) = false from rfl, Bool.and_false]
  have ran : (dispatch context [name, argument]).2 =
      ((select [argument]).outcome context.ready).2 := by
    rw [dispatch_known known rfl allowed]
    cases (select [argument]).outcome context.ready with
    | mk result after =>
        cases result with
        | error error => rfl
        | ok reply => simp only [Effect.propagates, Bool.and_false, Bool.false_eq_true, if_false]
  rw [ran, selectedAfter, naming?, if_pos selects, Option.bind_some, select, outcome_bind,
    outcome_integer]
  cases Text.readSigned64 argument with
  | none => exact ⟨rfl, rfl⟩
  | some index =>
      dsimp only
      rw [outcome_bind, outcome_node]
      by_cases inside : 0 ≤ index ∧ index < context.node.partitions.count
      · have ready : 0 ≤ index ∧ index < context.ready.node.partitions.count := inside
        rw [if_pos inside]
        dsimp only
        rw [if_pos ready]
        exact ⟨rfl, rfl⟩
      · have ready : ¬(0 ≤ index ∧ index < context.ready.node.partitions.count) := inside
        rw [if_neg inside]
        dsimp only
        rw [if_neg ready]
        exact ⟨rfl, rfl⟩

/-- Whatever a command adds stands in the database that was selected, and only SELECT selects
another one. -/
theorem dispatch_within {context : Context} (sound : context.node.Sound) {arguments : List String}
    (plain : ¬Reloads arguments) :
    (dispatch context arguments).2.session.database =
        selectedAfter context.node.partitions.count context.session.database arguments ∧
      context.node.partitions.Within context.session.database
        (dispatch context arguments).2.node.partitions := by
  cases named : naming? arguments with
  | some argument =>
      obtain ⟨name, rfl, selects⟩ := naming?_inv named
      obtain ⟨database, partitions⟩ := dispatch_select context selects argument
      rw [partitions]
      exact ⟨database, .refl _ _⟩
  | none =>
      have same : selectedAfter context.node.partitions.count context.session.database arguments =
          context.session.database := by
        rw [selectedAfter, named]
        rfl
      rw [same]
      match arguments with
      | [] => exact ⟨rfl, .refl _ _⟩
      | name :: rest =>
          rcases dispatch_handler context name rest with
            unrun | ⟨command, known, accepts, database, partitions⟩
          · rw [unrun]
            exact ⟨rfl, .refl _ _⟩
          · obtain ⟨member, title⟩ := find?_inv known
            have apart : command ≠ ⟨"SELECT", 2, .read, select⟩ := by
              rintro rfl
              obtain ⟨argument, found⟩ := naming?_of_accepts title.symm accepts
              rw [named] at found
              cases found
            have lands := @all_lands context.ready command member sound apart rest
              fun option debugs given reloads =>
                plain ⟨name, option, by rw [given], title.symm.trans debugs, reloads⟩
            rw [database, partitions]
            exact ⟨lands.database, lands.within⟩

end Command

/-! ### Runs -/

/-- Whoever runs a sender's commands has selected what the sender has, if there is such a
database at all. -/
structure Context.Routed (count there : Nat) (context : Context) : Prop where
  sound : context.node.Sound
  databases : context.node.partitions.count = count
  fits : (count : Int) ≤ Text.maxSigned64
  agrees : there < count → context.session.database = there

/-- A command that a sender may send to whoever runs it: it names databases by their numbers,
and is not the hook that loads what has been saved. -/
structure Command.Sendable (arguments : List String) : Prop where
  addressed : Addressed arguments
  plain : ¬Reloads arguments

namespace Context.Routed

variable {count there : Nat} {context : Context} {arguments : List String}

theorem dispatch (routed : context.Routed count there) (sendable : Command.Sendable arguments) :
    (Command.dispatch context arguments).2.Routed count (selectedBy there arguments) where
  sound := Command.dispatch_sound context arguments routed.sound
  databases := (Command.dispatch_within routed.sound sendable.plain).2.count.trans routed.databases
  fits := routed.fits
  agrees inside := by
    rw [(Command.dispatch_within routed.sound sendable.plain).1, routed.databases]
    exact Command.selectedAfter_eq routed.fits routed.agrees sendable.addressed inside

/-- What a command adds stands where the sender has it, unless the sender has it in a database
that is missing here. -/
theorem within (routed : context.Routed count there) (sendable : Command.Sendable arguments)
    {moment : Int} {index : Nat} {key : String} {entry : Entry}
    (absent : context.node.partitions.stored? moment index key ≠ some entry)
    (found : (Command.dispatch context arguments).2.node.partitions.stored? moment index key =
      some entry) : there = index ∨ count ≤ there := by
  by_cases inside : there < count
  · refine .inl (Classical.byContradiction fun apart => absent ?_)
    apply (Command.dispatch_within routed.sound sendable.plain).2.kept moment index key entry _ found
    rw [routed.agrees inside]
    exact fun same => apart same.symm
  · exact .inr (Nat.le_of_not_lt inside)

theorem runAll {commands : List (List String)} (routed : context.Routed count there)
    (sendable : ∀ arguments ∈ commands, Command.Sendable arguments) :
    (Command.runAll Command.all commands context).Routed count (selectedByAll there commands) := by
  induction commands generalizing there context with
  | nil => exact routed
  | cons first commands ih =>
      exact ih (routed.dispatch (sendable first List.mem_cons_self)) fun arguments member =>
        sendable arguments (List.mem_cons_of_mem _ member)

/-- Whatever stands in a database behind a sender's commands has been there before, or one of
these commands has put it there, which the sender has run on the same database or on one that
is missing here. -/
theorem lands {commands : List (List String)} (routed : context.Routed count there)
    (sendable : ∀ arguments ∈ commands, Command.Sendable arguments) {moment : Int} {index : Nat}
    {key : String} {entry : Entry}
    (found : (Command.runAll Command.all commands context).node.partitions.stored? moment index key =
      some entry) :
    context.node.partitions.stored? moment index key = some entry ∨
    ∃ earlier arguments later, commands = earlier ++ arguments :: later ∧
      (Command.runAll Command.all earlier context).node.partitions.stored? moment index key ≠
        some entry ∧
      (Command.runAll Command.all (earlier ++ [arguments]) context).node.partitions.stored? moment
        index key = some entry ∧
      (selectedByAll there earlier = index ∨ count ≤ selectedByAll there earlier) := by
  rcases @foldl_begins _ _ (fun context arguments => (Command.dispatch context arguments).2)
      (fun context => context.node.partitions.stored? moment index key = some entry) commands context
      found with before | ⟨earlier, arguments, later, rfl, absent, put⟩
  · exact .inl before
  · have reached := routed.runAll fun arguments member =>
      sendable arguments (List.mem_append_left _ member)
    refine .inr ⟨earlier, arguments, later, rfl, absent, ?_,
      reached.within (sendable arguments (by simp)) absent put⟩
    rw [Command.runAll, List.foldl_append]
    exact put

end Context.Routed

/-! ### Snapshots -/

/-- Whatever a snapshot is, its commands are such as senders may send. -/
theorem Snapshot.commandsOf_sendable {bytes : Bytes} {commands : List (List String)}
    (read : commandsOf bytes = .ok commands) : ∀ arguments ∈ commands, Command.Sendable arguments := by
  intro arguments member
  have restoring := commandsOf_restoring read arguments member
  constructor
  · intro argument named
    obtain ⟨name, rfl, selects⟩ := Command.naming?_inv named
    obtain ⟨record, among⟩ := restoring
    cases record with
    | metadata | sizes | finish => cases among
    | database index =>
        rw [Record.commands, List.mem_singleton] at among
        cases among
        exact ⟨index, rfl⟩
    | entry key stored =>
        rcases stored with ⟨_ | (_ | ⟨_, _⟩), _ | _⟩
        all_goals simp [Record.commands, Record.entryCommands] at among
  · rintro ⟨name, option, rfl, debugs, _⟩
    obtain ⟨_, _, same, among⟩ := restoring.cases
    cases same
    rcases among with rfl | rfl | rfl | rfl <;> exact absurd debugs (by decide)

namespace Node

variable {node : Node} {moment : Int} {index : Nat} {key : String} {entry : Entry}

/-- Behind a snapshot that has been loaded, whatever stands in a database has been there before,
or one of the commands of the snapshot has put it there, which the snapshot has for the same
database or for one that is missing here. -/
theorem load_lands (sound : node.Sound) (fits : (node.partitions.count : Int) ≤ Text.maxSigned64)
    {payload : Bytes} {commands : List (List String)}
    (read : Snapshot.commandsOf payload = .ok commands)
    (found : (Command.load commands node).2.partitions.stored? moment index key = some entry) :
    node.partitions.stored? moment index key = some entry ∨
    ∃ earlier arguments later, commands = earlier ++ arguments :: later ∧
      (Command.load earlier node).2.partitions.stored? moment index key ≠ some entry ∧
      (Command.load (earlier ++ [arguments]) node).2.partitions.stored? moment index key = some entry ∧
      (selectedByAll 0 earlier = index ∨ node.partitions.count ≤ selectedByAll 0 earlier) := by
  have routed : Context.Routed node.partitions.count 0 { node, session := { source := .loader } } :=
    ⟨sound, rfl, fits, fun _ => rfl⟩
  simp only [Command.load, Command.loadFrom_eq] at found ⊢
  exact routed.lands (Snapshot.commandsOf_sendable read) found

/-- All that a node holds behind a full resynchronisation stands in the database in which the
snapshot has it, or the snapshot has it in one that is missing here. -/
theorem applyFullSync_lands (fits : (node.partitions.count : Int) ≤ Text.maxSigned64) {id : String}
    {offset : Int} {payload : Bytes} {commands : List (List String)}
    (read : Snapshot.commandsOf payload = .ok commands)
    (found : (node.applyFullSync id offset payload).partitions.stored? moment index key = some entry) :
    ∃ earlier arguments later, commands = earlier ++ arguments :: later ∧
      (selectedByAll 0 earlier = index ∨ node.partitions.count ≤ selectedByAll 0 earlier) := by
  have size : node.partitions.flush.count = node.partitions.count := List.length_map ..
  have landed := @load_lands
    { node with
      partitions := node.partitions.flush
      coordinator := node.coordinator.changeBacklog fun backlog => backlog.deactivate.reset offset }
    moment index key entry (.flush node.partitions) (by rw [size]; exact fits) payload commands read
  simp only [applyFullSync, read] at found
  rcases landed found with before | ⟨earlier, arguments, later, split, _, _, lands⟩
  · rw [PartitionSet.stored?_flush] at before
    cases before
  · rw [size] at lands
    exact ⟨earlier, arguments, later, split, lands⟩

/-! ### The stream of a leader -/

/-- Whoever takes commands from the link with an epoch has selected what the leader has, if there
is such a database at all. -/
structure Routed (epoch count there : Nat) (node : Node) : Prop where
  sound : node.Sound
  databases : node.partitions.count = count
  fits : (count : Int) ≤ Text.maxSigned64
  agrees : node.role.accepts epoch = true → node.role.connected = true → there < count →
    node.role.database = there

variable {epoch count there : Nat} {arguments : List String} {raw : Bytes}

/-- A command of the link is run if the node takes notice of the link and is connected. -/
theorem handle_followed (accepts : node.role.accepts epoch = true)
    (connected : node.role.connected = true) (arguments : List String) (raw : Bytes) :
    (node.handle (.link epoch (.command arguments raw))).partitions =
        (node.hear arguments).node.partitions ∧
      (node.handle (.link epoch (.command arguments raw))).role.database =
        (node.hear arguments).session.database ∧
      (node.handle (.link epoch (.command arguments raw))).role.accepts epoch =
        (node.hear arguments).node.role.accepts epoch ∧
      (node.handle (.link epoch (.command arguments raw))).role.connected =
        (node.hear arguments).node.role.connected := by
  have took : node.handle (.link epoch (.command arguments raw)) = node.follow arguments raw := by
    simp only [handle, accepts, if_true, takeLinkEvent]
  rw [took, follow_eq (by simpa [Link.Role.connected] using connected)]
  exact ⟨rfl, rfl, rfl, rfl⟩

/-- Any other is not. -/
theorem handle_ignored (unheard : ¬(node.role.accepts epoch = true ∧ node.role.connected = true))
    (arguments : List String) (raw : Bytes) :
    (node.handle (.link epoch (.command arguments raw))).partitions = node.partitions ∧
      ¬((node.handle (.link epoch (.command arguments raw))).role.accepts epoch = true ∧
        (node.handle (.link epoch (.command arguments raw))).role.connected = true) := by
  by_cases accepts : node.role.accepts epoch = true
  · have apart : node.role.connected = false := by simpa [accepts] using unheard
    have took : node.handle (.link epoch (.command arguments raw)) = node.listening.node := by
      simp only [handle, accepts, if_true, takeLinkEvent]
      exact follow_apart (by simpa [Link.Role.connected] using apart) arguments raw
    have still : node.listening.node.role.connected = false := apart
    rw [took, still]
    exact ⟨rfl, by simp⟩
  · rw [handle_unheard accepts]
    exact ⟨rfl, unheard⟩

namespace Routed

theorem listening (routed : node.Routed epoch count there) (accepts : node.role.accepts epoch = true)
    (connected : node.role.connected = true) : node.listening.Routed count there :=
  ⟨routed.sound, routed.databases, routed.fits, routed.agrees accepts connected⟩

theorem hear (routed : node.Routed epoch count there) (sendable : Command.Sendable arguments) :
    (node.handle (.link epoch (.command arguments raw))).Routed epoch count
      (selectedBy there arguments) := by
  have sound : (node.handle (.link epoch (.command arguments raw))).Sound :=
    @next_sound node _ (.link epoch (.command arguments raw)) routed.sound rfl
  by_cases heard : node.role.accepts epoch = true ∧ node.role.connected = true
  · have after := (routed.listening heard.1 heard.2).dispatch sendable
    rw [← hear_eq] at after
    obtain ⟨partitions, database, _, _⟩ := handle_followed heard.1 heard.2 arguments raw
    refine ⟨sound, ?_, routed.fits, fun _ _ inside => ?_⟩
    · rw [partitions]
      exact after.databases
    · rw [database]
      exact after.agrees inside
  · -- What is passed over is not made up for later: the link must be opened again first.
    obtain ⟨partitions, unheard⟩ := handle_ignored heard arguments raw
    refine ⟨sound, ?_, routed.fits, fun accepts connected => absurd ⟨accepts, connected⟩ unheard⟩
    rw [partitions]
    exact routed.databases

/-- What a command of the leader adds stands where the leader has it, unless the leader has it in a
database that is missing here. -/
theorem within (routed : node.Routed epoch count there) (sendable : Command.Sendable arguments)
    (absent : node.partitions.stored? moment index key ≠ some entry)
    (found : (node.handle (.link epoch (.command arguments raw))).partitions.stored? moment index key =
      some entry) : there = index ∨ count ≤ there := by
  by_cases heard : node.role.accepts epoch = true ∧ node.role.connected = true
  · rw [(handle_followed heard.1 heard.2 arguments raw).1, hear_eq] at found
    exact (routed.listening heard.1 heard.2).within sendable absent found
  · rw [(handle_ignored heard arguments raw).1] at found
    exact absurd found absent

theorem take {pieces : List Piece} (routed : node.Routed epoch count there)
    (sendable : ∀ piece ∈ pieces, Command.Sendable piece.arguments) :
    (node.take epoch pieces).Routed epoch count (selectedByAll there (pieces.map (·.arguments))) := by
  induction pieces generalizing node there with
  | nil => exact routed
  | cons piece pieces ih =>
      exact ih (routed.hear (sendable piece List.mem_cons_self)) fun other member =>
        sendable other (List.mem_cons_of_mem _ member)

/-- Whatever stands in a database behind a part of the leader's stream has been there before, or
one of the commands in it has put it there, which the leader has run on the same database or on
one that is missing here. -/
theorem lands {pieces : List Piece} (routed : node.Routed epoch count there)
    (sendable : ∀ piece ∈ pieces, Command.Sendable piece.arguments)
    (found : (node.take epoch pieces).partitions.stored? moment index key = some entry) :
    node.partitions.stored? moment index key = some entry ∨
    ∃ earlier piece later, pieces = earlier ++ piece :: later ∧
      (node.take epoch earlier).partitions.stored? moment index key ≠ some entry ∧
      (node.take epoch (earlier ++ [piece])).partitions.stored? moment index key = some entry ∧
      (selectedByAll there (earlier.map (·.arguments)) = index ∨
        count ≤ selectedByAll there (earlier.map (·.arguments))) := by
  rcases @foldl_begins _ _
      (fun node (piece : Piece) => node.handle (.link epoch (.command piece.arguments piece.raw)))
      (fun node => node.partitions.stored? moment index key = some entry) pieces node found with
    before | ⟨earlier, piece, later, rfl, absent, put⟩
  · exact .inl before
  · have reached := routed.take fun other member => sendable other (List.mem_append_left _ member)
    refine .inr ⟨earlier, piece, later, rfl, absent, ?_,
      reached.within (sendable piece (by simp)) absent put⟩
    rw [take_append]
    exact put

end Routed

/-! ### Databases that are missing -/

/-- What the leader stores is stored in the database that is selected here. -/
theorem handle_set (sound : node.Sound) (accepts : node.role.accepts epoch = true)
    (connected : node.role.connected = true) (inside : node.role.database < node.partitions.count)
    (key value : String) (raw : Bytes) :
    (node.handle (.link epoch (.command ["SET", key, value] raw))).partitions.stored? moment
      node.role.database key = some { datum := .text value } := by
  obtain ⟨partition, there⟩ : ∃ partition,
      node.partitions.get? node.role.database = some partition :=
    ⟨_, List.getElem?_eq_getElem inside⟩
  rw [(handle_followed accepts connected _ raw).1, hear_set, PartitionSet.stored?,
    PartitionSet.get?_modify there, Option.bind_some, Partition.live_put (sound.get there).settled]
  simp [Entry.expired]

/-- What the leader stores in a database that there is here is stored in the same one. -/
theorem Routed.stores (routed : node.Routed epoch count there)
    (accepts : node.role.accepts epoch = true) (connected : node.role.connected = true)
    (inside : there < count) (key value : String) (raw : Bytes) :
    (node.handle (.link epoch (.command ["SET", key, value] raw))).partitions.stored? moment there
      key = some { datum := .text value } := by
  have selected := routed.agrees accepts connected inside
  rw [← selected, ← routed.databases] at inside
  rw [← selected]
  exact handle_set routed.sound accepts connected inside key value raw

theorem hear_missing (missing : node.partitions.count ≤ index)
    (fits : (index : Int) ≤ Text.maxSigned64) :
    node.hear ["SELECT", toString index] = node.listening := by
  have read : Text.readSigned64 (toString index) = some (index : Int) :=
    Text.readSigned64_toString fits
  have outside : ¬(0 ≤ (index : Int) ∧
      (index : Int) < node.listening.ready.node.partitions.count) := by
    have same : node.listening.ready.node.partitions.count = node.partitions.count := rfl
    omega
  rw [hear_eq, Command.dispatch_of_not_client rfl, Command.restores_all.select]
  dsimp only
  rw [if_pos (by rfl), Command.select, CommandM.outcome_bind, CommandM.outcome_integer, read]
  dsimp only
  rw [CommandM.outcome_bind, CommandM.outcome_node]
  dsimp only
  rw [if_neg outside]
  rfl

/-- What the leader stores in a database that is missing here is stored all the same, in the
database that was selected before. -/
theorem strays (sound : node.Sound) (accepts : node.role.accepts epoch = true)
    (connected : node.role.connected = true) (inside : node.role.database < node.partitions.count)
    (missing : node.partitions.count ≤ index) (fits : (index : Int) ≤ Text.maxSigned64)
    (key value : String) (first second : Bytes) :
    (node.take epoch [⟨["SELECT", toString index], first⟩,
        ⟨["SET", key, value], second⟩]).partitions.stored? moment node.role.database key =
      some { datum := .text value } := by
  have refused : (node.handle (.link epoch (.command ["SELECT", toString index] first))).Sound :=
    @next_sound node _ (.link epoch (.command ["SELECT", toString index] first)) sound rfl
  obtain ⟨partitions, database, stillAccepts, stillConnected⟩ :=
    handle_followed accepts connected ["SELECT", toString index] first
  rw [hear_missing missing fits] at partitions database stillAccepts stillConnected
  have same : (node.handle (.link epoch (.command ["SELECT", toString index] first))).role.database =
      node.role.database := database
  rw [← same]
  apply handle_set refused (stillAccepts.trans accepts) (stillConnected.trans connected)
  rw [same, partitions]
  exact inside

/-- A snapshot with a third database, loaded by a node that has one. -/
example : (Command.load [["SELECT", "2"], ["SET", "a", "1"]] small).2.partitions.stored? 1000 0 "a" =
    some { datum := .text "1" } := by
  decide +kernel

end Node
end ReplicaStore
