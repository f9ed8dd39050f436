import ReplicaStore.Proofs.Command.Uniform

/-!
# Commands that are repeated later

What a command that writes leaves to be read at a later moment, and what it leaves if it is
run only then.  Both are the same, but where a key that the command works on has expired
meanwhile: RPUSH and LPUSH would then make the list anew, without an expiry, and PEXPIREAT
would not find the key to which it was to give a longer time.
-/

namespace ReplicaStore

namespace Keyspace

variable {keyspace : Keyspace} {now later : Int}

/-- What has expired stays expired. -/
theorem unexpired_unexpired (keyspace : Keyspace) (due : now ≤ later) :
    (keyspace.unexpired now).unexpired later = keyspace.unexpired later := by
  apply ext
  intro key
  rw [getElem?_unexpired, getElem?_unexpired, getElem?_unexpired]
  cases keyspace[key]? with
  | none => rfl
  | some entry =>
      have still : entry.expired now = true → entry.expired later = true := by
        cases given : entry.expiry with
        | none => simp [Entry.expired, given]
        | some moment =>
            simp only [Entry.expired, given, Option.any_some, decide_eq_true_eq]
            omega
      cases gone : entry.expired now with
      | false => simp [Option.filter, gone]
      | true => simp [Option.filter, gone, still gone]

theorem erase_of_none {key : String} (absent : keyspace[key]? = none) : keyspace.erase key = keyspace := by
  apply ext
  intro other
  rw [getElem?_erase]
  split
  · next same => rw [← same, absent]
  · rfl

theorem erase_erase (keyspace : Keyspace) (key : String) :
    (keyspace.erase key).erase key = keyspace.erase key := by
  apply ext
  intro other
  by_cases same : key = other <;> simp [same]

end Keyspace

namespace PartitionSet

/-- Of which the same can be read at a moment, of that the same can be read later. -/
theorem live_of_le {left right : PartitionSet} {now later : Int} (due : now ≤ later)
    (same : left.live now = right.live now) : left.live later = right.live later := by
  have twice (set : PartitionSet) : set.live later = (set.live now).map (·.unexpired later) := by
    simp only [live, List.map_map]
    apply List.map_congr_left
    intro partition _
    exact (Keyspace.unexpired_unexpired partition.visible due).symm
  rw [twice, twice, same]

theorem modify_of_none {set : PartitionSet} {index : Nat} (missing : set.get? index = none)
    (change : Partition → Partition) : set.modify index change = set := by
  have outside : set.partitions.length ≤ index := List.getElem?_eq_none_iff.mp missing
  rw [modify, List.modify_eq_self outside]

end PartitionSet

namespace Partition

variable {partition : Partition} {key : String} {now later : Int}

theorem live_of_le {left right : Partition} (due : now ≤ later)
    (same : left.live now = right.live now) : left.live later = right.live later := by
  rw [live, live, ← Keyspace.unexpired_unexpired left.visible due,
    ← Keyspace.unexpired_unexpired right.visible due]
  exact congrArg (Keyspace.unexpired · later) same

theorem live_touch_of_le (settled : partition.Settled) (key : String) (due : now ≤ later) :
    (partition.touch key now).live later = partition.live later :=
  live_of_le due (live_touch settled key now)

/-- A key of which an entry can be read, and what can be read of it later. -/
theorem getElem?_live_of_le (partition : Partition) (key : String) (due : now ≤ later) :
    (partition.live later)[key]? = (partition.live now)[key]?.filter (!·.expired later) := by
  rw [live, live, ← Keyspace.unexpired_unexpired partition.visible due,
    Keyspace.getElem?_unexpired (partition.visible.unexpired now)]

/-- What can be read later of a partition whose value under a key has been changed. -/
theorem live_modify_of_le (settled : partition.Settled) (key : String) (change : Datum → Datum)
    (due : now ≤ later) :
    (partition.modify key now change).2.live later =
      match (partition.live now)[key]? with
      | none => partition.live later
      | some entry =>
          if entry.expired later then (partition.live later).erase key
          else (partition.live later).insert key { entry with datum := change entry.datum } := by
  have same := congrArg Prod.snd (modify_eq settled key now change)
  rw [Prod.map_snd] at same
  rw [live, same, Keyspace.modify, Keyspace.getElem?_touch_self]
  have touched : (partition.visible.touch key now).unexpired later = partition.live later := by
    rw [← visible_touch settled]
    exact live_touch_of_le settled key due
  cases found : (partition.visible.unexpired now)[key]? with
  | none =>
      have absent : (partition.live now)[key]? = none := found
      simp only [absent, touched]
  | some entry =>
      have there : (partition.live now)[key]? = some entry := found
      simp only [there]
      rw [Keyspace.unexpired_insert, touched]
      rfl

/-- An operation that looks at the moment only to find the entry of one key leaves the same to
be read later whenever it is done, unless the entry expires meanwhile and this matters. -/
theorem live_of_formula {α : Type} {use : Int → Partition → α × Partition}
    {formula : Option Entry → Keyspace → Keyspace} (due : now ≤ later)
    (leaves : ∀ moment ≤ later,
      (use moment partition).2.live later = formula (partition.live moment)[key]? (partition.live later))
    (expires : ∀ entry, (partition.live now)[key]? = some entry → entry.expired later = true →
      formula (some entry) (partition.live later) = formula none (partition.live later)) :
    (use now partition).2.live later = (use later partition).2.live later := by
  rw [leaves now due, leaves later (Int.le_refl later), getElem?_live_of_le partition key due]
  cases found : (partition.live now)[key]? with
  | none => rfl
  | some entry =>
      cases gone : entry.expired later with
      | false => simp [Option.filter, gone]
      | true => simpa [Option.filter, gone] using expires entry found gone

end Partition

namespace Command

variable {partition : Partition} {key : String} {now later : Int}

/-- A key that can be read at a moment, if it can, can still be read later. -/
def Outlives (partition : Partition) (now later : Int) (key : String) : Prop :=
  ∀ entry, (partition.live now)[key]? = some entry → entry.expired later = false

/-- Of a key that has expired nothing can be read. -/
theorem erase_of_expired {entry : Entry} (due : now ≤ later)
    (found : (partition.live now)[key]? = some entry) (gone : entry.expired later = true) :
    (partition.live later).erase key = partition.live later := by
  apply Keyspace.erase_of_none
  rw [Partition.getElem?_live_of_le partition key due, found]
  simp [Option.filter, gone]

/-! ### Removing keys -/

theorem live_removeLive (settled : partition.Settled) (key : String) (due : now ≤ later) :
    (removeLive now partition key).2.live later = (partition.live later).erase key := by
  have touched : (partition.touch key now).live later = partition.live later :=
    Partition.live_touch_of_le settled key due
  have found : (partition.contains key now).1 = ((partition.live now)[key]?.map (·.datum)).isSome :=
    congrArg Option.isSome (Partition.get_fst settled key now)
  simp only [removeLive]
  cases there : (partition.live now)[key]? with
  | none =>
      rw [there] at found
      have absent : (partition.live later)[key]? = none := by
        rw [Partition.getElem?_live_of_le partition key due, there]
        rfl
      rw [if_neg (by simp [found]), Keyspace.erase_of_none absent]
      exact touched
  | some entry =>
      rw [there] at found
      have removed := Partition.live_delete (settled.touch key now) key later
      rw [touched] at removed
      rw [if_pos (by simp [found])]
      exact removed

theorem settled_removeLive (settled : partition.Settled) (key : String) (now : Int) :
    (removeLive now partition key).2.Settled := by
  have touched : (partition.contains key now).2.Settled := settled.touch key now
  simp only [removeLive]
  split
  · exact touched.delete key
  · exact touched

/-- What is left behind a step for each key is what the steps leave one after the other. -/
theorem forEach_snd {α : Type} (step : Partition → String → α × Partition) (keys : List String)
    (partition : Partition) :
    (forEach step keys partition).2 =
      keys.foldl (fun partition key => (step partition key).2) partition := by
  have each (results : List α) (partition : Partition) :
      (keys.foldl (fun state key => ((step state.2 key).1 :: state.1, (step state.2 key).2))
        (results, partition)).2 =
      keys.foldl (fun partition key => (step partition key).2) partition := by
    induction keys generalizing results partition with
    | nil => rfl
    | cons key keys ih => exact ih _ _
  exact each [] partition

theorem live_removeAll (settled : partition.Settled) (keys : List String) (due : now ≤ later) :
    (forEach (removeLive now) keys partition).2.live later =
      keys.foldl (·.erase ·) (partition.live later) := by
  rw [forEach_snd]
  induction keys generalizing partition with
  | nil => rfl
  | cons key keys ih =>
      rw [List.foldl_cons, List.foldl_cons, ih (settled_removeLive settled key now),
        live_removeLive settled key due]

/-! ### Expiries -/

/-- What can be read after a key has been given an expiry. -/
def expiring (key : String) (moment later : Int) (found : Option Entry) (view : Keyspace) : Keyspace :=
  match found with
  | none => view
  | some entry =>
      if moment ≤ later then view.erase key
      else view.insert key { datum := entry.datum, expiry := some moment }

theorem live_expireAt (settled : partition.Settled) (key : String) (moment : Int) (due : now ≤ later) :
    (expireAt now key moment partition).2.live later =
      expiring key moment later (partition.live now)[key]? (partition.live later) := by
  have touched : (partition.touch key now).live later = partition.live later :=
    Partition.live_touch_of_le settled key due
  have found := Partition.get_fst settled key now
  have left : (partition.get key now).2 = partition.touch key now := rfl
  simp only [expireAt, expiring]
  cases got : partition.get key now with
  | mk datum after =>
      rw [got] at found left
      dsimp only at found left
      subst found left
      cases there : (partition.live now)[key]? with
      | none => exact touched
      | some entry =>
          dsimp only [Option.map_some]
          split
          · rw [if_pos (by omega), Partition.live_delete (settled.touch key now), touched]
          · rw [Partition.live_put (settled.touch key now), touched]
            simp [Entry.expired]

theorem expireAt_later (settled : partition.Settled) {moment : Int} (due : now ≤ later)
    (punctual : Outlives partition now later key ∨ moment ≤ later) :
    (expireAt now key moment partition).2.live later =
      (expireAt later key moment partition).2.live later := by
  apply Partition.live_of_formula due fun _ => live_expireAt settled key moment
  intro entry found gone
  rcases punctual with outlives | short
  · rw [outlives entry found] at gone
    cases gone
  · simp only [expiring, if_pos short]
    exact erase_of_expired due found gone

/-! ### Lists -/

/-- What can be read after values have been pushed. -/
def growing (side : Side) (onlyExisting : Bool) (key : String) (values : List String) (later : Int)
    (found : Option Entry) (view : Keyspace) : Keyspace :=
  match found with
  | none => if onlyExisting then view else view.insert key { datum := .list (side.push values []) }
  | some entry =>
      if entry.expired later then view.erase key
      else view.insert key { entry with datum := onItems (side.push values) entry.datum }

theorem live_pushing (settled : partition.Settled) (side : Side) (onlyExisting : Bool) (key : String)
    (values : List String) (due : now ≤ later) :
    (pushing side onlyExisting key values now partition).2.live later =
      growing side onlyExisting key values later (partition.live now)[key]?
        (partition.live later) := by
  have found := Partition.modify_fst settled key now (onItems (side.push values))
  have live := Partition.live_modify_of_le settled key (onItems (side.push values)) due
  have still := settled.modify key now (onItems (side.push values))
  simp only [pushing, growing]
  cases changed : partition.modify key now (onItems (side.push values)) with
  | mk datum after =>
      rw [changed] at found live still
      dsimp only at found live still
      subst found
      cases there : (partition.live now)[key]? with
      | some entry =>
          rw [there] at live
          exact live
      | none =>
          rw [there] at live
          dsimp only [Option.map_none] at live ⊢
          cases onlyExisting with
          | true => exact live
          | false =>
              simp only [Bool.false_eq_true, if_false]
              rw [Partition.live_put still, live]
              rfl

/-- Pushing later makes a difference only where the list has expired and would be made anew. -/
theorem pushing_later (settled : partition.Settled) {side : Side} {onlyExisting : Bool}
    {values : List String} (due : now ≤ later)
    (punctual : Outlives partition now later key ∨ onlyExisting = true) :
    (pushing side onlyExisting key values now partition).2.live later =
      (pushing side onlyExisting key values later partition).2.live later := by
  apply Partition.live_of_formula due fun _ => live_pushing settled side onlyExisting key values
  intro entry found gone
  rcases punctual with outlives | only
  · rw [outlives entry found] at gone
    cases gone
  · simp only [growing, gone, only, if_true]
    exact erase_of_expired due found gone

/-- What can be read after items have been removed. -/
def shrinking (key : String) (count : Nat) (later : Int) (found : Option Entry) (view : Keyspace) :
    Keyspace :=
  match found with
  | none => view
  | some entry =>
      if entry.expired later || onItems (·.drop count) entry.datum = .list [] then view.erase key
      else view.insert key { entry with datum := onItems (·.drop count) entry.datum }

theorem live_popping (settled : partition.Settled) (key : String) (count : Nat) (due : now ≤ later) :
    (popping key count now partition).2.live later =
      shrinking key count later (partition.live now)[key]? (partition.live later) := by
  have found := Partition.modify_fst settled key now (onItems (·.drop count))
  have live := Partition.live_modify_of_le settled key (onItems (·.drop count)) due
  have still := settled.modify key now (onItems (·.drop count))
  simp only [popping, shrinking]
  cases changed : partition.modify key now (onItems (·.drop count)) with
  | mk datum after =>
      rw [changed] at found live still
      dsimp only at found live still
      subst found
      cases there : (partition.live now)[key]? with
      | none =>
          rw [there] at live
          exact live
      | some entry =>
          rw [there] at live
          dsimp only [Option.map_some] at live ⊢
          cases held : entry.datum with
          | text content =>
              rw [held] at live
              simpa [onItems] using live
          | list items =>
              rw [held] at live
              cases left : (items.drop count).isEmpty with
              | false =>
                  have some : items.drop count ≠ [] := by simpa using left
                  simpa [onItems, some] using live
              | true =>
                  have none : items.drop count = [] := by simpa using left
                  simp only [if_true, onItems, none, decide_true, Bool.or_true, List.isEmpty_nil]
                  rw [Partition.live_delete still, live]
                  split
                  · exact Keyspace.erase_erase _ key
                  · exact Keyspace.erase_insert _ key _

theorem popping_later (settled : partition.Settled) (key : String) (count : Nat) (due : now ≤ later) :
    (popping key count now partition).2.live later =
      (popping key count later partition).2.live later := by
  apply Partition.live_of_formula due fun _ => live_popping settled key count
  intro entry found gone
  simp only [shrinking, gone, Bool.true_or, if_true]
  exact erase_of_expired due found gone

end Command

/-! ### Steps of commands -/

/-- The node at another moment. -/
def Node.setWall (node : Node) (moment : Int) : Node :=
  { node with clock := { node.clock with wall := moment } }

/-- The context at another moment. -/
def Context.setWall (context : Context) (moment : Int) : Context :=
  { context with node := context.node.setWall moment }

namespace CommandM

variable {α : Type}

/-- A step leaves the same to be read later, whether it is run now or only then. -/
def Late (step : CommandM α) (later : Int) (context : Context) : Prop :=
  (step.outcome context).2.node.partitions.live later =
    (step.outcome (context.setWall later)).2.node.partitions.live later

variable {step : CommandM α} {context : Context} {later : Int}

/-- What becomes of the databases by using the one that is selected. -/
theorem partitions_onPartition (use : Partition → α × Partition) (context : Context) :
    ((onPartition use).outcome context).2.node.partitions =
      context.node.partitions.modify context.session.database fun partition => (use partition).2 := by
  rw [outcome_onPartition]
  cases found : context.node.partitions.get? context.session.database with
  | none => exact (PartitionSet.modify_of_none found _).symm
  | some partition => exact PartitionSet.modify_congr found rfl

/-- A step that uses nothing but the selected database and the moment is late if that use is. -/
theorem Late.of_use (use : Int → Partition → Partition)
    (works : ∀ moment, (step.outcome (context.setWall moment)).2.node.partitions =
      context.node.partitions.modify context.session.database (use moment))
    (same : ∀ partition, context.node.partitions.get? context.session.database = some partition →
      (use context.node.clock.wall partition).live later = (use later partition).live later) :
    Late step later context := by
  have now : (step.outcome context).2.node.partitions = _ := works context.node.clock.wall
  rw [Late, now, works later]
  cases found : context.node.partitions.get? context.session.database with
  | none => rw [PartitionSet.modify_of_none found, PartitionSet.modify_of_none found]
  | some partition =>
      rw [PartitionSet.live_modify found, PartitionSet.live_modify found, same partition found]

/-- What a step is followed by may leave its context alone. -/
theorem context_bind {β : Type} (step : CommandM α) {next : α → CommandM β}
    (silent : ∀ value context, ((next value).outcome context).2 = context) (context : Context) :
    ((step >>= next).outcome context).2 = (step.outcome context).2 := by
  rw [outcome_bind]
  match step.outcome context with
  | (.error error, after) => rfl
  | (.ok value, after) => exact silent value after

theorem Late.bind {β : Type} {next : α → CommandM β} (late : Late step later context)
    (silent : ∀ value context, ((next value).outcome context).2 = context) :
    Late (step >>= next) later context := by
  rw [Late, context_bind step silent, context_bind step silent]
  exact late

theorem Late.throw (error : CommandError) (later : Int) (context : Context) :
    Late (throw error : CommandM α) later context := rfl

theorem partitions_transact {β : Type} (use : Partition → α × Partition)
    (finish : α → Except CommandError β) (context : Context) :
    ((transact use finish).outcome context).2.node.partitions =
      context.node.partitions.modify context.session.database fun partition => (use partition).2 := by
  rw [outcome_transact]
  cases found : context.node.partitions.get? context.session.database with
  | none => exact (PartitionSet.modify_of_none found _).symm
  | some partition => exact PartitionSet.modify_congr found rfl

end CommandM

/-- A key of the selected database that can be read, if it can, can still be read later. -/
def Context.outlives (context : Context) (later : Int) (key : String) : Bool :=
  (context.node.partitions.get? context.session.database).all fun partition =>
    !((partition.live context.node.clock.wall)[key]?.any (·.expired later))

/-- Running the command later comes to the same: RPUSH and LPUSH still find the list that they
would find now, and so does PEXPIREAT with its key, unless the time that it gives is over then
in any case. -/
def Context.punctual (context : Context) (later : Int) : List String → Bool
  | name :: key :: rest =>
      match Text.upper name with
      | "LPUSH" | "RPUSH" => context.outlives later key
      | "PEXPIREAT" =>
          context.outlives later key || (rest.head?.bind Text.readSigned64).any (· ≤ later)
      | _ => true
  | _ => true

namespace Command

open CommandM

variable {context : Context} {later : Int}

theorem outlives_get (outlives : context.outlives later key = true) {partition : Partition}
    (found : context.node.partitions.get? context.session.database = some partition) :
    Outlives partition context.node.clock.wall later key := by
  intro entry there
  simp only [Context.outlives, found, Option.all_some, there, Option.any_some,
    Bool.not_eq_true'] at outlives
  exact outlives

section

variable (sound : context.node.partitions.Sound) (due : context.node.clock.wall ≤ later)

include sound due

theorem del_late (keys : List String) : Late (del keys) later context := by
  apply Late.of_use fun moment partition => (forEach (removeLive moment) keys partition).2
  · intro moment
    rw [del, outcome_bind, outcome_now]
    dsimp only
    rw [context_bind _ fun _ _ => rfl, partitions_onPartition]
    rfl
  · intro partition found
    have settled := (sound.get found).settled
    rw [live_removeAll settled keys due, live_removeAll settled keys (Int.le_refl later)]

theorem pexpireat_late (arguments : List String)
    (punctual : ∀ key limit moment, arguments = [key, limit] → Text.readSigned64 limit = some moment →
      context.outlives later key = true ∨ moment ≤ later) :
    Late (pexpireat arguments) later context := by
  match arguments with
  | [] | [_] | _ :: _ :: _ :: _ => exact .throw _ _ _
  | [key, limit] =>
      cases read : Text.readSigned64 limit with
      | none =>
          have fails (context : Context) : ((pexpireat [key, limit]).outcome context).2 = context := by
            rw [pexpireat, outcome_bind, outcome_integer, read]
          rw [Late, fails, fails]
          rfl
      | some limited =>
          apply Late.of_use fun moment partition => (expireAt moment key limited partition).2
          · intro moment
            rw [pexpireat, outcome_bind, outcome_integer, read]
            dsimp only
            rw [outcome_bind, outcome_now]
            dsimp only
            rw [context_bind _ fun _ _ => rfl, partitions_onPartition]
            rfl
          · intro partition found
            apply expireAt_later (sound.get found).settled due
            exact (punctual key limit limited rfl read).imp_left fun outlives =>
              outlives_get outlives found

theorem push_late (name : String) (side : Side) (onlyExisting : Bool) (arguments : List String)
    (punctual : onlyExisting = true ∨
      ∀ key rest, arguments = key :: rest → context.outlives later key = true) :
    Late (push name side onlyExisting arguments) later context := by
  match arguments with
  | [] | [_] => exact .throw _ _ _
  | key :: value :: more =>
      apply Late.of_use fun moment partition =>
        (pushing side onlyExisting key (value :: more) moment partition).2
      · intro moment
        rw [outcome_push, partitions_transact]
        rfl
      · intro partition found
        apply pushing_later (sound.get found).settled due
        exact (punctual.imp_right fun outlives =>
          outlives_get (outlives key (value :: more) rfl) found).symm

theorem pop_late (key : String) (count : Nat) : Late (pop key count) later context := by
  apply Late.of_use fun moment partition => (popping key count moment partition).2
  · intro moment
    rw [outcome_pop, partitions_transact]
    rfl
  · intro partition found
    exact popping_later (sound.get found).settled key count due

theorem lpop_late (arguments : List String) : Late (lpop arguments) later context := by
  match arguments with
  | [] | _ :: _ :: _ :: _ => exact .throw _ _ _
  | [key] =>
      apply (pop_late sound due key 1).bind
      rintro (_ | _ | _) context <;> rfl
  | [key, count] =>
      rw [lpop_eq]
      cases read : Text.readSigned64 count with
      | none =>
          rw [Late, outcome_bind, outcome_bind, outcome_integer, outcome_integer, read]
          rfl
      | some count =>
          rw [Late, outcome_bind, outcome_bind, outcome_integer, outcome_integer, read]
          dsimp only
          split
          · rfl
          · apply (pop_late sound due key count.toNat).bind
            rintro (_ | _) context <;> rfl

end

theorem mset_late (arguments : List String) : Late (mset arguments) later context := by
  rw [mset_eq]
  split
  · exact .throw _ _ _
  · apply Late.of_use fun _ partition => putPairs partition arguments
    · intro moment
      rw [context_bind _ fun _ _ => rfl, partitions_onPartition]
      rfl
    · intro partition _
      rfl

theorem flushall_late (arguments : List String) : Late (flushall arguments) later context := by
  rcases flushall_eq arguments with form | form
  · rw [form]
    exact .throw _ _ _
  · rw [form]
    rfl

theorem store_late (key value : String) (expiry : Option Int) :
    Late (store key value expiry) later context := by
  apply Late.of_use fun _ partition => partition.put key { datum := .text value, expiry }
  · intro moment
    rw [store, context_bind _ fun _ _ => rfl, partitions_onPartition]
    rfl
  · intro partition _
    rfl

/-- Of the commands that write, those that are run in their own form leave the same to be read
later, if they are punctual. -/
theorem basic_late {command : Command} (member : command ∈ basic) (writes : command.effect = .write)
    (other : command.name ≠ "SET") {arguments : List String}
    (sound : context.node.partitions.Sound) (due : context.node.clock.wall ≤ later)
    (punctual : context.punctual later (command.name :: arguments) = true) :
    Late (command.handler arguments) later context := by
  simp only [basic, List.mem_cons, List.not_mem_nil, or_false] at member
  rcases member with rfl | rfl | rfl | rfl | rfl | rfl | rfl | rfl | rfl | rfl | rfl | rfl | rfl |
    rfl | rfl | rfl | rfl | rfl | rfl | rfl | rfl | rfl | rfl | rfl | rfl | rfl | rfl | rfl | rfl
  all_goals try cases writes
  · exact absurd rfl other
  · exact mset_late arguments
  · exact del_late sound due arguments
  · apply pexpireat_late sound due arguments
    rintro key limit moment rfl read
    have name : Text.upper "PEXPIREAT" = "PEXPIREAT" := by decide
    simpa [Context.punctual, name, read] using punctual
  · exact flushall_late arguments
  · apply push_late sound due
    right
    rintro key rest rfl
    have name : Text.upper "LPUSH" = "LPUSH" := by decide
    simpa [Context.punctual, name] using punctual
  · apply push_late sound due
    right
    rintro key rest rfl
    have name : Text.upper "RPUSH" = "RPUSH" := by decide
    simpa [Context.punctual, name] using punctual
  · exact push_late sound due _ _ _ _ (.inl rfl)
  · exact push_late sound due _ _ _ _ (.inl rfl)
  · exact lpop_late sound due arguments

end Command
end ReplicaStore
