import ReplicaStore.Proofs.Command.Conduct
import ReplicaStore.Proofs.Partition.Live
import ReplicaStore.Proofs.Text.Decimal

/-!
# Writing the same everywhere

A command that writes gives the same result, and leaves the same to be read, wherever
it is run at the same moment on databases of which the same can be read.  If it fails
it leaves what can be read alone.  Such a command is called uniform.  This is why a
replica may run the commands of its leader instead of copying the leader's data.
-/

namespace ReplicaStore

namespace PartitionSet

/-- Every partition is sound. -/
def Sound (set : PartitionSet) : Prop :=
  ∀ partition ∈ set.partitions, partition.Sound

/-- Everything that clients see, database by database. -/
def contents (set : PartitionSet) : List Keyspace :=
  set.partitions.map (·.visible)

/-- What can be read of every partition. -/
def live (set : PartitionSet) (now : Int) : List Keyspace :=
  set.partitions.map (·.live now)

/-- Two sets of databases of which the same can be read at a moment. -/
structure Alike (now : Int) (left right : PartitionSet) : Prop where
  soundLeft : left.Sound
  soundRight : right.Sound
  live : left.live now = right.live now

theorem count_contents (set : PartitionSet) : set.contents.length = set.count :=
  List.length_map ..

theorem getElem?_live (set : PartitionSet) (now : Int) (index : Nat) :
    (set.live now)[index]? = (set.get? index).map (·.live now) :=
  List.getElem?_map ..

theorem count_live (set : PartitionSet) (now : Int) : (set.live now).length = set.count :=
  List.length_map ..

theorem get?_modify {set : PartitionSet} {index : Nat} {partition : Partition}
    (found : set.get? index = some partition) (change : Partition → Partition) :
    (set.modify index change).get? index = some (change partition) := by
  have there : set.partitions[index]? = some partition := found
  simp [get?, modify, there]

theorem Sound.get {set : PartitionSet} (sound : set.Sound) {index : Nat} {partition : Partition}
    (found : set.get? index = some partition) : partition.Sound :=
  sound partition (List.mem_of_getElem? found)

/-- What every partition has is kept if the one that is changed keeps it. -/
theorem forall_modify {holds : Partition → Prop} {set : PartitionSet}
    (all : ∀ partition ∈ set.partitions, holds partition) {index : Nat}
    {change : Partition → Partition}
    (changed : ∀ partition, set.get? index = some partition → holds (change partition)) :
    ∀ partition ∈ (set.modify index change).partitions, holds partition := by
  intro partition member
  obtain ⟨other, found⟩ := List.mem_iff_getElem?.mp member
  simp only [PartitionSet.modify, List.getElem?_modify] at found
  cases before : set.partitions[other]? with
  | none => simp [before] at found
  | some earlier =>
      simp only [before, Option.map_eq_map, Option.map_some, Option.some.injEq] at found
      split at found
      · next here =>
          subst here
          exact found ▸ changed earlier before
      · exact found ▸ all earlier (List.mem_of_getElem? before)

theorem Sound.modify {set : PartitionSet} (sound : set.Sound) {index : Nat}
    {change : Partition → Partition}
    (changed : ∀ partition, set.get? index = some partition → (change partition).Sound) :
    (set.modify index change).Sound :=
  forall_modify sound changed

/-- Where all partitions look the same, those of one number do, or there are none. -/
theorem get?_of_map_eq {left right : PartitionSet} {view : Partition → Keyspace}
    (same : left.partitions.map view = right.partitions.map view) (index : Nat) :
    (left.get? index = none ∧ right.get? index = none) ∨
    ∃ here there, left.get? index = some here ∧ right.get? index = some there ∧
      view here = view there := by
  have views : (left.get? index).map view = (right.get? index).map view := by
    rw [get?, get?, ← List.getElem?_map, ← List.getElem?_map, same]
  cases here : left.get? index with
  | none =>
      rw [here] at views
      exact .inl ⟨rfl, Option.map_eq_none_iff.mp views.symm⟩
  | some partition =>
      rw [here] at views
      obtain ⟨other, there, view⟩ := Option.map_eq_some_iff.mp views.symm
      exact .inr ⟨partition, other, rfl, there, view.symm⟩

theorem live_flush (set : PartitionSet) (now : Int) :
    set.flush.live now = List.replicate set.count (Partition.live {} now) := by
  have flushed : (fun partition : Partition => partition.live now) ∘ Partition.flush =
      fun _ => Partition.live {} now := rfl
  simp only [live, flush, List.map_map, count, flushed, List.map_const']

/-- What is looked at in every partition changes at the one that is changed. -/
theorem map_modify {set : PartitionSet} {index : Nat} {partition : Partition}
    (found : set.get? index = some partition) (view : Partition → Keyspace)
    (change : Partition → Partition) :
    (set.modify index change).partitions.map view =
      (set.partitions.map view).set index (view (change partition)) := by
  apply List.ext_getElem?
  intro other
  have there : set.partitions[index]? = some partition := found
  simp only [modify, List.getElem?_map, List.getElem?_modify, List.getElem?_set]
  by_cases here : index = other
  · subst here
    obtain ⟨inside, value⟩ := List.getElem?_eq_some_iff.mp there
    simp [inside, value]
  · simp [here]

theorem live_modify {set : PartitionSet} {index : Nat} {now : Int} {partition : Partition}
    (found : set.get? index = some partition) (change : Partition → Partition) :
    (set.modify index change).live now = (set.live now).set index ((change partition).live now) :=
  map_modify found (·.live now) change

theorem Sound.flush (set : PartitionSet) : set.flush.Sound := by
  simp [PartitionSet.Sound, PartitionSet.flush, Partition.flush, Partition.Sound.new]

/-- A change that nobody can read is none. -/
theorem live_modify_of_same {set : PartitionSet} {index : Nat} {now : Int} {partition : Partition}
    (found : set.get? index = some partition) {change : Partition → Partition}
    (same : (change partition).live now = partition.live now) :
    (set.modify index change).live now = set.live now := by
  rw [live_modify found, same]
  apply List.ext_getElem?
  intro other
  rw [List.getElem?_set]
  split
  · next here =>
      subst here
      rw [getElem?_live, found]
      have inside : index < set.count := (List.getElem?_eq_some_iff.mp found).1
      rw [count_live, if_pos inside]
      rfl
  · rfl

namespace Alike

variable {now : Int} {left right : PartitionSet}

theorem refl {set : PartitionSet} (sound : set.Sound) (now : Int) : Alike now set set :=
  ⟨sound, sound, rfl⟩

theorem count (alike : Alike now left right) : left.count = right.count := by
  rw [← count_live left now, alike.live, count_live]

/-- The partitions of one number are alike, or there are none. -/
theorem get (alike : Alike now left right) (index : Nat) :
    (left.get? index = none ∧ right.get? index = none) ∨
    ∃ here there, left.get? index = some here ∧ right.get? index = some there ∧
      Partition.Alike now here there := by
  rcases get?_of_map_eq alike.live index with none | ⟨here, there, foundLeft, foundRight, live⟩
  · exact .inl none
  · exact .inr ⟨here, there, foundLeft, foundRight, alike.soundLeft.get foundLeft,
      alike.soundRight.get foundRight, live⟩

theorem modify (alike : Alike now left right) {index : Nat} {here there : Partition}
    (foundLeft : left.get? index = some here) (foundRight : right.get? index = some there)
    {changeLeft changeRight : Partition → Partition}
    (changed : Partition.Alike now (changeLeft here) (changeRight there)) :
    Alike now (left.modify index changeLeft) (right.modify index changeRight) where
  soundLeft := by
    apply alike.soundLeft.modify
    intro partition found
    rw [foundLeft] at found
    cases found
    exact changed.soundLeft
  soundRight := by
    apply alike.soundRight.modify
    intro partition found
    rw [foundRight] at found
    cases found
    exact changed.soundRight
  live := by rw [live_modify foundLeft, live_modify foundRight, alike.live, changed.live]

theorem flush (alike : Alike now left right) : Alike now left.flush right.flush where
  soundLeft := .flush left
  soundRight := .flush right
  live := by
    rw [live_flush, live_flush, alike.count]

end Alike
end PartitionSet

/-- Two contexts at one moment, on the same database, with the same to be read. -/
structure Context.Alike (moment : Int) (left right : Context) : Prop where
  wallLeft : left.node.clock.wall = moment
  wallRight : right.node.clock.wall = moment
  database : left.session.database = right.session.database
  partitions : left.node.partitions.Alike moment right.node.partitions

namespace CommandM

variable {α β : Type} {moment : Int}

/-- A step of a command that does the same wherever the same can be read, and that
leaves this alone if it fails. -/
def Uniform (moment : Int) (step : CommandM α) : Prop :=
  ∀ left right, Context.Alike moment left right →
    (step.outcome left).1 = (step.outcome right).1 ∧
    Context.Alike moment (step.outcome left).2 (step.outcome right).2 ∧
    ∀ error, (step.outcome left).1 = .error error →
      (step.outcome left).2.node.partitions.live moment = left.node.partitions.live moment

namespace Uniform

theorem throw (error : CommandError) :
    (throw error : CommandM α).Uniform moment :=
  fun _ _ alike => ⟨rfl, alike, fun _ _ => rfl⟩

/-- A step that only looks at what is the same everywhere. -/
theorem look {first : CommandM α} {next : α → CommandM β} {result : Except CommandError α}
    (given : ∀ context : Context, context.node.clock.wall = moment →
      first.outcome context = (result, context))
    (later : ∀ value, result = .ok value → (next value).Uniform moment) :
    (first >>= next).Uniform moment := by
  intro left right alike
  cases result with
  | error error =>
      rw [outcome_bind_error (given left alike.wallLeft),
        outcome_bind_error (given right alike.wallRight)]
      exact ⟨rfl, alike, fun _ _ => rfl⟩
  | ok value =>
      rw [outcome_bind_ok (given left alike.wallLeft), outcome_bind_ok (given right alike.wallRight)]
      exact later value rfl left right alike

theorem now {next : Int → CommandM β} (later : (next moment).Uniform moment) :
    (CommandM.now >>= next).Uniform moment := by
  have given : ∀ context : Context, context.node.clock.wall = moment →
      CommandM.now.outcome context = (.ok moment, context) := by
    intro context wall
    rw [outcome_now, wall]
  apply look given
  rintro value ⟨⟩
  exact later

/-- What is read is a word of 64 bits. -/
theorem integer {argument : String} {next : Int → CommandM β}
    (later : ∀ value ≤ Text.maxSigned64, (next value).Uniform moment) :
    (CommandM.integer argument >>= next).Uniform moment := by
  apply look fun context _ => outcome_integer argument context
  intro value read
  cases given : Text.readSigned64 argument with
  | none =>
      rw [given] at read
      cases read
  | some number =>
      rw [given] at read
      cases read
      exact later value (Text.readSigned64_le given)

/-- Steps with the same outcomes at the moment are uniform together. -/
theorem congr {step other : CommandM α} (uniform : other.Uniform moment)
    (same : ∀ context : Context, context.node.clock.wall = moment →
      step.outcome context = other.outcome context) : step.Uniform moment := by
  intro left right alike
  rw [same left alike.wallLeft, same right alike.wallRight]
  exact uniform left right alike

/-- What is made of the result of a uniform step is uniform. -/
theorem map {first : CommandM α} (uniform : first.Uniform moment) (make : α → β) :
    (first >>= fun value => Pure.pure (make value)).Uniform moment := by
  intro left right alike
  obtain ⟨same, after, steady⟩ := uniform left right alike
  rw [outcome_bind, outcome_bind]
  cases outLeft : first.outcome left with
  | mk resultLeft afterLeft =>
      cases outRight : first.outcome right with
      | mk resultRight afterRight =>
          rw [outLeft, outRight] at same after
          rw [outLeft] at steady
          cases same
          cases resultLeft with
          | error error =>
              refine ⟨rfl, after, fun failure failed => steady failure ?_⟩
              cases failed
              rfl
          | ok value => exact ⟨rfl, after, fun _ failed => by cases failed⟩

end Uniform

/-- Uses the selected database and makes a result of what that gives. -/
def transact (use : Partition → α × Partition) (finish : α → Except CommandError β) :
    CommandM β := do
  liftM (finish (← onPartition use))

theorem outcome_transact (use : Partition → α × Partition) (finish : α → Except CommandError β)
    (context : Context) :
    (transact use finish).outcome context =
      match context.node.partitions.get? context.session.database with
      | none => (.error .noSuchDatabase, context)
      | some partition =>
          (finish (use partition).1,
            { context with
              node := { context.node with
                partitions := context.node.partitions.modify context.session.database
                  fun _ => (use partition).2 } }) := by
  rw [transact, outcome_bind, outcome_onPartition]
  cases context.node.partitions.get? context.session.database with
  | none => rfl
  | some partition => exact outcome_liftM ..

namespace Uniform

theorem transact {use : Partition → α × Partition} {finish : α → Except CommandError β}
    (uniform : Partition.Uniform moment use)
    (steady : ∀ partition error, partition.Sound → finish (use partition).1 = .error error →
      (use partition).2.live moment = partition.live moment) :
    (CommandM.transact use finish).Uniform moment := by
  intro left right alike
  rw [outcome_transact, outcome_transact, ← alike.database]
  rcases alike.partitions.get left.session.database with ⟨here, there⟩ |
    ⟨here, there, foundLeft, foundRight, same⟩
  · rw [here, there]
    exact ⟨rfl, alike, fun _ _ => rfl⟩
  · obtain ⟨given, after⟩ := uniform here there same
    rw [foundLeft, foundRight]
    refine ⟨congrArg finish given, ?_, ?_⟩
    · exact ⟨alike.wallLeft, alike.wallRight, alike.database,
        alike.partitions.modify foundLeft foundRight after⟩
    · intro error failed
      dsimp only at failed ⊢
      apply PartitionSet.live_modify_of_same foundLeft
      exact steady here error same.soundLeft failed

theorem onPartition {use : Partition → α × Partition} (uniform : Partition.Uniform moment use) :
    (CommandM.onPartition use).Uniform moment := by
  have always : (CommandM.transact use Except.ok).Uniform moment := by
    apply transact uniform
    intro partition error _ failed
    cases failed
  apply always.congr
  intro context _
  refine (outcome_onPartition use context).trans ?_
  refine Eq.trans ?_ (outcome_transact use Except.ok context).symm
  cases context.node.partitions.get? context.session.database <;> rfl

end Uniform
end CommandM

/-- What a step keeps between two partitions that it cannot tell apart is kept by a step for
each key. -/
theorem Command.forEach_relates {α : Type} {related : Partition → Partition → Prop}
    {step : Partition → String → α × Partition}
    (relates : ∀ (key : String) (left right : Partition), related left right →
      (step left key).1 = (step right key).1 ∧ related (step left key).2 (step right key).2)
    (keys : List String) {left right : Partition} (alike : related left right) :
    (forEach step keys left).1 = (forEach step keys right).1 ∧
      related (forEach step keys left).2 (forEach step keys right).2 := by
  have each (results : List α) (left right : Partition) (alike : related left right) :
      (keys.foldl (fun state key => ((step state.2 key).1 :: state.1, (step state.2 key).2))
        (results, left)).1 =
        (keys.foldl (fun state key => ((step state.2 key).1 :: state.1, (step state.2 key).2))
          (results, right)).1 ∧
      related
        (keys.foldl (fun state key => ((step state.2 key).1 :: state.1, (step state.2 key).2))
          (results, left)).2
        (keys.foldl (fun state key => ((step state.2 key).1 :: state.1, (step state.2 key).2))
          (results, right)).2 := by
    induction keys generalizing results left right with
    | nil => exact ⟨rfl, alike⟩
    | cons key keys ih =>
        obtain ⟨same, after⟩ := relates key left right alike
        simp only [List.foldl_cons, same]
        exact ih _ _ _ after
  obtain ⟨same, after⟩ := each [] left right alike
  exact ⟨congrArg List.reverse same, after⟩

namespace Partition.Uniform

variable {α : Type} {now : Int}

theorem forEach {step : Partition → String → α × Partition}
    (uniform : ∀ key, Partition.Uniform now (step · key)) (keys : List String) :
    Partition.Uniform now (Command.forEach step keys) :=
  fun _ _ => Command.forEach_relates uniform keys

theorem removeLive (key : String) (now : Int) :
    Partition.Uniform now (Command.removeLive now · key) := by
  intro left right alike
  obtain ⟨same, after⟩ := contains key now left right alike
  simp only [Command.removeLive, same]
  cases found : (right.contains key now).1 with
  | false => exact ⟨rfl, after⟩
  | true =>
      refine ⟨?_, after.delete key⟩
      -- A key that was found when it was touched can still be seen.
      have seen {partition : Partition} (found : (partition.contains key now).1 = true) :
          ((partition.contains key now).2.lookup key).isSome = true := by
        simpa [Partition.contains, Partition.get] using found
      simp only [if_true, Partition.remove, seen found, seen (same.trans found)]

theorem expireAt (key : String) {moment : Int} (fits : moment ≤ Text.maxSigned64) (now : Int) :
    Partition.Uniform now (Command.expireAt now key moment) := by
  intro left right alike
  obtain ⟨same, after⟩ := get key now left right alike
  dsimp only at same after
  have storable : ∀ datum, (right.get key now).1 = some datum →
      Entry.Storable { datum, expiry := some moment } := by
    intro datum found
    obtain ⟨entry, stored, rfl⟩ := Option.map_eq_some_iff.mp found
    refine ⟨?_, ((alike.soundRight.touch key now).storable key entry stored).datum⟩
    rintro _ ⟨⟩
    exact fits
  simp only [Command.expireAt]
  cases here : left.get key now with
  | mk datumLeft touchedLeft =>
      cases there : right.get key now with
      | mk datum touched =>
          rw [here, there] at same after
          rw [there] at storable
          dsimp only at same
          subst same
          cases datumLeft with
          | none => exact ⟨rfl, after⟩
          | some datum =>
              dsimp only
              split
              · exact ⟨rfl, after.delete key⟩
              · exact ⟨rfl, after.put key (storable datum rfl)⟩

theorem putPairs (arguments : List String) (now : Int) :
    Partition.Uniform now fun partition => ((), Command.putPairs partition arguments) := by
  intro left right alike
  refine ⟨rfl, ?_⟩
  dsimp only
  fun_induction Command.putPairs left arguments generalizing right with
  | case1 left key value rest ih =>
      rw [Command.putPairs]
      exact ih _ (alike.put key ⟨by simp, by simp⟩)
  | case2 left arguments short =>
      rw [Command.putPairs]
      · exact alike
      · exact short

end Partition.Uniform

namespace Command

/-! ### Lists -/

/-- Pushing values in one go: what was there before, and what is there then. -/
def pushing (side : Side) (onlyExisting : Bool) (key : String) (values : List String) (now : Int)
    (partition : Partition) : Option Datum × Partition :=
  match partition.modify key now (onItems (side.push values)) with
  | (some datum, changed) => (some datum, changed)
  | (none, touched) =>
      (none,
        if onlyExisting then touched
        else touched.put key { datum := .list (side.push values []) })

/-- The reply to pushing. -/
def pushed (side : Side) (onlyExisting : Bool) (values : List String) :
    Option Datum → Except CommandError Reply
  | some (.list items) => .ok [.integer ((items.length + values.length : Nat) : Int)]
  | some (.text _) => .error .wrongType
  | none => .ok [.integer (if onlyExisting then 0 else (side.push values []).length : Nat)]

/-- Removing items in one go: what was there before, and what is there then. -/
def popping (key : String) (count : Nat) (now : Int) (partition : Partition) :
    Option Datum × Partition :=
  match partition.modify key now (onItems (·.drop count)) with
  | (some (.list items), changed) =>
      (some (.list items), if (items.drop count).isEmpty then changed.delete key else changed)
  | other => other

/-- The items that were removed. -/
def popped (count : Nat) : Option Datum → Except CommandError (Option (List String))
  | some (.list items) => .ok (some (items.take count))
  | some (.text _) => .error .wrongType
  | none => .ok none

open CommandM

theorem outcome_push (name : String) (side : Side) (onlyExisting : Bool) (key value : String)
    (more : List String) (context : Context) :
    (push name side onlyExisting (key :: value :: more)).outcome context =
      (transact (pushing side onlyExisting key (value :: more) context.node.clock.wall)
        (pushed side onlyExisting (value :: more))).outcome context := by
  rw [outcome_transact, push]
  dsimp only
  rw [outcome_bind, changeList, outcome_bind, outcome_now]
  dsimp only
  rw [outcome_bind, outcome_onPartition]
  cases found : context.node.partitions.get? context.session.database with
  | none => rfl
  | some partition =>
      dsimp only
      cases changed : partition.modify key context.node.clock.wall
          (onItems (side.push (value :: more))) with
      | mk datum after =>
          simp only [pushing, changed]
          match datum with
          | some (.list items) => rfl
          | some (.text content) => rfl
          | none =>
              cases onlyExisting with
              | true => rfl
              | false =>
                  simp only [items?, outcome_bind, outcome_onPartition, outcome_pure,
                    PartitionSet.get?_modify found, PartitionSet.modify_modify,
                    Bool.false_eq_true, if_false]
                  rfl

theorem outcome_pop (key : String) (count : Nat) (context : Context) :
    (pop key count).outcome context =
      (transact (popping key count context.node.clock.wall) (popped count)).outcome context := by
  rw [outcome_transact, pop]
  rw [outcome_bind, changeList, outcome_bind, outcome_now]
  dsimp only
  rw [outcome_bind, outcome_onPartition]
  cases found : context.node.partitions.get? context.session.database with
  | none => rfl
  | some partition =>
      dsimp only
      cases changed : partition.modify key context.node.clock.wall (onItems (·.drop count)) with
      | mk datum after =>
          simp only [popping, changed]
          match datum with
          | none => rfl
          | some (.text content) => rfl
          | some (.list items) =>
              simp only [items?, outcome_pure]
              cases empty : (items.drop count).isEmpty with
              | false => rfl
              | true =>
                  simp only [outcome_bind, outcome_onPartition, outcome_pure,
                    PartitionSet.get?_modify found, PartitionSet.modify_modify, if_true]
                  rfl

theorem push_ne_nil (side : Side) {values : List String} (given : values ≠ []) (items : List String) :
    side.push values items ≠ [] := by
  cases side <;> simp [Side.push, given]

theorem pushing_uniform (side : Side) (onlyExisting : Bool) (key : String) {values : List String}
    (given : values ≠ []) (now : Int) :
    Partition.Uniform now (pushing side onlyExisting key values now) := by
  have carried : ∀ datum, datum ≠ .list [] → onItems (side.push values) datum ≠ .list [] := by
    intro datum storable
    cases datum with
    | text content => exact storable
    | list items => simpa [onItems] using push_ne_nil side given items
  intro left right alike
  obtain ⟨same, after⟩ := Partition.Uniform.modify key now carried left right alike
  dsimp only at same after
  simp only [pushing]
  cases here : left.modify key now (onItems (side.push values)) with
  | mk datum changedLeft =>
      cases there : right.modify key now (onItems (side.push values)) with
      | mk other changedRight =>
          rw [here, there] at same after
          dsimp only at same
          subst same
          cases datum with
          | some datum => exact ⟨rfl, after⟩
          | none =>
              cases onlyExisting with
              | true => exact ⟨rfl, after⟩
              | false =>
                  refine ⟨rfl, after.put key ⟨by simp, ?_⟩⟩
                  simpa using push_ne_nil side given []

/-- A value that is no list is not changed by a change of items. -/
theorem live_modify_onItems {partition : Partition} (settled : partition.Settled) {key : String}
    {now : Int} {change : List String → List String} {content : String}
    (found : (partition.modify key now (onItems change)).1 = some (.text content)) :
    (partition.modify key now (onItems change)).2.live now = partition.live now := by
  rw [Partition.modify_fst settled] at found
  obtain ⟨entry, live, text⟩ := Option.map_eq_some_iff.mp found
  have same : { entry with datum := onItems change entry.datum } = entry := by
    cases entry
    cases text
    rfl
  rw [Partition.live_modify settled, live]
  dsimp only
  rw [same]
  apply Keyspace.ext
  intro other
  rw [Keyspace.getElem?_insert]
  split
  · next here => rw [← here, live]
  · rfl

theorem pushed_steady (side : Side) (onlyExisting : Bool) (key : String) (values : List String)
    (now : Int) (partition : Partition) (error : CommandError) (sound : partition.Sound)
    (failed : pushed side onlyExisting values (pushing side onlyExisting key values now partition).1 =
      .error error) :
    (pushing side onlyExisting key values now partition).2.live now = partition.live now := by
  have text {content : String} :=
    @live_modify_onItems partition sound.settled key now (side.push values) content
  simp only [pushing] at failed ⊢
  cases changed : partition.modify key now (onItems (side.push values)) with
  | mk datum after =>
      simp only [changed] at failed text
      match datum with
      | some (.text content) => exact text rfl
      | some (.list items) => cases failed
      | none => cases failed

theorem popping_uniform (key : String) (count : Nat) (now : Int) :
    Partition.Uniform now (popping key count now) := by
  intro left right alike
  have same : (left.modify key now (onItems (·.drop count))).1 =
      (right.modify key now (onItems (·.drop count))).1 := by
    rw [Partition.modify_fst alike.soundLeft.settled, Partition.modify_fst alike.soundRight.settled,
      alike.live]
  have removed := alike.modify_delete key (onItems (·.drop count))
  have kept := @Partition.Alike.modify now left right alike key (onItems (·.drop count))
  rw [← Partition.modify_fst alike.soundLeft.settled] at kept
  simp only [popping]
  cases here : left.modify key now (onItems (·.drop count)) with
  | mk datum changedLeft =>
      cases there : right.modify key now (onItems (·.drop count)) with
      | mk other changedRight =>
          rw [here, there] at same removed kept
          dsimp only at same
          subst same
          match datum with
          | none => exact ⟨rfl, kept (by simp)⟩
          | some (.text content) => exact ⟨rfl, kept (by simp [onItems])⟩
          | some (.list items) =>
              dsimp only
              cases left : (items.drop count).isEmpty with
              | true => exact ⟨rfl, removed⟩
              | false =>
                  refine ⟨rfl, kept ?_⟩
                  rintro _ ⟨⟩
                  simpa [onItems] using left

theorem popped_steady (key : String) (count : Nat) (now : Int) (partition : Partition)
    (error : CommandError) (sound : partition.Sound)
    (failed : popped count (popping key count now partition).1 = .error error) :
    (popping key count now partition).2.live now = partition.live now := by
  have text {content : String} :=
    @live_modify_onItems partition sound.settled key now (·.drop count) content
  simp only [popping] at failed ⊢
  cases changed : partition.modify key now (onItems (·.drop count)) with
  | mk datum after =>
      simp only [changed] at failed text
      match datum with
      | some (.text content) => exact text rfl
      | some (.list items) => cases failed
      | none => cases failed

/-! ### Every command that writes -/

variable {moment : Int}

theorem setExpiry_le {now : Int} {found expiry : Option SetExpiry} {options : List String}
    (read : setExpiry? now found options = .ok expiry)
    (fits : ∀ limit, found = some limit → limit.moment ≤ Text.maxSigned64) (limit : SetExpiry)
    (given : expiry = some limit) : limit.moment ≤ Text.maxSigned64 := by
  fun_induction setExpiry? now found options with
  | case1 =>
      cases read
      exact fits limit given
  | case2 => cases read
  | case3 => cases read
  | case4 => cases read
  | case5 => cases read
  | case6 found option _ rest _ amount _ _ _ ih =>
      apply ih read
      rintro _ ⟨⟩
      exact Int.min_le_right ..
  | case7 found option _ rest _ amount valid _ _ ih =>
      apply ih read
      rintro _ ⟨⟩
      exact Text.readSigned64_le valid
  | case8 => cases read

theorem store_uniform (key value : String) {expiry : Option Int}
    (fits : ∀ limit, expiry = some limit → limit ≤ Text.maxSigned64) :
    (store key value expiry).Uniform moment := by
  have stored := Uniform.onPartition (@Partition.Uniform.put key
    { datum := .text value, expiry } ⟨fits, by simp⟩ moment)
  exact stored.map fun _ => [Wire.Value.ok]

theorem set_uniform (arguments : List String) : (set arguments).Uniform moment := by
  match arguments with
  | [] | [_] => exact .throw _
  | key :: value :: options =>
      intro left right alike
      rw [outcome_set, outcome_set, alike.wallLeft, alike.wallRight]
      cases read : setExpiry? moment none options with
      | error error => exact ⟨rfl, alike, fun _ _ => rfl⟩
      | ok expiry =>
          have fits : ∀ limit, expiry.map (·.moment) = some limit → limit ≤ Text.maxSigned64 := by
            intro limit given
            obtain ⟨found, rfl, rfl⟩ := Option.map_eq_some_iff.mp given
            exact setExpiry_le read (by simp) found rfl
          have database (session : Session) :
              (noteForm key value expiry session).database = session.database := by
            simp only [noteForm]
            split <;> rfl
          apply store_uniform key value fits
          exact ⟨alike.wallLeft, alike.wallRight, by rw [database, database, alike.database],
            alike.partitions⟩

theorem mset_uniform (arguments : List String) : (mset arguments).Uniform moment := by
  rw [mset_eq]
  split
  · exact .throw _
  · have stored := Uniform.onPartition (Partition.Uniform.putPairs arguments moment)
    exact stored.map fun _ => [Wire.Value.ok]

theorem del_uniform (keys : List String) : (del keys).Uniform moment := by
  apply Uniform.now
  have removed := Uniform.onPartition
    (Partition.Uniform.forEach (Partition.Uniform.removeLive · moment) keys)
  exact removed.map fun removed => [Wire.Value.integer (removed.countP id)]

theorem pexpireat_uniform (arguments : List String) : (pexpireat arguments).Uniform moment := by
  match arguments with
  | [key, limit] =>
      apply Uniform.integer
      intro limit fits
      apply Uniform.now
      have found := Uniform.onPartition (Partition.Uniform.expireAt key fits moment)
      exact found.map fun found => [Wire.Value.integer (if found then 1 else 0 : Nat)]
  | [] | [_] | _ :: _ :: _ :: _ => exact .throw _

theorem flushall_uniform (arguments : List String) : (flushall arguments).Uniform moment := by
  rcases flushall_eq arguments with form | form
  · rw [form]
    exact .throw _
  · rw [form]
    intro left right alike
    exact ⟨rfl, ⟨alike.wallLeft, alike.wallRight, alike.database, alike.partitions.flush⟩,
      fun _ failed => by cases failed⟩

theorem push_uniform (name : String) (side : Side) (onlyExisting : Bool)
    (arguments : List String) : (push name side onlyExisting arguments).Uniform moment := by
  match arguments with
  | key :: value :: more =>
      have pushes := Uniform.transact
        (pushing_uniform side onlyExisting key (List.cons_ne_nil value more) moment)
        (pushed_steady side onlyExisting key (value :: more) moment)
      apply pushes.congr
      intro context wall
      rw [outcome_push, wall]
  | [] | [_] => exact .throw _

theorem pop_uniform (key : String) (count : Nat) : (pop key count).Uniform moment := by
  have pops := Uniform.transact (popping_uniform key count moment) (popped_steady key count moment)
  apply pops.congr
  intro context wall
  rw [outcome_pop, wall]

/-- What LPOP replies to one item that was taken out, or to a missing key. -/
def firstItem : Option (List String) → Reply
  | some (item :: _) => [.bulk item]
  | _ => [.null]

/-- What LPOP with a count replies. -/
def allItems : Option (List String) → Reply
  | some items => [.strings items]
  | none => [.null]

theorem lpop_uniform (arguments : List String) : (lpop arguments).Uniform moment := by
  match arguments with
  | [key] =>
      apply ((@pop_uniform moment key 1).map firstItem).congr
      intro context _
      rw [lpop, outcome_bind, outcome_bind]
      rcases (pop key 1).outcome context with ⟨_ | _ | _ | _, after⟩ <;> rfl
  | [key, count] =>
      rw [lpop_eq]
      apply Uniform.integer
      intro count _
      split
      · exact .throw _
      · apply ((@pop_uniform moment key count.toNat).map allItems).congr
        intro context _
        rw [outcome_bind, outcome_bind]
        rcases (pop key count.toNat).outcome context with ⟨_ | _ | _, after⟩ <;> rfl
  | [] | _ :: _ :: _ :: _ => exact .throw _

/-- Every command that writes is uniform. -/
theorem basic_uniform {command : Command} (member : command ∈ basic)
    (writes : command.effect = .write) (arguments : List String) :
    (command.handler arguments).Uniform moment := by
  simp only [basic, List.mem_cons, List.not_mem_nil, or_false] at member
  rcases member with rfl | rfl | rfl | rfl | rfl | rfl | rfl | rfl | rfl | rfl | rfl | rfl | rfl |
    rfl | rfl | rfl | rfl | rfl | rfl | rfl | rfl | rfl | rfl | rfl | rfl | rfl | rfl | rfl | rfl
  all_goals try cases writes
  · exact set_uniform arguments
  · exact mset_uniform arguments
  · exact del_uniform arguments
  · exact pexpireat_uniform arguments
  · exact flushall_uniform arguments
  · exact push_uniform _ _ _ arguments
  · exact push_uniform _ _ _ arguments
  · exact push_uniform _ _ _ arguments
  · exact push_uniform _ _ _ arguments
  · exact lpop_uniform arguments

end Command
end ReplicaStore
