import ReplicaStore.Command.Table

/-!
# The outcome of a step of a command

A step of a command either fails or gives a value, and leaves a context in both cases.
`CommandM.outcome` is that pair, with one equation for each way in which steps are
made, so that the proofs about commands need not look into the monad.
-/

namespace ReplicaStore

namespace CommandM

variable {α β : Type}

/-- What a step gives, and the context that it leaves. -/
def outcome (step : CommandM α) (context : Context) : Except CommandError α × Context :=
  step.run context

@[simp] theorem outcome_pure (value : α) (context : Context) :
    (pure value : CommandM α).outcome context = (.ok value, context) := rfl

@[simp] theorem outcome_throw (error : CommandError) (context : Context) :
    (throw error : CommandM α).outcome context = (.error error, context) := rfl

theorem outcome_bind (first : CommandM α) (next : α → CommandM β) (context : Context) :
    (first >>= next).outcome context =
      match first.outcome context with
      | (.ok value, later) => (next value).outcome later
      | (.error error, later) => (.error error, later) := by
  simp only [outcome, bind, ExceptT.bind, ExceptT.mk, ExceptT.run, StateT.bind,
    ExceptT.bindCont]
  cases first context with
  | mk result later => cases result <;> rfl

/-- A step that gives a value hands it on together with its context. -/
theorem outcome_bind_ok {first : CommandM α} {context later : Context} {value : α}
    (given : first.outcome context = (.ok value, later)) (next : α → CommandM β) :
    (first >>= next).outcome context = (next value).outcome later := by
  rw [outcome_bind, given]

/-- A step that fails ends the whole. -/
theorem outcome_bind_error {first : CommandM α} {context later : Context}
    {error : CommandError} (given : first.outcome context = (.error error, later))
    (next : α → CommandM β) :
    (first >>= next).outcome context = (.error error, later) := by
  rw [outcome_bind, given]

@[simp] theorem outcome_node (context : Context) :
    node.outcome context = (.ok context.node, context) := rfl

@[simp] theorem outcome_session (context : Context) :
    session.outcome context = (.ok context.session, context) := rfl

@[simp] theorem outcome_now (context : Context) :
    now.outcome context = (.ok context.node.clock.wall, context) := rfl

@[simp] theorem outcome_changeNode (change : Node → Node) (context : Context) :
    (changeNode change).outcome context =
      (.ok (), { context with node := change context.node }) := rfl

@[simp] theorem outcome_changeSession (change : Session → Session) (context : Context) :
    (changeSession change).outcome context =
      (.ok (), { context with session := change context.session }) := rfl

@[simp] theorem outcome_orFail (error : CommandError) (value : Option α) (context : Context) :
    (orFail error value).outcome context =
      (match value with
        | some value => .ok value
        | none => .error error, context) := by
  cases value <;> rfl

@[simp] theorem outcome_integer (argument : String) (context : Context) :
    (integer argument).outcome context =
      (match Text.readSigned64 argument with
        | some value => .ok value
        | none => .error .notAnInteger, context) := by
  unfold integer
  rw [outcome_orFail]
  cases Text.readSigned64 argument <;> rfl

@[simp] theorem outcome_liftM (result : Except CommandError α) (context : Context) :
    (liftM result : CommandM α).outcome context = (result, context) := by
  cases result <;> rfl

theorem outcome_onPartition (use : Partition → α × Partition) (context : Context) :
    (onPartition use).outcome context =
      match context.node.partitions.get? context.session.database with
      | none => (.error .noSuchDatabase, context)
      | some partition =>
          (.ok (use partition).1,
            { context with
              node := { context.node with
                partitions := context.node.partitions.modify context.session.database
                  fun _ => (use partition).2 } }) := by
  simp only [onPartition, outcome_bind, outcome_session, outcome_node]
  cases context.node.partitions.get? context.session.database <;> rfl

@[simp] theorem outcome_ok (context : Context) :
    ok.outcome context = (.ok [.ok], context) := rfl

@[simp] theorem outcome_count (value : Nat) (context : Context) :
    (count value).outcome context = (.ok [.integer value], context) := rfl

end CommandM

/-! ### Running a command -/

/-- Whether a client issued the command. -/
def Source.isClient : Source → Bool
  | .client _ => true
  | _ => false

/-- The context after a command has been added to the stream. -/
def Context.propagated (context : Context) (arguments : List String) : Context where
  node := context.node.feed (Wire.commandBytes (context.session.propagateAs.getD arguments))
    (some context.session.database)
  session := { context.session with propagateAs := none }

/-- The context in which a command begins. -/
def Context.ready (context : Context) : Context :=
  { context with session := { context.session with propagateAs := none } }

namespace Command

open CommandM

theorem find?_inv {table : List Command} {name : String} {command : Command}
    (known : find? table name = some command) :
    command ∈ table ∧ command.name = Text.upper name :=
  ⟨List.mem_of_find?_eq_some known, by simpa using List.find?_some known⟩

/-- A command is answered with what its outcome gives. -/
theorem dispatchFrom_eq (table : List Command) (context : Context) (arguments : List String) :
    dispatchFrom table context arguments =
      match (runFrom table arguments).outcome context with
      | (.ok reply, later) => (reply, later)
      | (.error error, later) => ([error.reply], later) := rfl

theorem dispatchFrom_context (table : List Command) (context : Context)
    (arguments : List String) :
    (dispatchFrom table context arguments).2 = ((runFrom table arguments).outcome context).2 := by
  rw [dispatchFrom_eq]
  split <;> simp_all

/-- A command that is known, may have these arguments and may be run here does what its
handler does, and is then added to the stream if it has to be. -/
theorem outcome_runFrom_cons (table : List Command) (name : String) (arguments : List String)
    (context : Context) :
    (runFrom table (name :: arguments)).outcome context =
      match find? table name with
      | none => (.error (.unknownCommand name), context)
      | some command =>
          if !command.accepts (arguments.length + 1) then
            (.error (.wrongArity (Text.lower name)), context)
          else if context.session.source.isClient && context.node.following &&
              command.effect == .write then
            (.error .readOnly, context)
          else
            match (command.handler arguments).outcome context.ready with
            | (.error error, after) => (.error error, after)
            | (.ok reply, after) =>
                (.ok reply,
                  if context.session.source.isClient && !after.node.following &&
                      command.effect.propagates then
                    after.propagated (Text.upper name :: arguments)
                  else after) := by
  simp only [runFrom]
  rw [outcome_bind, outcome_orFail]
  cases find? table name with
  | none => rfl
  | some command =>
      dsimp only
      split
      · rfl
      · rw [outcome_bind, outcome_session]
        dsimp only
        rw [outcome_bind, outcome_node]
        generalize client : context.session.source.isClient = fromClient
        cases source : context.session.source
        all_goals
          simp only [source, Source.isClient] at client
          subst client
          dsimp only
          split
          · rfl
          · rw [outcome_bind, outcome_changeSession]
            dsimp only
            rw [outcome_bind, Context.ready]
            cases (command.handler arguments).outcome _ with
            | mk result after =>
              cases result with
              | error error => rfl
              | ok reply =>
                dsimp only
                rw [outcome_bind, outcome_node]
                dsimp only
                split <;> rfl

end Command

/-! ### Commands that check their arguments first -/

namespace Command

open CommandM

/-- The session after SET has noted in which form it is to be replicated. -/
def noteForm (key value : String) (expiry : Option SetExpiry) (session : Session) : Session :=
  match expiry with
  | some ⟨moment, true⟩ =>
      { session with propagateAs := some ["SET", key, value, "PXAT", toString moment] }
  | _ => session

/-- What SET does once it has read its options. -/
def store (key value : String) (moment : Option Int) : CommandM Reply := do
  onPartition fun partition => ((), partition.put key { datum := .text value, expiry := moment })
  ok

theorem outcome_set (key value : String) (options : List String) (context : Context) :
    (set (key :: value :: options)).outcome context =
      match setExpiry? context.node.clock.wall none options with
      | .error error => (.error error, context)
      | .ok expiry =>
          (store key value (expiry.map (·.moment))).outcome
            { context with session := noteForm key value expiry context.session } := by
  simp only [set]
  rw [outcome_bind, outcome_now]
  dsimp only
  rw [outcome_bind, outcome_liftM]
  match setExpiry? context.node.clock.wall none options with
  | .error error => rfl
  | .ok none | .ok (some ⟨_, true⟩) | .ok (some ⟨_, false⟩) => rfl

theorem mset_eq (arguments : List String) :
    mset arguments =
      if arguments.isEmpty || arguments.length % 2 != 0 then throw (.wrongArity "mset")
      else (do
        onPartition fun partition => ((), putPairs partition arguments)
        ok) := by
  simp only [mset]
  split <;> rfl

theorem flushall_eq (arguments : List String) :
    flushall arguments = throw .badSyntax ∨
    flushall arguments = (do
      changeNode fun node => { node with partitions := node.partitions.flush }
      ok) := by
  match arguments with
  | [] => exact .inr rfl
  | [mode] =>
      simp only [flushall]
      split
      · exact .inr rfl
      · exact .inl rfl
  | _ :: _ :: _ => exact .inl rfl

theorem lpop_eq (key count : String) :
    lpop [key, count] = (do
      let count ← integer count
      if count < 0 then throw (.custom "ERR value is out of range, must be positive")
      else
        match ← pop key count.toNat with
        | some items => return [.strings items]
        | none => return [.null]) := by
  simp only [lpop]
  congr

theorem bgsave_eq (arguments : List String) :
    bgsave arguments = throw .badSyntax ∨
    bgsave arguments = (do
      match (← node).beginSnapshot? with
      | some node =>
          changeNode fun _ => node
          return [.simple "Background saving started"]
      | none => throw .saveInProgress) := by
  match arguments with
  | [] => exact .inr rfl
  | [option] =>
      simp only [bgsave]
      split
      · exact .inr rfl
      · exact .inl rfl
  | _ :: _ :: _ => exact .inl rfl

/-- Saves, and reports why that failed if it did. -/
theorem outcome_saveNow (context : Context) :
    saveNow.outcome context =
      (match context.node.save.1 with
        | .ok payload => .ok payload
        | .error .busy => .error .saveInProgress
        | .error .failed => .error .saveFailed, { context with node := context.node.save.2 }) := by
  rw [saveNow, outcome_bind, outcome_node]
  dsimp only
  rw [outcome_bind, outcome_changeNode]
  dsimp only
  match context.node.save.1 with
  | .ok payload | .error .busy | .error .failed => rfl

theorem outcome_reload (table : List Command) (context : Context) :
    (reload table).outcome context =
      match saveNow.outcome context with
      | (.error error, saved) => (.error error, saved)
      | (.ok payload, saved) =>
          match Snapshot.commandsOf payload with
          | .error error => (.error (.loadFailed error.message), saved)
          | .ok commands =>
              (.ok [.ok],
                { saved with
                  node := (loadFrom table commands
                    { saved.node with partitions := saved.node.partitions.flush }).2 }) := by
  rw [reload, outcome_bind]
  match saveNow.outcome context with
  | (.error error, saved) => rfl
  | (.ok payload, saved) =>
      dsimp only
      match Snapshot.commandsOf payload with
      | .error error => rfl
      | .ok commands => rfl

end Command
end ReplicaStore
