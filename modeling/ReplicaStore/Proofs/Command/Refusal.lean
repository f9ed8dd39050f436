import ReplicaStore.Proofs.Command.Logged

/-!
# How commands fail

A reply reports a failure just if the command has failed (`Command.dispatch_failure`).  The
commands that work on anything but keys check all that they are given before they touch
anything, so that failing they have done nothing (`Command.Refuses`).
-/

namespace ReplicaStore.Command

open CommandM

/-! ### Replies of commands that succeed -/

namespace Succeeds

theorem ping (arguments : List String) : Succeeds (ping arguments) := by
  match arguments with
  | [] | [_] => exact .pure rfl
  | _ :: _ :: _ => exact .throw _

theorem echo (arguments : List String) : Succeeds (echo arguments) := by
  match arguments with
  | [] => exact .throw _
  | _ :: _ => exact .pure rfl

theorem select (arguments : List String) : Succeeds (select arguments) := by
  match arguments with
  | [_] =>
      refine .bind fun index => .bind fun node => ?_
      split
      · exact .bind fun _ => .ok
      · exact .throw _
  | [] | _ :: _ :: _ => exact .throw _

theorem get (arguments : List String) : Succeeds (get arguments) := by
  match arguments with
  | [_] =>
      refine .bind fun now => .bind fun found => ?_
      match found with
      | some (.text _) | none => exact .pure rfl
      | some (.list _) => exact .throw _
  | [] | _ :: _ :: _ => exact .throw _

theorem mget (keys : List String) : Succeeds (mget keys) :=
  .bind fun _ => .bind fun _ => .pure rfl

theorem countExisting (keys : List String) : Succeeds (countExisting keys) :=
  .bind fun _ => .bind fun _ => .count _

theorem dbsize (arguments : List String) : Succeeds (dbsize arguments) :=
  .bind fun _ => .count _

theorem lrange (arguments : List String) : Succeeds (lrange arguments) := by
  match arguments with
  | [_, _, _] => exact .bind fun _ => .bind fun _ => .bind fun _ => .pure rfl
  | [] | [_] | [_, _] | _ :: _ :: _ :: _ :: _ => exact .throw _

theorem llen (arguments : List String) : Succeeds (llen arguments) := by
  match arguments with
  | [_] => exact .bind fun _ => .count _
  | [] | _ :: _ :: _ => exact .throw _

theorem save (arguments : List String) : Succeeds (save arguments) :=
  .bind fun _ => .ok

theorem bgsave (arguments : List String) : Succeeds (bgsave arguments) := by
  rcases bgsave_eq arguments with form | form
  · rw [form]
    exact .throw _
  · rw [form]
    refine .bind fun node => ?_
    split
    · exact .bind fun _ => .pure rfl
    · exact .throw _

theorem info (arguments : List String) : Succeeds (info arguments) := by
  refine .bind fun node => ?_
  dsimp only
  split
  · exact .throw _
  · exact .pure rfl

theorem replicaof (arguments : List String) : Succeeds (replicaof arguments) := by
  match arguments with
  | [host, port] =>
      simp only [Command.replicaof]
      split
      · exact .bind fun _ => .ok
      · split
        · exact .throw _
        · refine .bind fun node => ?_
          split
          · exact .pure rfl
          · exact .bind fun _ => .ok
  | [] | [_] | _ :: _ :: _ :: _ => exact .throw _

theorem replconf (arguments : List String) : Succeeds (replconf arguments) := by
  match arguments with
  | [] => exact .ok
  | option :: values =>
      simp only [Command.replconf]
      split
      · exact .bind fun _ => .bind fun _ => .bind fun _ => .ok
      · exact .ok
      · exact .bind fun _ => .bind fun _ => .bind fun _ => .pure rfl
      · exact .bind fun _ => .pure rfl
      · exact .throw _

theorem psync (arguments : List String) : Succeeds (psync arguments) := by
  match arguments with
  | [_, _] =>
      refine .bind fun offset => .bind fun session => ?_
      split
      · refine .bind fun node => ?_
        dsimp only
        split
        · exact .throw _
        · exact .bind fun _ => .pure rfl
      · exact .pure rfl
  | [] | [_] | _ :: _ :: _ :: _ => exact .throw _

theorem changeSubscriptions (id : ClientId) (kind : String) (listen : Bool)
    (channels : List String) : Succeeds (changeSubscriptions id kind listen channels) := by
  cases channels with
  | nil => exact .pure rfl
  | cons channel channels =>
      simp only [Command.changeSubscriptions, List.mapM_cons, bind_assoc, pure_bind]
      exact .bind fun _ => .bind fun _ => .bind fun _ => .pure rfl

theorem subscribe (channels : List String) : Succeeds (subscribe channels) := by
  simp only [Command.subscribe]
  split
  · exact .throw _
  · refine .bind fun session => ?_
    split
    · exact changeSubscriptions _ _ _ _
    · exact .pure rfl

theorem unsubscribe (channels : List String) : Succeeds (unsubscribe channels) := by
  refine .bind fun session => ?_
  split
  · refine .bind fun node => ?_
    dsimp only
    generalize (if channels.isEmpty then _ else channels) = chosen
    split
    · exact .pure rfl
    · exact changeSubscriptions _ _ _ _
  · exact .pure rfl

theorem reload (table : List Command) : Succeeds (reload table) := by
  refine .bind fun payload => ?_
  split
  · exact .throw _
  · exact .bind fun _ => .ok

theorem populateBy (argument : String) : Succeeds (populateBy argument) := by
  refine .bind fun count => ?_
  split
  · exact .throw _
  · exact .bind fun _ => .ok

theorem showBacklog (offset : Int) : Succeeds (showBacklog offset) := by
  refine .bind fun node => ?_
  split
  · exact .pure rfl
  · split
    · exact .pure rfl
    · exact .throw _

theorem closeClient (id : ClientId) : Succeeds (closeClient id) := by
  refine .bind fun node => ?_
  split
  · exact .bind fun _ => .ok
  · exact .throw _

theorem debug (table : List Command) (arguments : List String) :
    Succeeds (debug table arguments) := by
  match arguments with
  | [] => exact .throw _
  | subcommand :: arguments =>
      unfold Command.debug
      dsimp only
      split
      · exact reload table
      · next argument _ => exact populateBy argument
      · exact .bind fun offset => showBacklog offset
      · exact .bind fun _ => .pure rfl
      · exact .bind fun _ => .pure rfl
      · exact .bind fun _ => .pure rfl
      · exact .bind fun _ => .bind fun _ => .bind fun _ => .pure rfl
      · exact .throw _
      · exact .bind fun id => closeClient id
      · exact .pure rfl
      · exact .throw _

/-- No command answers with a failure unless it fails. -/
theorem all {command : Command} (member : command ∈ all) (arguments : List String) :
    Succeeds (command.handler arguments) := by
  by_cases propagates : command.effect.propagates = true
  · exact propagating member propagates arguments
  · simp only [Command.all, basic, List.mem_cons, List.not_mem_nil, or_false] at member
    rcases member with rfl | rfl | rfl | rfl | rfl | rfl | rfl | rfl | rfl | rfl | rfl | rfl | rfl |
      rfl | rfl | rfl | rfl | rfl | rfl | rfl | rfl | rfl | rfl | rfl | rfl | rfl | rfl | rfl | rfl |
      rfl
    all_goals try exact absurd rfl propagates
    · exact debug basic arguments
    · exact ping arguments
    · exact echo arguments
    · exact select arguments
    · exact get arguments
    · exact mget arguments
    · exact countExisting arguments
    · exact dbsize arguments
    · exact lrange arguments
    · exact llen arguments
    · exact save arguments
    · exact bgsave arguments
    · exact info arguments
    · exact replicaof arguments
    · exact replicaof arguments
    · exact replconf arguments
    · exact psync arguments
    · exact subscribe arguments
    · exact unsubscribe arguments

end Succeeds

/-- A reply that reports a failure is that of a command which is not run, or of one which
has failed. -/
theorem dispatch_failure {context : Context} {arguments : List String}
    (failed : isFailure (dispatch context arguments).1 = true) :
    (dispatch context arguments).2 = context ∨
    ∃ name rest command error, arguments = name :: rest ∧ find? all name = some command ∧
      (command.handler rest).outcome context.ready =
        (.error error, (dispatch context arguments).2) := by
  rw [dispatch, dispatchFrom_eq] at failed
  rw [dispatch, dispatchFrom_context]
  cases arguments with
  | nil => exact .inl rfl
  | cons name rest =>
      rw [outcome_runFrom_cons] at failed ⊢
      cases known : find? all name with
      | none => exact .inl rfl
      | some command =>
          rw [known] at failed
          dsimp only at failed ⊢
          split
          · exact .inl rfl
          · split
            · exact .inl rfl
            · next accepts allowed =>
                rw [if_neg accepts, if_neg allowed] at failed
                cases ran : (command.handler rest).outcome context.ready with
                | mk result after =>
                    rw [ran] at failed
                    cases result with
                    | error error => exact .inr ⟨name, rest, command, error, rfl, known, ran⟩
                    | ok reply =>
                        have fine := Succeeds.all (find?_inv known).1 rest _ _ _ ran
                        dsimp only at failed
                        rw [fine] at failed
                        cases failed

/-! ### Commands that check first -/

/-- A step that cannot fail. -/
def Completes {α : Type} (step : CommandM α) : Prop :=
  ∀ context, ∃ value after, step.outcome context = (.ok value, after)

namespace Completes

variable {α β : Type}

theorem pure (value : α) : Completes (pure value : CommandM α) :=
  fun context => ⟨value, context, rfl⟩

theorem node : Completes CommandM.node :=
  fun context => ⟨_, context, rfl⟩

theorem session : Completes CommandM.session :=
  fun context => ⟨_, context, rfl⟩

theorem changeNode (change : Node → Node) : Completes (changeNode change) :=
  fun _ => ⟨(), _, rfl⟩

theorem changeSession (change : Session → Session) : Completes (changeSession change) :=
  fun _ => ⟨(), _, rfl⟩

theorem bind {first : CommandM α} {next : α → CommandM β} (completes : Completes first)
    (each : ∀ value, Completes (next value)) : Completes (first >>= next) := by
  intro context
  obtain ⟨value, after, given⟩ := completes context
  rw [outcome_bind_ok given]
  exact each value after

theorem mapM {γ : Type} {step : γ → CommandM α} (each : ∀ item, Completes (step item))
    (items : List γ) : Completes (items.mapM step) := by
  induction items with
  | nil => exact .pure _
  | cons item items ih =>
      rw [List.mapM_cons]
      exact .bind (each item) fun _ => .bind ih fun _ => .pure _

theorem changeSubscriptions (id : ClientId) (kind : String) (listen : Bool)
    (channels : List String) : Completes (changeSubscriptions id kind listen channels) :=
  .mapM (fun _ => .bind (.changeNode _) fun _ => .bind .node fun _ => .pure _) channels

theorem noteListeningPort (port : Nat) : Completes (noteListeningPort port) := by
  refine .bind .session fun session => ?_
  split
  · exact .changeNode _
  · exact .pure _

theorem noteAcknowledgement (offset : Int) : Completes (noteAcknowledgement offset) := by
  refine .bind .session fun session => ?_
  split
  · exact .changeNode _
  · exact .pure _

theorem answerLeader : Completes answerLeader := by
  refine .bind .session fun session => ?_
  split
  · exact .changeNode _
  · exact .pure _

end Completes

/-- A step that has touched nothing if it fails. -/
def Refuses {α : Type} (step : CommandM α) : Prop :=
  ∀ context error after, step.outcome context = (.error error, after) → after = context

namespace Refuses

variable {α β : Type}

theorem throw (error : CommandError) : Refuses (throw error : CommandM α) := by
  rintro context _ after ⟨⟩
  rfl

theorem completes {step : CommandM α} (completes : Completes step) : Refuses step := by
  intro context error after failed
  obtain ⟨value, later, given⟩ := completes context
  rw [given] at failed
  cases failed

/-- A step that looks at the context at most, before another one. -/
theorem looking {first : CommandM α} {next : α → CommandM β}
    (looks : ∀ context, (first.outcome context).2 = context)
    (each : ∀ value, Refuses (next value)) : Refuses (first >>= next) := by
  intro context error after failed
  have still := looks context
  cases outcome : first.outcome context with
  | mk result between =>
      rw [outcome] at still
      obtain rfl : between = context := still
      cases result with
      | error other =>
          rw [outcome_bind_error outcome] at failed
          cases failed
          rfl
      | ok value =>
          rw [outcome_bind_ok outcome] at failed
          exact each value _ _ _ failed

theorem node {next : Node → CommandM β} (each : ∀ node, Refuses (next node)) :
    Refuses (CommandM.node >>= next) :=
  .looking (fun _ => rfl) each

theorem session {next : Session → CommandM β} (each : ∀ session, Refuses (next session)) :
    Refuses (CommandM.session >>= next) :=
  .looking (fun _ => rfl) each

theorem orFail {error : CommandError} {value : Option α} {next : α → CommandM β}
    (each : ∀ found, Refuses (next found)) : Refuses (CommandM.orFail error value >>= next) :=
  .looking (fun context => by rw [outcome_orFail]) each

theorem integer {argument : String} {next : Int → CommandM β}
    (each : ∀ value, Refuses (next value)) : Refuses (CommandM.integer argument >>= next) :=
  .looking (fun context => by rw [outcome_integer]) each

theorem select (arguments : List String) : Refuses (select arguments) := by
  match arguments with
  | [_] =>
      refine .integer fun index => .node fun node => ?_
      split
      · exact .completes (.bind (.changeSession _) fun _ => .pure _)
      · exact .throw _
  | [] | _ :: _ :: _ => exact .throw _

theorem bgsave (arguments : List String) : Refuses (bgsave arguments) := by
  rcases bgsave_eq arguments with form | form
  · rw [form]
    exact .throw _
  · rw [form]
    refine .node fun node => ?_
    split
    · exact .completes (.bind (.changeNode _) fun _ => .pure _)
    · exact .throw _

theorem replicaof (arguments : List String) : Refuses (replicaof arguments) := by
  match arguments with
  | [host, port] =>
      simp only [Command.replicaof]
      split
      · exact .completes (.bind (.changeNode _) fun _ => .pure _)
      · split
        · exact .throw _
        · refine .node fun node => ?_
          split
          · exact .completes (.pure _)
          · exact .completes (.bind (.changeNode _) fun _ => .pure _)
  | [] | [_] | _ :: _ :: _ :: _ => exact .throw _

theorem replconf (arguments : List String) : Refuses (replconf arguments) := by
  match arguments with
  | [] => exact .completes (.pure _)
  | option :: values =>
      simp only [Command.replconf]
      split
      · refine .orFail fun written => .orFail fun port => .completes (.bind ?_ fun _ => .pure _)
        exact .noteListeningPort port
      · exact .completes (.pure _)
      · refine .orFail fun written => .integer fun offset => .completes (.bind ?_ fun _ => .pure _)
        exact .noteAcknowledgement offset
      · exact .completes (.bind .answerLeader fun _ => .pure _)
      · exact .throw _

theorem psync (arguments : List String) : Refuses (psync arguments) := by
  match arguments with
  | [_, _] =>
      refine .integer fun offset => .session fun session => ?_
      split
      · refine .node fun node => ?_
        dsimp only
        split
        · exact .throw _
        · exact .completes (.bind (.changeNode _) fun _ => .pure _)
      · exact .completes (.pure _)
  | [] | [_] | _ :: _ :: _ :: _ => exact .throw _

theorem publish (arguments : List String) : Refuses (publish arguments) := by
  match arguments with
  | [_, _] => exact .node fun node => .completes (.bind (.changeNode _) fun _ => .pure _)
  | [] | [_] | _ :: _ :: _ :: _ => exact .throw _

theorem subscribe (channels : List String) : Refuses (subscribe channels) := by
  simp only [Command.subscribe]
  split
  · exact .throw _
  · refine .session fun session => ?_
    split
    · exact .completes (.changeSubscriptions _ _ _ _)
    · exact .completes (.pure _)

theorem unsubscribe (channels : List String) : Refuses (unsubscribe channels) := by
  refine .session fun session => ?_
  split
  · refine .node fun node => ?_
    dsimp only
    generalize (if channels.isEmpty then _ else channels) = chosen
    split
    · exact .completes (.pure _)
    · exact .completes (.changeSubscriptions _ _ _ _)
  · exact .completes (.pure _)

theorem closeClient (id : ClientId) : Refuses (closeClient id) := by
  refine .node fun node => ?_
  split
  · exact .completes (.bind (.changeNode _) fun _ => .pure _)
  · exact .throw _

end Refuses

end ReplicaStore.Command
