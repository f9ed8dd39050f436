import ReplicaStore.Proofs.Command.Sparing

/-!
# What a client's command stands for in the stream

A command that changes data, or sends a message, is added to the stream just if it
succeeds: under its name in upper case, and with an expiry that was given as a time from now
turned into the moment that it means (`Command.addition?_eq`).
-/

namespace ReplicaStore.Command

open CommandM

/-! ### Replies to commands that succeed -/

/-- Whatever a step gives is no failure. -/
def Succeeds (step : CommandM Reply) : Prop :=
  ∀ (context : Context) (reply : Reply) (after : Context),
    step.outcome context = (.ok reply, after) → isFailure reply = false

namespace Succeeds

theorem pure {reply : Reply} (fine : isFailure reply = false) : Succeeds (pure reply) := by
  rintro context _ after ⟨⟩
  exact fine

theorem throw (error : CommandError) : Succeeds (throw error) := by
  rintro context reply after ⟨⟩

theorem bind {α : Type} {first : CommandM α} {next : α → CommandM Reply}
    (each : ∀ value, Succeeds (next value)) : Succeeds (first >>= next) := by
  intro context reply after given
  rw [outcome_bind] at given
  cases outcome : first.outcome context with
  | mk result between =>
      rw [outcome] at given
      cases result with
      | error error => cases given
      | ok value => exact each value between reply after given

theorem ok : Succeeds CommandM.ok := .pure rfl

theorem count (value : Nat) : Succeeds (CommandM.count value) := .pure rfl

theorem set (arguments : List String) : Succeeds (set arguments) := by
  rcases arguments with _ | ⟨key, _ | ⟨value, options⟩⟩
  · exact .throw _
  · exact .throw _
  · refine .bind fun now => .bind fun expiry => ?_
    dsimp only
    split
    · exact .bind fun _ => .bind fun _ => .ok
    · exact .bind fun _ => .ok

theorem mset (arguments : List String) : Succeeds (mset arguments) := by
  rw [mset_eq]
  split
  · exact .throw _
  · exact .bind fun _ => .ok

theorem del (keys : List String) : Succeeds (del keys) :=
  .bind fun _ => .bind fun _ => .count _

theorem pexpireat (arguments : List String) : Succeeds (pexpireat arguments) := by
  match arguments with
  | [key, moment] => exact .bind fun _ => .bind fun _ => .bind fun _ => .count _
  | [] | [_] | _ :: _ :: _ :: _ => exact .throw _

theorem flushall (arguments : List String) : Succeeds (flushall arguments) := by
  rcases flushall_eq arguments with form | form
  · rw [form]
    exact .throw _
  · rw [form]
    exact .bind fun _ => .ok

theorem push (name : String) (side : Side) (onlyExisting : Bool) (arguments : List String) :
    Succeeds (push name side onlyExisting arguments) := by
  match arguments with
  | key :: value :: more =>
      refine .bind fun items => ?_
      cases items with
      | some items => exact .count _
      | none =>
          dsimp only
          split
          · exact .count _
          · exact .bind fun _ => .count _
  | [] | [_] => exact .throw _

theorem lpop (arguments : List String) : Succeeds (lpop arguments) := by
  match arguments with
  | [key] =>
      refine .bind fun items => ?_
      split <;> exact .pure rfl
  | [key, count] =>
      rw [lpop_eq]
      refine .bind fun count => ?_
      split
      · exact .throw _
      · refine .bind fun items => ?_
        cases items <;> exact .pure rfl
  | [] | _ :: _ :: _ :: _ => exact .throw _

theorem publish (arguments : List String) : Succeeds (publish arguments) := by
  match arguments with
  | [channel, message] => exact .bind fun _ => .bind fun _ => .count _
  | [] | [_] | _ :: _ :: _ :: _ => exact .throw _

/-- A command that is added to the stream answers with no failure if it succeeds. -/
theorem propagating {command : Command} (member : command ∈ all)
    (propagates : command.effect.propagates = true) (arguments : List String) :
    Succeeds (command.handler arguments) := by
  simp only [all, basic, List.mem_cons, List.not_mem_nil, or_false] at member
  rcases member with rfl | rfl | rfl | rfl | rfl | rfl | rfl | rfl | rfl | rfl | rfl | rfl | rfl |
    rfl | rfl | rfl | rfl | rfl | rfl | rfl | rfl | rfl | rfl | rfl | rfl | rfl | rfl | rfl | rfl |
    rfl
  all_goals try cases propagates
  · exact set arguments
  · exact mset arguments
  · exact del arguments
  · exact pexpireat arguments
  · exact flushall arguments
  · exact push _ _ _ arguments
  · exact push _ _ _ arguments
  · exact push _ _ _ arguments
  · exact push _ _ _ arguments
  · exact lpop arguments
  · exact publish arguments

end Succeeds

/-! ### Forms -/

/-- SET with an expiry given as a time from now, in the form in which it is streamed. -/
def dated? (now : Int) : List String → Option (List String)
  | [key, value, option, span] =>
      if Text.upper option = "PX" then
        (Text.readSigned64 span).map fun span =>
          ["SET", key, value, "PXAT", toString (min (now + span) Text.maxSigned64)]
      else none
  | _ => none

/-- The form in which a command is streamed. -/
def streamed (now : Int) : List String → List String
  | [] => []
  | name :: rest =>
      if Text.upper name = "SET" then (dated? now rest).getD ("SET" :: rest)
      else Text.upper name :: rest

/-- What SET notes is its dated form. -/
theorem noteForm_dated {key value : String} {options : List String} {now : Int}
    {expiry : Option SetExpiry} (read : setExpiry? now none options = .ok expiry)
    {session : Session} (plain : session.propagateAs = none) :
    (noteForm key value expiry session).propagateAs = dated? now (key :: value :: options) := by
  rcases options with _ | ⟨option, _ | ⟨amount, _ | ⟨other, rest⟩⟩⟩
  · cases read
    exact plain
  · cases read
  · simp only [setExpiry?, Option.isSome_none, Bool.false_eq_true, if_false] at read
    simp only [dated?]
    cases number : Text.readSigned64 amount with
    | none => simp [number] at read
    | some span =>
        simp only [number] at read
        split at read
        · cases read
        · split at read
          · next relative =>
              cases read
              simp [relative, noteForm]
          · next absolute =>
              cases read
              rw [absolute, if_neg (by decide)]
              exact plain
          · cases read
  · -- Only one expiry can be given.
    have refused (found : SetExpiry) : ∃ error, setExpiry? now (some found) (other :: rest) =
        .error error := by
      cases rest with
      | nil => exact ⟨_, rfl⟩
      | cons next rest => exact ⟨_, rfl⟩
    simp only [setExpiry?, Option.isSome_none, Bool.false_eq_true, if_false] at read
    repeat' split at read
    all_goals first | cases read | skip
    all_goals
      obtain ⟨error, failed⟩ := refused _
      rw [failed] at read
      cases read

theorem eq_set {command : Command} (member : command ∈ all) (named : command.name = "SET") :
    command = ⟨"SET", -3, .write, set⟩ := by
  simp only [all, basic, List.mem_cons, List.not_mem_nil, or_false] at member
  rcases member with rfl | rfl | rfl | rfl | rfl | rfl | rfl | rfl | rfl | rfl | rfl | rfl | rfl |
    rfl | rfl | rfl | rfl | rfl | rfl | rfl | rfl | rfl | rfl | rfl | rfl | rfl | rfl | rfl | rfl |
    rfl
  all_goals first | rfl | exact absurd named (by decide)

/-- The session behind a command that is added to the stream has just noted its form. -/
theorem session_propagating {command : Command} (member : command ∈ all)
    (propagates : command.effect.propagates = true) {name : String}
    (named : command.name = Text.upper name) (rest : List String) {context after : Context}
    (plain : context.session.propagateAs = none) {reply : Reply}
    (ran : (command.handler rest).outcome context = (.ok reply, after)) :
    after.session.database = context.session.database ∧
      after.session.propagateAs.getD (Text.upper name :: rest) =
        streamed context.node.clock.wall (name :: rest) := by
  by_cases stores : command = ⟨"SET", -3, .write, set⟩
  · subst stores
    have named : Text.upper name = "SET" := named.symm
    rcases rest with _ | ⟨key, _ | ⟨value, options⟩⟩
    · cases ran
    · cases ran
    · replace ran : (set (key :: value :: options)).outcome context = (.ok reply, after) := ran
      rw [outcome_set] at ran
      cases read : setExpiry? context.node.clock.wall none options with
      | error error => simp [read] at ran
      | ok expiry =>
          simp only [read] at ran
          have session : after.session = noteForm key value expiry context.session := by
            rw [← congrArg (·.2.session) ran]
            exact session_store ..
          refine ⟨?_, ?_⟩
          · rw [session]
            rcases expiry with _ | ⟨moment, _ | _⟩ <;> rfl
          · rw [session, streamed, if_pos named, named]
            exact congrArg (fun form => form.getD ("SET" :: key :: value :: options))
              (noteForm_dated read plain)
  · have other : Text.upper name ≠ "SET" := by
      intro same
      rw [← named] at same
      exact stores (eq_set member same)
    have session : after.session = context.session := by
      have does : context.Does (fun _ => True) ((command.handler rest).outcome context).2 := by
        rcases List.mem_cons.mp member with rfl | basic
        · cases propagates
        · rcases basic_does basic with rfl | rfl | does
          · cases propagates
          · exact absurd rfl stores
          · exact Context.Does.mono (does rest context) fun _ _ => trivial
      rw [ran] at does
      exact does.session
    rw [session, plain, streamed, if_neg other]
    exact ⟨rfl, rfl⟩

/-! ### Whole commands -/

/-- Whether the commands by a name change data or send messages. -/
def passesOn (name : String) : Bool :=
  (lookup? name).any (·.effect.propagates)

/-- What a client's command stands for, and the database that the client has selected, if
the command is one for replicas and has succeeded. -/
def logged? (context : Context) : List String → Option (Nat × List String)
  | [] => none
  | name :: rest =>
      if passesOn name && !isFailure (dispatch context (name :: rest)).1 then
        some (context.session.database, streamed context.node.clock.wall (name :: rest))
      else none

/-- Just what a client's command stands for is added to the stream of a leader. -/
theorem addition?_eq {context : Context} (leads : context.node.following = false)
    (arguments : List String) :
    addition? context arguments = (logged? context arguments).map Prod.swap := by
  cases arguments with
  | nil => rfl
  | cons name rest =>
      cases known : lookup? name with
      | none => simp only [addition?, logged?, passesOn, known, Option.any_none, Bool.false_and,
          Bool.false_eq_true, if_false, Option.map_none]
      | some command =>
          obtain ⟨member, named⟩ := find?_inv known
          have answer : (dispatch context (name :: rest)).1 =
              (dispatchFrom all context (name :: rest)).1 := rfl
          have there : find? all name = some command := known
          rw [dispatchFrom_eq, outcome_runFrom_cons] at answer
          simp only [there, leads, Bool.and_false, Bool.false_and, Bool.false_eq_true,
            if_false] at answer
          simp only [addition?, logged?, passesOn, known, Option.any_some]
          cases propagates : command.effect.propagates with
          | false => simp
          | true =>
              cases accepts : command.accepts (rest.length + 1) with
              | false =>
                  simp only [accepts, Bool.not_false, if_true] at answer
                  simp [answer, isFailure, CommandError.reply]
              | true =>
                  simp only [accepts, Bool.not_true, Bool.false_eq_true, if_false] at answer
                  cases ran : (command.handler rest).outcome context.ready with
                  | mk result after =>
                      rw [ran] at answer
                      cases result with
                      | error error =>
                          dsimp only at answer
                          simp [answer, isFailure, CommandError.reply]
                      | ok reply =>
                          dsimp only at answer
                          have fine := Succeeds.propagating member propagates rest _ _ _ ran
                          obtain ⟨database, form⟩ :=
                            session_propagating member propagates named rest rfl ran
                          rw [answer, fine]
                          simp only [Bool.and_self, if_true, Bool.not_false, Option.map_some,
                            Prod.swap_prod_mk, database, form]
                          rfl

end ReplicaStore.Command
