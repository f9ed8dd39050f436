import ReplicaStore.Proofs.Command.Running
import ReplicaStore.Proofs.Node.Steps
import ReplicaStore.Proofs.Snapshot.Faults
import ReplicaStore.Proofs.Wire.Reply

/-!
# What commands answer

Most commands answer with one value whose lines are lines, and fail with an error that is told in
one line (`Command.Answers`).
-/

namespace ReplicaStore

/-! ### Errors -/

namespace CommandError

/-- The error is told in one line. -/
def Plain (error : CommandError) : Prop :=
  Text.OneLine error.message

theorem plain_of_notMem {error : CommandError} (plain : '\r' ∉ error.message.toList) : error.Plain :=
  Text.oneLine_of_notMem plain

theorem plain_wrongArity {name : String} (plain : '\r' ∉ name.toList) : (wrongArity name).Plain := by
  have told : (wrongArity name).message =
      "ERR wrong number of arguments for '" ++ name ++ "' command" := rfl
  rw [Plain, told]
  exact ((Text.oneLine_of_notMem plain).behind (by decide)).before (by decide)

/-- An error that is told in one line, or repeats an argument with a line break in it. -/
def Repeats (arguments : List String) (error : CommandError) : Prop :=
  error.Plain ∨ ∃ argument ∈ arguments,
    ¬Text.OneLine argument ∧ argument.toList <:+: error.message.toList

/-- An error that repeats an argument between two texts of its own. -/
theorem Repeats.around {arguments : List String} {error : CommandError} {front argument behind : String}
    (member : argument ∈ arguments) (told : error.message = front ++ argument ++ behind)
    (noCR : '\r' ∉ front.toList) (noLF : '\n' ∉ behind.toList) : Repeats arguments error := by
  by_cases oneLine : Text.OneLine argument
  · left
    rw [Plain, told]
    exact (oneLine.behind noCR).before noLF
  · right
    refine ⟨argument, member, oneLine, ?_⟩
    rw [told, String.toList_append, String.toList_append]
    exact ⟨_, _, rfl⟩

theorem Repeats.mono {first second : List String} {error : CommandError}
    (repeats : Repeats first error) (within : ∀ argument ∈ first, argument ∈ second) :
    Repeats second error := by
  rcases repeats with plain | ⟨argument, member, broken, inside⟩
  · exact .inl plain
  · exact .inr ⟨argument, within argument member, broken, inside⟩

end CommandError

namespace Command

open CommandM
open CommandError (Plain Repeats plain_of_notMem)

/-! ### What steps yield -/

/-- What a step gives in a context is good, or what it fails with is fine. -/
def YieldsIn {α : Type} (context : Context) (good : α → Prop) (fine : CommandError → Prop)
    (step : CommandM α) : Prop :=
  match (step.outcome context).1 with
  | .ok value => good value
  | .error error => fine error

/-- Whatever a step gives is good, and whatever it fails with is fine. -/
def Yields {α : Type} (good : α → Prop) (fine : CommandError → Prop) (step : CommandM α) : Prop :=
  ∀ context, YieldsIn context good fine step

theorem YieldsIn.mono {α : Type} {context : Context} {good better : α → Prop}
    {fine milder : CommandError → Prop} {step : CommandM α}
    (yields : YieldsIn context better milder step) (values : ∀ value, better value → good value)
    (errors : ∀ error, milder error → fine error) : YieldsIn context good fine step := by
  unfold YieldsIn at *
  split at yields
  · next value _ => exact values value yields
  · next error _ => exact errors error yields

namespace Yields

variable {α β : Type} {good : α → Prop} {fine : CommandError → Prop}

protected theorem pure {value : α} (given : good value) : Yields good fine (pure value) :=
  fun _ => given

theorem throw {error : CommandError} (failing : fine error) :
    Yields good fine (throw error : CommandM α) :=
  fun _ => failing

theorem bind {between : β → Prop} {first : CommandM β} {next : β → CommandM α}
    (yields : Yields between fine first) (each : ∀ value, between value → Yields good fine (next value)) :
    Yields good fine (first >>= next) := by
  intro context
  have given := yields context
  rw [YieldsIn] at given ⊢
  rw [outcome_bind]
  cases ran : first.outcome context with
  | mk result later =>
      rw [ran] at given
      cases result with
      | error error => exact given
      | ok value => exact each value given later

/-- What the first step gives does not matter. -/
theorem andThen {first : CommandM β} {next : β → CommandM α}
    (yields : Yields (fun _ => True) fine first) (each : ∀ value, Yields good fine (next value)) :
    Yields good fine (first >>= next) :=
  bind yields fun value _ => each value

theorem mono {better : α → Prop} {milder : CommandError → Prop} {step : CommandM α}
    (yields : Yields better milder step) (values : ∀ value, better value → good value)
    (errors : ∀ error, milder error → fine error) : Yields good fine step :=
  fun context => (yields context).mono values errors

theorem node : Yields (fun _ => True) fine node := fun _ => trivial

theorem session : Yields (fun _ => True) fine session := fun _ => trivial

theorem now : Yields (fun _ => True) fine now := fun _ => trivial

theorem changeNode (change : Node → Node) : Yields (fun _ => True) fine (changeNode change) :=
  fun _ => trivial

theorem changeSession (change : Session → Session) :
    Yields (fun _ => True) fine (changeSession change) :=
  fun _ => trivial

theorem orFail {error : CommandError} (failing : fine error) (value : Option α) :
    Yields (fun _ => True) fine (orFail error value) := by
  cases value with
  | none => exact .throw failing
  | some value => exact .pure trivial

theorem integer (argument : String) : Yields (fun _ => True) Plain (integer argument) :=
  orFail (plain_of_notMem (by decide)) _

theorem onPartition (use : Partition → α × Partition) :
    Yields (fun _ => True) Plain (onPartition use) := by
  intro context
  rw [YieldsIn, outcome_onPartition]
  cases context.node.partitions.get? context.session.database with
  | none => exact plain_of_notMem (by decide)
  | some partition => trivial

theorem liftM {result : Except CommandError α} (failing : ∀ error, result = .error error → fine error) :
    Yields (fun _ => True) fine (liftM result : CommandM α) := by
  intro context
  rw [YieldsIn, outcome_liftM]
  cases result with
  | error error => exact failing error rfl
  | ok value => trivial

end Yields

/-! ### Replies of one value -/

/-- A reply of one value, in which every line is one. -/
def Single (reply : Reply) : Prop :=
  ∃ value, reply = [value] ∧ value.Lined

theorem lined_strings (texts : List String) : (Wire.Value.strings texts).Lined := by
  refine .array fun element member => ?_
  obtain ⟨text, _, rfl⟩ := List.mem_map.mp member
  exact .bulk text

theorem Single.of {value : Wire.Value} (lined : value.Lined) : Single [value] :=
  ⟨value, rfl, lined⟩

theorem single_simple {text : String} (plain : '\r' ∉ text.toList) : Single [.simple text] :=
  .of (.simple (Text.oneLine_of_notMem plain))

/-- The command answers with one value, and fails in one line. -/
abbrev Answers (step : CommandM Reply) : Prop :=
  Yields Single Plain step

namespace Answers

theorem ok : Answers CommandM.ok := .pure (single_simple (by decide))

theorem count (value : Nat) : Answers (CommandM.count value) := .pure (.of (.integer value))

theorem bulk (text : String) : Answers (pure [.bulk text]) := .pure (.of (.bulk text))

theorem null : Answers (pure [.null]) := .pure (.of .null)

theorem strings (texts : List String) : Answers (pure [.strings texts]) := .pure (.of (lined_strings texts))

theorem refuse {error : CommandError} (plain : '\r' ∉ error.message.toList) :
    Answers (throw error) :=
  .throw (plain_of_notMem plain)

theorem ping (arguments : List String) : Answers (ping arguments) := by
  match arguments with
  | [] => exact .pure (single_simple (by decide))
  | [message] => exact bulk message
  | _ :: _ :: _ => exact refuse (by decide)

theorem echo (arguments : List String) : Answers (echo arguments) := by
  match arguments with
  | [] => exact refuse (by decide)
  | message :: _ => exact bulk message

theorem select (arguments : List String) : Answers (select arguments) := by
  match arguments with
  | [index] =>
      refine .andThen (.integer index) fun index => .andThen .node fun node => ?_
      split
      · exact .andThen (.changeSession _) fun _ => ok
      · exact refuse (by decide)
  | [] | _ :: _ :: _ => exact refuse (by decide)

theorem publish (arguments : List String) : Answers (publish arguments) := by
  match arguments with
  | [channel, message] =>
      exact .andThen .node fun node => .andThen (.changeNode _) fun _ => count _
  | [] | [_] | _ :: _ :: _ :: _ => exact refuse (by decide)

theorem get (arguments : List String) : Answers (get arguments) := by
  match arguments with
  | [key] =>
      refine .andThen .now fun now => .andThen (.onPartition _) fun found => ?_
      match found with
      | some (.text content) => exact bulk content
      | some (.list _) => exact refuse (by decide)
      | none => exact null
  | [] | _ :: _ :: _ => exact refuse (by decide)

theorem lined_shown (found : Option Datum) : (shown found).Lined := by
  match found with
  | some (.text content) => exact .bulk content
  | some (.list _) | none => exact .null

theorem mget (keys : List String) : Answers (mget keys) := by
  refine .andThen .now fun now => .andThen (.onPartition _) fun found => .pure (.of (.array ?_))
  intro element member
  obtain ⟨datum, _, rfl⟩ := List.mem_map.mp member
  exact lined_shown datum

/-- The induction is on the options. -/
theorem plain_setExpiry? {now : Int} {found : Option SetExpiry} {options : List String}
    {error : CommandError} (failed : setExpiry? now found options = .error error) : error.Plain := by
  fun_induction setExpiry? now found options with
  | case1 => cases failed
  | case2 | case3 | case4 | case5 | case8 =>
      cases failed
      exact plain_of_notMem (by decide)
  | case6 _ _ _ _ _ _ _ _ _ ih | case7 _ _ _ _ _ _ _ _ _ ih => exact ih failed

theorem set (arguments : List String) : Answers (set arguments) := by
  rcases arguments with _ | ⟨key, _ | ⟨value, options⟩⟩
  · exact refuse (by decide)
  · exact refuse (by decide)
  · refine .andThen .now fun now =>
      .andThen (.liftM fun error failed => plain_setExpiry? failed) fun expiry => ?_
    dsimp only
    split
    · exact .andThen (.changeSession _) fun _ => .andThen (.onPartition _) fun _ => ok
    · exact .andThen (.onPartition _) fun _ => ok

theorem mset (arguments : List String) : Answers (mset arguments) := by
  rw [mset_eq]
  split
  · exact refuse (by decide)
  · exact .andThen (.onPartition _) fun _ => ok

theorem del (keys : List String) : Answers (del keys) :=
  .andThen .now fun _ => .andThen (.onPartition _) fun _ => count _

theorem countExisting (keys : List String) : Answers (countExisting keys) :=
  .andThen .now fun _ => .andThen (.onPartition _) fun _ => count _

theorem dbsize (arguments : List String) : Answers (dbsize arguments) :=
  .andThen (.onPartition _) fun _ => count _

theorem pexpireat (arguments : List String) : Answers (pexpireat arguments) := by
  match arguments with
  | [key, moment] =>
      exact .andThen (.integer moment) fun _ => .andThen .now fun _ =>
        .andThen (.onPartition _) fun _ => count _
  | [] | [_] | _ :: _ :: _ :: _ => exact refuse (by decide)

theorem flushall (arguments : List String) : Answers (flushall arguments) := by
  rcases flushall_eq arguments with form | form
  · rw [form]
    exact refuse (by decide)
  · rw [form]
    exact .andThen (.changeNode _) fun _ => ok

theorem items? (found : Option Datum) : Yields (fun _ => True) Plain (items? found) := by
  match found with
  | some (.list items) | none => exact .pure trivial
  | some (.text _) => exact .throw (plain_of_notMem (by decide))

theorem readList (key : String) : Yields (fun _ => True) Plain (readList key) :=
  .andThen .now fun _ => .andThen (.onPartition _) fun found => items? found

theorem changeList (key : String) (change : List String → List String) :
    Yields (fun _ => True) Plain (changeList key change) :=
  .andThen .now fun _ => .andThen (.onPartition _) fun found => items? found

/-- The four commands that push differ in their names, which an error repeats. -/
theorem push {name : String} (plain : '\r' ∉ name.toList) (side : Side) (onlyExisting : Bool)
    (arguments : List String) : Answers (push name side onlyExisting arguments) := by
  match arguments with
  | key :: value :: more =>
      refine .andThen (changeList _ _) fun items => ?_
      cases items with
      | some items => exact count _
      | none =>
          dsimp only
          split
          · exact count 0
          · exact .andThen (.onPartition _) fun _ => count _
  | [] | [_] => exact .throw (CommandError.plain_wrongArity plain)

theorem pop (key : String) (count : Nat) : Yields (fun _ => True) Plain (pop key count) := by
  refine .andThen (changeList _ _) fun items => ?_
  cases items with
  | none => exact .pure trivial
  | some items =>
      dsimp only
      split
      · exact .andThen (.onPartition _) fun _ => .pure trivial
      · exact .pure trivial

theorem lpop (arguments : List String) : Answers (lpop arguments) := by
  match arguments with
  | [key] =>
      refine .andThen (pop key 1) fun items => ?_
      split
      · exact bulk _
      · exact null
  | [key, count] =>
      rw [lpop_eq]
      refine .andThen (.integer count) fun count => ?_
      split
      · exact refuse (by decide)
      · refine .andThen (pop key _) fun items => ?_
        cases items with
        | some items => exact strings items
        | none => exact null
  | [] | _ :: _ :: _ :: _ => exact refuse (by decide)

theorem lrange (arguments : List String) : Answers (lrange arguments) := by
  match arguments with
  | [key, start, stop] =>
      exact .andThen (.integer start) fun _ => .andThen (.integer stop) fun _ =>
        .andThen (readList key) fun _ => strings _
  | [] | [_] | [_, _] | _ :: _ :: _ :: _ :: _ => exact refuse (by decide)

theorem llen (arguments : List String) : Answers (llen arguments) := by
  match arguments with
  | [key] => exact .andThen (readList key) fun _ => count _
  | [] | _ :: _ :: _ => exact refuse (by decide)

/-- What is saved is a snapshot as this program writes it. -/
theorem saveNow :
    Yields (fun payload => ∃ views now, payload = Snapshot.image views now) Plain saveNow := by
  intro context
  rw [YieldsIn, outcome_saveNow]
  match saved : context.node.save.1 with
  | .ok payload => exact ⟨_, _, (Node.save_inv saved).2⟩
  | .error .busy | .error .failed => exact plain_of_notMem (by decide)

theorem save (arguments : List String) : Answers (save arguments) :=
  .bind saveNow fun _ _ => ok

theorem bgsave (arguments : List String) : Answers (bgsave arguments) := by
  rcases bgsave_eq arguments with form | form
  · rw [form]
    exact refuse (by decide)
  · rw [form]
    refine .andThen .node fun node => ?_
    split
    · exact .andThen (.changeNode _) fun _ => .pure (single_simple (by decide))
    · exact refuse (by decide)

theorem info (arguments : List String) : Answers (info arguments) := by
  refine .andThen .node fun node => ?_
  dsimp only
  split
  · exact refuse (by decide)
  · exact bulk _

theorem replicaof (arguments : List String) : Answers (replicaof arguments) := by
  match arguments with
  | [host, port] =>
      simp only [Command.replicaof]
      split
      · exact .andThen (.changeNode _) fun _ => ok
      · split
        · exact refuse (by decide)
        · refine .andThen .node fun node => ?_
          split
          · exact .pure (single_simple (by decide))
          · exact .andThen (.changeNode _) fun _ => ok
  | [] | [_] | _ :: _ :: _ :: _ => exact refuse (by decide)

/-! ### The subcommands of DEBUG -/

theorem reload (table : List Command) : Answers (reload table) := by
  refine .bind saveNow fun payload written => ?_
  obtain ⟨views, now, rfl⟩ := written
  split
  · next error refused =>
      have told : (CommandError.loadFailed error.message).message =
          "ERR error loading the snapshot: " ++ error.message := rfl
      refine .throw ?_
      rw [Plain, told]
      exact (Snapshot.commandsOf_image_error refused).behind (by decide)
  · exact .andThen (.changeNode _) fun _ => ok

theorem populateBy (argument : String) : Answers (populateBy argument) := by
  refine .andThen (.integer argument) fun count => ?_
  split
  · exact refuse (by decide)
  · exact .andThen (.onPartition _) fun _ => ok

theorem showBacklog (offset : Int) : Answers (showBacklog offset) := by
  refine .andThen .node fun node => ?_
  split
  · exact null
  · split
    · exact bulk _
    · next error _ =>
        refine .throw ?_
        have told (reason : String) : (CommandError.custom s!"ERR {reason}").message = "ERR " ++ reason :=
          rfl
        rw [Plain, told]
        refine Text.OneLine.behind (by decide) ?_
        cases error with
        | outOfRange place =>
            have text : (Stream.BacklogError.outOfRange place).message =
                "offset " ++ (toString place ++ " has not been written yet") := by
              rw [← String.append_assoc]
              rfl
            rw [text]
            exact ((Text.oneLine_of_notMem (by decide)).behind_toString place).behind (by decide)
        | dataLoss place =>
            have text : (Stream.BacklogError.dataLoss place).message =
                "offset " ++ (toString place ++ " has been overwritten") := by
              rw [← String.append_assoc]
              rfl
            rw [text]
            exact ((Text.oneLine_of_notMem (by decide)).behind_toString place).behind (by decide)

theorem oneLine_described (datum : Datum) (expiry : Int) (phase : Phase) :
    Text.OneLine (s!"Value type:{datum.kind} size:{sizeOf datum} " ++
      s!"expires_at:{expiry} db_state:{phase.name}") := by
  have text : (s!"Value type:{datum.kind} size:{sizeOf datum} " ++
      s!"expires_at:{expiry} db_state:{phase.name}") =
      "Value type:" ++ (datum.kind ++ (" size:" ++ ((sizeOf datum).repr ++ (" " ++
        ("expires_at:" ++ (toString expiry ++ (" db_state:" ++ phase.name))))))) := by
    simp only [← String.append_assoc]
    rfl
  have phases : '\r' ∉ (" db_state:" ++ phase.name).toList := by
    cases phase <;> decide
  have kinds : '\r' ∉ datum.kind.toList := by
    cases datum with
    | text => exact (by decide : '\r' ∉ "string".toList)
    | list => exact (by decide : '\r' ∉ "list".toList)
  rw [text]
  exact ((((((((Text.oneLine_of_notMem phases).behind_toString expiry).behind (by decide)).behind
    (by decide)).behind_repr _).behind (by decide)).behind kinds).behind (by decide))

theorem describeKey (key : String) : Answers (describeKey key) := by
  refine .andThen .now fun now => .andThen (.onPartition _) fun found => ?_
  obtain ⟨found, expiry, phase⟩ := found
  exact .andThen (.orFail (plain_of_notMem (by decide)) found) fun datum =>
    .pure (.of (.simple (oneLine_described datum _ phase)))

theorem closeClient (id : ClientId) : Answers (closeClient id) := by
  refine .andThen .node fun node => ?_
  split
  · exact .andThen (.changeNode _) fun _ => ok
  · exact refuse (by decide)

end Answers

end Command
end ReplicaStore
