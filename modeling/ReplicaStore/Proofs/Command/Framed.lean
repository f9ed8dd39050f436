import Mathlib.Data.List.Forall2
import ReplicaStore.Proofs.Command.Answering
import ReplicaStore.Proofs.Node.Run

/-!
# Replies as they are read

A client reads in the bytes of a reply the values that it is made of, which are as many as the
command has: one for most, none for those that are never answered, and one for each channel of
which a change is confirmed (`Command.Told`).  This fails only for a failure that repeats an
argument with a line break in it (`Command.dispatch_framed`).  Such a failure is read as two
replies (`Command.dispatch_misread`).
-/

namespace ReplicaStore
namespace Command

open CommandM
open CommandError (Plain Repeats plain_of_notMem)

/-! ### What clients are told -/

/-- The commands that are not answered: the answer to PSYNC is the stream itself, and an
acknowledgement needs none. -/
def Unanswered (name : String) (arguments : List String) : Prop :=
  name = "PSYNC" ∨
    name = "REPLCONF" ∧ ∃ option ∈ arguments.head?, Text.lower option ∈ ["ack", "getack"]

/-- A value that confirms a change to one channel. -/
def Confirms (kind channel : String) (value : Wire.Value) : Prop :=
  ∃ count : Nat, value = confirmation kind (some channel) count

theorem lined_confirmation (kind : String) (channel : Option String) (count : Nat) :
    (confirmation kind channel count).Lined := by
  refine .array fun element member => ?_
  simp only [List.mem_cons, List.not_mem_nil, or_false] at member
  rcases member with rfl | rfl | rfl
  · exact .bulk kind
  · cases channel with
    | none => exact .null
    | some channel => exact .bulk channel
  · exact .integer count

theorem lined_of_confirms {kind : String} {chosen : List String} {reply : Reply}
    (confirms : List.Forall₂ (Confirms kind) chosen reply) : ∀ value ∈ reply, value.Lined := by
  induction confirms with
  | nil => simp
  | cons told _ ih =>
      intro value member
      rcases List.mem_cons.mp member with rfl | later
      · obtain ⟨count, rfl⟩ := told
        exact lined_confirmation kind _ count
      · exact ih value later

/-- The channels of which UNSUBSCRIBE tells: those that it names, or all that there are. -/
def dropped (node : Node) (id : ClientId) (channels : List String) : List String :=
  if channels.isEmpty then subscriptions id node else channels

/-- What a client is told by a command that has not failed. -/
inductive Told (node : Node) (id : ClientId) : String → List String → Reply → Prop where
  | subscribed {channels : List String} {reply : Reply}
      (confirms : List.Forall₂ (Confirms "subscribe") channels reply) :
      Told node id "SUBSCRIBE" channels reply
  | unsubscribed {channels : List String} {reply : Reply} (some : dropped node id channels ≠ [])
      (confirms : List.Forall₂ (Confirms "unsubscribe") (dropped node id channels) reply) :
      Told node id "UNSUBSCRIBE" channels reply
  /-- A client that listens to no channel is told so. -/
  | unsubscribedNone {channels : List String} (none : dropped node id channels = []) :
      Told node id "UNSUBSCRIBE" channels [confirmation "unsubscribe" .none 0]
  | nothing {name : String} {arguments : List String} (unanswered : Unanswered name arguments) :
      Told node id name arguments []
  | single {name : String} {arguments : List String} {reply : Reply}
      (other : name ∉ ["SUBSCRIBE", "UNSUBSCRIBE"]) (answered : ¬Unanswered name arguments)
      (single : Single reply) : Told node id name arguments reply

theorem Told.lined {node : Node} {id : ClientId} {name : String} {arguments : List String}
    {reply : Reply} (told : Told node id name arguments reply) : ∀ value ∈ reply, value.Lined := by
  cases told with
  | subscribed confirms => exact lined_of_confirms confirms
  | unsubscribed _ confirms => exact lined_of_confirms confirms
  | unsubscribedNone =>
      intro value member
      rw [List.mem_singleton.mp member]
      exact lined_confirmation "unsubscribe" .none 0
  | nothing => simp
  | single _ _ single =>
      obtain ⟨value, rfl, lined⟩ := single
      simpa using lined

/-! ### Commands that repeat an argument where they fail -/

theorem Answers.repeating {step : CommandM Reply} (answers : Answers step) (arguments : List String) :
    Yields Single (Repeats arguments) step :=
  Yields.mono answers (fun _ single => single) fun _ plain => .inl plain

theorem yields_debug (table : List Command) (arguments : List String) :
    Yields Single (Repeats arguments) (debug table arguments) := by
  match arguments with
  | [] => exact (Answers.refuse (by decide)).repeating []
  | subcommand :: rest =>
      unfold Command.debug
      dsimp only
      split
      · exact (Answers.reload table).repeating _
      · next argument _ => exact (Answers.populateBy argument).repeating _
      · exact Answers.repeating (.andThen (.integer _) fun offset => Answers.showBacklog offset) _
      · exact Answers.repeating (.andThen .node fun _ => Answers.bulk _) _
      · exact Answers.repeating (.andThen .node fun _ => Answers.bulk _) _
      · exact Answers.repeating (.andThen .node fun _ => Answers.bulk _) _
      · exact (Answers.describeKey _).repeating _
      · next message _ =>
          have told : (CommandError.custom message).message = "" ++ message ++ "" := by
            rw [String.append_empty, String.empty_append]
            rfl
          have member : message ∈ [subcommand, message] := by simp
          exact .throw (.around member told (by decide) (by decide))
      · exact Answers.repeating
          (.andThen (.orFail (plain_of_notMem (by decide)) _) fun id => Answers.closeClient id) _
      · exact (Answers.strings debugHelp).repeating _
      · have told : (CommandError.unknownSubcommand subcommand "DEBUG").message =
            "ERR Unknown subcommand or wrong number of arguments for '" ++ subcommand ++
              ("'. Try " ++ "DEBUG" ++ " HELP.") := by
          rw [← String.append_assoc, ← String.append_assoc]
          rfl
        exact .throw (.around List.mem_cons_self told (by decide) (by decide))

theorem yields_noteListeningPort (port : Nat) {fine : CommandError → Prop} :
    Yields (fun _ => True) fine (noteListeningPort port) := by
  refine .andThen .session fun session => ?_
  split
  · exact .changeNode _
  · exact .pure trivial

theorem yields_noteAcknowledgement (offset : Int) {fine : CommandError → Prop} :
    Yields (fun _ => True) fine (noteAcknowledgement offset) := by
  refine .andThen .session fun session => ?_
  split
  · exact .changeNode _
  · exact .pure trivial

theorem yields_answerLeader {fine : CommandError → Prop} :
    Yields (fun _ => True) fine answerLeader := by
  refine .andThen .session fun session => ?_
  split
  · exact .changeNode _
  · exact .pure trivial

/-- An acknowledgement is not answered, nor is a request for one: the answer goes to the leader. -/
theorem yields_replconf (node : Node) (id : ClientId) (arguments : List String) :
    Yields (Told node id "REPLCONF" arguments) (Repeats arguments) (replconf arguments) := by
  have answered {step : CommandM Reply} (answered : ¬Unanswered "REPLCONF" arguments)
      (answers : Answers step) :
      Yields (Told node id "REPLCONF" arguments) (Repeats arguments) step :=
    Yields.mono answers (fun _ single => Told.single (by decide) answered single)
      fun _ plain => .inl plain
  have silent {step : CommandM Reply} (unanswered : Unanswered "REPLCONF" arguments)
      (yields : Yields (fun reply => reply = []) Plain step) :
      Yields (Told node id "REPLCONF" arguments) (Repeats arguments) step :=
    Yields.mono yields (fun _ none => none ▸ Told.nothing unanswered) fun _ plain => .inl plain
  match arguments with
  | [] => exact answered (by simp [Unanswered]) .ok
  | option :: values =>
      have unanswered {word : String} (lowered : Text.lower option = word) :
          Unanswered "REPLCONF" (option :: values) ↔ word ∈ ["ack", "getack"] := by
        simp [Unanswered, lowered]
      simp only [Command.replconf]
      split
      · next lowered =>
          exact answered (mt (unanswered lowered).mp (by decide)) <|
            .andThen (.orFail (plain_of_notMem (by decide)) _) fun _ =>
            .andThen (.orFail (plain_of_notMem (by decide)) _) fun _ =>
            .andThen (yields_noteListeningPort _) fun _ => Answers.ok
      · next lowered => exact answered (mt (unanswered lowered).mp (by decide)) .ok
      · next lowered =>
          exact silent ((unanswered lowered).mpr (by decide)) <|
            .andThen (.orFail (plain_of_notMem (by decide)) _) fun _ =>
            .andThen (.integer _) fun _ => .andThen (yields_noteAcknowledgement _) fun _ => .pure rfl
      · next lowered =>
          exact silent ((unanswered lowered).mpr (by decide)) <|
            .andThen yields_answerLeader fun _ => .pure rfl
      · have told : (CommandError.custom s!"ERR Unrecognized REPLCONF option: {option}").message =
            "ERR Unrecognized REPLCONF option: " ++ option ++ "" := by
          rw [String.append_empty]
          rfl
        exact .throw (.around List.mem_cons_self told (by decide) (by decide))

theorem yields_psync (node : Node) (id : ClientId) (arguments : List String) :
    Yields (Told node id "PSYNC" arguments) (Repeats arguments) (psync arguments) := by
  have silent : Yields (fun reply => reply = []) Plain (psync arguments) := by
    match arguments with
    | [_, offset] =>
        refine .andThen (.integer offset) fun offset => .andThen .session fun session => ?_
        split
        · refine .andThen .node fun node => ?_
          dsimp only
          split
          · exact .throw (plain_of_notMem (by decide))
          · exact .andThen (.changeNode _) fun _ => .pure rfl
        · exact .pure rfl
    | [] | [_] | _ :: _ :: _ :: _ => exact .throw (plain_of_notMem (by decide))
  exact silent.mono (fun _ none => none ▸ Told.nothing (.inl rfl)) fun _ plain => .inl plain

/-! ### Subscriptions -/

/-- The induction is on the channels. -/
theorem yields_changeSubscriptions (id : ClientId) (kind : String) (listen : Bool)
    (channels : List String) {fine : CommandError → Prop} :
    Yields (List.Forall₂ (Confirms kind) channels) fine
      (changeSubscriptions id kind listen channels) := by
  induction channels with
  | nil => exact .pure .nil
  | cons channel channels ih =>
      simp only [changeSubscriptions, List.mapM_cons, bind_assoc, pure_bind]
      exact .andThen (.changeNode _) fun _ => .andThen .node fun node =>
        .bind ih fun others confirmed => .pure (.cons ⟨_, rfl⟩ confirmed)

section Client

variable {context : Context} {id : ClientId}

theorem outcome_subscribe (client : context.session.source = .client id) {channels : List String}
    (named : channels ≠ []) :
    (subscribe channels).outcome context =
      (changeSubscriptions id "subscribe" true channels).outcome context := by
  simp only [Command.subscribe, if_neg (mt List.isEmpty_iff.mp named)]
  rw [outcome_bind, outcome_session]
  dsimp only
  rw [client]

theorem outcome_unsubscribe (client : context.session.source = .client id) (channels : List String) :
    (unsubscribe channels).outcome context =
      (if dropped context.node id channels = [] then pure [confirmation "unsubscribe" none 0]
        else changeSubscriptions id "unsubscribe" false (dropped context.node id channels) :
        CommandM Reply).outcome context := by
  rw [unsubscribe, outcome_bind, outcome_session]
  dsimp only
  rw [client]
  dsimp only
  rw [outcome_bind, outcome_node]
  simp only [dropped, List.isEmpty_iff]

theorem yields_subscribe (client : context.session.source = .client id) (channels : List String) :
    YieldsIn context (Told context.node id "SUBSCRIBE" channels) (Repeats channels)
      (subscribe channels) := by
  by_cases named : channels = []
  · rw [named]
    exact Yields.throw (.inl (plain_of_notMem (by decide))) context
  · rw [YieldsIn, outcome_subscribe client named]
    exact (yields_changeSubscriptions id "subscribe" true channels context).mono
      (fun _ confirms => .subscribed confirms) fun _ failing => failing

theorem yields_unsubscribe (client : context.session.source = .client id) (channels : List String) :
    YieldsIn context (Told context.node id "UNSUBSCRIBE" channels) (Repeats channels)
      (unsubscribe channels) := by
  rw [YieldsIn, outcome_unsubscribe client]
  by_cases none : dropped context.node id channels = []
  · rw [if_pos none]
    exact Told.unsubscribedNone none
  · rw [if_neg none]
    exact (yields_changeSubscriptions id "unsubscribe" false _ context).mono
      (fun _ confirms => .unsubscribed none confirms) fun _ failing => failing

/-! ### All commands -/

/-- A command that has a handler of its own tells a client what belongs to its name, and fails with
an error that repeats at most an argument. -/
theorem yields_handler (client : context.session.source = .client id) {command : Command}
    (member : command ∈ all) (arguments : List String) :
    YieldsIn context (Told context.node id command.name arguments) (Repeats arguments)
      (command.handler arguments) := by
  have single {name : String} {step : CommandM Reply}
      (other : name ∉ ["SUBSCRIBE", "UNSUBSCRIBE", "PSYNC", "REPLCONF"])
      (yields : Yields Single (Repeats arguments) step) :
      YieldsIn context (Told context.node id name arguments) (Repeats arguments) step := by
    simp only [List.mem_cons, List.not_mem_nil, or_false, not_or] at other
    obtain ⟨subscribe, unsubscribe, psync, replconf⟩ := other
    have answered : ¬Unanswered name arguments := by
      rintro (named | ⟨named, _⟩)
      · exact psync named
      · exact replconf named
    exact (yields context).mono (fun _ given => .single (by simp [subscribe, unsubscribe]) answered given)
      fun _ failing => failing
  have answering {name : String} {step : CommandM Reply}
      (other : name ∉ ["SUBSCRIBE", "UNSUBSCRIBE", "PSYNC", "REPLCONF"]) (answers : Answers step) :
      YieldsIn context (Told context.node id name arguments) (Repeats arguments) step :=
    single other (answers.repeating arguments)
  simp only [all, basic, List.mem_cons, List.not_mem_nil, or_false] at member
  rcases member with rfl | rfl | rfl | rfl | rfl | rfl | rfl | rfl | rfl | rfl | rfl | rfl | rfl |
    rfl | rfl | rfl | rfl | rfl | rfl | rfl | rfl | rfl | rfl | rfl | rfl | rfl | rfl | rfl | rfl |
    rfl
  · exact single (by decide) (yields_debug basic arguments)
  · exact answering (by decide) (.ping arguments)
  · exact answering (by decide) (.echo arguments)
  · exact answering (by decide) (.select arguments)
  · exact answering (by decide) (.get arguments)
  · exact answering (by decide) (.mget arguments)
  · exact answering (by decide) (.set arguments)
  · exact answering (by decide) (.mset arguments)
  · exact answering (by decide) (.del arguments)
  · exact answering (by decide) (.countExisting arguments)
  · exact answering (by decide) (.dbsize arguments)
  · exact answering (by decide) (.pexpireat arguments)
  · exact answering (by decide) (.flushall arguments)
  · exact answering (by decide) (.push (by decide) .head false arguments)
  · exact answering (by decide) (.push (by decide) .tail false arguments)
  · exact answering (by decide) (.push (by decide) .head true arguments)
  · exact answering (by decide) (.push (by decide) .tail true arguments)
  · exact answering (by decide) (.lrange arguments)
  · exact answering (by decide) (.llen arguments)
  · exact answering (by decide) (.lpop arguments)
  · exact answering (by decide) (.save arguments)
  · exact answering (by decide) (.bgsave arguments)
  · exact answering (by decide) (.info arguments)
  · exact answering (by decide) (.replicaof arguments)
  · exact answering (by decide) (.replicaof arguments)
  · exact yields_replconf context.node id arguments context
  · exact yields_psync context.node id arguments context
  · exact answering (by decide) (.publish arguments)
  · exact yields_subscribe client arguments
  · exact yields_unsubscribe client arguments

/-- A name that names a command has no CR in it, nor has it in lower case. -/
theorem notMem_lower_of_find? {name : String} {command : Command} (known : find? all name = some command) :
    '\r' ∉ (Text.lower name).toList := by
  obtain ⟨member, named⟩ := find?_inv known
  have names : ∀ text ∈ all.map (·.name), '\r' ∉ text.toList := by decide
  intro found
  have upper := Text.mem_upper (Text.mem_of_mem_lower found)
  rw [← named] at upper
  exact names command.name (List.mem_map_of_mem member) upper

/-- What comes of a command is what its name says, or an error that repeats at most an argument. -/
theorem yields_run (client : context.session.source = .client id) (name : String)
    (arguments : List String) :
    YieldsIn context (Told context.node id (Text.upper name) arguments) (Repeats (name :: arguments))
      (runFrom all (name :: arguments)) := by
  rw [YieldsIn, outcome_runFrom_cons]
  cases known : find? all name with
  | none =>
      have told : (CommandError.unknownCommand name).message =
          "ERR unknown command '" ++ name ++ "'" := rfl
      exact .around List.mem_cons_self told (by decide) (by decide)
  | some command =>
      obtain ⟨member, named⟩ := find?_inv known
      dsimp only
      by_cases refused : (!command.accepts (arguments.length + 1)) = true
      · rw [if_pos refused]
        exact .inl (CommandError.plain_wrongArity (notMem_lower_of_find? known))
      rw [if_neg refused]
      by_cases barred : (context.session.source.isClient && context.node.following &&
          command.effect == .write) = true
      · rw [if_pos barred]
        exact .inl (plain_of_notMem (by decide))
      rw [if_neg barred]
      have yields := @yields_handler context.ready id client command member arguments
      rw [named, YieldsIn] at yields
      cases ran : (command.handler arguments).outcome context.ready with
      | mk result after =>
          rw [ran] at yields
          cases result with
          | error error => exact CommandError.Repeats.mono yields fun _ => List.mem_cons_of_mem name
          | ok reply => exact yields

/-- A client reads in the bytes of a reply just the values that it is made of, and these are what
the command has to tell, or one failure.  The exception is a failure that repeats an argument with
a line break in it.  (No number in the reply, and no length, takes more than a word of 64 bits.) -/
theorem dispatch_framed (client : context.session.source = .client id) (name : String)
    (arguments : List String) {reply : Reply}
    (answers : (dispatch context (name :: arguments)).1 = reply)
    (sized : ∀ value ∈ reply, value.Sized) :
    (Told context.node id (Text.upper name) arguments reply ∨ ∃ text, reply = [.failure text]) ∧
    (Wire.takeFrames (reply.flatMap (·.toBytes)) = (.ok (reply.map (·.framed)), []) ∨
      ∃ text, reply = [.failure text] ∧
        ∃ argument ∈ name :: arguments, ¬Text.OneLine argument ∧ argument.toList <:+: text.toList) := by
  have yields := yields_run client name arguments
  rw [dispatch, dispatchFrom_eq] at answers
  rw [YieldsIn] at yields
  cases ran : (runFrom all (name :: arguments)).outcome context with
  | mk result later =>
      rw [ran] at yields answers
      cases result with
      | ok given =>
          subst answers
          exact ⟨.inl yields, .inl <| Wire.takeFrames_reply fun value member =>
            (Told.lined yields value member).sendable (sized value member)⟩
      | error error =>
          subst answers
          refine ⟨.inr ⟨error.message, rfl⟩, ?_⟩
          rcases yields with plain | ⟨argument, member, broken, inside⟩
          · refine .inl <| Wire.takeFrames_reply fun value member => ?_
            rw [List.mem_singleton.mp member]
            exact .failure plain
          · exact .inr ⟨error.message, rfl, argument, member, broken, inside⟩

end Client

/-- A node that serves the first of its two clients. -/
def attended : Context :=
  { node := Node.small, session := { source := .client 1 } }

/-- A channel may have a line break in its name, and what looks like a reply behind it. -/
theorem dispatch_framed_subscribe :
    (dispatch attended ["SUBSCRIBE", "news", "a\r\n+PONG"]).1 =
      [confirmation "subscribe" (some "news") 1, confirmation "subscribe" (some "a\r\n+PONG") 2] ∧
    Wire.takeFrames ([confirmation "subscribe" (some "news") 1,
        confirmation "subscribe" (some "a\r\n+PONG") 2].flatMap (·.toBytes)) =
      (.ok [(confirmation "subscribe" (some "news") 1).framed,
        (confirmation "subscribe" (some "a\r\n+PONG") 2).framed], []) := by
  have answers : (dispatch attended ["SUBSCRIBE", "news", "a\r\n+PONG"]).1 =
      [confirmation "subscribe" (some "news") 1,
        confirmation "subscribe" (some "a\r\n+PONG") 2] := rfl
  have sized : ∀ value ∈ [confirmation "subscribe" (some "news") 1,
      confirmation "subscribe" (some "a\r\n+PONG") 2], value.Sized := by
    simp only [confirmation, List.mem_cons, List.not_mem_nil, or_false, forall_eq_or_imp, forall_eq]
    refine ⟨.array (by decide) ?_, .array (by decide) ?_⟩ <;>
    · simp only [List.mem_cons, List.not_mem_nil, or_false, forall_eq_or_imp, forall_eq]
      exact ⟨.bulk (by decide), .bulk (by decide), .integer (by decide) (by decide)⟩
  have client : attended.session.source = .client 1 := rfl
  rcases (dispatch_framed client "SUBSCRIBE" ["news", "a\r\n+PONG"] answers sized).2 with
    framed | ⟨text, failed, _⟩
  · exact ⟨answers, framed⟩
  · cases failed

/-- A name that no command has is repeated as it stands. -/
theorem dispatch_unknown {context : Context} {name : String} (unknown : find? all name = none)
    (arguments : List String) :
    (dispatch context (name :: arguments)).1 = [.failure ("ERR unknown command '" ++ name ++ "'")] := by
  rw [dispatch, dispatchFrom_eq, outcome_runFrom_cons, unknown]
  rfl

/-- Not every command is read as one reply.  The name of an unknown command may end its reply and
begin another one.  PSYNC is not answered, and a client without subscriptions is told of a change
though there is none. -/
theorem dispatch_misread :
    Node.small.Reachable ∧
    Wire.takeFrames ((dispatch attended ["FOO\r\n+PONG"]).1.flatMap (·.toBytes)) =
      (.ok [(Wire.Value.failure "ERR unknown command 'FOO").framed,
        (Wire.Value.simple "PONG'").framed], []) ∧
    (dispatch attended ["PSYNC", "?", "-1"]).1 = [] ∧
    (dispatch attended ["UNSUBSCRIBE"]).1 = [confirmation "unsubscribe" none 0] := by
  refine ⟨Node.small_reachable, ?_, by decide +kernel, rfl⟩
  have unknown : find? all "FOO\r\n+PONG" = none :=
    Option.isNone_iff_eq_none.mp (by decide +kernel)
  have sendable : ∀ value ∈ [Wire.Value.failure "ERR unknown command 'FOO", .simple "PONG'"],
      value.Sendable := by
    simp only [List.mem_cons, List.not_mem_nil, or_false, forall_eq_or_imp, forall_eq]
    exact ⟨.failure (Text.oneLine_of_notMem (by decide)), .simple (Text.oneLine_of_notMem (by decide))⟩
  have same : (dispatch attended ["FOO\r\n+PONG"]).1.flatMap (·.toBytes) =
      [Wire.Value.failure "ERR unknown command 'FOO", .simple "PONG'"].flatMap (·.toBytes) := by
    rw [dispatch_unknown unknown]
    decide +kernel
  rw [same]
  exact Wire.takeFrames_reply sendable

end Command
end ReplicaStore
