import ReplicaStore.Proofs.Node.Calm
import ReplicaStore.Proofs.Stream.Delivery

/-!
# Commands that replicas repeat

A command that a node adds to its stream is one that others can repeat: whoever runs it on
databases of which the same can be read as of those it was run on has the same to be read
afterwards (`Command.addition?_echoes`).  More generally, two nodes of which the same can
be read stay alike when both run one command that no client has issued
(`Command.dispatch_alike`).
-/

namespace ReplicaStore

namespace Context.Alike

variable {moment : Int} {left right later : Context}

theorem trans_left (alike : Context.Alike moment left right)
    (wall : later.node.clock.wall = moment)
    (database : later.session.database = left.session.database) (sound : later.node.Sound)
    (live : later.node.partitions.live moment = left.node.partitions.live moment) :
    Context.Alike moment later right :=
  ⟨wall, alike.wallRight, database.trans alike.database,
    sound, alike.partitions.soundRight, live.trans alike.partitions.live⟩

theorem symm (alike : Context.Alike moment left right) : Context.Alike moment right left :=
  ⟨alike.wallRight, alike.wallLeft, alike.database.symm,
    alike.partitions.soundRight, alike.partitions.soundLeft, alike.partitions.live.symm⟩

theorem ready (alike : Context.Alike moment left right) :
    Context.Alike moment left.ready right.ready :=
  ⟨alike.wallLeft, alike.wallRight, alike.database, alike.partitions⟩

end Context.Alike

/-- What has to be known of a node to say what its commands come down to. -/
structure Node.Regular (node : Node) : Prop where
  sound : node.Sound
  lifecycle : node.Lifecycle
  bounded : node.Bounded

namespace Command

open CommandM

/-! ### Finding commands -/

/-- The names of commands are in upper case. -/
theorem upper_name {command : Command} (member : command ∈ all) :
    Text.upper command.name = command.name := by
  have names : ∀ name ∈ all.map (·.name), Text.upper name = name := by decide
  exact names _ (List.mem_map_of_mem member)

theorem find?_upper {name : String} {command : Command} (known : find? all name = some command) :
    find? all (Text.upper name) = some command := by
  obtain ⟨member, named⟩ := find?_inv known
  have same : Text.upper (Text.upper name) = Text.upper name := by
    rw [← named]
    exact upper_name member
  rw [find?, same]
  exact known

/-! ### Commands that write -/

/-- A step that does the same wherever the same can be read, and nothing but write.  In its
session it may note the form in which it is to be replicated. -/
structure Writes (handler : CommandM Reply) : Prop where
  uniform : ∀ moment, handler.Uniform moment
  does : ∀ context : Context, ∃ form,
    { context with session := { context.session with propagateAs := form } }.Does
      Deed.IsWrite (handler.outcome context).2

theorem Writes.of_does {handler : CommandM Reply} (uniform : ∀ moment, handler.Uniform moment)
    (does : ∀ context, handler.Does Deed.IsWrite context) : Writes handler :=
  ⟨uniform, fun context => ⟨context.session.propagateAs, does context⟩⟩

theorem basic_writes {command : Command} (member : command ∈ basic)
    (writes : command.effect = .write) (arguments : List String) :
    Writes (command.handler arguments) := by
  have uniform (moment : Int) := @basic_uniform moment command member writes arguments
  rcases basic_does member with rfl | rfl | does
  · cases writes
  · exact ⟨uniform, set_does arguments⟩
  · apply Writes.of_does uniform
    intro context
    have ran := does arguments context
    rw [writes] at ran
    exact ran

theorem populateBy_writes (argument : String) : Writes (populateBy argument) :=
  .of_does (populateBy_uniform argument) (populateBy_does argument)

/-- The arguments with which `DEBUG` generates keys. -/
def Populates (arguments : List String) : Prop :=
  ∃ name count, Text.upper name = "POPULATE" ∧ arguments = [name, count]

theorem debug_populate {table : List Command} {name : String}
    (populates : Text.upper name = "POPULATE") (count : String) :
    debug table [name, count] = populateBy count := by
  unfold debug
  dsimp only
  rw [populates]
  simp only [populateBy]
  congr

theorem debug_impact {arguments : List String} (other : ¬Populates arguments) {context : Context}
    (regular : context.node.Regular) : Impact (debug basic arguments) context := by
  rcases debug_cases basic arguments context with ⟨_, _, _, form⟩ | ⟨name, count, populates, given, _⟩ | does
  · rw [form]
    exact reload_impact regular.sound regular.lifecycle regular.bounded.sized
  · exact absurd ⟨name, count, populates, given⟩ other
  · apply Impact.of_does regular.sound
    apply does.mono
    rintro deed (read | ⟨id, rfl⟩)
    · cases deed <;> first | exact read | cases read
    · trivial

/-- A command that is no turn selects a database, writes, or has an impact that is known
otherwise. -/
theorem all_cases {command : Command} (member : command ∈ all) (stays : ¬command.IsTurn)
    (arguments : List String) :
    command = ⟨"SELECT", 2, .read, select⟩ ∨
    ((command.effect = .write ∨ command.name = "DEBUG" ∧ Populates arguments) ∧
      Writes (command.handler arguments)) ∨
    (command.effect ≠ .write ∧ ∀ context : Context, context.node.Regular →
      Impact (command.handler arguments) context) := by
  rcases List.mem_cons.mp member with rfl | basic
  · by_cases populates : Populates arguments
    · obtain ⟨name, count, given, rfl⟩ := populates
      refine .inr (.inl ⟨.inr ⟨rfl, name, count, given, rfl⟩, ?_⟩)
      dsimp only
      rw [debug_populate given]
      exact populateBy_writes count
    · exact .inr (.inr ⟨by simp, fun context regular => debug_impact populates regular⟩)
  · by_cases writes : command.effect = .write
    · exact .inr (.inl ⟨.inl writes, basic_writes basic writes arguments⟩)
    · by_cases selects : command = ⟨"SELECT", 2, .read, select⟩
      · exact .inl selects
      · exact .inr (.inr ⟨writes, fun context regular =>
          basic_impact basic writes stays selects arguments regular.sound⟩)

/-! ### The stream of a leader -/

/-- Selecting a database goes well, or does not, wherever there are as many. -/
theorem select_alike (arguments : List String) {moment : Int} {left right : Context}
    (alike : Context.Alike moment left right) :
    Context.Alike moment ((select arguments).outcome left).2 ((select arguments).outcome right).2 := by
  match arguments with
  | [argument] =>
      simp only [select, outcome_bind, outcome_integer]
      cases Text.readSigned64 argument with
      | none => exact alike
      | some index =>
          dsimp only
          rw [outcome_node, outcome_node]
          dsimp only
          rw [alike.partitions.count]
          split
          · exact ⟨alike.wallLeft, alike.wallRight, rfl, alike.partitions⟩
          · exact alike
  | [] | _ :: _ :: _ => exact alike

/-- A command that no client has issued leaves what can be read as it is, unless it writes. -/
theorem Impact.still {handler : CommandM Reply} {context : Context}
    (impact : Impact handler context) (source : context.session.source.isClient = false)
    (sound : context.node.Sound) :
    (handler.outcome context).2.node.clock.wall = context.node.clock.wall ∧
    (handler.outcome context).2.session = context.session ∧
    (handler.outcome context).2.node.Sound ∧
    (handler.outcome context).2.node.partitions.live context.node.clock.wall =
      context.node.partitions.live context.node.clock.wall := by
  cases impact with
  | calm calm session => exact ⟨calm.wall, session, calm.sound, calm.live⟩
  | begins later begun same =>
      rw [same]
      have retains := Node.beginSnapshot_retains sound begun
      exact ⟨(Node.beginSnapshot_abides begun).wall, rfl, retains.sound, retains.live _⟩
  | synchronises id history offset client same =>
      rw [client] at source
      cases source

theorem handler_alike {command : Command} (member : command ∈ all) (stays : ¬command.IsTurn)
    (arguments : List String) {moment : Int} {left right : Context}
    (alike : Context.Alike moment left right)
    (sourceLeft : left.session.source.isClient = false)
    (sourceRight : right.session.source.isClient = false)
    (regularLeft : left.node.Regular) (regularRight : right.node.Regular) :
    Context.Alike moment ((command.handler arguments).outcome left).2
      ((command.handler arguments).outcome right).2 := by
  rcases all_cases member stays arguments with rfl | ⟨_, writes⟩ | ⟨_, impact⟩
  · exact select_alike arguments alike
  · exact (writes.uniform moment left right alike).2.1
  · obtain ⟨wall, session, sound, live⟩ :=
      (impact left regularLeft).still sourceLeft regularLeft.sound
    obtain ⟨wallRight, sessionRight, soundRight, liveRight⟩ :=
      (impact right regularRight).still sourceRight regularRight.sound
    rw [alike.wallLeft] at wall live
    rw [alike.wallRight] at wallRight liveRight
    have first := alike.trans_left wall (congrArg Session.database session) sound live
    exact (first.symm.trans_left wallRight (congrArg Session.database sessionRight) soundRight
      liveRight).symm

/-- Whoever issued a command, a client or not, finds it by its name. -/
def Turns (arguments : List String) : Prop :=
  ∃ name rest, arguments = name :: rest ∧
    (Text.upper name = "REPLICAOF" ∨ Text.upper name = "SLAVEOF")

theorem stays_of_known {name : String} {rest : List String} {command : Command}
    (known : find? all name = some command) (stays : ¬Turns (name :: rest)) :
    ¬command.IsTurn := by
  intro turn
  rw [IsTurn, (find?_inv known).2] at turn
  exact stays ⟨name, rest, rfl, turn⟩

/-- A command that no client has issued is not passed on by whoever runs it. -/
theorem dispatch_of_not_client {context : Context}
    (source : context.session.source.isClient = false) (name : String) (rest : List String) :
    (dispatch context (name :: rest)).2 =
      match find? all name with
      | none => context
      | some command =>
          if command.accepts (rest.length + 1) then ((command.handler rest).outcome context.ready).2
          else context := by
  rw [dispatch, dispatchFrom_context, outcome_runFrom_cons]
  cases find? all name with
  | none => rfl
  | some command =>
      simp only [source, Bool.false_and, Bool.false_eq_true, if_false]
      cases command.accepts (rest.length + 1) with
      | false => rfl
      | true =>
          match (command.handler rest).outcome context.ready with
          | (.error error, after) | (.ok reply, after) => rfl

theorem dispatch_alike {moment : Int} {left right : Context}
    (alike : Context.Alike moment left right)
    (sourceLeft : left.session.source.isClient = false)
    (sourceRight : right.session.source.isClient = false)
    (regularLeft : left.node.Regular) (regularRight : right.node.Regular)
    {arguments : List String} (stays : ¬Turns arguments) :
    Context.Alike moment (dispatch left arguments).2 (dispatch right arguments).2 := by
  match arguments with
  | [] => exact alike
  | name :: rest =>
      rw [dispatch_of_not_client sourceLeft, dispatch_of_not_client sourceRight]
      cases known : find? all name with
      | none => exact alike
      | some command =>
          dsimp only
          split
          · exact handler_alike (find?_inv known).1 (stays_of_known known stays) rest alike.ready
              sourceLeft sourceRight regularLeft regularRight
          · exact alike

/-! ### What is added to the stream -/

/-- The form in which a client's command is added to the stream, if it is, and the database
that it is for. -/
def addition? (context : Context) : List String → Option (List String × Nat)
  | [] => none
  | name :: rest =>
      match lookup? name with
      | none => none
      | some command =>
          if command.accepts (rest.length + 1) && command.effect.propagates then
            match (command.handler rest).outcome context.ready with
            | (.ok _, after) =>
                some (after.session.propagateAs.getD (Text.upper name :: rest), after.session.database)
            | (.error _, _) => none
          else none

/-- The relative expiry of a key becomes a moment that is still to come. -/
theorem setExpiry_pos {now : Int} (since : 0 ≤ now) {found expiry : Option SetExpiry}
    {options : List String} (read : setExpiry? now found options = .ok expiry)
    (positive : ∀ limit, found = some limit → 0 < limit.moment) (limit : SetExpiry)
    (given : expiry = some limit) : 0 < limit.moment := by
  fun_induction setExpiry? now found options with
  | case1 =>
      cases read
      exact positive limit given
  | case2 => cases read
  | case3 => cases read
  | case4 => cases read
  | case5 => cases read
  | case6 found option _ rest _ amount _ some _ ih =>
      apply ih read
      rintro _ ⟨⟩
      simp only [Text.maxSigned64]
      omega
  | case7 found option _ rest _ amount _ some _ ih =>
      apply ih read
      rintro _ ⟨⟩
      dsimp only
      omega
  | case8 => cases read

/-- SET in the form in which it is replicated stores just the same. -/
theorem outcome_set_form {context : Context} {key value : String} {moment : Int}
    (positive : 0 < moment) (fits : moment ≤ Text.maxSigned64) :
    (set [key, value, "PXAT", toString moment]).outcome context =
      (store key value (some moment)).outcome context := by
  have read : Text.readSigned64 moment.repr = some moment :=
    Text.readSigned64_toString_int (Int.le_of_lt positive) fits
  have options : setExpiry? context.node.clock.wall none ["PXAT", toString moment] =
      .ok (some ⟨moment, false⟩) := by
    have word : Text.upper "PXAT" = "PXAT" := rfl
    have notNegative : ¬moment ≤ 0 := by omega
    simp [setExpiry?, read, notNegative, word]
  rw [outcome_set, options]
  rfl

/-- A command has changed the databases at most, and whoever repeats it in the given form
has the same to be read afterwards. -/
structure Echoes (context : Context) (form : List String) (after : Context) : Prop where
  given : form ≠ []
  database : after.session.database = context.session.database
  frame : after.node = { context.node with
    partitions := after.node.partitions, clients := after.node.clients }
  reaches : ∀ id, after.node.clients.reaches id = context.node.clients.reaches id
  stays : ¬Turns form
  repeats : ∀ right : Context, Context.Alike context.node.clock.wall context right →
    right.session.source.isClient = false → right.node.Regular →
    Context.Alike context.node.clock.wall after (dispatch right form).2

/-- Whoever repeats a command under its name in upper case runs the same handler. -/
theorem dispatch_upper {context : Context} (source : context.session.source.isClient = false)
    {name : String} {rest : List String} {command : Command}
    (known : find? all name = some command) (accepts : command.accepts (rest.length + 1) = true) :
    (dispatch context (Text.upper name :: rest)).2 =
      ((command.handler rest).outcome context.ready).2 := by
  rw [dispatch_of_not_client source, find?_upper known]
  dsimp only
  rw [if_pos accepts]

theorem stays_upper {name : String} {rest : List String} {command : Command}
    (known : find? all name = some command) (stays : ¬command.IsTurn) :
    ¬Turns (Text.upper name :: rest) := by
  rintro ⟨_, _, ⟨⟩, turn⟩
  obtain ⟨member, named⟩ := find?_inv known
  rw [← named, upper_name member] at turn
  exact stays turn

/-- The only command that changes nothing but is added to the stream. -/
theorem eq_publish {command : Command} (member : command ∈ all)
    (broadcast : command.effect = .broadcast) :
    command = ⟨"PUBLISH", 3, .broadcast, publish⟩ := by
  simp only [all, basic, List.mem_cons, List.not_mem_nil, or_false] at member
  rcases member with rfl | rfl | rfl | rfl | rfl | rfl | rfl | rfl | rfl | rfl | rfl | rfl | rfl |
    rfl | rfl | rfl | rfl | rfl | rfl | rfl | rfl | rfl | rfl | rfl | rfl | rfl | rfl | rfl | rfl | rfl
  all_goals first | rfl | cases broadcast

section

variable {context after : Context} {name : String} {rest : List String} {command : Command}
  {reply : Reply}
variable (known : find? all name = some command)
  (accepts : command.accepts (rest.length + 1) = true)
  (ran : (command.handler rest).outcome context.ready = (.ok reply, after))

include known accepts ran

/-- A command that writes and notes no other form is repeated as it is. -/
theorem writes_echoes (stays : ¬command.IsTurn) (writes : Writes (command.handler rest)) :
    Echoes context (Text.upper name :: rest) after := by
  obtain ⟨form, does⟩ := writes.does context.ready
  rw [ran] at does
  have frame := does.becomes.frame
  refine ⟨List.cons_ne_nil _ _, (congrArg Session.database does.session).trans rfl, ?_,
    ?_, stays_upper known stays, ?_⟩
  · rw [frame]
    rfl
  · intro id
    rw [frame]
    rfl
  · intro right alike source _
    rw [dispatch_upper source known accepts]
    have uniform := (writes.uniform context.node.clock.wall _ _ alike.ready).2.1
    rw [ran] at uniform
    exact uniform

theorem publish_echoes (broadcast : command.effect = .broadcast) :
    Echoes context (Text.upper name :: rest) after := by
  obtain rfl := eq_publish (find?_inv known).1 broadcast
  have publishes (context : Context) :
      context.Does Deed.IsPublication ((publish rest).outcome context).2 := publish_does rest
  have frame (context : Context) := (publishes context).becomes.publication_frame
  have does := publishes context.ready
  have left := frame context.ready
  dsimp only at ran
  rw [ran] at does left
  have stays : ¬Command.IsTurn ⟨"PUBLISH", 3, .broadcast, publish⟩ := by
    rintro (turn | turn) <;> exact absurd turn (by decide)
  refine ⟨List.cons_ne_nil _ _, (congrArg Session.database does.session).trans rfl, ?_,
    ?_, stays_upper known stays, ?_⟩
  · rw [left]
    rfl
  · intro id
    exact does.becomes.same (·.clients.reaches id) fun deed before publication => by
      cases deed with
      | publish listeners bytes => exact Clients.reaches_sendAll ..
      | _ => cases publication
  · intro right alike source _
    rw [dispatch_upper source known accepts]
    have there := frame right.ready
    refine ⟨?_, ?_, ?_, ?_⟩
    · rw [left]
      rfl
    · dsimp only
      rw [there]
      exact alike.wallRight
    · dsimp only
      rw [does.session, (publishes right.ready).session]
      exact alike.database
    · dsimp only
      rw [left, there]
      exact alike.partitions

end

end Command
end ReplicaStore
