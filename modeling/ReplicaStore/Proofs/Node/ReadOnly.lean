import ReplicaStore.Proofs.Command.Delayed
import ReplicaStore.Proofs.Node.Attuned
import ReplicaStore.Proofs.Node.Serving
import ReplicaStore.Proofs.Node.Unseen

/-!
# Followers are read-only

A node that follows a leader has its data, its history and its stream from that leader.  No
command of a client changes any of them, but for the hook that generates keys and the
commands that turn the node elsewhere, and neither does the upkeep, nor the writing of
snapshots, nor the merging behind them.  As long as the node follows somebody, all of it changes
by what is accepted from the link at most (`Node.Attuned.read_only`).
-/

namespace ReplicaStore

namespace Node

variable {before between after node later : Node} {moment : Int}

/-- What can be read at a moment, the history and the recorded stream are the same. -/
structure Unaltered (moment : Int) (before after : Node) : Prop where
  live : after.partitions.live moment = before.partitions.live moment
  identity : after.coordinator.identity = before.coordinator.identity
  offset : after.coordinator.offset = before.coordinator.offset
  backlog : after.coordinator.backlog = before.coordinator.backlog

namespace Unaltered

theorem refl (moment : Int) (node : Node) : node.Unaltered moment node :=
  ⟨rfl, rfl, rfl, rfl⟩

theorem trans (first : before.Unaltered moment between) (second : between.Unaltered moment after) :
    before.Unaltered moment after :=
  ⟨second.live.trans first.live, second.identity.trans first.identity,
    second.offset.trans first.offset, second.backlog.trans first.backlog⟩

/-- Where the phases of partitions have changed at most, and records of replicas. -/
theorem of_unmoved (retains : before.partitions.Retains after.partitions)
    (unmoved : before.Unmoved after) : before.Unaltered moment after :=
  ⟨retains.live moment, unmoved.identity, unmoved.offset, unmoved.backlog⟩

end Unaltered

/-- Nothing has changed that a follower has from its leader. -/
structure Kept (before after : Node) : Prop where
  wall : after.clock.wall = before.clock.wall
  sound : after.Sound
  leader : after.role.leader = before.role.leader
  live : after.partitions.live before.clock.wall = before.partitions.live before.clock.wall
  identity : after.coordinator.identity = before.coordinator.identity
  backlog : after.coordinator.backlog = before.coordinator.backlog

namespace Kept

theorem refl (sound : node.Sound) : node.Kept node :=
  ⟨rfl, sound, rfl, rfl, rfl, rfl⟩

theorem trans (first : before.Kept between) (second : between.Kept after) : before.Kept after where
  wall := second.wall.trans first.wall
  sound := second.sound
  leader := second.leader.trans first.leader
  live := by
    have live := second.live
    rw [first.wall] at live
    exact live.trans first.live
  identity := second.identity.trans first.identity
  backlog := second.backlog.trans first.backlog

theorem calm (calm : before.Calm after) : before.Kept after :=
  ⟨calm.wall, calm.sound, calm.leader, calm.live, calm.stream.identity, calm.stream.backlog⟩

theorem silent (silent : before.Silent after) (sound : after.Sound) : before.Kept after :=
  ⟨silent.wall, sound, silent.leader, silent.live, silent.identity, silent.backlog⟩

/-- A replica that is taken up where a stream is recorded. -/
theorem synchronise (sound : node.Sound) (recorded : node.coordinator.backlog.isSome = true)
    (id : ClientId) (history : String) (offset : Int) :
    node.Kept (Command.synchronise id history offset node) := by
  have retains := synchronise_retains sound id history offset
  rcases synchronise_standing id history offset node with ⟨_, unmoved⟩ | ⟨unrecorded, _⟩
  · have wall : (Command.synchronise id history offset node).clock.wall = node.clock.wall := by
      rcases synchronise_cases id history offset node with ⟨_, _, same⟩ | ⟨_, same⟩ <;> rw [same]
      have scheduled (coordinator : Stream.Coordinator) :=
        @Unseen.scheduleFullSync { node with coordinator } sound
      exact (scheduled _).wall
    exact ⟨wall, retains.sound, unmoved.role.leader, retains.live _, unmoved.identity,
      unmoved.backlog⟩
  · rw [unrecorded] at recorded
    cases recorded

theorem following (kept : before.Kept after) : after.following = before.following := by
  rw [Node.following, Node.following, Link.Role.following, Link.Role.following, kept.leader]

/-- What was the same at one moment is the same at any later one. -/
theorem unaltered (kept : before.Kept after) (due : before.clock.wall ≤ moment) :
    before.Unaltered moment after where
  live := PartitionSet.live_of_le due kept.live
  identity := kept.identity
  offset := by rw [Stream.Coordinator.offset, kept.backlog, Stream.Coordinator.offset]
  backlog := kept.backlog

end Kept
end Node

/-! ### Commands of clients -/

/-- The deeds of commands that do not write.  A replica can be taken up only where a stream is
recorded. -/
def Deed.IsReserved (moment : Int) (recorded : Prop) : Deed → Prop
  | beginSnapshot => True
  | synchronise .. => recorded
  | deed => deed.IsCalm moment

namespace Node

variable {node later : Node}

theorem Kept.deed {deed : Deed} (sound : node.Sound)
    (reserved : deed.IsReserved node.clock.wall (node.coordinator.backlog.isSome = true)) :
    node.Kept (deed.apply node) := by
  cases deed with
  | beginSnapshot =>
      simp only [Deed.apply]
      cases begun : node.beginSnapshot? with
      | none => exact .refl sound
      | some later =>
          exact .silent (beginSnapshot_silent sound begun) (beginSnapshot_retains sound begun).sound
  | synchronise id history offset => exact .synchronise sound reserved id history offset
  | _ => exact .calm (Deed.calm sound reserved)

theorem Becomes.kept (becomes : node.Becomes
      (Deed.IsReserved node.clock.wall (node.coordinator.backlog.isSome = true)) later)
    (sound : node.Sound) : node.Kept later := by
  apply becomes.keeps _ (.refl sound)
  intro deed between reserved kept
  rw [← kept.wall, ← kept.backlog] at reserved
  exact kept.trans (.deed kept.sound reserved)

end Node

namespace Command

open CommandM

/-- The arguments with which `DEBUG` saves and loads what was saved. -/
def Reloads (arguments : List String) : Prop :=
  ∃ name option, arguments = [name, option] ∧ Text.upper name = "DEBUG" ∧
    Text.upper option = "RELOAD"

variable {context : Context}

/-- A follower without a link takes no replicas up. -/
theorem psync_unlinked (follows : context.node.following = true)
    (apart : context.node.role.connected = false) (arguments : List String) :
    ((psync arguments).outcome context).2 = context := by
  match arguments with
  | [history, offset] =>
      rw [psync, outcome_bind, outcome_integer]
      cases Text.readSigned64 offset with
      | none => rfl
      | some number =>
          dsimp only
          rw [outcome_bind, outcome_session]
          dsimp only
          cases source : context.session.source with
          | client id =>
              dsimp only
              rw [outcome_bind, outcome_node]
              dsimp only
              rw [follows, apart]
              rfl
          | leader | loader => rfl
  | [] | [_] | _ :: _ :: _ :: _ => rfl

/-- A follower that is connected records a stream, which replicas can go on with.  One that is not
refuses them. -/
theorem psync_reserved (follows : context.node.following = true) (streaming : context.node.Streaming)
    (arguments : List String) :
    (psync arguments).Does (Deed.IsReserved context.node.clock.wall
      (context.node.coordinator.backlog.isSome = true)) context := by
  cases connected : context.node.role.connected with
  | true =>
      apply (psync_does arguments).mono
      rintro _ ⟨_, _, _, _, rfl⟩
      exact streaming.recorded connected
  | false =>
      rw [Does, psync_unlinked follows connected]
      exact .refl context

theorem debug_kept {arguments : List String} (sound : context.node.Sound)
    (lifecycle : context.node.Lifecycle) (stored : ¬Populates arguments)
    (sized : ∀ option, arguments = [option] → Text.upper option = "RELOAD" → context.node.Sized) :
    context.node.Kept ((debug basic arguments).outcome context).2.node := by
  rcases debug_cases basic arguments context with
    ⟨option, reload, given, form⟩ | ⟨name, count, populates, given, _⟩ | does
  · rw [form]
    exact .calm (reload_calm sound lifecycle (sized option given reload)).1
  · exact absurd ⟨name, count, populates, given⟩ stored
  · have ran : context.Does _ _ := does
    refine (ran.becomes.mono ?_).kept sound
    rintro deed (read | ⟨id, rfl⟩)
    · cases deed <;> first | exact read | cases read
    · trivial

theorem basic_reserved {command : Command} (follows : context.node.following = true)
    (streaming : context.node.Streaming) (member : command ∈ basic) (reads : command.effect ≠ .write)
    (stays : ¬command.IsTurn) (apart : command ≠ ⟨"SELECT", 2, .read, select⟩)
    (arguments : List String) :
    (command.handler arguments).Does (Deed.IsReserved context.node.clock.wall
      (context.node.coordinator.backlog.isSome = true)) context := by
  rcases basic_does member with rfl | rfl | does
  · exact absurd rfl apart
  · exact absurd rfl reads
  · have ran := does arguments context
    cases effect : command.effect with
    | write => exact absurd effect reads
    | read =>
        rw [effect] at ran
        apply ran.mono
        rintro deed (read | listens)
        · cases deed <;> first | exact read | cases read
        · cases deed <;> trivial
    | broadcast =>
        rw [effect] at ran
        apply ran.mono
        intro deed publishes
        cases deed <;> trivial
    | admin =>
        rcases admin_cases member effect with form | form | form | form | turn
        · rw [form]
          apply (save_does arguments).mono
          rintro _ rfl
          trivial
        · rw [form]
          apply (bgsave_does arguments).mono
          rintro _ rfl
          trivial
        · rw [form]
          apply (replconf_does arguments).mono
          intro deed notice
          cases deed <;> trivial
        · rw [form]
          exact psync_reserved follows streaming arguments
        · exact absurd turn stays

/-- Of a client's commands a follower runs those that do not write.  What they leave is not added
to the stream, as long as the node follows somebody. -/
theorem dispatch_follower (client : context.session.source.isClient = true)
    (follows : context.node.following = true) (arguments : List String) :
    (dispatch context arguments).2 = context ∨
    ∃ name rest command after, arguments = name :: rest ∧ find? all name = some command ∧
      command.effect ≠ .write ∧ ((command.handler rest).outcome context.ready).2 = after ∧
      (after.node.following = true ∨ command.effect.propagates = false →
        (dispatch context arguments).2 = after) := by
  match arguments with
  | [] => exact .inl rfl
  | name :: rest =>
      by_cases runs : ∃ command, find? all name = some command ∧
          command.accepts (rest.length + 1) = true ∧ command.effect ≠ .write
      · obtain ⟨command, known, accepts, reads⟩ := runs
        have allowed : (context.session.source.isClient && context.node.following &&
            command.effect == .write) = false := by simp [reads]
        refine .inr ⟨name, rest, command, _, rfl, known, reads, rfl, fun still => ?_⟩
        rw [dispatch_known known accepts allowed]
        match ran : (command.handler rest).outcome context.ready with
        | (.error error, after) => rfl
        | (.ok reply, after) =>
            rw [ran] at still
            have unfed : (context.session.source.isClient && !after.node.following &&
                command.effect.propagates) = false := by
              rcases still with still | silent
              · simp [still]
              · simp [silent]
            dsimp only
            rw [unfed]
            rfl
      · refine .inl (dispatch_refused fun command known accepts => ?_)
        by_cases writes : command.effect = .write
        · simp [client, follows, writes]
        · exact absurd ⟨command, known, accepts, writes⟩ runs

/-- What a follower has from its leader is kept by every command of a client, but for those
that turn the node or generate keys. -/
theorem dispatch_kept (client : context.session.source.isClient = true)
    (follows : context.node.following = true) (streaming : context.node.Streaming)
    (sound : context.node.Sound) (lifecycle : context.node.Lifecycle) {arguments : List String}
    (permitted : Permitted arguments) (sized : Reloads arguments → context.node.Sized) :
    context.node.Kept (dispatch context arguments).2.node := by
  rcases dispatch_follower client follows arguments with
    same | ⟨name, rest, command, after, rfl, known, reads, ran, runs⟩
  · rw [same]
    exact .refl sound
  · obtain ⟨member, named⟩ := find?_inv known
    have stays := stays_of_known known permitted.stays
    have kept : context.node.Kept after.node := by
      rw [← ran]
      rcases List.mem_cons.mp member with rfl | basic
      · refine @debug_kept context.ready rest sound lifecycle
          (permitted.stored name rest rfl named.symm) fun option given reload => ?_
        subst given
        exact sized ⟨name, option, rfl, named.symm, reload⟩
      · by_cases selects : command = ⟨"SELECT", 2, .read, select⟩
        · subst selects
          dsimp only
          rcases outcome_select rest context.ready with same | ⟨index, _, same⟩
          · rw [same]
            exact .refl sound
          · rw [same]
            exact .refl sound
        · have reserved : context.ready.Does _ _ :=
            @basic_reserved context.ready command follows streaming basic reads stays selects rest
          exact reserved.becomes.kept sound
    rw [runs (.inl (kept.following.trans follows))]
    exact kept

/-- A command that turns a node may be refused, or do nothing; otherwise the node follows
nobody, or another leader. -/
theorem outcome_replicaof (arguments : List String) (context : Context) :
    ((replicaof arguments).outcome context).2.node = context.node ∨
    ((replicaof arguments).outcome context).2.node = promote context.node ∨
    ∃ host port, ((replicaof arguments).outcome context).2.node = follow host port context.node := by
  match arguments with
  | [host, port] =>
      simp only [replicaof]
      split
      · exact .inr (.inl rfl)
      · split
        · exact .inl rfl
        · next port _ =>
            rw [outcome_bind, outcome_node]
            dsimp only
            split
            · exact .inl rfl
            · exact .inr (.inr ⟨host, port, rfl⟩)
  | [] | [_] | _ :: _ :: _ :: _ => exact .inl rfl

/-- A follower that is turned and still follows somebody has the data that it had. -/
theorem dispatch_turn (client : context.session.source.isClient = true)
    (follows : context.node.following = true) {arguments : List String} (turns : Turns arguments)
    (stays : (dispatch context arguments).2.node.following = true) (moment : Int) :
    context.node.Unaltered moment (dispatch context arguments).2.node := by
  rcases dispatch_follower client follows arguments with
    same | ⟨name, rest, command, after, rfl, known, _, ran, runs⟩
  · rw [same]
    exact .refl moment _
  · obtain ⟨member, named⟩ := find?_inv known
    have turn : command.IsTurn := by
      obtain ⟨_, _, ⟨⟩, turn⟩ := turns
      rwa [← named] at turn
    obtain ⟨form, admin⟩ := replicaof_of_turn member turn
    rw [runs (.inr (by rw [admin]; rfl)), ← ran, form] at stays ⊢
    rcases outcome_replicaof rest context.ready with same | same | ⟨host, port, same⟩
    · rw [same]
      exact .refl moment _
    · have leads : context.ready.node.following = true := follows
      rw [same, promote, if_pos leads] at stays
      cases stays
    · rw [same]
      exact ⟨rfl, rfl, rfl, rfl⟩

end Command

/-! ### Happenings -/

/-- A client has the node save and load what was saved. -/
def Happening.Reloads (happening : Happening) : Prop :=
  ∃ id value arguments, happening = .command id value ∧ value.arguments? = some arguments ∧
    Command.Reloads arguments

namespace Node

variable {node later : Node} {moment : Int} {happening : Happening}

/-- What can change the data of a follower: something that is accepted from its link, or the
hook that generates keys. -/
def Disturbs (node : Node) : Happening → Prop
  | .link epoch _ => node.role.accepts epoch = true
  | .command _ value => ∃ name rest, value.arguments? = some (name :: rest) ∧
      Text.upper name = "DEBUG" ∧ Command.Populates rest
  | _ => False

/-- What is not accepted from a link is not taken notice of. -/
theorem handle_unheard {epoch : Nat} {event : Link.LinkEvent}
    (spares : ¬node.Disturbs (.link epoch event)) : node.handle (.link epoch event) = node :=
  if_neg spares

/-- What is neither a command, nor the upkeep, nor comes of a leader leaves all that can be
read. -/
theorem retains_next (sound : node.Sound) (happened : node.next? happening = some later)
    (aside : happening.isAside = true) : node.partitions.Retains later.partitions := by
  cases happening with
  | command | upkeep | link => cases aside
  | task position picked =>
      simp only [next?, Option.map_eq_some_iff] at happened
      obtain ⟨task, _, rfl⟩ := happened
      cases task with
      | beginSnapshot =>
          simp only [Task.event, handle]
          split
          · exact @scheduleFullSync_retains { node with tasks := node.tasks.eraseIdx position } sound
          · exact .refl sound
      | drain index =>
          exact @drain_retains { node with tasks := node.tasks.eraseIdx position } sound index picked
  | report =>
      obtain ⟨report, _, writing, storage, _, rfl, _⟩ := next?_report happened
      exact @takeReport_retains { node with writing, storage } sound report
  | connected | disconnected | advance | setWall | setStorage | refuse | hangUp | deliver
  | deliverToLeader =>
      cases happened
      exact .refl sound

theorem serve_unaltered (follows : node.following = true) (streaming : node.Streaming)
    (sound : node.Sound) (lifecycle : node.Lifecycle) (id : ClientId) (value : Wire.Value)
    (spares : ¬node.Disturbs (.command id value))
    (sized : (Happening.command id value).Reloads → node.Sized)
    (stays : (node.serve id value).following = true) (due : node.clock.wall ≤ moment) :
    node.Unaltered moment (node.serve id value) := by
  rcases node.serve_cases id value with
    ⟨_, same⟩ | ⟨client, _, ⟨_, _, same⟩ | ⟨arguments, given, _, same⟩⟩ <;> rw [same] at stays ⊢
  · exact .refl moment node
  · exact ⟨rfl, rfl, rfl, rfl⟩
  · have unaltered : (node.issued id client).node.Unaltered moment
        (Command.dispatch (node.issued id client) arguments).2.node := by
      by_cases turns : Command.Turns arguments
      · exact Command.dispatch_turn rfl follows turns stays moment
      · refine (@Command.dispatch_kept (node.issued id client) rfl follows
          ⟨streaming.recorded⟩ sound ?_ arguments ⟨turns, ?_⟩ ?_).unaltered due
        · exact lifecycle.congr rfl rfl rfl fun _ drains => drains
        · rintro name rest rfl debug populates
          exact spares ⟨name, rest, given, debug, populates⟩
        · intro reloads
          have sized := sized ⟨id, value, arguments, rfl, given, reloads⟩
          exact ⟨sized.since, sized.before, sized.count, sized.fits⟩
    exact ⟨unaltered.live, unaltered.identity, unaltered.offset, unaltered.backlog⟩

/-- Whatever happens to a follower that is not accepted from its link, and neither turns it to nobody
nor generates keys, its data, its history and its stream stay as they are. -/
theorem Attuned.next_unaltered (attuned : node.Attuned) (follows : node.following = true)
    (happened : node.next? happening = some later) (spares : ¬node.Disturbs happening)
    (sized : happening.Reloads → node.Sized) (stays : later.following = true)
    (due : node.clock.wall ≤ moment) : node.Unaltered moment later := by
  have sound := attuned.reachable.sound
  cases happening with
  | command id value =>
      cases happened
      exact serve_unaltered follows attuned.streaming sound attuned.reachable.lifecycle id value
        spares sized stays due
  | upkeep =>
      cases happened
      obtain ⟨identity, backlog⟩ := maintain_follower follows
      refine ⟨?_, identity, ?_, backlog⟩
      · rw [handle, partitions_maintain]
      · rw [Stream.Coordinator.offset, Stream.Coordinator.offset]
        exact congrArg (fun backlog => (backlog.map (·.writeOffset)).getD 0) backlog
  | link epoch event =>
      cases happened
      rw [handle_unheard spares]
      exact .refl moment node
  | connected | disconnected | advance | setWall | task | report | setStorage | refuse | hangUp
  | deliver | deliverToLeader =>
      exact .of_unmoved (retains_next sound happened rfl) (unmoved_next happened rfl)

/-- What a link reports under another epoch does not matter, whatever it is. -/
theorem Attuned.next_spared (attuned : node.Attuned) (happened : node.next? happening = some later)
    (spares : ¬node.Disturbs happening) : later.Attuned := by
  cases happening with
  | link epoch event =>
      cases happened
      rw [handle_unheard spares]
      exact attuned
  | _ => exact attuned.next _ rfl happened

/-- A node has come from another that follows somebody, while what has happened was not
accepted from a link, and neither turned the node to nobody nor generated keys.  No clock has
shown more than a moment. -/
inductive Undisturbed (moment : Int) (node : Node) : Node → Prop
  | begins : Undisturbed moment node node
  | next {between later : Node} (happening : Happening) (undisturbed : Undisturbed moment node between)
      (happened : between.next? happening = some later) (spares : ¬between.Disturbs happening)
      (stays : later.following = true) (due : between.clock.wall ≤ moment)
      (sized : happening.Reloads → between.Sized) : Undisturbed moment node later

theorem Undisturbed.unaltered (undisturbed : node.Undisturbed moment later) (attuned : node.Attuned)
    (follows : node.following = true) :
    later.Attuned ∧ later.following = true ∧ node.Unaltered moment later := by
  induction undisturbed with
  | begins => exact ⟨attuned, follows, .refl moment node⟩
  | next happening _ happened spares stays due sized ih =>
      obtain ⟨attuned, follows, unaltered⟩ := ih
      exact ⟨attuned.next_spared happened spares, stays,
        unaltered.trans (attuned.next_unaltered follows happened spares sized stays due)⟩

/-- A node that follows a leader is read-only.  No command of a client changes what can be read,
the history, the offset or the recorded stream, but for REPLICAOF, SLAVEOF and DEBUG POPULATE,
and as long as the node follows somebody, nothing else does so either but what is accepted from
the link: no upkeep, no snapshot and no merging.  (Where DEBUG RELOAD has the node saved and loaded,
the wall clock must not show a negative moment, and all that can be read must be of a size that can
be written down in 64 bits.) -/
theorem Attuned.read_only (attuned : node.Attuned) (follows : node.following = true) :
    (∀ (session : Session) (arguments : List String), session.source.isClient = true →
      Command.Permitted arguments → (Command.Reloads arguments → node.Sized) →
      node.Unaltered node.clock.wall (Command.dispatch { node, session } arguments).2.node) ∧
    ∀ (moment : Int) (later : Node), node.Undisturbed moment later → node.Unaltered moment later := by
  refine ⟨fun session arguments client permitted sized => ?_, fun moment later undisturbed =>
    (undisturbed.unaltered attuned follows).2.2⟩
  exact (@Command.dispatch_kept { node, session } client follows attuned.streaming
    attuned.reachable.sound attuned.reachable.lifecycle arguments permitted sized).unaltered
    (Int.le_refl _)

/-- A command by another name than DEBUG disturbs nobody, and loads nothing. -/
theorem spares_runs {id : ClientId} {name : String} {rest : List String}
    (other : Text.upper name ≠ "DEBUG") :
    ¬node.Disturbs (.runs id (name :: rest)) ∧ ¬(Happening.runs id (name :: rest)).Reloads := by
  constructor
  · rintro ⟨_, _, given, debug, _⟩
    cases (Wire.Value.arguments?_command (name :: rest)).symm.trans given
    exact other debug
  · rintro ⟨_, _, _, ⟨⟩, given, _, _, rfl, debug, _⟩
    cases (Wire.Value.arguments?_command (name :: rest)).symm.trans given
    exact other debug

/-- A node that is connected to a leader, of which it has taken a command. -/
def bound : Node :=
  small.run [.runs 1 ["REPLICAOF", "10.0.0.1", "7000"], .upkeep, .link 3 (.state .transfer),
    .link 3 (.continued none), .link 3 (.command ["SET", "k", "v"] (Wire.commandBytes ["SET", "k", "v"]))]

/-- A client that deletes the key is refused, and another one becomes a replica, for which a
snapshot is written. -/
theorem read_only_bound :
    bound.following = true ∧
    bound.Unaltered 1000
      (Command.dispatch { node := bound, session := { source := .client 2 } } ["PSYNC", "?", "-1"]).2.node ∧
    bound.Unaltered 1000 (((bound.run [.runs 1 ["DEL", "k"]]).run [.upkeep]).run
      [.runs 2 ["PSYNC", "?", "-1"]]) := by
  have attuned : bound.Attuned := small_attuned.run (by decide)
  have follows : bound.following = true := by decide +kernel
  obtain ⟨serves, rests⟩ := attuned.read_only follows
  refine ⟨follows, ?_, rests 1000 _ ?_⟩
  · exact serves { source := .client 2 } ["PSYNC", "?", "-1"] rfl (Command.permitted_of_name (by decide))
      (by rintro ⟨_, _, ⟨⟩, _⟩)
  · have deletes := @spares_runs bound 1 "DEL" ["k"] (by decide)
    have joins := @spares_runs ((bound.run [.runs 1 ["DEL", "k"]]).run [.upkeep]) 2 "PSYNC" ["?", "-1"]
      (by decide)
    have deleted : bound.Undisturbed 1000 (bound.run [.runs 1 ["DEL", "k"]]) :=
      .next _ .begins (next?_run rfl) deletes.1 (by decide +kernel) (by decide +kernel)
        fun reloads => absurd reloads deletes.2
    have kept : bound.Undisturbed 1000 ((bound.run [.runs 1 ["DEL", "k"]]).run [.upkeep]) :=
      .next .upkeep deleted (next?_run rfl) id (by decide +kernel) (by decide +kernel)
        (by rintro ⟨_, _, _, ⟨⟩, _⟩)
    exact .next _ kept (next?_run rfl) joins.1 (by decide +kernel) (by decide +kernel)
      fun reloads => absurd reloads joins.2

end Node
end ReplicaStore
