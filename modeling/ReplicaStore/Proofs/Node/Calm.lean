import ReplicaStore.Proofs.Node.Picture
import ReplicaStore.Proofs.Stream.Steady

/-!
# What replicas need not be told

Most of what happens to a node is calm: what can be read of its databases is the same as
before, the stream is left alone, and so are the leader and the writer of a snapshot.  Of
the commands only those that write, `SELECT`, `REPLICAOF`, the ones that may begin a
snapshot and the hook that generates keys are not calm.
-/

namespace ReplicaStore

open Stream.Coordinator (Steady)

namespace Node

/-- Nothing has happened that replicas would have to be told. -/
structure Calm (before after : Node) : Prop where
  wall : after.clock.wall = before.clock.wall
  sound : after.Sound
  live : after.partitions.live before.clock.wall = before.partitions.live before.clock.wall
  leader : after.role.leader = before.role.leader
  database : after.role.database = before.role.database
  stream : Steady before.coordinator after.coordinator
  writing : after.writing = before.writing

/-- Nothing has happened that replicas which are online would have to be told: what can be
read is the same, and the stream is left alone. -/
structure Silent (before after : Node) : Prop where
  wall : after.clock.wall = before.clock.wall
  live : after.partitions.live before.clock.wall = before.partitions.live before.clock.wall
  leader : after.role.leader = before.role.leader
  database : after.role.database = before.role.database
  identity : after.coordinator.identity = before.coordinator.identity
  backlog : after.coordinator.backlog = before.coordinator.backlog
  stream : after.coordinator.streamDatabase = none ∨
    after.coordinator.streamDatabase = before.coordinator.streamDatabase

/-- The history and the role are the same, but for what is queued for the leader. -/
structure Abides (before after : Node) : Prop where
  wall : after.clock.wall = before.clock.wall
  identity : after.coordinator.identity = before.coordinator.identity
  backlog : after.coordinator.backlog = before.coordinator.backlog
  role : after.role = { before.role with link := after.role.link }

variable {before between after node : Node}

namespace Calm

theorem refl (sound : node.Sound) : node.Calm node :=
  ⟨rfl, sound, rfl, rfl, rfl, .refl _, rfl⟩

theorem trans (first : before.Calm between) (second : between.Calm after) : before.Calm after where
  wall := second.wall.trans first.wall
  sound := second.sound
  live := by
    have live := second.live
    rw [first.wall] at live
    exact live.trans first.live
  leader := second.leader.trans first.leader
  database := second.database.trans first.database
  stream := first.stream.trans second.stream
  writing := second.writing.trans first.writing

/-- A node of which only phases of partitions and records of replicas have changed. -/
theorem of_retains (retains : before.partitions.Retains after.partitions)
    (stream : Steady before.coordinator after.coordinator) (clock : after.clock = before.clock)
    (role : after.role = before.role) (writing : after.writing = before.writing) :
    before.Calm after :=
  ⟨by rw [clock], retains.sound, retains.live _, by rw [role], by rw [role], stream, writing⟩

theorem silent (calm : before.Calm after) : before.Silent after :=
  ⟨calm.wall, calm.live, calm.leader, calm.database, calm.stream.identity, calm.stream.backlog,
    calm.stream.stream⟩

end Calm

namespace Silent

theorem refl (node : Node) : node.Silent node :=
  ⟨rfl, rfl, rfl, rfl, rfl, rfl, .inr rfl⟩

theorem offset (silent : before.Silent after) :
    after.coordinator.offset = before.coordinator.offset := by
  rw [Stream.Coordinator.offset, silent.backlog]
  rfl

theorem following (silent : before.Silent after) : after.following = before.following := by
  simp only [Node.following, Link.Role.following, silent.leader]

end Silent

namespace Abides

theorem refl (node : Node) : node.Abides node :=
  ⟨rfl, rfl, rfl, rfl⟩

theorem trans (first : before.Abides between) (second : between.Abides after) :
    before.Abides after where
  wall := second.wall.trans first.wall
  identity := second.identity.trans first.identity
  backlog := second.backlog.trans first.backlog
  role := by
    have role := second.role
    rw [first.role] at role
    exact role

end Abides

/-- Saving at once leaves all but the databases and the storage alone. -/
theorem save_frame (node : Node) :
    node.save.2.clock = node.clock ∧ node.save.2.role = node.role ∧
      node.save.2.coordinator = node.coordinator ∧ node.save.2.writing = node.writing := by
  rcases node.save_cases with ⟨_, same⟩ | ⟨_, _, _, same⟩ <;> rw [same]
  · exact ⟨rfl, rfl, rfl, rfl⟩
  · exact ⟨rfl, rfl, rfl, rfl⟩

theorem save_calm (sound : node.Sound) : node.Calm node.save.2 := by
  obtain ⟨clock, role, coordinator, writing⟩ := node.save_frame
  exact .of_retains (save_retains sound) (coordinator ▸ .refl _) clock role writing

/-- A snapshot that is begun says nothing in the stream. -/
theorem beginSnapshot_silent {later : Node} (sound : node.Sound)
    (begun : node.beginSnapshot? = some later) : node.Silent later := by
  have live := (beginSnapshot_retains sound begun).live node.clock.wall
  obtain ⟨_, rfl⟩ := beginSnapshot?_inv begun
  exact ⟨rfl, live, rfl, rfl, rfl, rfl, .inl rfl⟩

/-- A snapshot that is begun leaves the history and the role alone. -/
theorem beginSnapshot_abides {later : Node} (begun : node.beginSnapshot? = some later) :
    node.Abides later := by
  obtain ⟨_, rfl⟩ := beginSnapshot?_inv begun
  exact ⟨rfl, rfl, rfl, rfl⟩

end Node

/-! ### Deeds -/

/-- The deeds that are calm at a moment. -/
def Deed.IsCalm (moment : Int) : Deed → Prop
  | edit _ operation => operation.reads moment
  | save | publish .. | subscription .. | listeningPort .. | close .. | acknowledge ..
  | answerLeader => True
  | _ => False

/-- The deeds that concern neither the history nor the role. -/
def Deed.IsInner : Deed → Prop
  | synchronise .. | promote | follow .. | feed .. => False
  | _ => True

namespace Deed

theorem calm {deed : Deed} {node : Node} (sound : node.Sound)
    (calm : deed.IsCalm node.clock.wall) : node.Calm (deed.apply node) := by
  cases deed with
  | edit index operation =>
      have kept (partition : Partition) (sound : partition.Sound) :
          ((partition.perform operation).2).live node.clock.wall =
            partition.live node.clock.wall := by
        cases operation with
        | get key now | contains key now =>
            obtain rfl : now = node.clock.wall := by simpa [IsCalm, Operation.reads] using calm
            exact Partition.live_touch sound.settled key _
        | _ => cases calm
      have safe : (edit index operation).IsSafe := ⟨_, calm⟩
      refine ⟨rfl, sound_apply safe sound, ?_, rfl, rfl, .refl _, rfl⟩
      cases found : node.partitions.get? index with
      | none =>
          have same : node.partitions.partitions.modify index
              (fun partition => (partition.perform operation).2) = node.partitions.partitions := by
            apply List.modify_eq_self
            exact List.getElem?_eq_none_iff.mp found
          simp only [apply, PartitionSet.live, PartitionSet.modify, same]
      | some partition =>
          exact PartitionSet.live_modify_of_same found (kept partition (PartitionSet.Sound.get sound found))
  | save => exact Node.save_calm sound
  | acknowledge id offset =>
      exact .of_retains (.refl sound) (.acknowledge ..) rfl rfl rfl
  | answerLeader => exact ⟨rfl, sound, rfl, rfl, rfl, .refl _, rfl⟩
  | publish | subscription | listeningPort | close =>
      exact .of_retains (.refl sound) (.refl _) rfl rfl rfl
  | _ => cases calm

theorem abides {deed : Deed} (inner : deed.IsInner) (node : Node) :
    node.Abides (deed.apply node) := by
  cases deed with
  | save =>
      obtain ⟨clock, role, coordinator, _⟩ := node.save_frame
      simp only [apply]
      exact ⟨by rw [clock], by rw [coordinator], by rw [coordinator], by rw [role]⟩
  | beginSnapshot =>
      simp only [apply]
      cases begun : node.beginSnapshot? with
      | none => exact .refl node
      | some later => exact Node.beginSnapshot_abides begun
  | edit | flush | publish | subscription | listeningPort | close | acknowledge | answerLeader =>
      exact ⟨rfl, rfl, rfl, rfl⟩
  | _ => cases inner

end Deed

namespace Node

variable {node later : Node}

theorem Becomes.calm (becomes : node.Becomes (Deed.IsCalm node.clock.wall) later)
    (sound : node.Sound) : node.Calm later := by
  apply becomes.keeps _ (.refl sound)
  intro deed between allowed calm
  rw [← calm.wall] at allowed
  exact calm.trans (Deed.calm calm.sound allowed)

theorem Becomes.abides (becomes : node.Becomes Deed.IsInner later) : node.Abides later :=
  becomes.keeps (fun _ between inner abides => abides.trans (Deed.abides inner between)) (.refl node)

end Node

namespace Command

open CommandM

/-! ### Handlers -/

/-- Whether a command turns a node to another leader. -/
def IsTurn (command : Command) : Prop :=
  command.name = "REPLICAOF" ∨ command.name = "SLAVEOF"

/-- The commands that turn a node do the same. -/
theorem replicaof_of_turn {command : Command} (member : command ∈ all) (turns : command.IsTurn) :
    command.handler = replicaof ∧ command.effect = .admin := by
  rw [IsTurn] at turns
  simp only [all, basic, List.mem_cons, List.not_mem_nil, or_false] at member
  rcases member with rfl | rfl | rfl | rfl | rfl | rfl | rfl | rfl | rfl | rfl | rfl | rfl | rfl |
    rfl | rfl | rfl | rfl | rfl | rfl | rfl | rfl | rfl | rfl | rfl | rfl | rfl | rfl | rfl | rfl |
    rfl
  all_goals first | exact ⟨rfl, rfl⟩ | exact absurd turns (by decide)

/-- The commands of administration. -/
theorem admin_cases {command : Command} (member : command ∈ basic)
    (admin : command.effect = .admin) :
    command.handler = save ∨ command.handler = bgsave ∨ command.handler = replconf ∨
      command.handler = psync ∨ command.IsTurn := by
  simp only [basic, List.mem_cons, List.not_mem_nil, or_false] at member
  rcases member with rfl | rfl | rfl | rfl | rfl | rfl | rfl | rfl | rfl | rfl | rfl | rfl | rfl |
    rfl | rfl | rfl | rfl | rfl | rfl | rfl | rfl | rfl | rfl | rfl | rfl | rfl | rfl | rfl | rfl
  all_goals try cases admin
  · exact .inl rfl
  · exact .inr (.inl rfl)
  · exact .inr (.inr (.inr (.inr (.inl rfl))))
  · exact .inr (.inr (.inr (.inr (.inr rfl))))
  · exact .inr (.inr (.inl rfl))
  · exact .inr (.inr (.inr (.inl rfl)))

/-- What a handler comes down to that neither writes nor selects a database. -/
inductive Impact (handler : CommandM Reply) (context : Context) : Prop where
  | calm (calm : context.node.Calm (handler.outcome context).2.node)
      (session : (handler.outcome context).2.session = context.session)
  | begins (later : Node) (begun : context.node.beginSnapshot? = some later)
      (same : (handler.outcome context).2 = { context with node := later })
  | synchronises (id : ClientId) (history : String) (offset : Int)
      (source : context.session.source = .client id)
      (same : (handler.outcome context).2 =
        { context with node := synchronise id history offset context.node })

theorem Impact.of_does {handler : CommandM Reply} {context : Context} (sound : context.node.Sound)
    (does : handler.Does (Deed.IsCalm context.node.clock.wall) context) : Impact handler context := by
  have ran : context.Does (Deed.IsCalm context.node.clock.wall) (handler.outcome context).2 := does
  exact .calm (ran.becomes.calm sound) ran.session

theorem bgsave_impact (arguments : List String) {context : Context} (sound : context.node.Sound) :
    Impact (bgsave arguments) context := by
  rcases bgsave_eq arguments with form | form
  · rw [form]
    exact .of_does sound (.throw _)
  · rw [form]
    cases begun : context.node.beginSnapshot? with
    | none =>
        apply Impact.of_does sound
        apply Does.node
        rw [begun]
        exact .throw _
    | some later =>
        refine .begins later begun ?_
        rw [outcome_bind, outcome_node]
        dsimp only
        rw [begun]
        rfl

/-- A request to be made a replica is served, unless the node is a follower that has lost
its own leader. -/
theorem outcome_psync {context : Context} {id : ClientId} (client : context.session.source = .client id)
    (linked : ¬(context.node.following && !context.node.role.connected) = true)
    (history : String) {written : String} {offset : Int}
    (read : Text.readSigned64 written = some offset) :
    (psync [history, written]).outcome context =
      (.ok [], { context with node := synchronise id history offset context.node }) := by
  rw [psync, outcome_bind, outcome_integer, read]
  dsimp only
  rw [outcome_bind, outcome_session]
  dsimp only
  rw [client]
  dsimp only
  rw [outcome_bind, outcome_node]
  dsimp only
  rw [if_neg linked]
  rfl

theorem psync_impact (arguments : List String) {context : Context} (sound : context.node.Sound) :
    Impact (psync arguments) context := by
  match arguments with
  | [history, offset] =>
      cases read : Text.readSigned64 offset with
      | none =>
          apply Impact.of_does sound
          apply Does.given (outcome_integer offset context)
          intro value given
          rw [read] at given
          cases given
      | some number =>
          cases source : context.session.source with
          | client id =>
              by_cases refused : (context.node.following && !context.node.role.connected) = true
              · apply Impact.of_does sound
                apply Does.integer
                intro number
                apply Does.session
                rw [source]
                apply Does.node
                dsimp only
                rw [if_pos refused]
                exact .throw _
              · exact .synchronises id history number source
                  (congrArg Prod.snd (outcome_psync source refused history read))
          | leader | loader =>
              apply Impact.of_does sound
              apply Does.integer
              intro number
              apply Does.session
              rw [source]
              exact .pure _
  | [] | [_] | _ :: _ :: _ :: _ => exact .of_does sound (.throw _)

theorem basic_impact {command : Command} (member : command ∈ basic)
    (reads : command.effect ≠ .write) (stays : ¬command.IsTurn)
    (apart : command ≠ ⟨"SELECT", 2, .read, select⟩) (arguments : List String) {context : Context}
    (sound : context.node.Sound) : Impact (command.handler arguments) context := by
  rcases basic_does member with rfl | rfl | does
  · exact absurd rfl apart
  · exact absurd rfl reads
  · have ran := does arguments context
    cases effect : command.effect with
    | write => exact absurd effect reads
    | read =>
        rw [effect] at ran
        apply Impact.of_does sound
        apply ran.mono
        rintro deed (read | listens)
        · cases deed <;> first | exact read | cases read
        · cases deed <;> trivial
    | broadcast =>
        rw [effect] at ran
        apply Impact.of_does sound
        apply ran.mono
        intro deed publishes
        cases deed <;> trivial
    | admin =>
        rcases admin_cases member effect with form | form | form | form | turn
        · rw [form]
          apply Impact.of_does sound
          apply (save_does arguments).mono
          rintro _ rfl
          trivial
        · rw [form]
          exact bgsave_impact arguments sound
        · rw [form]
          apply Impact.of_does sound
          apply (replconf_does arguments).mono
          intro deed notice
          cases deed <;> trivial
        · rw [form]
          exact psync_impact arguments sound
        · exact absurd turn stays

/-- Loading what was saved just now leaves all that can be read. -/
theorem reload_calm {context : Context} (sound : context.node.Sound)
    (lifecycle : context.node.Lifecycle) (sized : context.node.Sized) :
    context.node.Calm ((reload basic).outcome context).2.node ∧
      ((reload basic).outcome context).2.session = context.session := by
  have calm := Node.save_calm sound
  obtain ⟨clock, _, _, _⟩ := context.node.save_frame
  have saved : context.node.Calm (saveNow.outcome context).2.node ∧
      (saveNow.outcome context).2.session = context.session := by
    rw [outcome_saveNow]
    exact ⟨calm, rfl⟩
  rw [outcome_reload]
  split
  · next given =>
      rw [given] at saved
      exact saved
  · next payload saves given =>
      have stored : context.node.save.1 = .ok payload ∧
          saves = { context with node := context.node.save.2 } := by
        rw [outcome_saveNow] at given
        cases save : context.node.save.1 with
        | ok bytes =>
            rw [save] at given
            cases given
            exact ⟨rfl, rfl⟩
        | error error =>
            rw [save] at given
            cases error <;> cases given
      obtain ⟨save, rfl⟩ := stored
      obtain ⟨commands, partitions, read, loaded, still, live⟩ :=
        sized.load_picture sound restores_basic (congrArg Clock.wall clock)
          (Node.save_retains sound).count
      rw [Node.save_picture sound lifecycle save, read]
      dsimp only
      rw [loaded]
      exact ⟨⟨calm.wall, still, live, calm.leader, calm.database, calm.stream, calm.writing⟩, rfl⟩

theorem reload_impact {context : Context} (sound : context.node.Sound)
    (lifecycle : context.node.Lifecycle) (sized : context.node.Sized) :
    Impact (reload basic) context := by
  obtain ⟨calm, session⟩ := reload_calm sound lifecycle sized
  exact .calm calm session

end Command
end ReplicaStore
