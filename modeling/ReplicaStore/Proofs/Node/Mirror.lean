import ReplicaStore.Proofs.Node.Orderly
import ReplicaStore.Proofs.Node.Serving
import ReplicaStore.Proofs.Stream.Pieces

/-!
# Replicas that mirror their leader

A replica mirrors a leader if it is connected under some epoch, has the leader's history up
to the end of the leader's stream, works on the database that the stream has selected, and
the same can be read of both at the same moment.  What a leader adds to its stream comes in
pieces, one for each command, and a replica that takes the pieces mirrors the leader again.
-/

namespace ReplicaStore

open ReplicaStore.Stream (Backlog Piece)
open ReplicaStore.Stream.Backlog (endOfOffsets)

/-! ### Commands of the leader's stream -/

namespace Command

/-- A command that writes is made of inner deeds. -/
theorem Effect.inner {deed : Deed} (writes : deed.IsWrite) : deed.IsInner := by
  cases deed <;> trivial

theorem basic_inner {command : Command} (member : command ∈ basic) (stays : ¬command.IsTurn)
    (arguments : List String) {context : Context}
    (source : context.session.source.isClient = false) :
    context.node.Becomes Deed.IsInner ((command.handler arguments).outcome context).2.node := by
  rcases basic_does member with rfl | rfl | does
  · dsimp only
    rcases outcome_select arguments context with same | ⟨index, _, same⟩
    · rw [same]
      exact .refl _
    · rw [same]
      exact .refl _
  · obtain ⟨form, does⟩ := set_does arguments context
    exact does.becomes.mono fun _ => Effect.inner
  · have ran : context.Does _ _ := does arguments context
    cases effect : command.effect with
    | write =>
        rw [effect] at ran
        exact ran.becomes.mono fun _ => Effect.inner
    | read =>
        rw [effect] at ran
        apply ran.becomes.mono
        rintro deed (reads | listens)
        · cases deed <;> trivial
        · cases deed <;> trivial
    | broadcast =>
        rw [effect] at ran
        apply ran.becomes.mono
        intro deed publishes
        cases deed <;> trivial
    | admin =>
        rcases admin_cases member effect with form | form | form | form | turn
        · have saves : context.Does _ _ := save_does arguments
          rw [form]
          apply saves.becomes.mono
          rintro _ rfl
          trivial
        · have begins : context.Does _ _ := bgsave_does arguments
          rw [form]
          apply begins.becomes.mono
          rintro _ rfl
          trivial
        · have notes : context.Does _ _ := replconf_does arguments
          rw [form]
          apply notes.becomes.mono
          intro deed notice
          cases deed <;> trivial
        · have takes : context.Does _ _ := psync_does arguments
          rw [form]
          apply takes.becomes.mono
          rintro _ ⟨id, _, _, client, _⟩
          rw [client] at source
          cases source
        · exact absurd turn stays

/-- Reloading saves, and then writes what was saved. -/
theorem reload_writes (context : Context) :
    context.node.Becomes (fun deed => deed = .save ∨ deed.IsWrite)
      ((reload basic).outcome context).2.node := by
  have saves : context.Does _ _ := saveNow_does
  have saved := @Node.Becomes.mono _ (fun deed => deed = .save ∨ deed.IsWrite) _ _ saves.becomes
    fun _ => Or.inl
  rw [outcome_reload]
  split
  · next given =>
      rw [given] at saved
      exact saved
  · next payload after given =>
      rw [given] at saved
      split
      · exact saved
      · next commands read =>
          have emptied : after.node.Becomes (fun deed => deed = .save ∨ deed.IsWrite)
              { after.node with partitions := after.node.partitions.flush } :=
            .deed .flush (.inr trivial) after.node
          exact (saved.trans emptied).trans
            ((loadFrom_does restores_basic read _).mono fun _ => Or.inr)

theorem reload_inner (context : Context) :
    context.node.Becomes Deed.IsInner ((reload basic).outcome context).2.node := by
  apply (reload_writes context).mono
  rintro deed (rfl | writes)
  · trivial
  · exact Effect.inner writes

theorem all_inner {command : Command} (member : command ∈ all) (stays : ¬command.IsTurn)
    (arguments : List String) {context : Context}
    (source : context.session.source.isClient = false) :
    context.node.Becomes Deed.IsInner ((command.handler arguments).outcome context).2.node := by
  rcases List.mem_cons.mp member with rfl | basic
  · dsimp only
    rcases debug_cases Command.basic arguments context with
      ⟨_, _, _, form⟩ | ⟨_, count, _, _, form⟩ | does
    · rw [form]
      exact reload_inner context
    · have populates : context.Does _ _ := populateBy_does count context
      rw [form]
      exact populates.becomes.mono fun _ => Effect.inner
    · have ran : context.Does _ _ := does
      apply ran.becomes.mono
      rintro deed (reads | ⟨id, rfl⟩)
      · cases deed <;> trivial
      · trivial
  · exact basic_inner basic stays arguments source

/-- What a leader sends concerns neither the history nor the role of who runs it. -/
theorem dispatch_inner {context : Context} (source : context.session.source.isClient = false)
    {arguments : List String} (stays : ¬Turns arguments) :
    context.node.Becomes Deed.IsInner (dispatch context arguments).2.node := by
  match arguments with
  | [] => exact .refl _
  | name :: rest =>
      rw [dispatch_of_not_client source]
      cases known : find? all name with
      | none => exact .refl _
      | some command =>
          dsimp only
          split
          · exact all_inner (find?_inv known).1 (stays_of_known known stays) rest source
          · exact .refl _

end Command

namespace Node

theorem hear_abides {node : Node} {arguments : List String} (stays : ¬Command.Turns arguments) :
    ({ node with role := node.role.touch node.clock.elapsed } : Node).Abides
      (node.hear arguments).node := by
  have becomes := @Command.dispatch_inner
    { node := { node with role := node.role.touch node.clock.elapsed }
      session := { source := .leader, database := node.role.database } } rfl arguments stays
  exact becomes.abides

/-- A follower that is connected under an epoch and has followed a history up to an offset. -/
structure Attached (replica : Node) (epoch : Nat) (history : String) (offset : Int) : Prop where
  sound : replica.Sound
  lifecycle : replica.Lifecycle
  epoch : replica.role.epoch = epoch
  connected : replica.role.state = .connected
  history : replica.coordinator.identity.current = history
  stream : ∃ backlog, replica.coordinator.backlog = some backlog ∧ backlog.active = true ∧
    backlog.writeOffset = offset

namespace Attached

variable {replica : Node} {epoch : Nat} {history : String} {offset : Int}

theorem accepts (attached : replica.Attached epoch history offset) :
    replica.role.accepts epoch = true := by
  simp [Link.Role.accepts, attached.epoch, attached.connected]

theorem offset_eq (attached : replica.Attached epoch history offset) :
    replica.coordinator.offset = offset := by
  obtain ⟨backlog, found, _, same⟩ := attached.stream
  rw [Stream.Coordinator.offset, found]
  exact same

/-- A command of the leader is run, and takes the follower on by its bytes. -/
theorem command (attached : replica.Attached epoch history offset) {arguments : List String}
    {raw : Bytes} (stays : ¬Command.Turns arguments) (least : 0 ≤ offset)
    (range : offset + raw.length < endOfOffsets) :
    (replica.handle (.link epoch (.command arguments raw))).Attached epoch history
      (offset + raw.length) ∧
    (replica.handle (.link epoch (.command arguments raw))).clock.wall = replica.clock.wall ∧
    (replica.handle (.link epoch (.command arguments raw))).partitions =
      (replica.hear arguments).node.partitions ∧
    (replica.handle (.link epoch (.command arguments raw))).role.database =
      (replica.hear arguments).session.database ∧
    (replica.handle (.link epoch (.command arguments raw))).role.leader = replica.role.leader := by
  obtain ⟨backlog, found, active, same⟩ := attached.stream
  have abides := @hear_abides replica arguments stays
  have stored : (replica.hear arguments).node.coordinator.backlog = some backlog := by
    rw [abides.backlog]
    exact found
  have sound := @next_sound replica _ (.link epoch (.command arguments raw)) attached.sound rfl
  have lifecycle := @Lifecycle.next replica _ (.link epoch (.command arguments raw))
    attached.lifecycle rfl
  have took : replica.handle (.link epoch (.command arguments raw)) =
      replica.follow arguments raw := by
    simp only [handle, attached.accepts, if_true, takeLinkEvent]
  rw [took] at sound lifecycle ⊢
  rw [follow_eq attached.connected] at sound lifecycle ⊢
  have fed := @Stream.Coordinator.feed_of_some (replica.hear arguments).node.coordinator backlog
    stored (replica.hear arguments).node.clients raw none
  refine ⟨⟨sound, lifecycle, ?_, ?_, ?_, ?_⟩, abides.wall, rfl, rfl,
    (congrArg Link.Role.leader abides.role).trans rfl⟩
  · have role := congrArg Link.Role.epoch abides.role
    exact role.trans attached.epoch
  · have role := congrArg Link.Role.state abides.role
    exact role.trans attached.connected
  · simp only [feed, coordinate]
    rw [fed]
    exact (congrArg Stream.Identity.current abides.identity).trans attached.history
  · refine ⟨(backlog.write raw).2, ?_, ?_, ?_⟩
    · simp only [feed, coordinate]
      rw [fed]
      rfl
    · rw [Backlog.write_eq active (by omega) (by omega)]
      exact active
    · rw [Backlog.write_eq active (by omega) (by omega)]
      dsimp only
      omega

end Attached

/-- Takes the pieces of a stream from the link with an epoch. -/
def take (node : Node) (epoch : Nat) (pieces : List Piece) : Node :=
  pieces.foldl (fun node piece => node.handle (.link epoch (.command piece.arguments piece.raw)))
    node

@[simp] theorem take_nil (node : Node) (epoch : Nat) : node.take epoch [] = node := rfl

theorem take_append (node : Node) (epoch : Nat) (first second : List Piece) :
    node.take epoch (first ++ second) = (node.take epoch first).take epoch second :=
  List.foldl_append ..

/-- Takes the bytes of a stream from the link with an epoch: what they call for is
reported, in order. -/
def replay (node : Node) (epoch : Nat) (bytes : Bytes) : Node :=
  (Piece.actions bytes).foldl
    (fun node action =>
      match action with
      | .report event => node.handle (.link epoch event)
      | .send _ => node)
    node

theorem replay_bytes {pieces : List Piece} (framed : ∀ piece ∈ pieces, piece.Framed) (node : Node)
    (epoch : Nat) : node.replay epoch (Piece.bytes pieces) = node.take epoch pieces := by
  rw [replay, Piece.actions_bytes framed, List.foldl_map]
  rfl

/-- The database that the stream of a node has selected: for a follower, that of its
leader's stream, which it passes on. -/
def selected (node : Node) : Option Nat :=
  if node.following then some node.role.database else node.coordinator.streamDatabase

theorem selected_of_leading {node : Node} (leads : node.following = false) :
    node.selected = node.coordinator.streamDatabase := by
  rw [selected, leads]
  rfl

theorem selected_of_following {node : Node} (follows : node.following = true) :
    node.selected = some node.role.database := by
  rw [selected, if_pos follows]

/-- A replica has taken all of a leader's stream, and the same can be read of both. -/
structure Mirrors (replica leader : Node) (epoch : Nat) : Prop where
  attached : replica.Attached epoch leader.coordinator.identity.current leader.coordinator.offset
  wall : replica.clock.wall = leader.clock.wall
  live : replica.partitions.live leader.clock.wall = leader.partitions.live leader.clock.wall
  database : ∀ index, leader.selected = some index → replica.role.database = index

theorem Silent.selected {node later : Node} (silent : node.Silent later) {index : Nat}
    (selects : later.selected = some index) : node.selected = some index := by
  simp only [Node.selected, silent.following, silent.database] at selects ⊢
  split at selects
  · next follows =>
      rw [if_pos follows]
      exact selects
  · next leads =>
      rw [if_neg leads]
      rcases silent.stream with forgotten | same
      · rw [forgotten] at selects
        cases selects
      · rw [← same]
        exact selects

namespace Mirrors

variable {replica leader later : Node} {epoch : Nat}

/-- What a replica need not be told leaves it a mirror. -/
theorem silent (mirrors : replica.Mirrors leader epoch) (silent : leader.Silent later) :
    replica.Mirrors later epoch where
  attached := by
    rw [silent.identity, silent.offset]
    exact mirrors.attached
  wall := mirrors.wall.trans silent.wall.symm
  live := by
    rw [silent.wall, silent.live]
    exact mirrors.live
  database := fun index selects => mirrors.database index (silent.selected selects)

theorem alike (mirrors : replica.Mirrors leader epoch) (sound : leader.Sound) :
    PartitionSet.Alike leader.clock.wall leader.partitions replica.partitions :=
  ⟨sound, mirrors.attached.sound, mirrors.live.symm⟩

/-- What is known of a leader for its commands is known of its mirrors too. -/
theorem regular (mirrors : replica.Mirrors leader epoch) (bounded : leader.Bounded) :
    replica.Regular :=
  ⟨mirrors.attached.sound, mirrors.attached.lifecycle,
    bounded.congr mirrors.wall mirrors.live⟩

end Mirrors

theorem hear_select {node : Node} {index : Nat} (inside : index < node.partitions.count)
    (fits : (index : Int) ≤ Text.maxSigned64) :
    node.hear ["SELECT", toString index] =
      { node.listening with session := { source := .leader, database := index } } := by
  have read : Text.readSigned64 (toString index) = some (index : Int) :=
    Text.readSigned64_toString fits
  rw [hear_eq, Command.dispatch_of_not_client rfl, Command.restores_all.select]
  dsimp only
  rw [if_pos (by rfl), Command.select, CommandM.outcome_bind, CommandM.outcome_integer, read]
  dsimp only
  rw [CommandM.outcome_bind, CommandM.outcome_node]
  have range : 0 ≤ (index : Int) ∧ (index : Int) < node.listening.ready.node.partitions.count := by
    have same : node.listening.ready.node.partitions.count = node.partitions.count := rfl
    omega
  dsimp only
  rw [if_pos range]
  rfl

theorem hear_ping (node : Node) : (node.hear ["PING"]) = node.listening := by
  have known : Command.find? Command.all "PING" =
      some ⟨"PING", -1, .read, Command.ping⟩ := rfl
  rw [hear_eq, Command.dispatch_of_not_client rfl, known]
  rfl

end Node
end ReplicaStore
