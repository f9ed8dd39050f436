import ReplicaStore.Proofs.Node.Mirror

/-!
# What replicas are told

Something that happens to a leader either concerns no replica or is told to all of them: it
adds pieces to the stream, and a replica that takes these mirrors the leader again
(`Node.Tells`).
-/

namespace ReplicaStore

open ReplicaStore.Stream (Backlog Coordinator Piece)
open ReplicaStore.Stream.Coordinator (Steady)
open ReplicaStore.Stream.Backlog (endOfOffsets)

namespace Node

/-- The periods that the upkeep of a node goes by. -/
def periods (node : Node) : Coordinator.Upkeep where
  following := node.following
  pingPeriod := 1000 * node.settings.pingPeriod
  timeout := 1000 * node.settings.timeout
  backlogTtl := 1000 * node.settings.backlogTtl

/-- Whether the upkeep is to send a ping down the stream. -/
def pings (node : Node) : Bool :=
  !node.following && !node.coordinator.replicas.isEmpty &&
    1000 * node.settings.pingPeriod ≤ node.clock.elapsed - node.coordinator.lastPing

theorem ping_periods (node : Node) :
    node.coordinator.ping node.clients node.clock.elapsed node.periods =
      if node.pings then
        { node.coordinator with lastPing := node.clock.elapsed }.feed node.clients
          (Wire.commandBytes ["PING"]) none
      else (node.coordinator, node.clients) := rfl

theorem pings_leads {node : Node} (pings : node.pings = true) : node.following = false := by
  simp only [Node.pings, Bool.and_eq_true, Bool.not_eq_true'] at pings
  exact pings.1.1

/-- The pieces that go into the stream of a node when something happens to it. -/
def added (node : Node) : Happening → List Piece
  | .command id value =>
      match node.clients[id]?, value.arguments? with
      | some client, some arguments =>
          if node.following then []
          else
            match Command.addition? (node.issued id client) arguments with
            | some (form, database) => node.coordinator.pieces form (some database)
            | none => []
      | _, _ => []
  | .upkeep => if node.pings then [.ofCommand ["PING"]] else []
  | .link epoch (.command arguments raw) =>
      if node.role.accepts epoch && node.role.connected then [⟨arguments, raw⟩] else []
  | _ => []

/-- The backlog has taken up some bytes since an offset. -/
def Recorded (node : Node) (offset : Int) (bytes : Bytes) : Prop :=
  ∃ backlog, node.coordinator.backlog = some backlog ∧ backlog.Since offset bytes

/-- Pieces are told to the replicas of a node, which come to mirror it again with them. -/
structure Tells (node : Node) (pieces : List Piece) (later : Node) : Prop where
  wall : later.clock.wall = node.clock.wall
  identity : later.coordinator.identity = node.coordinator.identity
  framed : ∀ piece ∈ pieces, piece.Framed
  recorded : ∀ (offset : Int) (bytes : Bytes), node.Recorded offset bytes →
    later.Recorded offset (bytes ++ Piece.bytes pieces)
  mirrors : ∀ (replica : Node) (epoch : Nat), replica.Mirrors node epoch →
    (replica.take epoch pieces).Mirrors later epoch

variable {node later replica : Node} {epoch : Nat}

/-- What is silent needs no telling. -/
theorem Silent.tells (silent : node.Silent later) : node.Tells [] later where
  wall := silent.wall
  identity := silent.identity
  framed := by simp
  recorded := by
    rintro offset bytes ⟨backlog, found, since⟩
    refine ⟨backlog, silent.backlog.trans found, ?_⟩
    rw [Piece.bytes_nil, List.append_nil]
    exact since
  mirrors := fun _ _ mirrors => mirrors.silent silent

/-- The stream of a node has grown by some bytes. -/
structure Grows (node : Node) (bytes : Bytes) (later : Node) : Prop where
  identity : later.coordinator.identity = node.coordinator.identity
  backlog : ∃ backlog, node.coordinator.backlog = some backlog ∧ backlog.active = true ∧
    later.coordinator.backlog = some (backlog.write bytes).2

namespace Grows

variable {bytes : Bytes}

theorem of_feed {before : Coordinator} {clients : Clients} {data : Bytes} {database : Option Nat}
    (serves : node.coordinator.Serves) (orderly : node.Orderly)
    (backlog : before.backlog = node.coordinator.backlog)
    (identity : before.identity = node.coordinator.identity)
    (fed : later.coordinator = (before.feed clients data database).1) :
    node.Grows (before.streamBytes data database) later := by
  obtain ⟨ring, found⟩ := Option.isSome_iff_exists.mp (orderly.coordinator.recorded serves)
  have active := (orderly.coordinator.ready ring found).active
  rw [Coordinator.feed_of_some (backlog.trans found)] at fed
  refine ⟨?_, ring, found, active, ?_⟩
  · rw [fed]
    exact identity
  · rw [fed]

theorem recorded (grows : node.Grows bytes later)
    (range : node.coordinator.offset + bytes.length < endOfOffsets) {offset : Int} {earlier : Bytes}
    (recorded : node.Recorded offset earlier) : later.Recorded offset (earlier ++ bytes) := by
  obtain ⟨ring, found, _, written⟩ := grows.backlog
  obtain ⟨same, there, since⟩ := recorded
  obtain rfl : ring = same := by simpa [found] using there
  rw [Coordinator.offset, found] at range
  exact ⟨_, written, since.write bytes range⟩

theorem offset (grows : node.Grows bytes later) (least : 0 ≤ node.coordinator.offset)
    (range : node.coordinator.offset + bytes.length < endOfOffsets) :
    later.coordinator.offset = node.coordinator.offset + bytes.length := by
  obtain ⟨ring, found, active, written⟩ := grows.backlog
  rw [Coordinator.offset, found] at least range
  rw [Coordinator.offset, Coordinator.offset, found, written]
  simp only [Option.map_some, Option.getD_some] at least range ⊢
  rw [Backlog.write_eq active least range]

end Grows

/-! ### Taking pieces -/

theorem Regular.listening (regular : node.Regular) : node.listening.node.Regular :=
  ⟨regular.sound, regular.lifecycle.congr rfl rfl rfl fun _ drains => drains,
    regular.bounded.congr rfl rfl⟩

/-- A replica that runs what its leader has added comes to what the leader has come to. -/
theorem Attached.takes {history : String} {offset : Int}
    (attached : replica.Attached epoch history offset) {piece : Piece}
    (stays : ¬Command.Turns piece.arguments) (least : 0 ≤ offset)
    (range : offset + piece.raw.length < endOfOffsets)
    (identity : later.coordinator.identity.current = history)
    (added : later.coordinator.offset = offset + piece.raw.length)
    (wall : replica.clock.wall = later.clock.wall)
    (live : (replica.hear piece.arguments).node.partitions.live later.clock.wall =
      later.partitions.live later.clock.wall)
    (database : ∀ index, later.selected = some index →
      (replica.hear piece.arguments).session.database = index) :
    (replica.take epoch [piece]).Mirrors later epoch := by
  obtain ⟨still, clock, partitions, role, _⟩ := attached.command stays least range
  refine ⟨?_, clock.trans wall, ?_, ?_⟩
  · rw [identity, added]
    exact still
  · rw [← live]
    exact congrArg (PartitionSet.live · later.clock.wall) partitions
  · intro index selects
    exact role.trans (database index selects)

theorem not_turns_select (index : String) : ¬Command.Turns ["SELECT", index] := by
  rintro ⟨_, _, ⟨⟩, turn | turn⟩ <;> exact absurd turn (by decide)

theorem not_turns_ping : ¬Command.Turns ["PING"] := by
  rintro ⟨_, _, ⟨⟩, turn | turn⟩ <;> exact absurd turn (by decide)

/-- Before a command of a database, a replica is told to select it if need be. -/
theorem Mirrors.selects (mirrors : replica.Mirrors node epoch) (leads : node.following = false)
    (bounded : node.Bounded) {index : Nat} (inside : index < node.partitions.count)
    (least : 0 ≤ node.coordinator.offset)
    (range : node.coordinator.offset +
      (Piece.bytes (node.coordinator.selection (some index))).length < endOfOffsets) :
    (replica.take epoch (node.coordinator.selection (some index))).Attached epoch
      node.coordinator.identity.current
      (node.coordinator.offset +
        (Piece.bytes (node.coordinator.selection (some index))).length) ∧
    (replica.take epoch (node.coordinator.selection (some index))).clock.wall =
      node.clock.wall ∧
    (replica.take epoch (node.coordinator.selection (some index))).partitions.live
      node.clock.wall = node.partitions.live node.clock.wall ∧
    (replica.take epoch (node.coordinator.selection (some index))).role.database = index := by
  have count : replica.partitions.count = node.partitions.count := by
    rw [← PartitionSet.count_live _ node.clock.wall, mirrors.live, PartitionSet.count_live]
  have heard := @hear_select replica index (by omega) (by have := bounded.count; omega)
  simp only [Coordinator.selection] at range ⊢
  split at range
  · next selected =>
      rw [if_pos selected]
      have database := mirrors.database index ((selected_of_leading leads).trans selected)
      refine ⟨?_, mirrors.wall, mirrors.live, database⟩
      simpa using mirrors.attached
  · next other =>
      rw [if_neg other]
      have one : Piece.bytes [.ofCommand ["SELECT", toString index]] =
          Wire.commandBytes ["SELECT", toString index] := by simp [Piece.ofCommand]
      rw [one] at range ⊢
      obtain ⟨attached, wall, partitions, database, _⟩ :=
        mirrors.attached.command (not_turns_select (toString index)) least range
      refine ⟨attached, wall.trans mirrors.wall, ?_, ?_⟩
      · rw [← mirrors.live]
        exact congrArg (PartitionSet.live · node.clock.wall)
          (partitions.trans (by rw [heard]; rfl))
      · exact database.trans (by rw [heard])

/-! ### Telling pieces -/

theorem Tells.refl (node : Node) : node.Tells [] node :=
  (Silent.refl node).tells

theorem Tells.trans {between : Node} {first second : List Piece} (before : node.Tells first between)
    (after : between.Tells second later) : node.Tells (first ++ second) later where
  wall := after.wall.trans before.wall
  identity := after.identity.trans before.identity
  framed := by
    intro piece member
    rcases List.mem_append.mp member with one | other
    · exact before.framed piece one
    · exact after.framed piece other
  recorded := by
    intro offset bytes recorded
    rw [Piece.bytes_append, ← List.append_assoc]
    exact after.recorded offset _ (before.recorded offset bytes recorded)
  mirrors := by
    intro replica epoch mirrors
    rw [take_append]
    exact after.mirrors _ epoch (before.mirrors replica epoch mirrors)

/-- What is told from before a silent step on is told from after it on. -/
theorem Tells.after {between : Node} {pieces : List Piece} (tells : node.Tells pieces later)
    (silent : node.Silent between) (selects : between.selected = node.selected) :
    between.Tells pieces later where
  wall := tells.wall.trans silent.wall.symm
  identity := tells.identity.trans silent.identity.symm
  framed := tells.framed
  recorded := by
    rintro offset bytes ⟨ring, held, since⟩
    exact tells.recorded offset bytes ⟨ring, silent.backlog.symm.trans held, since⟩
  mirrors := by
    intro replica epoch mirrors
    apply tells.mirrors
    have attached := mirrors.attached
    have live := mirrors.live
    have wall := mirrors.wall
    rw [silent.identity, silent.offset] at attached
    rw [silent.wall, silent.live] at live
    rw [silent.wall] at wall
    exact ⟨attached, wall, live, fun index given => mirrors.database index (selects.trans given)⟩

section

variable (orderly : node.Orderly) (serves : node.coordinator.Serves)
  (least : 0 ≤ node.coordinator.offset)

include orderly serves least

omit least in
theorem echoes_grows {id : ClientId} {client : Client} {form : List String} {after : Context}
    (echoes : Command.Echoes (node.issued id client) form after) :
    node.Grows (Piece.bytes (node.coordinator.pieces form (some after.session.database)))
      (after.node.feed (Wire.commandBytes form) (some after.session.database)) := by
  have issued : after.node.coordinator = node.coordinator.touch node.clock.elapsed id := by
    rw [echoes.frame]
    rfl
  rw [Coordinator.bytes_pieces]
  have fed := @Grows.of_feed node (after.node.feed (Wire.commandBytes form)
    (some after.session.database)) after.node.coordinator after.node.clients
    (Wire.commandBytes form) (some after.session.database) serves orderly
    (by rw [issued]; rfl) (by rw [issued]; rfl) rfl
  rw [issued] at fed
  exact fed

omit least in
theorem echoes_selects (leads : node.following = false) {id : ClientId} {client : Client}
    {form : List String} {after : Context}
    (echoes : Command.Echoes (node.issued id client) form after) :
    (after.node.feed (Wire.commandBytes form) (some after.session.database)).selected =
      some after.session.database := by
  obtain ⟨ring, held⟩ := Option.isSome_iff_exists.mp (orderly.coordinator.recorded serves)
  have ready : after.node.coordinator.backlog = some ring := by
    rw [echoes.frame]
    exact held
  have still : (after.node.feed (Wire.commandBytes form)
      (some after.session.database)).following = false := by
    have role : after.node.role = node.role := by
      rw [echoes.frame]
      rfl
    exact (congrArg Link.Role.following role).trans leads
  rw [selected_of_leading still, feed, coordinate]
  dsimp only
  rw [Coordinator.feed_of_some ready]
  rfl

/-- A command that can be repeated is told in its form, and before it, if need be, which
database it is for. -/
theorem tells_echoes (regular : node.Regular) (leads : node.following = false) {id : ClientId}
    {client : Client} (found : node.clients[id]? = some client) {form : List String}
    {after : Context} (echoes : Command.Echoes (node.issued id client) form after)
    (range : node.coordinator.offset + (Piece.bytes
      (node.coordinator.pieces form (some after.session.database))).length < endOfOffsets) :
    node.Tells (node.coordinator.pieces form (some after.session.database))
      (after.node.feed (Wire.commandBytes form) (some after.session.database)) := by
  have clock : after.node.clock = node.clock := by
    rw [echoes.frame]
    rfl
  have database : after.session.database = client.database := echoes.database
  have grows := echoes_grows orderly serves echoes
  have selected := echoes_selects orderly serves leads echoes
  refine ⟨congrArg Clock.wall clock, grows.identity,
    Coordinator.framed_pieces echoes.given ?_, ?_, ?_⟩
  · simp only [endOfOffsets] at range
    simp only [Text.maxSigned64]
    omega
  · intro offset bytes
    exact grows.recorded range
  · intro replica epoch mirrors
    have inside : after.session.database < node.partitions.count := by
      have positive := regular.bounded.positive
      rcases orderly.clients id client found with first | within <;> omega
    have one : Piece.bytes [.ofCommand form] = Wire.commandBytes form := by simp [Piece.ofCommand]
    have last := grows.offset least range
    rw [Coordinator.pieces, Piece.bytes_append, List.length_append, one] at range last
    obtain ⟨attached, wall, live, selects⟩ :=
      mirrors.selects leads regular.bounded inside least (by omega)
    have alike := echoes.repeats
      (replica.take epoch (node.coordinator.selection (some after.session.database))).listening
      ⟨rfl, wall, database.symm.trans selects.symm, regular.sound, attached.sound,
        live.symm⟩ rfl
      (Regular.listening ⟨attached.sound, attached.lifecycle,
        regular.bounded.congr wall live⟩)
    have moment : (after.node.feed (Wire.commandBytes form)
        (some after.session.database)).clock.wall = node.clock.wall := congrArg Clock.wall clock
    rw [Coordinator.pieces, take_append]
    refine attached.takes echoes.stays (by omega) ?_ (congrArg Stream.Identity.current grows.identity)
      ?_ (wall.trans moment.symm) ?_ ?_
    · simp only [Piece.ofCommand]
      omega
    · simp only [Piece.ofCommand]
      omega
    · rw [moment]
      exact alike.partitions.live.symm
    · intro index given
      rw [selected] at given
      cases given
      exact alike.database.symm

/-- A ping is told as it is. -/
theorem tells_ping (leads : node.following = false) {before : Coordinator} {clients : Clients}
    (backlog : before.backlog = node.coordinator.backlog)
    (identity : before.identity = node.coordinator.identity)
    (stream : before.streamDatabase = node.coordinator.streamDatabase)
    (range : node.coordinator.offset + (Piece.bytes [.ofCommand ["PING"]]).length < endOfOffsets) :
    node.Tells [.ofCommand ["PING"]]
      { node with coordinator := (before.feed clients (Wire.commandBytes ["PING"]) none).1 } := by
  have one : Piece.bytes [.ofCommand ["PING"]] = Wire.commandBytes ["PING"] := by
    simp [Piece.ofCommand]
  rw [one] at range
  have grows := @Grows.of_feed node
    { node with coordinator := (before.feed clients (Wire.commandBytes ["PING"]) none).1 }
    before clients (Wire.commandBytes ["PING"]) none serves orderly backlog identity rfl
  rw [Coordinator.streamBytes] at grows
  obtain ⟨ring, held⟩ := Option.isSome_iff_exists.mp (orderly.coordinator.recorded serves)
  refine ⟨rfl, grows.identity, ?_, ?_, ?_⟩
  · intro piece member
    obtain rfl := List.mem_singleton.mp member
    apply Piece.framed_ofCommand (List.cons_ne_nil _ _)
    simp only [endOfOffsets] at range
    simp only [Text.maxSigned64]
    omega
  · intro offset bytes
    rw [one]
    exact grows.recorded range
  · intro replica epoch mirrors
    have heard := hear_ping replica
    refine mirrors.attached.takes not_turns_ping least range
      (congrArg Stream.Identity.current grows.identity) (grows.offset least range) mirrors.wall ?_ ?_
    · simp only [Piece.ofCommand, heard]
      exact mirrors.live
    · intro index selects
      simp only [Piece.ofCommand, heard]
      apply mirrors.database index
      have given := (@selected_of_leading _ (by exact leads)).symm.trans selects
      dsimp only at given
      rw [Coordinator.feed_of_some (backlog.trans held)] at given
      rw [selected_of_leading leads, ← stream]
      exact given

/-- A command of a leader is told just as it came, by a node that has a leader itself. -/
theorem tells_follow (regular : node.Regular)
    (follows : node.following = true) (connected : node.role.state = .connected) {piece : Piece}
    (framed : piece.Framed) (stays : ¬Command.Turns piece.arguments)
    (range : node.coordinator.offset + piece.raw.length < endOfOffsets) :
    node.Tells [piece] (node.follow piece.arguments piece.raw) := by
  obtain ⟨ring, held⟩ := Option.isSome_iff_exists.mp (orderly.coordinator.recorded serves)
  have attached : node.Attached node.role.epoch node.coordinator.identity.current
      node.coordinator.offset := by
    refine ⟨regular.sound, regular.lifecycle, rfl, connected, rfl, ring, held, (orderly.coordinator.ready ring held).active, ?_⟩
    rw [Coordinator.offset, held]
    rfl
  obtain ⟨still, wall, partitions, database, leader⟩ := attached.command stays least range
  have took : node.handle (.link node.role.epoch (.command piece.arguments piece.raw)) =
      node.follow piece.arguments piece.raw := by
    simp only [handle, attached.accepts, if_true, takeLinkEvent]
  rw [took] at still wall partitions database leader
  have abides := @hear_abides node piece.arguments stays
  have grows : node.Grows piece.raw (node.follow piece.arguments piece.raw) := by
    have fed := @Grows.of_feed node (node.follow piece.arguments piece.raw)
      (node.hear piece.arguments).node.coordinator (node.hear piece.arguments).node.clients piece.raw
      none serves orderly abides.backlog abides.identity (by rw [follow_eq connected]; rfl)
    rw [Coordinator.streamBytes] at fed
    exact fed
  have one : Piece.bytes [piece] = piece.raw := by simp
  refine ⟨wall, grows.identity, by simpa using framed, ?_, ?_⟩
  · intro offset bytes
    rw [one]
    exact grows.recorded range
  · intro replica epoch mirrors
    have ready : Context.Alike node.clock.wall node.listening replica.listening :=
      ⟨rfl, mirrors.wall, (mirrors.database _ (selected_of_following follows)).symm,
        mirrors.alike regular.sound⟩
    have alike : Context.Alike node.clock.wall (node.hear piece.arguments)
        (replica.hear piece.arguments) :=
      Command.dispatch_alike ready rfl rfl regular.listening
        (mirrors.regular regular.bounded).listening stays
    refine mirrors.attached.takes stays least range still.history still.offset_eq
      (mirrors.wall.trans wall.symm) ?_ ?_
    · rw [wall, partitions]
      exact alike.partitions.live.symm
    · intro index selects
      have follows : (node.follow piece.arguments piece.raw).following = true := by
        rw [Node.following, Link.Role.following, leader]
        exact follows
      rw [selected_of_following follows, database] at selects
      cases selects
      exact alike.database.symm

end

end Node
end ReplicaStore
