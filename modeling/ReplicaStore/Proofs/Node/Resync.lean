import ReplicaStore.Proofs.Node.FanOut

/-!
# Full resynchronisation

A replica that needs all data of its leader is sent a snapshot and the stream since the
snapshot was begun.  Whoever loads the snapshot and then takes this stream, and all that is
added to it later, mirrors the leader (`Node.Resync.mirrors`).
-/

namespace ReplicaStore

open ReplicaStore.Stream (Coordinator Piece)
open ReplicaStore.Stream.Backlog (endOfOffsets)

namespace Node

/-- A node that can follow another one: it has as many databases and the same time, and
takes notice of the link with an epoch. -/
structure Fits (follower leader : Node) (epoch : Nat) : Prop where
  reachable : follower.Reachable
  count : follower.partitions.count = leader.partitions.count
  wall : follower.clock.wall = leader.clock.wall
  accepts : follower.role.accepts epoch = true

/-- Loads a snapshot of a leader that was begun at a place of its stream. -/
def fullSync (follower : Node) (epoch : Nat) (id : String) (offset : Int) (payload : Bytes) : Node :=
  follower.handle (.link epoch (.fullSync id offset payload))

/-- The same node, but that the stream of its leader has selected a given database. -/
def inDatabase (node : Node) (index : Nat) : Node :=
  { node with role := { node.role with database := index } }

theorem inDatabase_of_eq {node : Node} {index : Nat} (same : node.role.database = index) :
    node.inDatabase index = node := by
  rw [inDatabase, ← same]

/-- Who loads the picture of a node mirrors it in the database that the stream of the node has
selected, but believes that to be the first. -/
theorem mirrors_fullSync {node follower : Node} {epoch : Nat} (sound : node.Sound)
    (bounded : node.Bounded) (fits : follower.Fits node epoch) :
    (follower.fullSync epoch node.coordinator.identity.current node.coordinator.offset
      node.picture).role.database = 0 ∧
    ∀ index, (∀ other, node.selected = some other → other = index) →
      ((follower.fullSync epoch node.coordinator.identity.current node.coordinator.offset
        node.picture).inDatabase index).Mirrors node epoch := by
  obtain ⟨same, _⟩ : follower.role.epoch = epoch ∧ _ := by
    simpa [Link.Role.accepts] using fits.accepts
  have reached : (follower.fullSync epoch node.coordinator.identity.current
      node.coordinator.offset node.picture).Reachable :=
    fits.reachable.next (.link epoch (.fullSync _ _ _)) rfl
  obtain ⟨commands, partitions, read, loaded, _, live⟩ :=
    @Sized.load_picture node bounded.sized sound Command.all Command.restores_all
      { follower with coordinator := follower.coordinator.changeBacklog fun backlog =>
          backlog.deactivate.reset node.coordinator.offset } fits.wall fits.count
  have took : follower.fullSync epoch node.coordinator.identity.current node.coordinator.offset
      node.picture = follower.applyFullSync node.coordinator.identity.current
        node.coordinator.offset node.picture := by
    simp only [fullSync, handle, fits.accepts, if_true, takeLinkEvent]
  have made : follower.fullSync epoch node.coordinator.identity.current node.coordinator.offset
      node.picture =
        { ({ follower with
            partitions
            coordinator := ((follower.coordinator.changeBacklog fun backlog =>
              backlog.deactivate.reset node.coordinator.offset).changeBacklog
                (·.activate)).adoptIdentity node.coordinator.identity.current } : Node).dropReplicas with
          role :=
            { follower.role with database := 0 }.setState follower.clock.elapsed .connected } := by
    rw [took, applyFullSync, read]
    dsimp only
    rw [Command.load]
    dsimp only at loaded
    rw [loaded]
    rfl
  rw [made] at reached ⊢
  refine ⟨rfl, ?_⟩
  intro index starts
  refine ⟨⟨reached.sound, reached.lifecycle.congr rfl rfl rfl fun _ drains => drains, same, rfl,
    rfl, _, rfl, rfl, rfl⟩, fits.wall, live, ?_⟩
  intro other selects
  exact (starts other selects).symm

theorem eq_image_of_mem_reports {storage : Storage} {views : List Keyspace} {now : Int}
    {payload : Bytes} (member : .finished (.ok payload) ∈ storage.reports views now) :
    payload = Snapshot.image views now := by
  simp only [Storage.reports] at member
  split at member
  · simpa using member
  · rcases List.mem_append.mp member with progress | last
    · rcases List.mem_append.mp progress with written | aborted
      · obtain ⟨_, _, same⟩ := List.mem_map.mp written
        cases same
      · obtain ⟨_, _, same⟩ := List.mem_map.mp aborted
        cases same
    · cases List.mem_singleton.mp last

/-- A replica is brought up to its leader by a snapshot.  The snapshot is begun, and while it
is written, somebody waits for it; it is finished and shipped, and from then on the replica
stays online. -/
structure Resync where
  /-- The node before the step in which the snapshot is begun, and after it. -/
  before : Node
  begun : Node
  /-- The node before the snapshot is finished, and after that. -/
  served : Node
  shipped : Node
  /-- The node at any later moment. -/
  leader : Node
  id : ClientId
  payload : Bytes
  beginning : Happening
  since : List Piece
  later : List Piece
  reachable : before.Reachable
  idle : before.writing = none
  begins : before.Ordinary beginning begun
  writes : begun.Course (·.writing.isSome) since served
  waits : ∃ replica : Stream.Replica, served.coordinator.replicas[id]? = some replica ∧
    replica.state = .awaitingSnapshot
  finishes : served.stepWriter? = some (.finished (.ok payload), shipped)
  ordinary : served.Ordinary .report shipped
  goes : shipped.Course (·.coordinator.Online id) later leader

namespace Resync

variable (resync : Resync)

/-- All that goes into the stream between the beginning of the snapshot and its end. -/
def meanwhile : List Piece :=
  resync.before.added resync.beginning ++ resync.since

/-- The history that the replica is told to follow, and the place where it starts. -/
def history : String :=
  resync.shipped.coordinator.identity.current

def place : Int :=
  resync.shipped.coordinator.snapshotOffset

/-- A node that has loaded the snapshot. -/
def loaded (follower : Node) (epoch : Nat) : Node :=
  follower.fullSync epoch resync.history resync.place resync.payload

/-- What is sent behind the snapshot, and from then on as it comes. -/
def stream : Bytes :=
  Piece.bytes resync.meanwhile ++ Piece.bytes resync.later

/-- Whatever goes into the stream while the replica stays online is sent to it as it comes, in one
message for each step, as long as somebody reads what is sent. -/
def Forwards : Prop :=
  ∀ {sofar : List Piece} {between after : Node} {happening : Happening},
    resync.shipped.Course (·.coordinator.Online resync.id) sofar between →
    between.Ordinary happening after → between.clients.reaches resync.id = true →
    between.added happening ≠ [] →
    after.clients.Queued resync.id (.data (Piece.bytes (between.added happening)))

/-- What becomes of a node that loads the snapshot, and then takes the stream behind it. -/
def replica (follower : Node) (epoch : Nat) : Node :=
  (resync.loaded follower epoch).replay epoch resync.stream

theorem served_reachable : resync.served.Reachable :=
  resync.writes.reachable (resync.reachable.next _ resync.begins.happened)

/-- A finished snapshot is shipped. -/
theorem shipped_eq :
    (∃ reports, resync.served.writing = some (.finished (.ok resync.payload) :: reports)) ∧
    resync.shipped.coordinator = (resync.served.coordinator.finishFullSync resync.served.clients
      resync.served.clock.elapsed resync.payload).1 ∧
    resync.shipped.clients = (resync.served.coordinator.finishFullSync resync.served.clients
      resync.served.clock.elapsed resync.payload).2 := by
  have finishes := resync.finishes
  simp only [stepWriter?] at finishes
  split at finishes
  · cases finishes
  · cases finishes
  · next reports running =>
      simp only [Option.some.injEq, Prod.mk.injEq] at finishes
      obtain ⟨rfl, shipped⟩ := finishes
      rw [← shipped]
      exact ⟨⟨_, running⟩, rfl, rfl⟩

/-- The snapshot shows what could be read when it was begun, at the place where the stream
ended then.  From there on all pieces are told. -/
theorem opened :
    ∃ opened : Node, resync.before.Begins opened ∧ opened.coordinator.Serves ∧
      0 ≤ opened.coordinator.offset ∧ resync.payload = opened.picture ∧
      opened.coordinator.identity.current = resync.history ∧
      opened.coordinator.offset = resync.place ∧
      opened.Tells resync.meanwhile resync.served := by
  have reachable := resync.reachable.next _ resync.begins.happened
  obtain ⟨⟨reports, running⟩, coordinator, _⟩ := resync.shipped_eq
  obtain ⟨waited, tells, place, among⟩ :=
    resync.writes.waits reachable ⟨resync.id, resync.waits⟩
  have serves := Coordinator.serves_of_awaits waited
  obtain ⟨opened, opens⟩ := (resync.begins.proceeds resync.reachable).begins resync.idle
    resync.writes.holds_first serves
  have told := opens.tells.trans tells
  have steady := (Coordinator.finishFullSync_steady resync.served.coordinator resync.served.clients
    resync.served.clock.elapsed resync.payload).1
  rw [← coordinator] at steady
  refine ⟨opened, opens.begins, opens.serves, opens.least resync.begins.least, ?_, ?_, ?_, told⟩
  · obtain ⟨earlier, begun, within⟩ := among _ running
    obtain ⟨storage, writing⟩ := opens.begins.writing
    rw [← opens.writing, begun] at writing
    cases writing
    exact eq_image_of_mem_reports (within _ List.mem_cons_self)
  · rw [history, steady.identity, told.identity]
  · rw [Resync.place, steady.snapshotOffset, place, opens.place, opens.begins.place]

theorem online : resync.shipped.coordinator.Online resync.id :=
  resync.goes.holds_first

/-- While the snapshot is finished, the stream stands still. -/
theorem shipped_tells : resync.served.Tells [] resync.shipped :=
  (resync.ordinary.proceeds resync.served_reachable).tells ⟨resync.id, _, resync.waits.choose_spec.1⟩
    resync.online.serves

/-- What is sent to the replica is the snapshot, and all that has gone into the stream
meanwhile. -/
theorem sends : resync.shipped.clients.Queued resync.id
    (.data (Coordinator.fullReply resync.history resync.place resync.payload
      (Piece.bytes resync.meanwhile))) := by
  obtain ⟨opened, begins, serves, least, _, _, place, tells⟩ := resync.opened
  obtain ⟨_, coordinator, clients⟩ := resync.shipped_eq
  obtain ⟨ring, held⟩ := Option.isSome_iff_exists.mp (begins.orderly.recorded serves)
  have ready := begins.orderly.ready ring held
  have offset : opened.coordinator.offset = ring.writeOffset := by
    rw [Coordinator.offset, held]
    rfl
  rw [offset] at least place
  have recorded := tells.recorded ring.writeOffset []
    ⟨ring, held, .nil ready.active least ready.bounded⟩
  obtain ⟨later, kept, since⟩ := recorded
  have online := resync.online
  rw [coordinator] at online
  obtain ⟨tail, read, queued⟩ := Coordinator.queued_finishFullSync kept resync.waits online
  have steady := (Coordinator.finishFullSync_steady resync.served.coordinator resync.served.clients
    resync.served.clock.elapsed resync.payload).1
  rw [← coordinator] at steady
  rw [← steady.snapshotOffset] at read queued
  rw [← steady.identity] at queued
  have range : later.writeOffset < endOfOffsets := by
    have range := resync.ordinary.range
    rw [Coordinator.offset, kept] at range
    simp only [Option.map_some, Option.getD_some] at range
    omega
  have same : resync.shipped.coordinator.snapshotOffset = ring.writeOffset := place.symm
  rw [same] at read
  have whole := since.read range read
  rw [List.nil_append] at whole
  rw [whole] at queued
  rw [clients]
  exact queued

theorem forwards : resync.Forwards := by
  intro sofar between after happening course ordinary reaches adds
  have reachable := course.reachable
    (resync.served_reachable.next _ resync.ordinary.happened)
  exact ordinary.queued_added reachable ⟨course.holds_last, reaches⟩ adds

/-- Whoever loads the snapshot mirrors what the leader was when it was begun, in the database
that the stream starts in.  From there on all pieces are told. -/
theorem loads {follower : Node} {epoch : Nat} (fits : follower.Fits resync.before epoch) :
    ∃ opened : Node, opened.Tells (resync.meanwhile ++ resync.later) resync.leader ∧
      opened.partitions.count = resync.before.partitions.count ∧
      (resync.loaded follower epoch).role.database = 0 ∧
      ∀ index, (resync.before.following = true → resync.before.role.database = index) →
        ((resync.loaded follower epoch).inDatabase index).Mirrors opened epoch := by
  obtain ⟨opened, begins, serves, least, picture, history, place, tells⟩ := resync.opened
  have bounded := resync.begins.bounded.congr begins.wall begins.live
  have count : opened.partitions.count = resync.before.partitions.count := by
    rw [← PartitionSet.count_live _ resync.before.clock.wall, begins.live, PartitionSet.count_live]
  have suits : follower.Fits opened epoch :=
    ⟨fits.reachable, fits.count.trans count.symm, fits.wall.trans begins.wall.symm, fits.accepts⟩
  obtain ⟨first, mirrors⟩ := mirrors_fullSync begins.sound bounded suits
  rw [history, place, ← picture] at first mirrors
  refine ⟨opened, ?_, count, first, ?_⟩
  · have later := resync.goes.tells (resync.served_reachable.next _ resync.ordinary.happened)
      fun _ online => online.serves
    have all := (tells.trans resync.shipped_tells).trans later
    rw [List.append_nil] at all
    exact all
  · intro index starts
    apply mirrors index
    intro other selects
    by_cases follows : opened.following = true
    · rw [selected_of_following follows, begins.database, starts] at selects
      · exact (Option.some.inj selects).symm
      · rw [Node.following, Link.Role.following, begins.leader] at follows
        exact follows
    · rw [selected_of_leading (by simpa using follows), begins.stream] at selects
      cases selects

/-- Whoever loads the snapshot and takes the stream behind it, in the database that the stream
starts in, mirrors the leader.  What is loaded believes this to be the first database. -/
theorem mirrors {follower : Node} {epoch : Nat} (fits : follower.Fits resync.before epoch)
    {index : Nat} (starts : resync.before.following = true → resync.before.role.database = index) :
    (((resync.loaded follower epoch).inDatabase index).replay epoch resync.stream).Mirrors
      resync.leader epoch := by
  obtain ⟨opened, tells, _, _, mirrors⟩ := resync.loads fits
  rw [stream, ← Piece.bytes_append, replay_bytes tells.framed]
  exact tells.mirrors _ epoch (mirrors index starts)

theorem loaded_inDatabase {follower : Node} {epoch : Nat}
    (fits : follower.Fits resync.before epoch) :
    (resync.loaded follower epoch).inDatabase 0 = resync.loaded follower epoch := by
  obtain ⟨_, _, _, first, _⟩ := resync.loads fits
  exact inDatabase_of_eq first

/-- However a node that follows nobody is kept busy while it serves a replica, the replica
comes to have the same to be read in all its databases, the same history and the same place
in it.  It is sent the snapshot, and behind it what has gone into the stream since the
snapshot was begun; what goes into the stream later is sent as it comes. -/
theorem consistent (leads : resync.before.following = false) {follower : Node} {epoch : Nat}
    (fits : follower.Fits resync.before epoch) :
    resync.shipped.clients.Queued resync.id
      (.data (Coordinator.fullReply resync.history resync.place resync.payload
        (Piece.bytes resync.meanwhile))) ∧
    resync.Forwards ∧
    (resync.replica follower epoch).partitions.live resync.leader.clock.wall =
      resync.leader.partitions.live resync.leader.clock.wall ∧
    (resync.replica follower epoch).coordinator.identity.current =
      resync.leader.coordinator.identity.current ∧
    (resync.replica follower epoch).coordinator.offset = resync.leader.coordinator.offset := by
  have mirrors := @Resync.mirrors resync follower epoch fits 0 (by rw [leads]; exact nofun)
  rw [resync.loaded_inDatabase fits] at mirrors
  exact ⟨resync.sends, resync.forwards, mirrors.live, mirrors.attached.history, mirrors.attached.offset_eq⟩

/-- One key is stored while the snapshot is written, and another one later. -/
theorem consistent_with_writes :
    ∃ (resync : Resync) (follower : Node) (epoch : Nat),
      resync.before.following = false ∧ follower.Fits resync.before epoch ∧
      resync.meanwhile.map (·.arguments) = [["SELECT", "0"], ["SET", "a", "1"]] ∧
      resync.later.map (·.arguments) = [["SELECT", "0"], ["SET", "b", "2"]] ∧
      resync.shipped.clients.Queued resync.id
        (.data (Coordinator.fullReply resync.history resync.place resync.payload
          (Piece.bytes resync.meanwhile))) ∧
      resync.leader.clients.Queued resync.id (.data (Piece.bytes resync.later)) ∧
      (resync.replica follower epoch).partitions.live resync.leader.clock.wall =
        resync.leader.partitions.live resync.leader.clock.wall ∧
      (resync.replica follower epoch).coordinator.identity.current =
        resync.leader.coordinator.identity.current ∧
      (resync.replica follower epoch).coordinator.offset = resync.leader.coordinator.offset := by
  have begins : small.Plain (.runs 1 ["PSYNC", "?", "-1"]) := by decide +kernel
  have stores : (small.run [.runs 1 ["PSYNC", "?", "-1"]]).Plain (.runs 2 ["SET", "a", "1"]) := by
    decide +kernel
  have writes : (small.run [.runs 1 ["PSYNC", "?", "-1"], .runs 2 ["SET", "a", "1"]]).Plain
      .report := by decide +kernel
  have ends : (small.run [.runs 1 ["PSYNC", "?", "-1"], .runs 2 ["SET", "a", "1"], .report]).Plain
      .report := by decide +kernel
  have goes : (small.run [.runs 1 ["PSYNC", "?", "-1"], .runs 2 ["SET", "a", "1"], .report,
      .report]).Plain (.runs 2 ["SET", "b", "2"]) := by decide +kernel
  have online : (small.run [.runs 1 ["PSYNC", "?", "-1"], .runs 2 ["SET", "a", "1"], .report,
      .report]).coordinator.Online 1 := by decide +kernel
  have reads : (small.run [.runs 1 ["PSYNC", "?", "-1"], .runs 2 ["SET", "a", "1"], .report,
      .report]).clients.reaches 1 = true := by decide +kernel
  have adds : (small.run [.runs 1 ["PSYNC", "?", "-1"], .runs 2 ["SET", "a", "1"], .report,
      .report]).added (.runs 2 ["SET", "b", "2"]) ≠ [] := by decide +kernel
  let resync : Resync :=
    { before := small
      begun := small.run [.runs 1 ["PSYNC", "?", "-1"]]
      served := small.run [.runs 1 ["PSYNC", "?", "-1"], .runs 2 ["SET", "a", "1"], .report]
      shipped := small.run [.runs 1 ["PSYNC", "?", "-1"], .runs 2 ["SET", "a", "1"], .report, .report]
      leader := small.run [.runs 1 ["PSYNC", "?", "-1"], .runs 2 ["SET", "a", "1"], .report, .report,
        .runs 2 ["SET", "b", "2"]]
      id := 1
      payload := (small.run [.runs 1 ["PSYNC", "?", "-1"]]).picture
      beginning := .runs 1 ["PSYNC", "?", "-1"]
      since := _
      later := _
      reachable := small_reachable
      idle := rfl
      begins := begins.ordinary
      writes := ((Course.start (by decide +kernel)).step stores.ordinary (by decide +kernel)).step
        writes.ordinary (by decide +kernel)
      waits := ⟨_, rfl, rfl⟩
      finishes := rfl
      ordinary := ends.ordinary
      goes := (Course.start online).step goes.ordinary (by decide +kernel) }
  let follower := small.run [.runs 1 ["REPLICAOF", "127.0.0.1", "7000"], .upkeep]
  have fits : follower.Fits resync.before 3 := ⟨small_reachable.run _, rfl, rfl, rfl⟩
  have added : ((small.run [.runs 1 ["PSYNC", "?", "-1"], .runs 2 ["SET", "a", "1"], .report,
      .report]).added (.runs 2 ["SET", "b", "2"])).map (·.arguments) =
      [["SELECT", "0"], ["SET", "b", "2"]] := by decide +kernel
  obtain ⟨sent, forwards, same⟩ := resync.consistent rfl fits
  have forwarded : resync.leader.clients.Queued resync.id (.data (Piece.bytes resync.later)) :=
    forwards (.start online) goes.ordinary reads adds
  exact ⟨resync, follower, 3, rfl, fits, rfl, added, sent, forwarded, same⟩

end Resync

end Node
end ReplicaStore
