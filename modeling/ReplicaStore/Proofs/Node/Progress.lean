import ReplicaStore.Proofs.Node.Told

/-!
# Steps of a node that is replicated

A step of a node tells its replicas something or nothing, keeps the snapshot that is being
written on its way, or begins one (`Node.Proceeds`).  A snapshot that is begun shows just
what can be read at that moment, and its place is the end of the stream (`Node.Begins`).
-/

namespace ReplicaStore

open ReplicaStore.Stream (Coordinator Piece ReplicaState)
open ReplicaStore.Stream.Coordinator (Steady)

namespace Stream.Coordinator

theorem serves_register (coordinator : Coordinator) (clients : Clients) (now : Nat) (id : ClientId)
    (state : ReplicaState) (offset : Int) :
    (coordinator.register clients now id state offset).Serves := by
  refine ⟨id, ?_⟩
  simp only [register, Std.ExtTreeMap.getElem?_insert_self]
  exact ⟨_, rfl⟩

theorem serves_touch {coordinator : Coordinator} (serves : coordinator.Serves) (now : Nat)
    (id : ClientId) : (coordinator.touch now id).Serves := by
  obtain ⟨other, replica, found⟩ := serves
  refine ⟨other, ?_⟩
  simp only [touch, changeReplica, Std.ExtTreeMap.getElem?_modify]
  split
  · next same =>
      rw [Std.LawfulEqCmp.eq_of_compare same, found]
      exact ⟨_, rfl⟩
  · exact ⟨replica, found⟩

theorem serves_of_markAwaiting {coordinator : Coordinator}
    (serves : coordinator.markAwaiting.2.Serves) : coordinator.Serves := by
  obtain ⟨id, replica, found⟩ := serves
  simp only [markAwaiting, Std.ExtTreeMap.getElem?_map] at found
  obtain ⟨earlier, there, _⟩ := Option.map_eq_some_iff.mp found
  exact ⟨id, earlier, there⟩

theorem place_beginFullResync (coordinator : Coordinator) (clients : Clients) (now : Nat)
    (client : ClientId) (offset : Int) :
    (coordinator.beginFullResync clients now client offset).snapshotOffset =
      coordinator.snapshotOffset := by
  simp only [beginFullResync, register, rotateIdentity]
  split <;> rfl

theorem least_beginFullResync {coordinator : Coordinator} (least : 0 ≤ coordinator.offset)
    {clients : Clients} {now : Nat} {client : ClientId} {offset : Int} :
    0 ≤ (coordinator.beginFullResync clients now client offset).offset := by
  simp only [beginFullResync, register, Coordinator.offset]
  split
  · exact least
  · exact Int.le_max_right ..

theorem awaits_beginFullResync {coordinator : Coordinator} {clients : Clients} {now : Nat}
    {client : ClientId} {offset : Int}
    (waits : (coordinator.beginFullResync clients now client offset).Awaits) :
    coordinator.Awaits := by
  obtain ⟨other, replica, found, waiting⟩ := awaits_register (by decide) waits
  refine ⟨other, replica, ?_, waiting⟩
  split at found
  · exact found
  · simp only [rotateIdentity] at found
    exact found

end Stream.Coordinator

namespace Node

/-- A snapshot has been begun of what can be read of a node. -/
structure Begins (node later : Node) : Prop where
  wall : later.clock.wall = node.clock.wall
  live : later.partitions.live node.clock.wall = node.partitions.live node.clock.wall
  leader : later.role.leader = node.role.leader
  database : later.role.database = node.role.database
  sound : later.Sound
  orderly : later.coordinator.Orderly
  place : later.coordinator.snapshotOffset = later.coordinator.offset
  stream : later.coordinator.streamDatabase = none
  writing : ∃ storage : Storage,
    later.writing = some (storage.reports later.partitions.contents later.clock.wall)

/-- What a snapshot is begun of is what can be read, and where it comes from. -/
theorem Begins.congr {before node later : Node} (begins : before.Begins later)
    (clock : before.clock = node.clock) (partitions : before.partitions = node.partitions)
    (leader : before.role.leader = node.role.leader)
    (database : before.role.database = node.role.database) : node.Begins later where
  wall := by rw [begins.wall, clock]
  live := by rw [← partitions, ← clock, begins.live]
  leader := begins.leader.trans leader
  database := begins.database.trans database
  sound := begins.sound
  orderly := begins.orderly
  place := begins.place
  stream := begins.stream
  writing := begins.writing

/-- A snapshot has been begun in a step, and what the step adds to the stream belongs to
what is written behind it. -/
structure Opens (node : Node) (pieces : List Piece) (begun later : Node) : Prop where
  begins : node.Begins begun
  serves : begun.coordinator.Serves
  tells : begun.Tells pieces later
  writing : later.writing = begun.writing
  place : later.coordinator.snapshotOffset = begun.coordinator.snapshotOffset
  least : 0 ≤ node.coordinator.offset → 0 ≤ begun.coordinator.offset

/-- What a step of a node comes to that has added pieces to the stream. -/
structure Proceeds (node : Node) (pieces : List Piece) (later : Node) : Prop where
  tells : node.coordinator.Serves → later.coordinator.Serves → node.Tells pieces later
  /-- The snapshot that somebody waits for afterwards was waited for before. -/
  keeps : node.writing.isSome → later.coordinator.Awaits →
    node.coordinator.Awaits ∧
    later.coordinator.snapshotOffset = node.coordinator.snapshotOffset ∧
    ∀ reports, later.writing = some reports →
      ∃ earlier, node.writing = some earlier ∧ ∀ report ∈ reports, report ∈ earlier
  begins : node.writing = none → later.writing.isSome → later.coordinator.Serves →
    ∃ begun : Node, node.Opens pieces begun later

variable {node between later : Node} {pieces : List Piece}

namespace Proceeds

/-- A step that neither begins a snapshot nor has the writer of one report. -/
theorem of_tells
    (tells : node.coordinator.Serves → later.coordinator.Serves → node.Tells pieces later)
    (place : later.coordinator.snapshotOffset = node.coordinator.snapshotOffset)
    (awaits : later.coordinator.Awaits → node.coordinator.Awaits)
    (writing : later.writing = node.writing) : node.Proceeds pieces later where
  tells := tells
  keeps := by
    intro _ waits
    refine ⟨awaits waits, place, ?_⟩
    intro reports given
    exact ⟨reports, writing.symm.trans given, fun _ member => member⟩
  begins := by
    intro idle started _
    rw [writing, idle] at started
    cases started

theorem of_silent (silent : node.Silent later) (steady : Steady node.coordinator later.coordinator)
    (writing : later.writing = node.writing) : node.Proceeds [] later :=
  .of_tells (fun _ _ => silent.tells) steady.snapshotOffset steady.awaits writing

theorem of_calm (calm : node.Calm later) : node.Proceeds [] later :=
  .of_silent calm.silent calm.stream calm.writing

/-- Whoever has no replicas afterwards has nobody to be told. -/
theorem of_lost (lost : ¬later.coordinator.Serves) (writing : later.writing = node.writing) :
    node.Proceeds pieces later where
  tells := fun _ serves => absurd serves lost
  keeps := fun _ waits => absurd (Coordinator.serves_of_awaits waits) lost
  begins := by
    intro idle started _
    rw [writing, idle] at started
    cases started

/-- A step of a node follows one of its coordinator and its tasks alone, and adds nothing. -/
theorem prepared (coordinator : Coordinator) (tasks : List Task)
    (silent : node.coordinator.Serves →
      node.Silent { node with coordinator, tasks } ∧ coordinator.Serves)
    (place : coordinator.snapshotOffset = node.coordinator.snapshotOffset)
    (least : 0 ≤ node.coordinator.offset → 0 ≤ coordinator.offset)
    (awaits : coordinator.Awaits → node.coordinator.Awaits)
    (proceeds : { node with coordinator, tasks }.Proceeds [] later) : node.Proceeds [] later where
  tells := by
    intro serves still
    obtain ⟨silent, served⟩ := silent serves
    exact silent.tells.trans (proceeds.tells served still)
  keeps := by
    intro running waits
    obtain ⟨waited, same, reports⟩ := proceeds.keeps running waits
    exact ⟨awaits waited, same.trans place, reports⟩
  begins := by
    intro idle started still
    obtain ⟨begun, opens⟩ := proceeds.begins idle started still
    exact ⟨begun, opens.begins.congr rfl rfl rfl rfl, opens.serves, opens.tells, opens.writing,
      opens.place, fun zero => opens.least (least zero)⟩

/-- What is queued for clients does not matter. -/
theorem clients (proceeds : node.Proceeds pieces later) (clients : Clients) :
    node.Proceeds pieces { later with clients } where
  tells := by
    intro serves still
    have silent : later.Silent { later with clients } := ⟨rfl, rfl, rfl, rfl, rfl, rfl, .inr rfl⟩
    have told := (proceeds.tells serves still).trans silent.tells
    rw [List.append_nil] at told
    exact told
  keeps := proceeds.keeps
  begins := by
    intro idle started still
    obtain ⟨begun, opens⟩ := proceeds.begins idle started still
    have silent : later.Silent { later with clients } := ⟨rfl, rfl, rfl, rfl, rfl, rfl, .inr rfl⟩
    have told := opens.tells.trans silent.tells
    rw [List.append_nil] at told
    exact ⟨begun, opens.begins, opens.serves, told, opens.writing, opens.place, opens.least⟩

end Proceeds

/-! ### Beginning snapshots -/

theorem begins_beginSnapshot (sound : node.Sound) (lifecycle : node.Lifecycle)
    (orderly : node.coordinator.Orderly) (begun : node.beginSnapshot? = some later) : node.Begins later := by
  have retains := beginSnapshot_retains sound begun
  have writing := writing_beginSnapshot sound lifecycle begun
  obtain ⟨_, rfl⟩ := beginSnapshot?_inv begun
  refine ⟨rfl, retains.live _, rfl, rfl, retains.sound, orderly.congr rfl rfl, rfl, rfl,
    node.storage, ?_⟩
  dsimp only at writing ⊢
  rw [PartitionSet.contents_freeze]
  exact writing

theorem Begins.proceeds (begins : node.Begins later) (silent : node.Silent later)
    (idle : node.writing = none) : node.Proceeds [] later where
  tells := fun _ _ => silent.tells
  keeps := by
    intro running
    rw [idle] at running
    cases running
  begins := fun _ _ serves =>
    ⟨later, begins, serves, .refl later, rfl, rfl, fun least => silent.offset ▸ least⟩

theorem begun_proceeds (sound : node.Sound) (lifecycle : node.Lifecycle)
    (orderly : node.coordinator.Orderly) (begun : node.beginSnapshot? = some later) :
    node.Proceeds [] later := by
  apply (begins_beginSnapshot sound lifecycle orderly begun).proceeds (beginSnapshot_silent sound begun)
  exact lifecycle.idle (by simp [(beginSnapshot?_inv begun).1])

/-- Who needs a snapshot waits for one that is begun now, or for one that others wait for. -/
theorem scheduleFullSync_proceeds (sound : node.Sound) (lifecycle : node.Lifecycle)
    (orderly : node.coordinator.Orderly) : node.Proceeds [] node.scheduleFullSync := by
  rcases node.scheduleFullSync_cases with ⟨_, same⟩ | ⟨waiting, _, same⟩ | ⟨begun, found, same⟩ <;>
    rw [same]
  · exact .of_calm (.refl sound)
  · refine .of_tells (fun _ _ => Silent.tells ⟨rfl, rfl, rfl, rfl, rfl, rfl, .inr rfl⟩) rfl
      (fun _ => Coordinator.awaits_iff.mpr waiting) rfl
  · have begins := begins_beginSnapshot sound lifecycle orderly found
    have silent := beginSnapshot_silent sound found
    have marked : node.Begins { begun with coordinator := begun.coordinator.markAwaiting.2 } :=
      ⟨begins.wall, begins.live, begins.leader, begins.database, begins.sound,
        begins.orderly.markAwaiting, begins.place, begins.stream, begins.writing⟩
    apply marked.proceeds
    · exact ⟨silent.wall, silent.live, silent.leader, silent.database, silent.identity,
        silent.backlog, silent.stream⟩
    · exact lifecycle.idle (by simp [(beginSnapshot?_inv found).1])

theorem synchronise_proceeds (sound : node.Sound) (lifecycle : node.Lifecycle)
    (orderly : node.Orderly) (id : ClientId) (history : String) (offset : Int) :
    node.Proceeds [] (Command.synchronise id history offset node) := by
  have remove := Steady.remove node.coordinator id
  rcases synchronise_cases id history offset node with ⟨_, _, same⟩ | ⟨_, same⟩ <;> rw [same]
  · refine .of_tells (fun _ _ => Silent.tells ⟨rfl, rfl, rfl, rfl, rfl, rfl, .inr rfl⟩) rfl ?_ rfl
    intro waits
    exact remove.awaits (Coordinator.awaits_register (by decide) waits)
  · have removed := orderly.coordinator.steady remove
    refine .prepared _ node.tasks ?_ ?_ ?_ ?_ (scheduleFullSync_proceeds sound
      (lifecycle.congr rfl rfl rfl fun _ drains => drains) (removed.beginFullResync ..))
    · intro serves
      refine ⟨?_, Coordinator.serves_register ..⟩
      obtain ⟨ring, held⟩ := Option.isSome_iff_exists.mp (orderly.coordinator.recorded serves)
      have there : (node.coordinator.remove id).backlog = some ring := held
      simp only [Coordinator.beginFullResync, there]
      exact ⟨rfl, rfl, rfl, rfl, rfl, rfl, .inr rfl⟩
    · exact Coordinator.place_beginFullResync ..
    · exact fun least => @Coordinator.least_beginFullResync (node.coordinator.remove id) least _ _ _ _
    · exact fun waits => remove.awaits (Coordinator.awaits_beginFullResync waits)

/-! ### Upkeep -/

/-- The upkeep of the link neither changes the leader nor the database of its stream. -/
theorem maintain_role (role : Link.Role) (now : Nat) (request : Link.SyncRequest) (timeout : Nat) :
    (role.maintain now request timeout).leader = role.leader ∧
      (role.maintain now request timeout).database = role.database := by
  simp only [Link.Role.maintain, Link.Role.openLink, Link.Role.reconnect, Link.Role.send]
  repeat' split
  all_goals exact ⟨rfl, rfl⟩

/-- What the upkeep does to a node apart from its coordinator and its clients. -/
theorem maintain_frame (node : Node) :
    node.maintain.partitions = node.partitions ∧ node.maintain.clock = node.clock ∧
      node.maintain.writing = node.writing ∧ node.maintain.role.leader = node.role.leader ∧
      node.maintain.role.database = node.role.database := by
  obtain ⟨leader, database⟩ := maintain_role node.role node.clock.elapsed node.syncRequest
    (1000 * node.settings.timeout)
  simp only [maintain]
  split <;> exact ⟨rfl, rfl, rfl, leader, database⟩

/-- What the upkeep does to the coordinator and the clients of a node. -/
theorem maintain_coordinates (node : Node) :
    node.maintain.coordinator =
        (node.coordinator.maintain node.clients node.clock.elapsed node.periods).2.1 ∧
      node.maintain.clients =
        (node.coordinator.maintain node.clients node.clock.elapsed node.periods).2.2 := by
  obtain ⟨leader, _⟩ := maintain_role node.role node.clock.elapsed node.syncRequest
    (1000 * node.settings.timeout)
  simp only [maintain, periods, Node.following, Link.Role.following, leader]
  split <;> exact ⟨rfl, rfl⟩

/-! ### Commands of clients -/

/-- Where nothing is added to the stream, a command keeps the snapshot on its way or begins
one. -/
theorem served_proceeds (sound : node.Sound) (lifecycle : node.Lifecycle)
    (orderly : node.Orderly) (served : Command.Served node later) : node.Proceeds [] later := by
  cases served with
  | calm calm => exact .of_calm calm
  | begins begun => exact begun_proceeds sound lifecycle orderly.coordinator begun
  | synchronises id history offset same =>
      rw [same]
      exact synchronise_proceeds sound lifecycle orderly id history offset

/-- Serving a client is running its command, and queueing a reply behind what it has queued. -/
theorem serve_eq {id : ClientId} {value : Wire.Value} {client : Client} {arguments : List String}
    (found : node.clients[id]? = some client) (given : value.arguments? = some arguments) :
    ∃ clients, node.serve id value =
        { (Command.dispatch (node.issued id client) arguments).2.node with clients } ∧
      ∀ other message,
        (Command.dispatch (node.issued id client) arguments).2.node.clients.Queued other message →
          clients.Queued other message := by
  simp only [serve, found, given, answer, issued]
  split
  · refine ⟨_, rfl, ?_⟩
    intro other message queued
    apply queued.modify
    intro _
    rfl
  · refine ⟨_, rfl, ?_⟩
    intro other message queued
    apply Clients.Queued.queue
    apply queued.modify
    intro _
    rfl

section

variable (reachable : node.Reachable) (bounded : node.Bounded)
  (least : 0 ≤ node.coordinator.offset)

include reachable bounded least

theorem serve_proceeds {id : ClientId} {value : Wire.Value}
    (permitted : ∀ arguments, value.arguments? = some arguments → Command.Permitted arguments)
    (range : node.coordinator.offset + (Piece.bytes (node.added (.command id value))).length <
      Stream.Backlog.endOfOffsets) :
    node.Proceeds (node.added (.command id value)) (node.serve id value) := by
  have touch := Steady.touch node.coordinator node.clock.elapsed id
  cases found : node.clients[id]? with
  | none =>
      simp only [added, serve, found]
      exact .of_calm (.refl reachable.sound)
  | some client =>
      cases given : value.arguments? with
      | none =>
          have quiet : node.added (.command id value) = [] := by
            simp only [added, found, given]
          have answered : ∃ clients, node.serve id value =
              { node with clients, coordinator := node.coordinator.touch node.clock.elapsed id } := by
            simp only [serve, found, given, answer]
            split <;> exact ⟨_, rfl⟩
          obtain ⟨clients, same⟩ := answered
          rw [quiet, same]
          exact .of_calm (.of_retains (.refl reachable.sound) touch rfl rfl rfl)
      | some arguments =>
          have regular : (node.issued id client).node.Regular :=
            ⟨reachable.sound, reachable.lifecycle.congr rfl rfl rfl fun _ drains => drains,
              bounded.congr rfl rfl⟩
          have orderly : (node.issued id client).node.Orderly :=
            reachable.orderly.congr touch (.refl _) rfl rfl
          have unsaid (served : Command.Served (node.issued id client).node
              (Command.dispatch (node.issued id client) arguments).2.node) :
              node.Proceeds [] (Command.dispatch (node.issued id client) arguments).2.node :=
            .prepared (node.coordinator.touch node.clock.elapsed id) node.tasks
              (fun serves => ⟨⟨rfl, rfl, rfl, rfl, rfl, rfl, .inr rfl⟩,
                Coordinator.serves_touch serves ..⟩) rfl (fun least => least) touch.awaits
              (served_proceeds regular.sound regular.lifecycle orderly served)
          obtain ⟨clients, same, _⟩ := serve_eq found given
          rw [same]
          apply Proceeds.clients
          simp only [added, found, given] at range ⊢
          by_cases follows : node.following = true
          · rw [if_pos follows]
            exact unsaid (Command.dispatch_following rfl regular (permitted _ given) follows)
          · have leads : node.following = false := by simpa using follows
            simp only [leads, Bool.false_eq_true, if_false] at range ⊢
            rcases Command.dispatch_leading rfl regular (permitted _ given) leads with
              ⟨silent, served⟩ | ⟨form, after, added, feeds, echoes⟩
            · rw [silent]
              exact unsaid served
            · rw [added] at range ⊢
              rw [feeds]
              have issued : after.node.coordinator =
                  node.coordinator.touch node.clock.elapsed id := by
                rw [echoes.frame]
                rfl
              have frame := after.node.coordinator.fed_feed after.node.clients
                (Wire.commandBytes form) (some after.session.database)
              refine .of_tells (fun serves _ => tells_echoes reachable.orderly serves least
                ⟨reachable.sound, reachable.lifecycle, bounded⟩ leads found echoes range) ?_ ?_ ?_
              · exact frame.snapshotOffset.trans (by rw [issued]; rfl)
              · intro waits
                have touched := frame.awaits.mp waits
                rw [issued] at touched
                exact touch.awaits touched
              · have writing : after.node.writing = node.writing := by
                  rw [echoes.frame]
                  rfl
                exact writing

omit bounded in
theorem maintain_proceeds
    (range : node.coordinator.offset + (Piece.bytes (node.added .upkeep)).length <
      Stream.Backlog.endOfOffsets) :
    node.Proceeds (node.added .upkeep) node.maintain := by
  obtain ⟨partitions, clock, writing, leader, database⟩ := node.maintain_frame
  have steady := Coordinator.maintain_steady node.coordinator node.clients node.clock.elapsed
    node.periods
  rw [← node.maintain_coordinates.1, ping_periods] at steady
  rcases steady with lost | steady
  · exact .of_lost lost writing
  · simp only [added] at range ⊢
    by_cases pings : node.pings = true
    · have leads := pings_leads pings
      have frame := Coordinator.fed_feed
        { node.coordinator with lastPing := node.clock.elapsed } node.clients
        (Wire.commandBytes ["PING"]) none
      rw [if_pos pings] at range steady ⊢
      refine .of_tells (fun serves _ => ?_) (steady.snapshotOffset.trans frame.snapshotOffset) ?_ writing
      · have told := (@tells_ping node reachable.orderly serves least leads
          { node.coordinator with lastPing := node.clock.elapsed } node.clients rfl rfl rfl
          range).trans (@Silent.tells _ node.maintain
            ⟨by rw [clock], by rw [partitions], leader, database, steady.identity, steady.backlog,
              steady.stream⟩)
        rw [List.append_nil] at told
        exact told
      · exact fun waits => frame.awaits.mp (steady.awaits waits)
    · rw [if_neg pings] at steady ⊢
      exact .of_silent ⟨by rw [clock], by rw [partitions], leader, database, steady.identity,
        steady.backlog, steady.stream⟩ steady writing

end

/-! ### Commands of a leader -/

/-- A command of the leader leaves the stream alone, or begins a snapshot. -/
theorem hear_cases (regular : node.Regular) {arguments : List String}
    (stays : ¬Command.Turns arguments) :
    Steady node.coordinator (node.hear arguments).node.coordinator ∧
      (node.hear arguments).node.writing = node.writing ∨
    ∃ begun : Node, node.listening.node.beginSnapshot? = some begun ∧
      node.hear arguments = { node.listening with node := begun } := by
  have unchanged : Steady node.coordinator node.listening.node.coordinator ∧
      node.listening.node.writing = node.writing := ⟨.refl _, rfl⟩
  rw [hear_eq]
  match arguments with
  | [] => exact .inl unchanged
  | name :: rest =>
      rw [Command.dispatch_of_not_client rfl]
      cases known : Command.find? Command.all name with
      | none => exact .inl unchanged
      | some command =>
          dsimp only
          split
          · obtain ⟨member, _⟩ := Command.find?_inv known
            rcases Command.all_cases member (Command.stays_of_known known stays) rest with
              rfl | ⟨_, writes⟩ | ⟨_, impact⟩
            · rcases Command.outcome_select rest node.listening.ready with same | ⟨index, _, same⟩
              · rw [same]
                exact .inl unchanged
              · rw [same]
                exact .inl unchanged
            · obtain ⟨form, does⟩ := writes.does node.listening.ready
              rw [does.becomes.frame]
              exact .inl unchanged
            · cases impact node.listening.ready regular.listening with
              | calm calm _ => exact .inl ⟨calm.stream, calm.writing⟩
              | begins later begun same => exact .inr ⟨later, begun, same⟩
              | synchronises id history offset client _ => cases client
          · exact .inl unchanged

/-- A node passes on what its leader says, and if it was told to begin a snapshot, it has
begun it before. -/
theorem follow_proceeds (reachable : node.Reachable) (bounded : node.Bounded)
    (least : 0 ≤ node.coordinator.offset) (follows : node.following = true)
    (connected : node.role.state = .connected) {piece : Piece} (framed : piece.Framed)
    (stays : ¬Command.Turns piece.arguments)
    (range : node.coordinator.offset + piece.raw.length < Stream.Backlog.endOfOffsets) :
    node.Proceeds [piece] (node.follow piece.arguments piece.raw) := by
  have regular : node.Regular := ⟨reachable.sound, reachable.lifecycle, bounded⟩
  have tells (serves : node.coordinator.Serves) :
      node.Tells [piece] (node.follow piece.arguments piece.raw) :=
    tells_follow reachable.orderly serves least regular follows connected framed stays
      range
  have frame := (node.hear piece.arguments).node.coordinator.fed_feed
    (node.hear piece.arguments).node.clients piece.raw none
  have coordinator : (node.follow piece.arguments piece.raw).coordinator =
      ((node.hear piece.arguments).node.coordinator.feed (node.hear piece.arguments).node.clients
        piece.raw none).1 := by
    rw [follow_eq connected]
    rfl
  have writing : (node.follow piece.arguments piece.raw).writing =
      (node.hear piece.arguments).node.writing := by
    rw [follow_eq connected]
    rfl
  rw [← coordinator] at frame
  rcases hear_cases regular stays with ⟨steady, same⟩ | ⟨begun, found, same⟩
  · refine .of_tells (fun serves _ => tells serves) (frame.snapshotOffset.trans steady.snapshotOffset) ?_
      (writing.trans same)
    exact fun waits => steady.awaits (frame.awaits.mp waits)
  · have begins := begins_beginSnapshot regular.listening.sound regular.listening.lifecycle
      reachable.orderly.coordinator found
    have heard := beginSnapshot_silent regular.listening.sound found
    have silent : node.Silent begun := ⟨heard.wall, heard.live, heard.leader, heard.database,
      heard.identity, heard.backlog, heard.stream⟩
    obtain ⟨normal, started⟩ := beginSnapshot?_inv found
    have replicas : begun.coordinator.replicas = node.coordinator.replicas := by
      rw [started]
      rfl
    rw [same] at frame writing
    have status : node.partitions.status = .normal := normal
    have idle : node.writing = none := regular.lifecycle.idle (by simp [status])
    have selects : begun.selected = node.selected := by
      have still : begun.following = true := by
        rw [silent.following]
        exact follows
      rw [selected_of_following still, selected_of_following follows, silent.database]
    refine ⟨fun serves _ => tells serves, ?_, ?_⟩
    · intro running
      rw [idle] at running
      cases running
    · rintro _ _ ⟨other, replica, there⟩
      rw [frame.replicas] at there
      dsimp only at there
      rw [replicas] at there
      have told := tells ⟨other, replica, there⟩
      exact ⟨begun, begins.congr rfl rfl rfl rfl,
        ⟨other, replica, (congrArg (·[other]?) replicas).trans there⟩, told.after silent selects,
        writing, frame.snapshotOffset, fun least => silent.offset ▸ least⟩

/-! ### Reports of the writer -/

/-- What a report does to a node apart from its databases. -/
theorem takeReport_frame (node : Node) (report : Report) :
    (node.takeReport report).clock = node.clock ∧ (node.takeReport report).role = node.role ∧
      (node.takeReport report).writing = node.writing ∧
      Steady node.coordinator (node.takeReport report).coordinator := by
  cases report with
  | written index =>
      obtain ⟨_, _, same⟩ := node.partitionWritten_eq index
      rw [takeReport, same]
      exact ⟨rfl, rfl, rfl, .refl _⟩
  | aborted index => exact ⟨rfl, rfl, rfl, .refl _⟩
  | finished result =>
      cases result with
      | ok payload => exact ⟨rfl, rfl, rfl, (Coordinator.finishFullSync_steady ..).1⟩
      | error error =>
          exact ⟨rfl, rfl, rfl, (Coordinator.failFullSync_steady _ node.clients).1⟩

theorem report_proceeds (sound : node.Sound) (happened : node.next? .report = some later) :
    node.Proceeds [] later := by
  obtain ⟨report, reports, writing, storage, running, rfl, left⟩ := next?_report happened
  obtain ⟨clock, role, still, steady⟩ := { node with writing, storage }.takeReport_frame report
  have retains := @takeReport_retains { node with writing, storage } sound report
  have silent : node.Silent ({ node with writing, storage }.takeReport report) :=
    ⟨by rw [clock], retains.live _, by rw [role], by rw [role], steady.identity, steady.backlog,
      steady.stream⟩
  refine ⟨fun _ _ => silent.tells, ?_, ?_⟩
  · intro _ waits
    refine ⟨steady.awaits waits, steady.snapshotOffset, ?_⟩
    intro rest given
    rw [still] at given
    rcases left with ⟨_, ended⟩ | ended
    · rw [ended] at given
      cases given
    · rw [ended] at given
      cases given
      exact ⟨_, running, fun other member => List.mem_cons_of_mem report member⟩
  · intro idle
    rw [running] at idle
    cases idle

/-! ### Events of the link -/

theorem continueStream_proceeds (orderly : node.Orderly) (id : Option String) :
    node.Proceeds [] (node.continueStream id) := by
  have goesOn (serves : node.coordinator.Serves) :
      (node.coordinator.changeBacklog (·.activate)).backlog = node.coordinator.backlog := by
    obtain ⟨ring, held⟩ := Option.isSome_iff_exists.mp (orderly.coordinator.recorded serves)
    have active := (orderly.coordinator.ready ring held).active
    simp only [Coordinator.changeBacklog, Coordinator.backlogOrNew, held, Option.getD_some,
      Stream.Backlog.activate, ← active]
  have same : node.Proceeds []
      { node with
        coordinator := node.coordinator.changeBacklog (·.activate)
        role := node.role.setState node.clock.elapsed .connected } := by
    refine .of_tells (fun serves _ => Silent.tells ?_) rfl (fun waits => waits) rfl
    exact ⟨rfl, rfl, rfl, rfl, rfl, goesOn serves, .inr rfl⟩
  rcases node.continueStream_cases id with ⟨_, goes⟩ | ⟨name, _, _, goes⟩ <;> rw [goes]
  · exact same
  · apply Proceeds.of_lost
    · exact Steady.not_serves_dropAll
        (node.coordinator.shiftIdentity name node.coordinator.offset) node.clients
    · rfl

theorem not_serves_dropReplicas (node : Node) : ¬node.dropReplicas.coordinator.Serves := by
  rintro ⟨other, replica, found⟩
  exact Steady.not_serves_dropAll node.coordinator node.clients ⟨other, replica, found⟩

theorem reconnect_calm (sound : node.Sound) : node.Calm { node with role := node.role.reconnect } := by
  refine ⟨rfl, sound, rfl, ?_, ?_, .refl _, rfl⟩
  · simp only [Link.Role.reconnect]
    split <;> rfl
  · simp only [Link.Role.reconnect]
    split <;> rfl

/-- Who is given the data of a leader anew has no replicas any more. -/
theorem applyFullSync_proceeds (sound : node.Sound) (id : String) (offset : Int)
    (payload : Bytes) : node.Proceeds [] (node.applyFullSync id offset payload) := by
  rcases node.applyFullSync_cases id offset payload with ⟨_, same⟩ | ⟨_, partitions, _, same⟩
  · rw [same]
    exact .of_calm (reconnect_calm sound)
  · rw [same]
    exact .of_lost (fun serves => not_serves_dropReplicas _ serves) rfl

/-- What a node with a leader proceeds to when its link reports something. -/
theorem takeLinkEvent_proceeds (reachable : node.Reachable) (bounded : node.Bounded)
    (least : 0 ≤ node.coordinator.offset) {epoch : Nat} {event : Link.LinkEvent}
    (accepts : node.role.accepts epoch = true)
    (passed : node.following = true → ∀ arguments raw, event = .command arguments raw →
      Piece.Framed ⟨arguments, raw⟩ ∧ ¬Command.Turns arguments)
    (range : node.coordinator.offset + (Piece.bytes (node.added (.link epoch event))).length <
      Stream.Backlog.endOfOffsets) :
    node.Proceeds (node.added (.link epoch event)) (node.takeLinkEvent event) := by
  have sound := reachable.sound
  have follows : node.following = true :=
    Link.Role.leader_of_accepts reachable.orderly.idle accepts
  cases event with
  | fullSync id offset payload => exact applyFullSync_proceeds sound id offset payload
  | continued id => exact continueStream_proceeds reachable.orderly id
  | state | heartbeat => exact .of_calm ⟨rfl, sound, rfl, rfl, rfl, .refl _, rfl⟩
  | failed reason => exact .of_calm (reconnect_calm sound)
  | command arguments raw =>
      simp only [added, accepts, Bool.true_and] at range ⊢
      by_cases connected : node.role.state = .connected
      · have linked : node.role.connected = true := by simp [Link.Role.connected, connected]
        obtain ⟨framed, stays⟩ := passed follows arguments raw rfl
        rw [if_pos linked] at range ⊢
        have one : Piece.bytes [⟨arguments, raw⟩] = raw := by simp
        rw [one] at range
        exact @follow_proceeds node reachable bounded least follows connected ⟨arguments, raw⟩
          framed stays range
      · have unlinked : node.role.connected = false := by simp [Link.Role.connected, connected]
        rw [if_neg (by simp [unlinked]), takeLinkEvent, follow_apart connected]
        exact .of_calm ⟨rfl, sound, rfl, rfl, rfl, .refl _, rfl⟩

end Node
end ReplicaStore
