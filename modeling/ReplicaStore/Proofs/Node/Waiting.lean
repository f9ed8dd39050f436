import ReplicaStore.Proofs.Node.Chronicle
import ReplicaStore.Proofs.Node.Logging
import ReplicaStore.Proofs.Stream.Waiting

/-!
# Nobody is left waiting

Replicas wait only while a snapshot is being written in the background, and all that time
the history in which it was begun goes on (`Node.Bides`).  When the snapshot is finished,
each of them is sent it or dropped, so that nobody waits any more
(`Node.Reachable.waiting_served`).
-/

namespace ReplicaStore

open ReplicaStore.Stream (Backlog Coordinator)
open ReplicaStore.Stream.Coordinator (Continues Steady)

namespace Node

variable {node before between after begun later : Node}

/-- A writer that is running stays the same one, and whoever waits for its snapshot sees the
history go on.  If nobody waited before, a snapshot has been begun. -/
structure Bides (before after : Node) : Prop where
  running : ∀ reports, before.writing = some reports →
    ∃ spoken left, reports = spoken ++ left ∧ after.writing = some left
  awaits : after.coordinator.Awaits →
    before.coordinator.Awaits ∧ before.coordinator.Continues after.coordinator ∨
      before.writing = none ∧ after.writing.isSome = true ∧
        ∃ ring writes, after.coordinator.Holds ring writes

namespace Bides

/-- Nothing is heard of the writer, and the history goes on. -/
theorem of_continues (continues : before.coordinator.Continues after.coordinator)
    (writing : after.writing = before.writing) : before.Bides after where
  running := fun reports running => ⟨[], reports, rfl, writing.trans running⟩
  awaits := fun waits => .inl ⟨continues.awaits waits, continues⟩

theorem of_steady (steady : Steady before.coordinator after.coordinator)
    (writing : after.writing = before.writing) : before.Bides after :=
  .of_continues (.of_steady steady) writing

theorem refl (node : Node) : node.Bides node :=
  .of_steady (.refl _) rfl

/-- Nobody is left to wait. -/
theorem of_lost (lost : ¬after.coordinator.Awaits) (writing : after.writing = before.writing) :
    before.Bides after where
  running := fun reports running => ⟨[], reports, rfl, writing.trans running⟩
  awaits := fun waits => absurd waits lost

theorem writes (bides : before.Bides after) (running : before.writing.isSome = true) :
    after.writing.isSome = true := by
  obtain ⟨reports, given⟩ := Option.isSome_iff_exists.mp running
  obtain ⟨_, left, _, still⟩ := bides.running reports given
  simp [still]

theorem trans (first : before.Bides between) (second : between.Bides after) :
    before.Bides after where
  running := by
    intro reports running
    obtain ⟨spoken, left, rfl, still⟩ := first.running reports running
    obtain ⟨more, rest, rfl, last⟩ := second.running left still
    exact ⟨spoken ++ more, rest, by rw [List.append_assoc], last⟩
  awaits := by
    intro waits
    rcases second.awaits waits with ⟨waited, goes⟩ | ⟨idle, running, holds⟩
    · rcases first.awaits waited with ⟨earlier, went⟩ | ⟨idle, running, ring, writes, holds⟩
      · exact .inl ⟨earlier, went.trans goes⟩
      · obtain ⟨more, held⟩ := holds.continues goes
        exact .inr ⟨idle, second.writes running, ring, writes ++ more, held⟩
    · refine .inr ⟨?_, running, holds⟩
      cases earlier : before.writing with
      | none => rfl
      | some reports =>
          have still := first.writes (by simp [earlier])
          simp [idle] at still

end Bides

/-! ### Deeds -/

theorem bides_beginSnapshot (lifecycle : node.Lifecycle) (orderly : node.Orderly)
    (begun : node.beginSnapshot? = some later) : node.Bides later := by
  obtain ⟨normal, rfl⟩ := beginSnapshot?_inv begun
  have idle : node.writing = none := lifecycle.idle (by simp [normal])
  refine ⟨fun reports running => by simp [idle] at running, fun waits => .inr ⟨idle, rfl, ?_⟩⟩
  have serves : node.coordinator.Serves := Coordinator.serves_of_awaits waits
  obtain ⟨ring, recorded⟩ := Option.isSome_iff_exists.mp (orderly.coordinator.recorded serves)
  exact ⟨ring, [], .begun orderly.coordinator recorded⟩

/-- Whoever needs a snapshot comes to wait for one that others wait for, or for one that is
begun now. -/
theorem bides_scheduleFullSync (lifecycle : node.Lifecycle) (orderly : node.Orderly) :
    node.Bides node.scheduleFullSync := by
  rcases node.scheduleFullSync_cases with ⟨_, same⟩ | ⟨waits, _, same⟩ | ⟨begun, begins, same⟩ <;>
    rw [same]
  · exact .refl node
  · exact .of_continues (.markAwaiting (Coordinator.awaits_iff.mpr waits)) rfl
  · obtain ⟨normal, rfl⟩ := beginSnapshot?_inv begins
    have idle : node.writing = none := lifecycle.idle (by simp [normal])
    refine ⟨fun reports running => by simp [idle] at running,
      fun waits => .inr ⟨idle, rfl, ?_⟩⟩
    have serves := Coordinator.serves_of_markAwaiting (Coordinator.serves_of_awaits waits)
    obtain ⟨ring, recorded⟩ :=
      Option.isSome_iff_exists.mp (orderly.coordinator.recorded serves)
    have holds := Coordinator.Holds.begun orderly.coordinator recorded
    exact ⟨ring, [], holds.backlog, holds.place, holds.ready⟩

theorem bides_synchronise (lifecycle : node.Lifecycle) (orderly : node.Orderly) (id : ClientId)
    (history : String) (offset : Int) :
    node.Bides (Command.synchronise id history offset node) := by
  have remove := Steady.remove node.coordinator id
  have removed := orderly.coordinator.steady remove
  rcases synchronise_cases id history offset node with ⟨_, _, same⟩ | ⟨_, same⟩ <;> rw [same]
  · exact .of_continues ((Continues.of_steady remove).trans (.register _ _ _ _ (by decide) _)) rfl
  · refine Bides.trans ?_ (bides_scheduleFullSync (lifecycle.congr rfl rfl rfl fun _ drains => drains)
      ⟨removed.beginFullResync .., orderly.clients, orderly.idle⟩)
    cases recorded : (node.coordinator.remove id).backlog with
    | some ring =>
        simp only [Coordinator.beginFullResync, recorded]
        exact .of_continues ((Continues.of_steady remove).trans (.register _ _ _ _ (by decide) _)) rfl
    | none =>
        refine .of_lost (fun waits => ?_) rfl
        have waited := Coordinator.awaits_beginFullResync waits
        have some := removed.recorded (Coordinator.serves_of_awaits waited)
        simp [recorded] at some

/-- Whatever a command is made of, whoever waits sees the history go on. -/
theorem bides_deed (lifecycle : node.Lifecycle) (orderly : node.Orderly) (deed : Deed) :
    node.Bides (deed.apply node) := by
  cases deed with
  | save =>
      obtain ⟨_, _, coordinator, writing⟩ := node.save_frame
      exact .of_steady (coordinator ▸ .refl _) writing
  | beginSnapshot =>
      simp only [Deed.apply]
      cases begun : node.beginSnapshot? with
      | none => exact .refl node
      | some later => exact bides_beginSnapshot lifecycle orderly begun
  | acknowledge id offset => exact .of_steady (.acknowledge ..) rfl
  | synchronise id history offset => exact bides_synchronise lifecycle orderly id history offset
  | promote =>
      simp only [Deed.apply, Command.promote]
      split
      · exact .of_lost (fun waits =>
          not_serves_dropReplicas _ (Coordinator.serves_of_awaits waits)) rfl
      · exact .refl node
  | follow host port =>
      exact .of_lost (fun waits =>
        not_serves_dropReplicas _ (Coordinator.serves_of_awaits waits)) rfl
  | feed data database => exact .of_continues (.feed ..) rfl
  | edit | flush | publish | subscription | listeningPort | close | answerLeader =>
      exact .of_steady (.refl _) rfl

theorem Lifecycle.bides (lifecycle : node.Lifecycle) (orderly : node.Orderly)
    (becomes : node.Becomes Deed.IsOrdinary later) : node.Bides later := by
  have all : (later.Lifecycle ∧ later.Orderly) ∧ node.Bides later :=
    @Becomes.keeps _ _ _ (fun later => (later.Lifecycle ∧ later.Orderly) ∧ node.Bides later)
      becomes (fun deed _ ordinary held =>
        ⟨⟨held.1.1.deed deed ordinary, held.1.2.deed deed⟩,
          held.2.trans (bides_deed held.1.1 held.1.2 deed)⟩)
      ⟨⟨lifecycle, orderly⟩, .refl node⟩
  exact all.2

/-! ### Events -/

theorem serve_bides (lifecycle : node.Lifecycle) (orderly : node.Orderly) (id : ClientId)
    (value : Wire.Value) : node.Bides (node.serve id value) := by
  have issued (client : Client) : node.Bides (node.issued id client).node :=
    .of_steady (.touch ..) rfl
  have cycle (client : Client) : (node.issued id client).node.Lifecycle :=
    lifecycle.congr rfl rfl rfl fun _ drains => drains
  rcases node.serve_cases id value with
    ⟨_, same⟩ | ⟨client, _, ⟨_, _, same⟩ | ⟨arguments, _, _, same⟩⟩ <;> rw [same]
  · exact .refl node
  · exact .of_steady (.touch ..) rfl
  · have ran := (cycle client).bides (orderly.congr (.touch ..) (.refl _) rfl rfl)
      (Command.dispatch_ordinary (node.issued id client) arguments)
    exact ((issued client).trans ran).trans (.of_steady (.refl _) rfl)

theorem writing_applyFullSync (node : Node) (id : String) (offset : Int) (payload : Bytes) :
    (node.applyFullSync id offset payload).writing = node.writing := by
  rcases node.applyFullSync_cases id offset payload with ⟨_, same⟩ | ⟨_, partitions, _, same⟩
  · rw [same]
  · rw [same]
    rfl

theorem applyFullSync_bides (node : Node) (id : String) (offset : Int) (payload : Bytes) :
    node.Bides (node.applyFullSync id offset payload) := by
  rcases node.applyFullSync_cases id offset payload with ⟨_, same⟩ | ⟨_, partitions, _, same⟩
  · rw [same]
    exact .of_steady (.refl _) rfl
  · rw [same]
    exact .of_lost (fun waits => not_serves_dropReplicas _ (Coordinator.serves_of_awaits waits)) rfl

theorem continueStream_bides (orderly : node.Orderly) (id : Option String) :
    node.Bides (node.continueStream id) := by
  have activated : node.Bides { node with
      coordinator := node.coordinator.changeBacklog (·.activate)
      role := node.role.setState node.clock.elapsed .connected } := by
    cases recorded : node.coordinator.backlog with
    | some ring =>
        have active := (orderly.coordinator.ready ring recorded).active
        exact .of_steady (by
          rw [Coordinator.changeBacklog_activate recorded active]
          exact .refl _) rfl
    | none =>
        refine .of_lost (fun waits => ?_) rfl
        have serves : node.coordinator.Serves := Coordinator.serves_of_awaits waits
        have some := orderly.coordinator.recorded serves
        simp [recorded] at some
  rcases node.continueStream_cases id with ⟨_, same⟩ | ⟨name, _, _, same⟩ <;> rw [same]
  · exact activated
  · refine .of_lost (fun waits => ?_) rfl
    obtain ⟨other, replica, found⟩ := Coordinator.serves_of_awaits waits
    exact Steady.not_serves_dropAll
      (node.coordinator.shiftIdentity name node.coordinator.offset) node.clients
      ⟨other, replica, found⟩

theorem follow_bides (lifecycle : node.Lifecycle) (orderly : node.Orderly)
    (arguments : List String) (raw : Bytes) :
    node.Bides (node.follow arguments raw) := by
  have listening : node.Bides node.listening.node := .of_steady (.refl _) rfl
  have cycle : node.listening.node.Lifecycle :=
    lifecycle.congr rfl rfl rfl fun _ drains => drains
  rcases node.follow_cases arguments raw with ⟨_, same⟩ | ⟨_, same⟩ <;> rw [same]
  · have heard := cycle.bides ⟨orderly.coordinator, orderly.clients, orderly.idle⟩
      (Command.dispatch_ordinary node.listening arguments)
    exact (listening.trans heard).trans (.of_continues (.feed ..) rfl)
  · exact listening

theorem takeLinkEvent_bides (lifecycle : node.Lifecycle) (orderly : node.Orderly)
    (event : Link.LinkEvent) : node.Bides (node.takeLinkEvent event) := by
  cases event with
  | fullSync id offset payload => exact node.applyFullSync_bides id offset payload
  | continued id => exact continueStream_bides orderly id
  | command arguments raw => exact follow_bides lifecycle orderly arguments raw
  | state | heartbeat | failed => exact .of_steady (.refl _) rfl

theorem maintain_bides (node : Node) : node.Bides node.maintain := by
  obtain ⟨_, _, writing, _⟩ := node.maintain_frame
  have continues := Continues.maintain node.coordinator node.clients node.clock.elapsed node.periods
  rw [← node.maintain_coordinates.1] at continues
  rcases continues with lost | goes
  · exact .of_lost lost writing
  · exact .of_continues goes writing

/-- When the writer is done nobody waits any more. -/
theorem not_awaits_finished {result : Except Snapshot.SnapshotError Bytes} {reports : List Report}
    (last : node.writing = some (.finished result :: reports))
    (happened : node.next? .report = some later) : ¬later.coordinator.Awaits := by
  obtain ⟨report, _, writing, storage, running, rfl, _⟩ := next?_report happened
  cases last.symm.trans running
  cases result with
  | ok payload =>
      exact (node.coordinator.finishFullSync_steady node.clients node.clock.elapsed payload).2
  | error error => exact (node.coordinator.failFullSync_steady node.clients).2

/-- The writer is done with a report, and nobody waits any more, or it goes on. -/
theorem report_bides (happened : node.next? .report = some later) :
    later.writing = none ∧ ¬later.coordinator.Awaits ∨ node.Bides later := by
  obtain ⟨report, reports, writing, storage, running, same, left⟩ := next?_report happened
  obtain ⟨_, _, kept, steady⟩ := takeReport_frame { node with writing, storage } report
  rcases left with ⟨⟨result, rfl⟩, rfl⟩ | rfl
  · refine .inl ⟨?_, not_awaits_finished running happened⟩
    rw [same]
    exact kept
  · refine .inr ?_
    rw [same]
    refine ⟨?_, fun waits => .inl ⟨steady.awaits waits, .of_steady steady⟩⟩
    intro all given
    cases given.symm.trans running
    exact ⟨[report], reports, rfl, kept⟩

/-- Whatever happens to a node, its writer is done and nobody waits, or whoever waits sees the
history go on. -/
theorem next_bides {happening : Happening} (lifecycle : node.Lifecycle) (orderly : node.Orderly)
    (happened : node.next? happening = some later) :
    later.writing = none ∧ ¬later.coordinator.Awaits ∨ node.Bides later := by
  cases happening with
  | command id value =>
      cases happened
      exact .inr (serve_bides lifecycle orderly id value)
  | upkeep =>
      cases happened
      exact .inr node.maintain_bides
  | link epoch event =>
      cases happened
      refine .inr ?_
      simp only [handle]
      split
      · exact takeLinkEvent_bides lifecycle orderly event
      · exact .refl node
  | task position picked =>
      simp only [next?, Option.map_eq_some_iff] at happened
      obtain ⟨task, found, rfl⟩ := happened
      have rest : node.Bides { node with tasks := node.tasks.eraseIdx position } :=
        .of_steady (.refl _) rfl
      refine .inr ?_
      cases task with
      | beginSnapshot =>
          simp only [Task.event, handle]
          split
          · exact rest.trans (bides_scheduleFullSync (lifecycle.eraseIdx found)
              ⟨orderly.coordinator, orderly.clients, orderly.idle⟩)
          · exact rest
      | drain index =>
          obtain ⟨timers, tasks, drained⟩ :=
            drain_eq { node with tasks := node.tasks.eraseIdx position } index picked
          simp only [Task.event, handle, drained]
          exact .of_steady (.refl _) rfl
  | report => exact report_bides happened
  | disconnected id =>
      cases happened
      exact .inr (.of_steady (.remove ..) rfl)
  | connected | advance | setWall | setStorage | refuse | hangUp | deliver | deliverToLeader =>
      cases happened
      exact .inr (.of_steady (.refl _) rfl)

/-! ### While a snapshot is being written -/

/-- Whoever waits does so for a snapshot that is being written, and which was begun at a place
in the stream that is recorded. -/
def Patient (node : Node) : Prop :=
  node.coordinator.Awaits →
    node.writing.isSome = true ∧ ∃ ring writes, node.coordinator.Holds ring writes

theorem Bides.patient (bides : before.Bides after) (patient : before.Patient) : after.Patient := by
  intro waits
  rcases bides.awaits waits with ⟨waited, goes⟩ | ⟨_, running, holds⟩
  · obtain ⟨running, ring, writes, held⟩ := patient waited
    obtain ⟨more, holds⟩ := held.continues goes
    exact ⟨bides.writes running, ring, writes ++ more, holds⟩
  · exact ⟨running, holds⟩

theorem Reachable.patient (reachable : node.Reachable) : node.Patient := by
  induction reachable with
  | start port started =>
      intro waits
      have serves := Coordinator.serves_of_awaits waits
      have some := (orderly_start started).coordinator.recorded serves
      simp [unrecorded_start started] at some
  | next happening reachable happened ih =>
      rcases next_bides reachable.lifecycle reachable.orderly happened with ⟨_, nobody⟩ | bides
      · exact fun waits => absurd waits nobody
      · exact bides.patient ih

/-- The snapshot that was being written in a node is still being written. -/
inductive Underway (begun : Node) : Node → Prop
  | start (running : begun.writing.isSome = true) : begun.Underway begun
  | next {node later : Node} (happening : Happening) (underway : begun.Underway node)
      (happened : node.next? happening = some later) (running : later.writing.isSome = true) :
      begun.Underway later

theorem Underway.reachable (underway : begun.Underway node) (reachable : begun.Reachable) :
    node.Reachable := by
  induction underway with
  | start => exact reachable
  | next happening _ happened _ ih => exact ih.next happening happened

theorem Underway.running (underway : begun.Underway node) : begun.writing.isSome = true := by
  induction underway with
  | start running => exact running
  | next _ _ _ _ ih => exact ih

/-- As long as a snapshot is being written, whoever waits sees the history go on. -/
theorem Underway.bides (underway : begun.Underway node) (reachable : begun.Reachable) :
    begun.Bides node := by
  induction underway with
  | start => exact .refl begun
  | next happening underway happened running ih =>
      have there := underway.reachable reachable
      rcases next_bides there.lifecycle there.orderly happened with ⟨idle, _⟩ | bides
      · simp [idle] at running
      · exact ih.trans bides

/-- Nothing is written in a node that has just been started. -/
theorem idle_start {settings : Settings} {supply : Stream.IdSupply} {clock : Clock}
    {found : Except Snapshot.SnapshotError (Option Bytes)} {server : Server}
    (started : Server.start settings supply clock found = .ok server) :
    server.node.writing = none := by
  obtain ⟨partitions, storage, role, _, same⟩ := start_new started
  rw [same]
  rfl

/-- A snapshot that is being written was begun in some step. -/
theorem Reachable.underway (reachable : node.Reachable) (running : node.writing.isSome = true) :
    ∃ (before : Node) (happening : Happening) (begun : Node),
      before.Reachable ∧ before.writing = none ∧ before.next? happening = some begun ∧
      begun.Underway node := by
  induction reachable with
  | start port started => simp [idle_start started] at running
  | @next before later happening reachable happened ih =>
      cases earlier : before.writing with
      | none => exact ⟨before, happening, later, reachable, earlier, happened, .start running⟩
      | some reports =>
          obtain ⟨first, begins, begun, there, idle, began, underway⟩ := ih (by simp [earlier])
          exact ⟨first, begins, begun, there, idle, began, .next happening underway happened running⟩

/-! ### The end of a snapshot -/

/-- What becomes of a replica that has waited when the writer is done. -/
inductive Concludes (node : Node) (id : ClientId) (later : Node) :
    Except Snapshot.SnapshotError Bytes → Prop
  /-- It is sent the snapshot, and the stream from the place at which that was begun. -/
  | served {ring : Backlog} {payload tail : Bytes} (recorded : node.coordinator.backlog = some ring)
      (read : ring.read node.coordinator.snapshotOffset = .ok tail)
      (state : later.coordinator.stateOf id =
        some (if node.clients.reaches id then .online else .sendingSnapshot))
      (sent : later.clients.pending id = node.clients.pending id ++
        if node.clients.reaches id then
          [.data (Coordinator.fullReply node.coordinator.identity.current
            node.coordinator.snapshotOffset payload tail)]
        else []) : Concludes node id later (.ok payload)
  /-- The stream has been overwritten there. -/
  | overwritten {ring : Backlog} {payload : Bytes} {error : Stream.BacklogError}
      (recorded : node.coordinator.backlog = some ring)
      (lost : ring.read node.coordinator.snapshotOffset = .error error)
      (removed : later.coordinator.stateOf id = none)
      (closed : later.clients.pending id =
        node.clients.pending id ++ if node.clients.reaches id then [.close] else []) :
      Concludes node id later (.ok payload)
  | failed {error : Snapshot.SnapshotError} (removed : later.coordinator.stateOf id = none)
      (closed : later.clients.pending id =
        node.clients.pending id ++ if node.clients.reaches id then [.close] else []) :
      Concludes node id later (.error error)

theorem concludes {result : Except Snapshot.SnapshotError Bytes} {reports : List Report}
    {id : ClientId} (orderly : node.Orderly)
    (last : node.writing = some (.finished result :: reports))
    (happened : node.next? .report = some later)
    (waits : node.coordinator.stateOf id = some .awaitingSnapshot) :
    node.Concludes id later result := by
  obtain ⟨report, _, writing, storage, running, rfl, _⟩ := next?_report happened
  cases last.symm.trans running
  cases result with
  | error error =>
      obtain ⟨removed, closed⟩ := @Coordinator.failFullSync_dropped node.clients id _ waits
      exact .failed removed closed
  | ok payload =>
      have serves : node.coordinator.Serves := by
        obtain ⟨replica, found, _⟩ := Option.map_eq_some_iff.mp waits
        exact ⟨id, replica, found⟩
      obtain ⟨ring, recorded⟩ := Option.isSome_iff_exists.mp (orderly.coordinator.recorded serves)
      cases read : ring.read node.coordinator.snapshotOffset with
      | ok tail =>
          obtain ⟨state, sent⟩ := @Coordinator.finishFullSync_served node.clients id
            node.clock.elapsed payload tail _ ring waits recorded read
          exact .served recorded read state sent
      | error error =>
          obtain ⟨removed, closed⟩ := @Coordinator.finishFullSync_dropped node.clients id
            node.clock.elapsed payload _ ring waits recorded error read
          exact .overwritten recorded read removed closed

/-- Replicas wait only while a snapshot is being written, which was begun in some step, and
since then neither the identity nor the backlog has been replaced: it has been written
further from the place of the snapshot on.  What was written since is there as a whole, or
there is more of it than the ring has room for.  When the writer is done nobody waits any
more: each of those who did has been sent the snapshot or was dropped. -/
theorem Reachable.waiting_served (reachable : node.Reachable) :
    (node.coordinator.Awaits →
      node.partitions.status = .frozen ∧
      (∃ (before : Node) (happening : Happening) (begun : Node),
        before.Reachable ∧ before.writing = none ∧ before.next? happening = some begun ∧
        begun.Underway node) ∧
      ∃ ring writes, node.coordinator.Holds ring writes ∧
        (0 ≤ ring.writeOffset →
          ring.writeOffset + (List.flatten writes).length < Backlog.endOfOffsets →
          (ring.writeAll writes).read node.coordinator.snapshotOffset =
            if (List.flatten writes).length ≤ ring.capacity then .ok (List.flatten writes)
            else .error (.dataLoss node.coordinator.snapshotOffset))) ∧
    (∀ begun : Node, begun.Reachable → begun.Underway node → node.coordinator.Awaits →
      node.coordinator.identity = begun.coordinator.identity ∧
      node.coordinator.backlog.map (·.startOffset) = begun.coordinator.backlog.map (·.startOffset) ∧
      node.coordinator.snapshotOffset = begun.coordinator.snapshotOffset) ∧
    ∀ result reports later, node.writing = some (.finished result :: reports) →
      node.next? .report = some later →
      ¬later.coordinator.Awaits ∧
      ∀ id, node.coordinator.stateOf id = some .awaitingSnapshot →
        node.Concludes id later result := by
  refine ⟨fun waits => ?_, fun begun there underway waits => ?_,
    fun result reports later last happened => ⟨?_, fun id waits => ?_⟩⟩
  · obtain ⟨running, ring, writes, holds⟩ := reachable.patient waits
    refine ⟨reachable.lifecycle.writing.mpr running, reachable.underway running, ring, writes,
      holds, fun least range => ?_⟩
    rw [← holds.place]
    exact Backlog.read_writeAll holds.ready least range
  · have running := underway.running
    rcases (underway.bides there).awaits waits with ⟨_, goes⟩ | ⟨idle, _⟩
    · exact ⟨goes.identity, goes.startOffset, goes.snapshotOffset⟩
    · simp [idle] at running
  · exact not_awaits_finished last happened
  · exact concludes reachable.orderly last happened waits

/-- A client asks to be made a replica, and is online once the snapshot is finished. -/
theorem waiting_served_psync :
    ∃ node later : Node, node.Reachable ∧ node.coordinator.Awaits ∧
      node.partitions.status = .frozen ∧ node.next? .report = some later ∧
      ¬later.coordinator.Awaits ∧ later.coordinator.stateOf 1 = some .online := by
  have reachable := small_reachable.run [.runs 1 ["PSYNC", "?", "-1"], .report]
  have state : (small.run [.runs 1 ["PSYNC", "?", "-1"], .report]).coordinator.stateOf 1 =
      some .awaitingSnapshot := by decide +kernel
  obtain ⟨replica, found, waiting⟩ := Option.map_eq_some_iff.mp state
  have waits : (small.run [.runs 1 ["PSYNC", "?", "-1"], .report]).coordinator.Awaits :=
    ⟨1, replica, found, waiting⟩
  obtain ⟨frozen, _, finish⟩ := Reachable.waiting_served reachable
  refine ⟨_, _, reachable, waits, (frozen waits).1, rfl, (finish _ _ _ rfl rfl).1, ?_⟩
  decide +kernel

end Node
end ReplicaStore
