import ReplicaStore.Node.Events

/-!
# What the parts of a step come to

A part of a step changes a node in one of a few ways, and for each part one lemma says in which
and when.  What all steps keep is shown from these lemmas, with one case for each way.
-/

namespace ReplicaStore.Node

variable {node later : Node}

/-! ### Snapshots -/

theorem beginSnapshot?_inv (begun : node.beginSnapshot? = some later) :
    node.partitions.status = .normal ∧
      later = { node with
        partitions := node.partitions.freeze
        coordinator := node.coordinator.snapshotStarted
        writing := some (node.storage.reports node.partitions.freeze.views node.clock.wall) } := by
  simp only [beginSnapshot?] at begun
  split at begun
  · next normal =>
      cases begun
      exact ⟨normal, rfl⟩
  · cases begun

/-- Who needs a snapshot has to wait, or waits for one that others wait for or that is begun now. -/
theorem scheduleFullSync_cases (node : Node) :
    node.partitions.status ≠ .normal ∧ node.scheduleFullSync = node ∨
      node.coordinator.hasReplicaIn .awaitingSnapshot = true ∧
        node.partitions.status = .frozen ∧
        node.scheduleFullSync = { node with coordinator := node.coordinator.markAwaiting.2 } ∨
      ∃ begun : Node, node.beginSnapshot? = some begun ∧
        node.scheduleFullSync = { begun with coordinator := begun.coordinator.markAwaiting.2 } := by
  simp only [scheduleFullSync]
  cases status : node.partitions.status with
  | frozen =>
      dsimp only
      split
      · next waits => exact .inr (.inl ⟨waits, rfl, rfl⟩)
      · exact .inl ⟨by decide, rfl⟩
  | normal =>
      have begun : node.beginSnapshot? = some _ := if_pos status
      exact .inr (.inr ⟨_, begun, by rw [begun]⟩)
  | moving | stopped => exact .inl ⟨by decide, rfl⟩

/-- Saving at once is refused while another snapshot is in the way, and otherwise merges all
partitions, whether or not the snapshot can be stored. -/
theorem save_cases (node : Node) :
    (node.partitions.status = .frozen ∨ node.partitions.status = .stopped) ∧ node.save.2 = node ∨
      (node.partitions.status = .normal ∨ node.partitions.status = .moving) ∧
        ∃ (lastSave : Int) (storage : Storage),
          node.save.2 = { node with partitions := node.partitions.stop.resume, lastSave, storage } := by
  simp only [save]
  cases node.partitions.status with
  | normal | moving =>
      refine .inr ⟨by decide, ?_⟩
      dsimp only
      split <;> exact ⟨_, _, rfl⟩
  | frozen | stopped => exact .inl ⟨by decide, rfl⟩

theorem save_inv {payload : Bytes} (saved : node.save.1 = .ok payload) :
    (node.partitions.status = .normal ∨ node.partitions.status = .moving) ∧
      payload = Snapshot.image node.partitions.stop.views node.clock.wall := by
  simp only [save] at saved
  cases status : node.partitions.status with
  | normal | moving =>
      simp only [status] at saved
      split at saved
      · cases saved
        exact ⟨by decide, rfl⟩
      · cases saved
  | frozen | stopped =>
      simp only [status] at saved
      cases saved

/-- A replica is taken up where it is, or has to get a snapshot first. -/
theorem synchronise_cases (id : ClientId) (history : String) (offset : Int) (node : Node) :
    (∃ tail, (node.coordinator.remove id).missed? history offset = some tail ∧
      Command.synchronise id history offset node =
        { node with
          coordinator := (node.coordinator.remove id).register node.clients node.clock.elapsed id
            .online offset
          clients := node.clients.send id
            (Stream.Coordinator.continueReply node.coordinator.identity.current tail) }) ∨
      (node.coordinator.remove id).missed? history offset = none ∧
        Command.synchronise id history offset node =
          { node with
            coordinator := (node.coordinator.remove id).beginFullResync node.clients
              node.clock.elapsed id offset }.scheduleFullSync := by
  simp only [Command.synchronise, Stream.Coordinator.partialResync?]
  cases missed : (node.coordinator.remove id).missed? history offset with
  | some tail => exact .inl ⟨tail, rfl, rfl⟩
  | none => exact .inr ⟨rfl, rfl⟩

/-! ### Commands -/

/-- A client's command on its way to being run. -/
def issued (node : Node) (id : ClientId) (client : Client) : Context where
  node := { node with coordinator := node.coordinator.touch node.clock.elapsed id }
  session := { source := .client id, database := client.database }

/-- What is sent by nobody is passed over, and what is no command is refused.  A command is run. -/
theorem serve_cases (node : Node) (id : ClientId) (value : Wire.Value) :
    node.clients[id]? = none ∧ node.serve id value = node ∨
      ∃ client, node.clients[id]? = some client ∧
        ((value.arguments? = none ∧
            ∃ clients, node.serve id value = { (node.issued id client).node with clients }) ∨
          ∃ arguments, value.arguments? = some arguments ∧
            ∃ clients, node.serve id value =
              { (Command.dispatch (node.issued id client) arguments).2.node with clients }) := by
  have answered (node : Node) (reply : Reply) :
      ∃ clients, node.answer id reply = { node with clients } := by
    rw [answer]
    split <;> exact ⟨_, rfl⟩
  cases found : node.clients[id]? with
  | none => exact .inl ⟨rfl, by simp only [serve, found]⟩
  | some client =>
      refine .inr ⟨client, rfl, ?_⟩
      cases given : value.arguments? with
      | none =>
          obtain ⟨clients, same⟩ := answered (node.issued id client).node
            [CommandError.invalidFormat.reply]
          exact .inl ⟨rfl, clients, by simp only [serve, found, given]; exact same⟩
      | some arguments =>
          simp only [serve, found, given]
          obtain ⟨clients, same⟩ := answered _ _
          exact .inr ⟨arguments, rfl, clients, same⟩

/-- A node in the course of running a command of its leader. -/
def listening (node : Node) : Context where
  node := { node with role := node.role.touch node.clock.elapsed }
  session := { source := .leader, database := node.role.database }

/-- What a node comes to when it runs a command that its leader has sent. -/
def hear (node : Node) (arguments : List String) : Context :=
  (Command.dispatch
    { node := { node with role := node.role.touch node.clock.elapsed }
      session := { source := .leader, database := node.role.database } } arguments).2

theorem hear_eq (node : Node) (arguments : List String) :
    node.hear arguments = (Command.dispatch node.listening arguments).2 := rfl

/-- A follower runs a command of its leader and passes it on, as long as it is connected. -/
theorem follow_cases (node : Node) (arguments : List String) (raw : Bytes) :
    node.role.state = .connected ∧
        node.follow arguments raw =
          ({ (node.hear arguments).node with
            role := { (node.hear arguments).node.role with
              database := (node.hear arguments).session.database } } : Node).feed raw none ∨
      node.role.state ≠ .connected ∧ node.follow arguments raw = node.listening.node := by
  by_cases connected : node.role.state = .connected
  · have still : (node.role.touch node.clock.elapsed).connected = true := by
      simp [Link.Role.connected, Link.Role.touch, connected]
    refine .inl ⟨connected, ?_⟩
    simp only [follow, still, if_true]
    rfl
  · have apart : (node.role.touch node.clock.elapsed).connected = false := by
      simpa [Link.Role.connected, Link.Role.touch] using connected
    refine .inr ⟨connected, ?_⟩
    simp only [follow, apart]
    rfl

theorem follow_eq (connected : node.role.state = .connected) (arguments : List String) (raw : Bytes) :
    node.follow arguments raw =
      ({ (node.hear arguments).node with
        role := { (node.hear arguments).node.role with
          database := (node.hear arguments).session.database } } : Node).feed raw none :=
  (node.follow_cases arguments raw).elim And.right fun apart => absurd connected apart.1

theorem follow_apart (apart : node.role.state ≠ .connected) (arguments : List String) (raw : Bytes) :
    node.follow arguments raw = node.listening.node :=
  (node.follow_cases arguments raw).elim (fun connected => absurd connected.1 apart) And.right

/-! ### Merging -/

/-- A merge that is planned is set down among the timers or the tasks. -/
theorem scheduleDrain_eq (node : Node) (index : Nat) :
    ∃ (timers : List Timer) (tasks : List Task),
      node.scheduleDrain index = { node with timers, tasks } := by
  simp only [scheduleDrain, setTimer]
  split <;> exact ⟨_, _, rfl⟩

theorem drain_eq (node : Node) (index : Nat) (picked : List String) :
    ∃ (timers : List Timer) (tasks : List Task),
      node.drain index picked =
        { node with partitions := node.partitions.drain index picked, timers, tasks } := by
  simp only [drain]
  split
  · exact scheduleDrain_eq { node with partitions := node.partitions.drain index picked } index
  · exact ⟨_, _, rfl⟩

theorem partitionWritten_eq (node : Node) (index : Nat) :
    ∃ (timers : List Timer) (tasks : List Task),
      node.partitionWritten index =
        { node with partitions := node.partitions.written index, timers, tasks } := by
  simp only [partitionWritten]
  split
  · exact scheduleDrain_eq { node with partitions := node.partitions.written index } index
  · exact ⟨_, _, rfl⟩

/-! ### The stream of a leader -/

/-- The stream goes on under the same name, or under another one without the replicas. -/
theorem continueStream_cases (node : Node) (id : Option String) :
    (∀ name, id = some name → name = node.coordinator.identity.current) ∧
        node.continueStream id =
          { node with
            coordinator := node.coordinator.changeBacklog (·.activate)
            role := node.role.setState node.clock.elapsed .connected } ∨
      ∃ name : String, id = some name ∧ name ≠ node.coordinator.identity.current ∧
        node.continueStream id =
          { node with
            coordinator := ((node.coordinator.shiftIdentity name node.coordinator.offset).dropAll
              node.clients).1.changeBacklog (·.activate)
            clients := ((node.coordinator.shiftIdentity name node.coordinator.offset).dropAll
              node.clients).2
            role := node.role.setState node.clock.elapsed .connected } := by
  cases id with
  | none => exact .inl ⟨by simp, rfl⟩
  | some name =>
      simp only [continueStream]
      split
      · next same => exact .inl ⟨by simp [same], rfl⟩
      · next other => exact .inr ⟨name, rfl, other, rfl⟩

end ReplicaStore.Node
