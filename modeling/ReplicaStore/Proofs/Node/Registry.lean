import ReplicaStore.Proofs.Node.Passage

/-!
# The registry of a node

Who listens to a channel is noted twice, with the channel and with the client, and replicas are
clients that the coordinator has noted once more.  `Node.Registered` says that these books
agree.  Whatever happens keeps them so, provided that no connection is given the number of
another one that is still there (`Node.Registered.next`).  `Node.Numbered` are the runs in which
no number is given twice.
-/

namespace ReplicaStore

open ReplicaStore.Stream (Coordinator)

namespace Channels

/-- No channel is without listeners. -/
def Inhabited (channels : Channels) : Prop :=
  ∀ (channel : String) (others : Std.ExtTreeSet ClientId),
    channels[channel]? = some others → others ≠ ∅

namespace Inhabited

variable {channels : Channels}

theorem subscribe (inhabited : channels.Inhabited) (name : String) (id : ClientId) :
    (channels.subscribe name id).Inhabited := by
  intro channel others found
  rw [Channels.subscribe, Std.ExtTreeMap.getElem?_insert] at found
  split at found
  · cases found
    exact Std.ExtTreeSet.insert_ne_empty
  · exact inhabited channel others found

theorem unsubscribe (inhabited : channels.Inhabited) (name : String) (id : ClientId) :
    (channels.unsubscribe name id).Inhabited := by
  intro channel others found
  simp only [Channels.unsubscribe] at found
  split at found
  · exact inhabited channel others found
  · split at found
    · rw [Std.ExtTreeMap.getElem?_erase] at found
      split at found
      · cases found
      · exact inhabited channel others found
    · next some =>
        rw [Std.ExtTreeMap.getElem?_insert] at found
        split at found
        · cases found
          exact Std.ExtTreeSet.isEmpty_eq_false_iff.mp (by simpa using some)
        · exact inhabited channel others found

theorem unsubscribeAll (inhabited : channels.Inhabited) (names : List String) (id : ClientId) :
    (channels.unsubscribeAll names id).Inhabited := by
  rw [Channels.unsubscribeAll]
  induction names generalizing channels with
  | nil => exact inhabited
  | cons first names ih => exact ih (inhabited.unsubscribe first id)

end Inhabited

theorem nodup_listeners (channels : Channels) (channel : String) :
    (channels.listeners channel).Nodup := by
  rw [listeners]
  cases channels[channel]? with
  | none => exact List.nodup_nil
  | some others =>
      have distinct := @Std.ExtTreeSet.distinct_toList _ _ others _
      exact distinct.imp fun apart same => apart (by rw [same]; exact Std.ReflCmp.compare_self)

end Channels

/-! ### Who is a replica -/

namespace Stream.Coordinator

variable {coordinator later : Coordinator} {clients : Clients} {id other : ClientId}

theorem Steady.mem_replicas (steady : Steady coordinator later) (member : id ∈ later.replicas) :
    id ∈ coordinator.replicas := by
  rw [Std.ExtTreeMap.mem_iff_isSome_getElem?, Option.isSome_iff_exists] at member ⊢
  obtain ⟨replica, found⟩ := member
  obtain ⟨earlier, there, _⟩ := steady.replicas id replica found
  exact ⟨earlier, there⟩

theorem mem_register {now : Nat} {state : ReplicaState} {offset : Int} :
    id ∈ (coordinator.register clients now other state offset).replicas ↔
      other = id ∨ id ∈ coordinator.replicas := by
  simp [register, Std.ExtTreeMap.mem_insert]

theorem mem_markAwaiting : id ∈ coordinator.markAwaiting.2.replicas ↔ id ∈ coordinator.replicas := by
  simp [markAwaiting]

theorem mem_maintain {now : Nat} {upkeep : Upkeep}
    (member : id ∈ (coordinator.maintain clients now upkeep).2.1.replicas) :
    id ∈ coordinator.replicas := by
  simp only [maintain, replicas_expireBacklog] at member
  have kept := (Steady.dropReplicas ..).mem_replicas member
  rwa [(fed_ping ..).replicas] at kept

end Stream.Coordinator

/-! ### The books -/

namespace Node

variable {node between later : Node} {id : ClientId} {channel : String}

/-- A client that is connected listens to a channel, as far as it knows itself. -/
def Listens (node : Node) (id : ClientId) (channel : String) : Prop :=
  ∃ client : Client, node.clients[id]? = some client ∧ channel ∈ client.subscriptions

/-- The channels, the clients and the replicas of a node agree. -/
structure Registered (node : Node) : Prop where
  listening : ∀ channel id, id ∈ node.channels.listeners channel ↔ node.Listens id channel
  inhabited : node.channels.Inhabited
  present : ∀ id ∈ node.coordinator.replicas, id ∈ node.clients

theorem Listens.connected (listens : node.Listens id channel) : id ∈ node.clients := by
  obtain ⟨client, found, _⟩ := listens
  rw [Std.ExtTreeMap.mem_iff_isSome_getElem?, found]
  rfl

/-- Whoever is not connected is in none of the books. -/
theorem Registered.absent (registered : node.Registered) (gone : id ∉ node.clients) :
    (∀ channel, id ∉ node.channels.listeners channel) ∧ id ∉ node.coordinator.replicas :=
  ⟨fun channel listed => gone ((registered.listening channel id).mp listed).connected,
    fun replica => gone (registered.present id replica)⟩

/-- The same clients are connected, and if the books have agreed they still do. -/
structure Preserves (node later : Node) : Prop where
  clients : ∀ id, id ∈ later.clients ↔ id ∈ node.clients
  registered : node.Registered → later.Registered

namespace Preserves

theorem refl (node : Node) : node.Preserves node :=
  ⟨fun _ => .rfl, id⟩

theorem trans (first : node.Preserves between) (second : between.Preserves later) :
    node.Preserves later :=
  ⟨fun id => (second.clients id).trans (first.clients id),
    fun registered => second.registered (first.registered registered)⟩

/-- Nobody begins or ceases to listen, and only clients become replicas. -/
theorem of_agree (channels : later.channels = node.channels)
    (clients : Clients.Agree (·.subscriptions) node.clients later.clients)
    (replicas : ∀ id ∈ later.coordinator.replicas,
      id ∈ node.coordinator.replicas ∨ id ∈ node.clients) :
    node.Preserves later where
  clients := clients.mem_iff
  registered := by
    intro registered
    refine ⟨fun channel id => ?_, channels ▸ registered.inhabited, fun id replica => ?_⟩
    · have listens (node : Node) : node.Listens id channel ↔
          ∃ subscriptions, node.clients[id]?.map (·.subscriptions) = some subscriptions ∧
            channel ∈ subscriptions := by
        simp only [Listens, Option.map_eq_some_iff]
        exact ⟨fun ⟨client, found, listens⟩ => ⟨_, ⟨client, found, rfl⟩, listens⟩,
          fun ⟨_, ⟨client, found, same⟩, listens⟩ => ⟨client, found, same ▸ listens⟩⟩
      rw [channels, registered.listening, listens, listens, clients.same]
    · rw [clients.mem_iff]
      rcases replicas id replica with before | connected
      · exact registered.present id before
      · exact connected

theorem of_steady (channels : later.channels = node.channels)
    (clients : Clients.Agree (·.subscriptions) node.clients later.clients)
    (steady : Coordinator.Steady node.coordinator later.coordinator) : node.Preserves later :=
  of_agree channels clients fun _ member => .inl (steady.mem_replicas member)

theorem of_same (channels : later.channels = node.channels) (clients : later.clients = node.clients)
    (replicas : later.coordinator.replicas = node.coordinator.replicas) : node.Preserves later :=
  of_agree channels (clients ▸ .refl _) fun _ member => .inl (replicas ▸ member)

/-- What is done before concerns none of the books. -/
theorem since (preserves : between.Preserves later) (channels : between.channels = node.channels)
    (clients : between.clients = node.clients)
    (replicas : between.coordinator.replicas = node.coordinator.replicas) : node.Preserves later :=
  (of_same channels clients replicas).trans preserves

end Preserves

/-- Queueing something is no business of the registry. -/
theorem unqueued (client : Client) (queue : Array Outgoing) :
    ({ client with queue } : Client).subscriptions = client.subscriptions := rfl

theorem preserves_dropReplicas (node : Node) : node.Preserves node.dropReplicas :=
  .of_steady rfl (.closeAll unqueued ..)
    ((Coordinator.Steady.dropReplicas node.coordinator node.clients _).trans
      (.forgetStreamDatabase _))

theorem preserves_feed (node : Node) (data : Bytes) (database : Option Nat) :
    node.Preserves (node.feed data database) :=
  .of_agree rfl (Coordinator.feed_agree unqueued ..) fun _ member =>
    .inl ((Coordinator.fed_feed ..).replicas ▸ member)

theorem preserves_scheduleFullSync (node : Node) : node.Preserves node.scheduleFullSync := by
  have marked (node : Node) :
      node.Preserves { node with coordinator := node.coordinator.markAwaiting.2 } :=
    .of_agree rfl (.refl _) fun _ member => .inl (Coordinator.mem_markAwaiting.mp member)
  rcases node.scheduleFullSync_cases with ⟨_, same⟩ | ⟨_, _, same⟩ | ⟨begun, begins, same⟩ <;> rw [same]
  · exact .refl node
  · exact marked node
  · obtain ⟨_, rfl⟩ := beginSnapshot?_inv begins
    exact (marked _).since rfl rfl rfl

/-- A client is taken up as a replica. -/
theorem preserves_synchronise (connected : id ∈ node.clients) (history : String) (offset : Int) :
    node.Preserves (Command.synchronise id history offset node) := by
  have taken {coordinator : Coordinator}
      (kept : ∀ other ∈ coordinator.replicas,
        id = other ∨ other ∈ (node.coordinator.remove id).replicas) :
      ∀ other ∈ coordinator.replicas, other ∈ node.coordinator.replicas ∨ other ∈ node.clients := by
    intro other member
    rcases kept other member with rfl | before
    · exact .inr connected
    · exact .inl ((Coordinator.Steady.remove node.coordinator id).mem_replicas before)
  rcases synchronise_cases id history offset node with ⟨_, _, same⟩ | ⟨_, same⟩ <;> rw [same]
  · exact .of_agree rfl (.queue unqueued ..) (taken fun _ => Coordinator.mem_register.mp)
  · have enlisted : node.Preserves { node with
        coordinator := (node.coordinator.remove id).beginFullResync node.clients node.clock.elapsed
          id offset } := by
      refine .of_agree rfl (.refl _) (taken fun other member => ?_)
      simp only [Coordinator.beginFullResync, Coordinator.mem_register] at member
      split at member <;> exact member
    exact enlisted.trans (preserves_scheduleFullSync _)

/-- A client begins or ceases to listen to a channel, and both books say so. -/
theorem preserves_changeSubscription (connected : id ∈ node.clients) (name : String) (listen : Bool) :
    node.Preserves (Command.changeSubscription id name listen node) := by
  obtain ⟨client, found⟩ := Option.isSome_iff_exists.mp
    (Std.ExtTreeMap.mem_iff_isSome_getElem?.mp connected)
  have clients (other : ClientId) :
      other ∈ (Command.changeSubscription id name listen node).clients ↔ other ∈ node.clients :=
    Std.ExtTreeMap.mem_modify
  refine ⟨clients, fun registered => ⟨fun channel other => ?_, ?_, ?_⟩⟩
  · have after : (Command.changeSubscription id name listen node).Listens other channel ↔
        if listen then name = channel ∧ other = id ∨ node.Listens other channel
        else node.Listens other channel ∧ ¬(name = channel ∧ other = id) := by
      by_cases same : id = other
      · subst same
        cases listen <;>
          simp [Listens, Command.changeSubscription, found, Std.ExtTreeSet.mem_insert,
            Std.ExtTreeSet.mem_erase, and_comm]
      · have apart : other ≠ id := fun equal => same equal.symm
        cases listen <;>
          simp [Listens, Command.changeSubscription, Std.ExtTreeMap.getElem?_modify, same, apart]
    rw [after, ← registered.listening]
    cases listen
    · exact Channels.mem_listeners_unsubscribe
    · exact Channels.mem_listeners_subscribe
  · cases listen
    · exact registered.inhabited.unsubscribe name id
    · exact registered.inhabited.subscribe name id
  · intro other replica
    exact (clients other).mpr (registered.present other replica)

/-- A deed of a client that is connected. -/
theorem preserves_deed {audience : ClientId → Prop} {source : Source} {deed : Deed}
    (spares : deed.Spares audience source) (connected : ∀ id, ¬audience id → id ∈ node.clients) :
    node.Preserves (deed.apply node) := by
  cases deed with
  | save =>
      rcases node.save_cases with ⟨_, same⟩ | ⟨_, _, _, same⟩ <;> rw [Deed.apply, same]
      · exact .refl node
      · exact .of_same rfl rfl rfl
  | beginSnapshot =>
      simp only [Deed.apply]
      cases begun : node.beginSnapshot? with
      | none => exact .refl node
      | some later =>
          obtain ⟨_, rfl⟩ := beginSnapshot?_inv begun
          exact .of_same rfl rfl rfl
  | publish listeners bytes => exact .of_steady rfl (.sendAll unqueued ..) (.refl _)
  | subscription id channel listen =>
      exact preserves_changeSubscription (connected id spares) channel listen
  | listeningPort id port => exact .of_steady rfl (.modify _ _ fun _ => rfl) (.refl _)
  | close id => exact .of_steady rfl (.queue unqueued ..) (.refl _)
  | acknowledge id offset => exact .of_steady rfl (.refl _) (.acknowledge ..)
  | synchronise id history offset =>
      exact preserves_synchronise (connected id spares.2) history offset
  | promote =>
      simp only [Deed.apply, Command.promote]
      split
      · have alone : node.Preserves { node with
            role := node.role.unfollow
            coordinator := node.coordinator.branchIdentity } :=
          .of_same rfl rfl (by simp only [Coordinator.branchIdentity])
        exact alone.trans (preserves_dropReplicas _)
      · exact .refl node
  | follow host port =>
      have turned : node.Preserves { node with role := node.role.follow host port } :=
        .of_same rfl rfl rfl
      exact turned.trans (preserves_dropReplicas _)
  | edit | flush | answerLeader => exact .of_same rfl rfl rfl
  | feed => exact absurd spares id

/-- Whoever is not connected does not listen. -/
theorem Registered.deaf (registered : node.Registered) : node.Deaf (· ∉ node.clients) :=
  fun channel id listed apart => apart ((registered.listening channel id).mp listed).connected

/-- A command keeps the books in agreement if the client that issues it is connected. -/
theorem preserves_dispatch {context : Context} (registered : context.node.Registered)
    (issuer : ∀ id, context.session.source = .client id → id ∈ context.node.clients)
    (arguments : List String) :
    context.node.Preserves (Command.dispatch context arguments).2.node := by
  have preserves {source : Source} {later : Node}
      (becomes : context.node.Becomes (Deed.Spares (· ∉ context.node.clients) source) later) :
      context.node.Preserves later :=
    becomes.keeps (fun _ between spares preserves => preserves.trans
      (preserves_deed spares fun id apart => (preserves.clients id).mpr (Decidable.not_not.mp apart)))
      (.refl _)
  -- The audience that the command leaves alone are those who are not connected.
  have outside : Command.Outside (· ∉ context.node.clients) context :=
    fun id client apart => apart (issuer id client)
  rcases Command.dispatch_spares registered.deaf outside arguments with
    ⟨becomes, _⟩ | ⟨_, _, form, database, after, _, becomes, _, fed⟩
  · exact preserves becomes
  · rw [fed]
    exact (preserves becomes).trans (preserves_feed ..)

/-! ### Events -/

theorem preserves_answer (node : Node) (id : ClientId) (reply : Reply) :
    node.Preserves (node.answer id reply) := by
  simp only [answer]
  split
  · exact .refl node
  · exact .of_steady rfl (.queue unqueued ..) (.refl _)

theorem preserves_issued (node : Node) (id : ClientId) (client : Client) :
    node.Preserves (node.issued id client).node :=
  .of_steady rfl (.refl _) (.touch ..)

theorem preserves_serve (registered : node.Registered) (id : ClientId) (value : Wire.Value) :
    node.Preserves (node.serve id value) := by
  simp only [serve]
  split
  · exact .refl node
  · next client found =>
      have issued := preserves_issued node id client
      split
      · exact issued.trans (preserves_answer ..)
      · next arguments _ =>
          have connected : id ∈ node.clients := by
            rw [Std.ExtTreeMap.mem_iff_isSome_getElem?, found]
            rfl
          have ran := @preserves_dispatch (node.issued id client) (issued.registered registered)
            (by rintro _ ⟨⟩; exact connected) arguments
          apply Preserves.trans _ (preserves_answer ..)
          exact (issued.trans ran).trans (.of_steady rfl (.modify _ _ fun _ => rfl) (.refl _))

theorem preserves_drain (node : Node) (index : Nat) (picked : List String) :
    node.Preserves (node.drain index picked) := by
  obtain ⟨_, _, same⟩ := node.drain_eq index picked
  rw [same]
  exact .of_same rfl rfl rfl

theorem preserves_maintain (node : Node) : node.Preserves node.maintain := by
  simp only [maintain]
  split <;>
    exact .of_agree rfl (Coordinator.maintain_agree unqueued ..) fun _ member =>
      .inl (Coordinator.mem_maintain member)

theorem preserves_takeReport (node : Node) (report : Report) :
    node.Preserves (node.takeReport report) := by
  cases report with
  | written index =>
      obtain ⟨_, _, same⟩ := node.partitionWritten_eq index
      rw [takeReport, same]
      exact .of_same rfl rfl rfl
  | aborted index => exact .of_same rfl rfl rfl
  | finished result =>
      cases result with
      | ok payload =>
          exact .of_steady rfl (Coordinator.finishFullSync_agree unqueued ..)
            (Coordinator.finishFullSync_steady ..).1
      | error error =>
          exact .of_steady rfl (.closeAll unqueued ..)
            (Coordinator.failFullSync_steady _ node.clients).1

theorem preserves_continueStream (node : Node) (history : Option String) :
    node.Preserves (node.continueStream history) := by
  rcases node.continueStream_cases history with ⟨_, same⟩ | ⟨name, _, _, same⟩ <;> rw [same]
  · exact .of_same rfl rfl rfl
  · exact .of_agree rfl (.closeAll unqueued node.clients _) fun _ member =>
      .inl ((Coordinator.Steady.dropReplicas
        (node.coordinator.shiftIdentity name node.coordinator.offset) node.clients
          _).mem_replicas member)

theorem preserves_applyFullSync (node : Node) (history : String) (offset : Int) (payload : Bytes) :
    node.Preserves (node.applyFullSync history offset payload) := by
  rcases node.applyFullSync_cases history offset payload with ⟨_, same⟩ | ⟨_, partitions, _, same⟩
  · rw [same]
    exact .of_same rfl rfl rfl
  · rw [same]
    have taken : node.Preserves { node with
        partitions
        coordinator := ((node.coordinator.changeBacklog fun backlog =>
          backlog.deactivate.reset offset).changeBacklog (·.activate)).adoptIdentity history } :=
      .of_same rfl rfl rfl
    exact (taken.trans (preserves_dropReplicas _)).trans (.of_same rfl rfl rfl)

theorem preserves_listening (node : Node) : node.Preserves node.listening.node :=
  .of_same rfl rfl rfl

theorem preserves_follow (registered : node.Registered) (arguments : List String) (raw : Bytes) :
    node.Preserves (node.follow arguments raw) := by
  have listening := node.preserves_listening
  rcases node.follow_cases arguments raw with ⟨_, same⟩ | ⟨_, same⟩ <;> rw [same]
  · have heard := @preserves_dispatch node.listening (listening.registered registered)
      (by rintro _ ⟨⟩) arguments
    apply Preserves.trans _ (preserves_feed ..)
    exact (listening.trans heard).trans (.of_same rfl rfl rfl)
  · exact listening

theorem preserves_takeLinkEvent (registered : node.Registered) (event : Link.LinkEvent) :
    node.Preserves (node.takeLinkEvent event) := by
  cases event with
  | fullSync history offset payload => exact preserves_applyFullSync node history offset payload
  | continued history => exact preserves_continueStream node history
  | command arguments raw => exact preserves_follow registered arguments raw
  | state | heartbeat | failed => exact .of_same rfl rfl rfl

namespace Registered

/-- A connection with a number that nobody has. -/
theorem connect (registered : node.Registered) (fresh : id ∉ node.clients) (address : String) :
    (node.connect id address).Registered where
  listening := by
    intro channel other
    have apart : ¬node.Listens id channel := fun listens => fresh listens.connected
    rw [Node.connect, registered.listening]
    by_cases same : id = other
    · subst same
      simpa [Listens] using apart
    · simp [Listens, Std.ExtTreeMap.getElem?_insert, same]
  inhabited := registered.inhabited
  present := by
    intro other replica
    rw [Node.connect, Std.ExtTreeMap.mem_insert]
    exact .inr (registered.present other replica)

/-- Whoever disconnects is taken out of all books. -/
theorem disconnect (registered : node.Registered) (id : ClientId) :
    (node.disconnect id).Registered where
  listening := by
    intro channel other
    rw [Node.disconnect, Channels.mem_listeners_unsubscribeAll, registered.listening]
    by_cases same : id = other
    · subst same
      simp only [Listens, Std.ExtTreeMap.getElem?_erase_self, Command.subscriptions]
      cases node.clients[id]? with
      | none => simp
      | some client => simp [Std.ExtTreeSet.mem_toList]
    · have apart : other ≠ id := fun equal => same equal.symm
      simp [Listens, Std.ExtTreeMap.getElem?_erase, same, apart]
  inhabited := registered.inhabited.unsubscribeAll _ id
  present := by
    intro other replica
    simp only [Node.disconnect, Coordinator.remove, Std.ExtTreeMap.mem_erase] at replica ⊢
    exact ⟨replica.1, registered.present other replica.2⟩

end Registered
end Node

/-- The numbers that are given to new connections. -/
def Happening.greets : Happening → List ClientId
  | .connected id _ => [id]
  | _ => []

namespace Node

variable {node later : Node} {happening : Happening} {id : ClientId}

/-- Whatever happens, the books go on to agree, as long as no connection is given the number of
another one. -/
theorem Registered.next (registered : node.Registered)
    (fresh : ∀ id ∈ happening.greets, id ∉ node.clients)
    (happened : node.next? happening = some later) :
    later.Registered ∧ ∀ id ∈ later.clients, id ∈ happening.greets ∨ id ∈ node.clients := by
  have preserved {later : Node} (preserves : node.Preserves later) :
      later.Registered ∧ ∀ id ∈ later.clients, id ∈ happening.greets ∨ id ∈ node.clients :=
    ⟨preserves.registered registered, fun id member => .inr ((preserves.clients id).mp member)⟩
  cases happening with
  | connected id address =>
      cases happened
      refine ⟨registered.connect (fresh id (by simp [Happening.greets])) address, fun other member => ?_⟩
      rw [handle, Node.connect, Std.ExtTreeMap.mem_insert, Std.LawfulEqCmp.compare_eq_iff_eq] at member
      simpa [Happening.greets, eq_comm] using member
  | disconnected id =>
      cases happened
      refine ⟨registered.disconnect id, fun other member => .inr ?_⟩
      rw [handle, Node.disconnect, Std.ExtTreeMap.mem_erase] at member
      exact member.2
  | command id value =>
      cases happened
      exact preserved (preserves_serve registered id value)
  | upkeep =>
      cases happened
      exact preserved (preserves_maintain node)
  | link epoch event =>
      cases happened
      simp only [handle]
      split
      · exact preserved (preserves_takeLinkEvent registered event)
      · exact preserved (.refl node)
  | task position picked =>
      simp only [next?, Option.map_eq_some_iff] at happened
      obtain ⟨task, _, rfl⟩ := happened
      have rest : node.Preserves { node with tasks := node.tasks.eraseIdx position } :=
        .of_same rfl rfl rfl
      cases task with
      | beginSnapshot =>
          simp only [Task.event, handle]
          split
          · exact preserved (rest.trans (preserves_scheduleFullSync _))
          · exact preserved rest
      | drain index => exact preserved (rest.trans (preserves_drain _ index picked))
  | report =>
      obtain ⟨report, reports, writing, storage, _, rfl, _⟩ := next?_report happened
      have rest : node.Preserves { node with writing, storage } := .of_same rfl rfl rfl
      exact preserved (rest.trans (preserves_takeReport _ report))
  | refuse id reply =>
      cases happened
      exact preserved (.of_steady rfl
        ((Clients.Agree.queue unqueued ..).trans (.queue unqueued ..)) (.refl _))
  | hangUp id =>
      cases happened
      exact preserved (.of_steady rfl (.modify _ _ fun _ => rfl) (.refl _))
  | deliver =>
      cases happened
      exact preserved (.of_steady rfl (.takeQueued unqueued _) (.refl _))
  | advance | setWall | setStorage | deliverToLeader =>
      cases happened
      exact preserved (.of_same rfl rfl rfl)

theorem registered_start {settings : Settings} {supply : Stream.IdSupply} {clock : Clock}
    {found : Except Snapshot.SnapshotError (Option Bytes)} {server : Server}
    (started : Server.start settings supply clock found = .ok server) :
    server.node.Registered ∧ ∀ id, id ∉ server.node.clients := by
  have blank {node : Node} (channels : node.channels = ∅) (clients : node.clients = ∅)
      (replicas : node.coordinator.replicas = ∅) :
      node.Registered ∧ ∀ id, id ∉ node.clients := by
    refine ⟨⟨fun channel id => ?_, fun channel others found => ?_, fun id replica => ?_⟩, fun id => ?_⟩
    · simp [Channels.listeners, Listens, channels, clients]
    · simp [channels] at found
    · simp [replicas] at replica
    · simp [clients]
  have new (storage : Storage) : { Node.new settings supply clock with storage }.channels = ∅ ∧
      { Node.new settings supply clock with storage }.clients = ∅ ∧
      { Node.new settings supply clock with storage }.coordinator.replicas = ∅ := ⟨rfl, rfl, rfl⟩
  obtain ⟨loaded, made, role⟩ := Server.start_inv started
  have empty : loaded.channels = ∅ ∧ loaded.clients = ∅ ∧ loaded.coordinator.replicas = ∅ := by
    rcases made with rfl | ⟨bytes, commands, read, rfl⟩
    · exact new {}
    · rw [Command.load, (Command.loadFrom_does Command.restores_all read _).frame]
      exact new { file := some bytes }
  rcases role with same | ⟨host, port, same⟩ <;> rw [same] <;>
    exact blank empty.1 empty.2.1 empty.2.2

/-- The connection that ends when something happens. -/
def ended (node : Node) : Happening → List ClientId
  | .disconnected id => if id ∈ node.clients then [id] else []
  | _ => []

/-- A node that has been started, and to which anything has happened since, but that no
connection has had a number that another one had before.  These are the numbers so far, and
among them those of the connections that have ended. -/
inductive Numbered : List ClientId → List ClientId → Node → Prop
  | start {settings : Settings} {supply : Stream.IdSupply} {clock : Clock}
      {found : Except Snapshot.SnapshotError (Option Bytes)} {server : Server} (port : Nat)
      (started : Server.start settings supply clock found = .ok server) :
      Numbered [] [] { server.node with port }
  | next {used gone : List ClientId} {node later : Node} (happening : Happening)
      (numbered : Numbered used gone node) (fresh : ∀ id ∈ happening.greets, id ∉ used)
      (happened : node.next? happening = some later) :
      Numbered (happening.greets ++ used) (node.ended happening ++ gone) later

namespace Numbered

variable {used gone : List ClientId}

theorem reachable (numbered : Numbered used gone node) : node.Reachable := by
  induction numbered with
  | start port started => exact .start port started
  | next happening _ _ happened ih => exact ih.next happening happened

theorem run (numbered : Numbered used gone node) (happening : Happening)
    (fresh : ∀ id ∈ happening.greets, id ∉ used)
    (happens : (node.next? happening).isSome = true) :
    Numbered (happening.greets ++ used) (node.ended happening ++ gone) (node.run [happening]) :=
  numbered.next happening fresh (next?_run happens)

/-- Whoever has left is not there any more. -/
theorem not_mem_of_ended (ended : id ∈ node.ended happening)
    (happened : node.next? happening = some later) : id ∈ node.clients ∧ id ∉ later.clients := by
  cases happening with
  | disconnected other =>
      cases happened
      simp only [Node.ended] at ended
      split at ended
      · next connected =>
          obtain rfl := List.mem_singleton.mp ended
          exact ⟨connected, by simp [handle, Node.disconnect]⟩
      · cases ended
  | _ => cases ended

/-- The books of a node agree at all times, only those are connected that were given a number,
and nobody comes back. -/
theorem registered (numbered : Numbered used gone node) :
    node.Registered ∧ (∀ id ∈ node.clients, id ∈ used) ∧
      ∀ id ∈ gone, id ∈ used ∧ id ∉ node.clients := by
  induction numbered with
  | start port started =>
      obtain ⟨⟨listening, inhabited, present⟩, nobody⟩ := registered_start started
      exact ⟨⟨listening, inhabited, present⟩, fun id member => absurd member (nobody id), by simp⟩
  | @next used gone node later happening _ fresh happened ih =>
      obtain ⟨registered, inside, left⟩ := ih
      obtain ⟨still, clients⟩ := registered.next
        (fun id greeted member => fresh id greeted (inside id member)) happened
      refine ⟨still, fun id member => ?_, fun id member => ?_⟩
      · exact List.mem_append.mpr ((clients id member).imp_right (inside id))
      · rcases List.mem_append.mp member with now | before
        · obtain ⟨connected, apart⟩ := not_mem_of_ended now happened
          exact ⟨List.mem_append_right _ (inside id connected), apart⟩
        · obtain ⟨known, apart⟩ := left id before
          refine ⟨List.mem_append_right _ known, fun back => ?_⟩
          rcases clients id back with greeted | there
          · exact fresh id greeted known
          · exact apart there

end Numbered
end Node
end ReplicaStore
