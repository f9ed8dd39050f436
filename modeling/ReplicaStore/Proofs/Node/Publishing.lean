import ReplicaStore.Proofs.Node.Registry
import ReplicaStore.Proofs.Stream.Waiting

/-!
# What is published

A message that is published is queued once for each connected client that listens to the
channel and reads what is queued for it, and the number of these clients is the reply.  As long
as no number is given to two connections, the books that this rests on agree, and whoever has
left is in none of them (`Node.Numbered.registry_agrees`).
-/

namespace ReplicaStore

open ReplicaStore.Stream (Coordinator)

namespace Clients

variable {clients : Clients} {id : ClientId}

theorem pending_queue_reaching (clients : Clients) (id other : ClientId) (message : Outgoing) :
    (clients.queue other message).pending id =
      clients.pending id ++ if other = id ∧ clients.reaches id = true then [message] else [] := by
  cases reaches : clients.reaches id with
  | true => simpa using pending_queue reaches other message
  | false => simpa using Coordinator.pending_unread reaches other message

/-- The same bytes for several clients reach those that still read. -/
theorem pending_sendAll_reaching (clients : Clients) (id : ClientId) {ids : List ClientId}
    (once : ids.Nodup) (bytes : Bytes) :
    (clients.sendAll ids bytes).pending id =
      clients.pending id ++ if id ∈ ids ∧ clients.reaches id = true then [.data bytes] else [] := by
  cases reaches : clients.reaches id with
  | true => simpa using pending_sendAll reaches once bytes
  | false =>
      rw [sendAll]
      clear once
      induction ids generalizing clients with
      | nil => simp
      | cons first ids ih =>
          have sent := ih (clients.send first bytes) ((reaches_queue ..).trans reaches)
          simpa [send, Coordinator.pending_unread reaches] using sent

end Clients

namespace Stream.Coordinator

variable {coordinator : Coordinator} {clients : Clients}

/-- What is added to the stream is queued once for each replica that is online. -/
theorem pending_feed (recorded : coordinator.Serves → coordinator.backlog.isSome = true)
    (data : Bytes) (database : Option Nat) (id : ClientId) :
    (coordinator.feed clients data database).2.pending id =
      clients.pending id ++ if coordinator.Online id ∧ clients.reaches id = true then
        [.data (coordinator.streamBytes data database)] else [] := by
  rw [feed]
  split
  · next unrecorded =>
      have offline : ¬coordinator.Online id := fun online => by
        simpa [unrecorded] using recorded online.serves
      simp [offline]
  · have online : id ∈ coordinator.replicasIn .online ↔ coordinator.Online id := mem_replicasIn
    simp only [Clients.pending_sendAll_reaching _ _ (nodup_replicasIn ..), online]

end Stream.Coordinator

namespace Node

variable {node : Node} {id : ClientId} {channel : String}

/-- The connected clients that listen to a channel and read what is queued for them. -/
def hearers (node : Node) (channel : String) : List ClientId :=
  (node.clients.filter fun _ client => client.reading && channel ∈ client.subscriptions).keys

theorem mem_hearers :
    id ∈ node.hearers channel ↔ node.Listens id channel ∧ node.clients.reaches id = true := by
  rw [hearers, Std.ExtTreeMap.mem_keys, Std.ExtTreeMap.mem_iff_isSome_getElem?,
    Std.ExtTreeMap.getElem?_filter', Listens, Clients.reaches]
  cases node.clients[id]? with
  | none => simp
  | some client => simp [and_comm]

/-- Where the books agree, those that are reached are the hearers. -/
theorem Registered.countP_reaches (registered : node.Registered) (channel : String) :
    (node.channels.listeners channel).countP (node.clients.reaches ·) =
      (node.hearers channel).length := by
  rw [List.countP_eq_length_filter]
  refine List.Perm.length_eq ((List.perm_ext_iff_of_nodup ?_ Std.ExtTreeMap.nodup_keys).mpr ?_)
  · exact (Channels.nodup_listeners ..).filter _
  · intro id
    rw [List.mem_filter, registered.listening]
    exact mem_hearers.symm

/-- What a client is sent of a message on a channel. -/
def heard (node : Node) (channel message : String) (id : ClientId) : List Outgoing :=
  if id ∈ node.hearers channel then
    [.data (Wire.Value.strings ["message", channel, message]).toBytes]
  else []

/-- What a client is sent, as a replica, of bytes that are added to the stream. -/
def relayed (node : Node) (bytes : Bytes) (id : ClientId) : List Outgoing :=
  if node.coordinator.Online id ∧ node.clients.reaches id = true then [.data bytes] else []

/-- The node after a message has been sent to whoever listens to a channel. -/
def published (node : Node) (channel message : String) : Node :=
  (Deed.publish (node.channels.listeners channel)
    (Wire.Value.strings ["message", channel, message]).toBytes).apply node

theorem Registered.pending_published (registered : node.Registered) (channel message : String)
    (id : ClientId) :
    (node.published channel message).clients.pending id =
      node.clients.pending id ++ node.heard channel message id := by
  have listed : id ∈ node.channels.listeners channel ∧ node.clients.reaches id = true ↔
      id ∈ node.hearers channel := by
    rw [registered.listening, mem_hearers]
  simp only [published, Deed.apply, heard,
    Clients.pending_sendAll_reaching _ _ (Channels.nodup_listeners ..), listed]

theorem reaches_published (node : Node) (channel message : String) (id : ClientId) :
    (node.published channel message).clients.reaches id = node.clients.reaches id :=
  Clients.reaches_sendAll ..

end Node

namespace Command

open CommandM

variable {context : Context} {name channel message : String}

theorem find?_publish (named : Text.upper name = "PUBLISH") :
    find? all name = some ⟨"PUBLISH", 3, .broadcast, publish⟩ := by
  simp only [find?, named]
  rfl

theorem outcome_publish (context : Context) (channel message : String) :
    (publish [channel, message]).outcome context =
      (.ok [.integer ((context.node.channels.listeners channel).countP
          (context.node.clients.reaches ·))],
        { context with node := context.node.published channel message }) := by
  simp only [publish]
  rw [outcome_bind, outcome_node]
  dsimp only
  rw [outcome_bind, outcome_changeNode]
  exact outcome_count ..

/-- PUBLISH is answered with the number of those it reaches, and is added to the stream if it
comes from a client of a node that follows nobody. -/
theorem dispatch_publish (named : Text.upper name = "PUBLISH") (context : Context)
    (channel message : String) :
    dispatch context [name, channel, message] =
      ([.integer ((context.node.channels.listeners channel).countP
          (context.node.clients.reaches ·))],
        if context.session.source.isClient && !context.node.following then
          { context.ready with node := context.node.published channel message }.propagated
            ["PUBLISH", channel, message]
        else { context.ready with node := context.node.published channel message }) := by
  have accepts : Command.accepts ⟨"PUBLISH", 3, .broadcast, publish⟩
      ([channel, message].length + 1) = true := rfl
  have allowed : (context.session.source.isClient && context.node.following &&
      Effect.broadcast == .write) = false := Bool.and_false _
  rw [dispatch, dispatchFrom_eq, outcome_runFrom_cons, find?_publish named]
  simp only [accepts, allowed, outcome_publish, named, Effect.propagates, Bool.not_true,
    Bool.false_eq_true, if_false, Bool.and_true]
  rfl

end Command

namespace Node

variable {node : Node} {id : ClientId}

theorem reaches_feed (node : Node) (data : Bytes) (database : Option Nat) (id : ClientId) :
    (node.feed data database).clients.reaches id = node.clients.reaches id := by
  simp only [feed, coordinate, Coordinator.feed]
  split
  · rfl
  · exact Clients.reaches_sendAll ..

/-- A message that is sent to its listeners is then added to the stream. -/
theorem pending_feed_published (registered : node.Registered) (orderly : node.Orderly)
    (channel message : String) (data : Bytes) (database : Option Nat) (id : ClientId) :
    ((node.published channel message).feed data database).clients.pending id =
      node.clients.pending id ++ node.heard channel message id ++
        node.relayed (node.coordinator.streamBytes data database) id := by
  have fed := @Coordinator.pending_feed node.coordinator (node.published channel message).clients
    orderly.coordinator.recorded data database id
  rw [registered.pending_published, reaches_published] at fed
  exact fed

/-- Behind a command, its database is noted and its reply is queued. -/
theorem pending_serve {client : Client} {value : Wire.Value} {arguments : List String}
    {reply : Wire.Value} {after : Context} (found : node.clients[id]? = some client)
    (given : value.arguments? = some arguments)
    (ran : Command.dispatch (node.issued id client) arguments = ([reply], after)) (other : ClientId) :
    (node.serve id value).clients.pending other =
      after.node.clients.pending other ++
        if id = other ∧ after.node.clients.reaches other = true then [.data reply.toBytes] else [] := by
  have moved : (node.serve id value).clients =
      Clients.send (after.node.clients.modify id fun client =>
        { client with database := after.session.database }) id reply.toBytes := by
    have served := congrArg Prod.snd (desk_serve found given)
    rw [ran] at served
    simpa [serveMoves, replyMoves, Stream.Move.apply, desk, Clients.send] using served
  rw [moved, Clients.send, Clients.pending_queue_reaching, Clients.pending_modify,
    Clients.reaches_modify]
  · exact fun _ => rfl
  · exact fun _ => rfl

theorem relayed_issued (node : Node) (id other : ClientId) (client : Client) (bytes : Bytes) :
    (node.issued id client).node.relayed bytes other = node.relayed bytes other := by
  have online : (node.coordinator.touch node.clock.elapsed id).Online other ↔
      node.coordinator.Online other := by
    rw [Coordinator.online_iff, Coordinator.online_iff, Coordinator.touch,
      Coordinator.stateOf_changeReplica]
    exact fun _ => rfl
  simp only [relayed, issued, online]

/-- What PUBLISH queues: the message for those who hear it, the command for the replicas of a
node that leads, and the reply for the client that has issued it. -/
theorem pending_serve_publish (registered : node.Registered) (orderly : node.Orderly)
    {client : Client} {value : Wire.Value} {name channel message : String}
    (found : node.clients[id]? = some client)
    (given : value.arguments? = some [name, channel, message])
    (named : Text.upper name = "PUBLISH") (other : ClientId) :
    (node.serve id value).clients.pending other =
      node.clients.pending other ++ node.heard channel message other ++
        (if node.following then [] else
          node.relayed (node.coordinator.streamBytes
            (Wire.commandBytes ["PUBLISH", channel, message]) (some client.database)) other) ++
        if id = other ∧ node.clients.reaches other = true then
          [.data (Wire.Value.integer (node.hearers channel).length).toBytes] else [] := by
  have registered := (preserves_issued node id client).registered registered
  have orderly : (node.issued id client).node.Orderly :=
    orderly.congr (.touch ..) (.refl _) rfl rfl
  have ran := Command.dispatch_publish named (node.issued id client) channel message
  have leads : ((node.issued id client).session.source.isClient &&
      !(node.issued id client).node.following) = !node.following := rfl
  rw [registered.countP_reaches, leads] at ran
  rw [pending_serve found given ran]
  cases follows : node.following with
  | true =>
      simp only [Bool.not_true, Bool.false_eq_true, if_false, if_true, List.append_nil,
        registered.pending_published, reaches_published]
      rfl
  | false =>
      have fed := pending_feed_published registered orderly channel message
        (Wire.commandBytes ["PUBLISH", channel, message]) (some client.database) other
      rw [relayed_issued] at fed
      simp only [Bool.not_false, Bool.false_eq_true, if_false, if_true, Context.propagated,
        reaches_feed, reaches_published]
      exact congrArg (· ++ _) fed

/-- What PUBLISH queues that comes down the stream of a leader: the message for those who hear
it, and the bytes that came for replicas. -/
theorem pending_follow_publish (registered : node.Registered) (orderly : node.Orderly)
    (connected : node.role.connected = true) {name channel message : String}
    (named : Text.upper name = "PUBLISH") (raw : Bytes) (other : ClientId) :
    (node.follow [name, channel, message] raw).clients.pending other =
      node.clients.pending other ++ node.heard channel message other ++ node.relayed raw other := by
  have state : node.role.state = .connected := by simpa [Link.Role.connected] using connected
  have fed := pending_feed_published (node.preserves_listening.registered registered)
    (⟨orderly.coordinator, orderly.clients, orderly.idle⟩ : node.listening.node.Orderly)
    channel message raw none other
  rw [follow_eq state, hear_eq, Command.dispatch_publish named]
  exact fed

/-! ### All of it -/

/-- As long as no connection is given the number of another one, a client is among the listeners
of a channel just if it is connected and listens to the channel, no channel is without
listeners, and replicas are connected clients.  Whoever has left is among none of them, from
then on.  And PUBLISH queues the message once for each client that is connected, listens, and
reads what is queued for it, and is answered with their number. -/
theorem Numbered.registry_agrees {used gone : List ClientId} (numbered : Numbered used gone node) :
    node.Registered ∧
    (∀ id, id ∈ gone ∨ id ∉ node.clients →
      (∀ channel, id ∉ node.channels.listeners channel) ∧ id ∉ node.coordinator.replicas) ∧
    (∀ id, (∀ channel, id ∉ (node.handle (.disconnected id)).channels.listeners channel) ∧
      id ∉ (node.handle (.disconnected id)).coordinator.replicas) ∧
    (∀ (id : ClientId) (client : Client) (value : Wire.Value) (name channel message : String),
      node.clients[id]? = some client → value.arguments? = some [name, channel, message] →
      Text.upper name = "PUBLISH" → ∀ other,
        (node.handle (.command id value)).clients.pending other =
          node.clients.pending other ++ node.heard channel message other ++
            (if node.following then [] else
              node.relayed (node.coordinator.streamBytes
                (Wire.commandBytes ["PUBLISH", channel, message]) (some client.database)) other) ++
            if id = other ∧ node.clients.reaches other = true then
              [.data (Wire.Value.integer (node.hearers channel).length).toBytes] else []) ∧
    (∀ (epoch : Nat) (name channel message : String) (raw : Bytes),
      node.role.accepts epoch = true → node.role.connected = true →
      Text.upper name = "PUBLISH" → ∀ other,
        (node.handle (.link epoch (.command [name, channel, message] raw))).clients.pending other =
          node.clients.pending other ++ node.heard channel message other ++
            node.relayed raw other) := by
  obtain ⟨registered, _, left⟩ := numbered.registered
  have orderly := numbered.reachable.orderly
  refine ⟨registered, fun id apart => ?_, fun id => ?_, ?_, ?_⟩
  · exact registered.absent (apart.elim (fun ended => (left id ended).2) fun absent => absent)
  · exact (registered.disconnect id).absent (by simp [Node.disconnect])
  · intro id client value name channel message found given named other
    exact pending_serve_publish registered orderly found given named other
  · intro epoch name channel message raw accepts connected named other
    rw [handle, if_pos accepts]
    exact pending_follow_publish registered orderly connected named raw other

/-- Two clients listen, a third one is a replica, and one of the listeners leaves: it is in no
book any more, and the other one is sent what is published then. -/
theorem registry_agrees_left :
    ∃ (used gone : List ClientId) (node : Node), Numbered used gone node ∧
      used = [3, 2, 1] ∧ gone = [2] ∧ node.coordinator.replicas.keys = [3] ∧
      node.channels.listeners "news" = [1] ∧ 2 ∉ node.channels.listeners "news" ∧
      (node.handle (.command 3 (.command ["publish", "news", "hi"]))).clients.pending 1 =
        node.clients.pending 1 ++ [.data (Wire.Value.strings ["message", "news", "hi"]).toBytes] := by
  have start := @Numbered.start { databases := 1 } {} { wall := 1000 } (.ok none)
    { node := Node.new { databases := 1 } {} { wall := 1000 } } 7000 rfl
  have first := start.run (.connected 1 "127.0.0.1:40001") (by decide) rfl
  have second := first.run (.connected 2 "127.0.0.1:40002") (by decide) rfl
  have third := second.run (.connected 3 "127.0.0.1:40003") (by decide) rfl
  have listens := third.run (.runs 1 ["SUBSCRIBE", "news"]) (by decide) rfl
  have both := listens.run (.runs 2 ["SUBSCRIBE", "news", "news", "sport"]) (by decide) rfl
  have replica := both.run (.runs 3 ["PSYNC", "?", "-1"]) (by decide) rfl
  have left := replica.run (.disconnected 2) (by decide) rfl
  obtain ⟨_, apart, _, published, _⟩ := left.registry_agrees
  refine ⟨_, _, _, left, rfl, by decide +kernel, by decide +kernel, by decide +kernel, ?_, ?_⟩
  · exact (apart 2 (.inl (by decide +kernel))).1 "news"
  · rw [published 3 { address := "127.0.0.1:40003" } (.command ["publish", "news", "hi"]) "publish"
      "news" "hi" rfl rfl (by decide +kernel) 1]
    decide +kernel

end Node
end ReplicaStore
