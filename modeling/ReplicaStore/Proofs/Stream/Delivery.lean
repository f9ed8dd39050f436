import ReplicaStore.Proofs.Stream.Steady

/-!
# What replicas are sent

A finished snapshot is queued for every replica that has waited for it and becomes online
(`Stream.Coordinator.queued_finishFullSync`), and whatever is fed to the stream for every
replica that is online (`Stream.Coordinator.queued_feed`).
-/

namespace ReplicaStore

namespace Clients

/-- A message has been queued for a client, and was not taken yet. -/
def Queued (clients : Clients) (id : ClientId) (message : Outgoing) : Prop :=
  ∃ client : Client, clients[id]? = some client ∧ message ∈ client.queue

variable {clients : Clients} {id : ClientId} {message : Outgoing}

theorem getElem?_queue (clients : Clients) (id other : ClientId) (message : Outgoing) :
    (clients.queue other message)[id]? =
      if other = id then
        clients[id]?.map fun client =>
          if client.reading then { client with queue := client.queue.push message } else client
      else clients[id]? := by
  rw [queue, Std.ExtTreeMap.getElem?_modify]
  by_cases same : other = id
  · subst same
    simp
  · simp [same]

theorem reaches_modify (clients : Clients) (id other : ClientId) {change : Client → Client}
    (kept : ∀ client, (change client).reading = client.reading) :
    Clients.reaches (clients.modify other change) id = clients.reaches id := by
  rw [reaches, reaches, Std.ExtTreeMap.getElem?_modify]
  split
  · next same =>
      rw [Std.LawfulEqCmp.eq_of_compare same]
      cases clients[id]? with
      | none => rfl
      | some client => exact kept client
  · rfl

theorem reaches_queue (clients : Clients) (id other : ClientId) (message : Outgoing) :
    (clients.queue other message).reaches id = clients.reaches id := by
  apply reaches_modify
  intro client
  split <;> rfl

theorem reaches_sendAll (clients : Clients) (id : ClientId) (ids : List ClientId) (bytes : Bytes) :
    (clients.sendAll ids bytes).reaches id = clients.reaches id := by
  rw [sendAll]
  induction ids generalizing clients with
  | nil => rfl
  | cons first ids ih => exact (ih _).trans (reaches_queue ..)

/-- What is queued stays so when more is. -/
theorem Queued.queue (queued : clients.Queued id message) (other : ClientId) (next : Outgoing) :
    (clients.queue other next).Queued id message := by
  obtain ⟨client, found, member⟩ := queued
  rw [Queued, getElem?_queue, found]
  split
  · refine ⟨_, rfl, ?_⟩
    dsimp only
    split
    · exact Array.mem_push_of_mem next member
    · exact member
  · exact ⟨client, rfl, member⟩

theorem queued_queue (reaches : clients.reaches id = true) (message : Outgoing) :
    (clients.queue id message).Queued id message := by
  rw [Queued, getElem?_queue, if_pos rfl]
  rw [Clients.reaches] at reaches
  cases found : clients[id]? with
  | none =>
      rw [found] at reaches
      cases reaches
  | some client =>
      have reads : client.reading = true := by simpa [found] using reaches
      refine ⟨_, rfl, ?_⟩
      dsimp only
      rw [if_pos reads]
      exact Array.mem_push_self

theorem Queued.sendAll (queued : clients.Queued id message) (ids : List ClientId) (bytes : Bytes) :
    (clients.sendAll ids bytes).Queued id message := by
  rw [Clients.sendAll]
  induction ids generalizing clients with
  | nil => exact queued
  | cons first ids ih => exact ih (queued.queue first _)

theorem Queued.closeAll (queued : clients.Queued id message) (ids : List ClientId) :
    (clients.closeAll ids).Queued id message := by
  rw [Clients.closeAll]
  induction ids generalizing clients with
  | nil => exact queued
  | cons first ids ih => exact ih (queued.queue first _)

theorem Queued.modify (queued : clients.Queued id message) (other : ClientId)
    {change : Client → Client} (kept : ∀ client, (change client).queue = client.queue) :
    Clients.Queued (clients.modify other change) id message := by
  obtain ⟨client, found, member⟩ := queued
  rw [Queued, Std.ExtTreeMap.getElem?_modify]
  split
  · next same =>
      rw [Std.LawfulEqCmp.eq_of_compare same, found]
      refine ⟨_, rfl, ?_⟩
      rw [kept]
      exact member
  · exact ⟨client, found, member⟩

theorem queued_sendAll (reaches : clients.reaches id = true) {ids : List ClientId}
    (member : id ∈ ids) (bytes : Bytes) : (clients.sendAll ids bytes).Queued id (.data bytes) := by
  induction ids generalizing clients with
  | nil => cases member
  | cons first ids ih =>
      rcases List.mem_cons.mp member with rfl | later
      · exact (queued_queue reaches (.data bytes)).sendAll ids bytes
      · exact ih ((reaches_queue clients id first (.data bytes)).trans reaches) later

end Clients

namespace Stream.Coordinator

/-- A replica is online. -/
def Online (coordinator : Coordinator) (id : ClientId) : Prop :=
  ∃ replica : Replica, coordinator.replicas[id]? = some replica ∧ replica.state = .online

instance (coordinator : Coordinator) (id : ClientId) : Decidable (coordinator.Online id) :=
  decidable_of_iff (coordinator.replicas[id]?.any (·.state == .online) = true) (by
    simp [Online, Option.any_eq_true])

theorem Online.serves {coordinator : Coordinator} {id : ClientId} (online : coordinator.Online id) :
    coordinator.Serves := by
  obtain ⟨replica, found, _⟩ := online
  exact ⟨id, replica, found⟩

theorem Online.changeReplica {coordinator : Coordinator} {id : ClientId}
    (online : coordinator.Online id) (other : ClientId) {change : Replica → Replica}
    (kept : ∀ replica, (change replica).state = replica.state) :
    (coordinator.changeReplica other change).Online id := by
  obtain ⟨replica, found, state⟩ := online
  simp only [Online, Coordinator.changeReplica, Std.ExtTreeMap.getElem?_modify]
  split
  · next same =>
      rw [Std.LawfulEqCmp.eq_of_compare same, found]
      exact ⟨_, rfl, (kept replica).trans state⟩
  · exact ⟨replica, found, state⟩

/-- A replica that is online is sent what is added to the stream. -/
theorem queued_feed {coordinator : Coordinator} {clients : Clients} {id : ClientId}
    (online : coordinator.Online id) (reaches : clients.reaches id = true)
    (recorded : coordinator.backlog.isSome = true) (data : Bytes) (database : Option Nat) :
    (coordinator.feed clients data database).2.Queued id
      (.data (coordinator.streamBytes data database)) := by
  obtain ⟨backlog, some⟩ := Option.isSome_iff_exists.mp recorded
  rw [feed, some]
  exact Clients.queued_sendAll reaches (mem_replicasIn.mpr online) _

/-- Whatever else the upkeep does, the ping is sent. -/
theorem queued_maintain {coordinator : Coordinator} {clients : Clients} {now : Nat}
    {upkeep : Upkeep} {id : ClientId} {message : Outgoing}
    (queued : (coordinator.ping clients now upkeep).2.Queued id message) :
    (coordinator.maintain clients now upkeep).2.2.Queued id message := by
  simp only [maintain, dropReplicas]
  exact (queued.sendAll _ _).closeAll _

section

variable {now : Nat} {payload tail : Bytes} {id : ClientId}

theorem queued_foldl_ship {message : Outgoing} (ids : List ClientId) (state : Coordinator × Clients)
    (queued : state.2.Queued id message) :
    (ids.foldl (ship now payload tail) state).2.Queued id message := by
  induction ids generalizing state with
  | nil => exact queued
  | cons first ids ih => exact ih _ (queued.queue first _)

/-- Shipping to others leaves the record of a replica alone. -/
theorem getElem?_foldl_ship {ids : List ClientId} (apart : id ∉ ids)
    (state : Coordinator × Clients) :
    (ids.foldl (ship now payload tail) state).1.replicas[id]? = state.1.replicas[id]? := by
  induction ids generalizing state with
  | nil => rfl
  | cons first ids ih =>
      rw [List.mem_cons, not_or] at apart
      rw [List.foldl_cons, ih apart.2]
      simp only [ship, changeReplica, Std.ExtTreeMap.getElem?_modify]
      split
      · next same => exact absurd (Std.LawfulEqCmp.eq_of_compare same).symm apart.1
      · rfl

/-- Who is online after a snapshot was shipped to it has been sent the snapshot. -/
theorem queued_foldl_ship_online {ids : List ClientId} (once : ids.Nodup) (member : id ∈ ids)
    {state : Coordinator × Clients}
    (online : (ids.foldl (ship now payload tail) state).1.Online id) :
    (ids.foldl (ship now payload tail) state).2.Queued id
      (.data (fullReply state.1.identity.current state.1.snapshotOffset payload tail)) := by
  induction ids generalizing state with
  | nil => cases member
  | cons first ids ih =>
      rw [List.nodup_cons] at once
      rcases List.mem_cons.mp member with rfl | later
      · have reaches : state.2.reaches id = true := by
          obtain ⟨replica, found, online⟩ := online
          rw [List.foldl_cons, getElem?_foldl_ship once.1] at found
          simp only [ship, changeReplica, Std.ExtTreeMap.getElem?_modify_self] at found
          obtain ⟨earlier, _, rfl⟩ := Option.map_eq_some_iff.mp found
          cases reaches : state.2.reaches id with
          | true => rfl
          | false =>
              rw [reaches] at online
              cases online
        exact queued_foldl_ship ids _ (Clients.queued_queue reaches _)
      · exact ih once.2 later online

theorem queued_finishFullSync {coordinator : Coordinator} {clients : Clients} {backlog : Backlog}
    (recorded : coordinator.backlog = some backlog)
    (waits : ∃ replica : Replica, coordinator.replicas[id]? = some replica ∧
      replica.state = .awaitingSnapshot)
    (online : (coordinator.finishFullSync clients now payload).1.Online id) :
    ∃ tail, backlog.read coordinator.snapshotOffset = .ok tail ∧
      (coordinator.finishFullSync clients now payload).2.Queued id
        (.data (fullReply coordinator.identity.current coordinator.snapshotOffset payload tail)) := by
  have member := mem_replicasIn.mpr waits
  have some : (coordinator.replicasIn .awaitingSnapshot).isEmpty = false := by
    rw [List.isEmpty_eq_false_iff_exists_mem]
    exact ⟨id, member⟩
  have once : (coordinator.replicasIn .awaitingSnapshot).Nodup := Std.ExtTreeMap.nodup_keys
  simp only [finishFullSync, some, Bool.false_eq_true, if_false, recorded] at online ⊢
  cases read : backlog.read coordinator.snapshotOffset with
  | error error =>
      rw [read] at online
      obtain ⟨replica, found, _⟩ := online
      have gone := Steady.getElem?_dropReplicas coordinator clients
        (coordinator.replicasIn .awaitingSnapshot) id
      rw [if_pos member] at gone
      have there : (coordinator.dropReplicas clients
        (coordinator.replicasIn .awaitingSnapshot)).1.replicas[id]? = Option.some replica := found
      rw [gone] at there
      cases there
  | ok tail =>
      rw [read] at online
      exact ⟨tail, rfl, queued_foldl_ship_online once member online⟩

end

end Stream.Coordinator
end ReplicaStore
