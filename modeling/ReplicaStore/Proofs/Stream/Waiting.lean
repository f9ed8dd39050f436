import ReplicaStore.Proofs.Stream.Attendance
import ReplicaStore.Proofs.Stream.Since

/-!
# Replicas that wait for a snapshot

As long as somebody waits for a snapshot, the history is the one in which the snapshot was
begun, and its stream is only written further (`Stream.Coordinator.Continues`).  So the
backlog is a ring that stood at the offset of the snapshot, with some writes on top
(`Stream.Coordinator.Holds`).  What a finished snapshot comes to is said for each replica
that waits (`Stream.Coordinator.finishFullSync_served`).
-/

namespace ReplicaStore

namespace Stream

namespace Backlog

/-- The backlog after several writes. -/
def writeAll (backlog : Backlog) (writes : List Bytes) : Backlog :=
  writes.foldl (fun backlog bytes => (backlog.write bytes).2) backlog

@[simp] theorem writeAll_nil (backlog : Backlog) : backlog.writeAll [] = backlog := rfl

@[simp] theorem writeAll_cons (backlog : Backlog) (bytes : Bytes) (writes : List Bytes) :
    backlog.writeAll (bytes :: writes) = (backlog.write bytes).2.writeAll writes := rfl

@[simp] theorem writeAll_append (backlog : Backlog) (first second : List Bytes) :
    backlog.writeAll (first ++ second) = (backlog.writeAll first).writeAll second :=
  List.foldl_append ..

/-- Writing moves neither the offset at which the stream began nor the size of the ring. -/
theorem write_frame (backlog : Backlog) (bytes : Bytes) :
    (backlog.write bytes).2.startOffset = backlog.startOffset ∧
      (backlog.write bytes).2.capacity = backlog.capacity := by
  rw [write]
  split <;> exact ⟨rfl, rfl⟩

theorem writeAll_frame (backlog : Backlog) (writes : List Bytes) :
    (backlog.writeAll writes).startOffset = backlog.startOffset ∧
      (backlog.writeAll writes).capacity = backlog.capacity := by
  induction writes generalizing backlog with
  | nil => exact ⟨rfl, rfl⟩
  | cons bytes writes ih =>
      obtain ⟨start, capacity⟩ := backlog.write_frame bytes
      obtain ⟨starts, capacities⟩ := ih (backlog.write bytes).2
      exact ⟨starts.trans start, capacities.trans capacity⟩

theorem held_write {backlog : Backlog} (ready : backlog.Ready) (bytes : Bytes) :
    (backlog.write bytes).2.held = min (backlog.held + bytes.length) backlog.capacity := by
  rw [write, if_pos ready.active]
  dsimp only
  rw [List.length_drop]
  omega

/-- A ring holds as much of what is written as there is room for. -/
theorem held_writeAll {backlog : Backlog} (ready : backlog.Ready) (writes : List Bytes) :
    (backlog.writeAll writes).held = min (backlog.held + writes.flatten.length) backlog.capacity := by
  induction writes generalizing backlog with
  | nil =>
      have bounded := ready.bounded
      simp only [writeAll_nil, List.flatten_nil, List.length_nil]
      omega
  | cons bytes writes ih =>
      rw [writeAll_cons, ih (ready.write bytes), held_write ready, (backlog.write_frame bytes).2,
        List.flatten_cons, List.length_append]
      omega

theorem Since.writeAll {backlog : Backlog} {offset : Int} {bytes : Bytes}
    (since : backlog.Since offset bytes) {writes : List Bytes}
    (range : backlog.writeOffset + writes.flatten.length < endOfOffsets) :
    (backlog.writeAll writes).Since offset (bytes ++ writes.flatten) := by
  induction writes generalizing backlog bytes with
  | nil => simpa using since
  | cons next writes ih =>
      rw [List.flatten_cons, List.length_append] at range
      have written := since.write next (by omega)
      have spans := written.span
      have span := since.span
      rw [List.length_append] at spans
      rw [writeAll_cons, List.flatten_cons, ← List.append_assoc]
      exact ih written (by omega)

/-- What has been written since an offset is read from there as long as the ring has room for
it.  Otherwise the offset has been overwritten. -/
theorem read_writeAll {backlog : Backlog} (ready : backlog.Ready) (least : 0 ≤ backlog.writeOffset)
    {writes : List Bytes}
    (range : backlog.writeOffset + writes.flatten.length < endOfOffsets) :
    (backlog.writeAll writes).read backlog.writeOffset =
      if writes.flatten.length ≤ backlog.capacity then .ok writes.flatten
      else .error (.dataLoss backlog.writeOffset) := by
  have since := (Since.nil ready.active least ready.bounded).writeAll range
  have span := since.span
  have held := held_writeAll ready writes
  rw [List.nil_append] at since span
  split
  · next room =>
      have readable : (backlog.writeAll writes).readable backlog.writeOffset = .ok () := by
        rw [Backlog.readable, if_neg (by omega), if_neg (by omega)]
      cases given : (backlog.writeAll writes).read backlog.writeOffset with
      | ok tail => rw [since.read (by omega) given]
      | error error =>
          rw [Backlog.read, readable] at given
          cases given
  · next full =>
      rw [Backlog.read, Backlog.readable, if_neg (by omega), if_pos (by omega)]
      rfl

end Backlog

namespace Coordinator

variable {before between after coordinator : Coordinator}

/-- The history goes on: the stream is at most written further, the place of the last snapshot
is the same, and nobody waits for that snapshot if nobody did before. -/
structure Continues (before after : Coordinator) : Prop where
  identity : after.identity = before.identity
  backlog : ∃ writes : List Bytes, after.backlog = before.backlog.map (·.writeAll writes)
  snapshotOffset : after.snapshotOffset = before.snapshotOffset
  awaits : after.Awaits → before.Awaits

namespace Continues

theorem refl (coordinator : Coordinator) : Continues coordinator coordinator :=
  ⟨rfl, ⟨[], by simp⟩, rfl, fun waits => waits⟩

theorem trans (first : Continues before between) (second : Continues between after) :
    Continues before after where
  identity := second.identity.trans first.identity
  backlog := by
    obtain ⟨writes, made⟩ := first.backlog
    obtain ⟨more, remade⟩ := second.backlog
    refine ⟨writes ++ more, ?_⟩
    rw [remade, made, Option.map_map]
    congr 1
    funext ring
    exact (ring.writeAll_append writes more).symm
  snapshotOffset := second.snapshotOffset.trans first.snapshotOffset
  awaits := fun waits => first.awaits (second.awaits waits)

theorem of_steady (steady : Steady before after) : Continues before after :=
  ⟨steady.identity, ⟨[], by simp [steady.backlog]⟩, steady.snapshotOffset, steady.awaits⟩

/-- The offset at which the stream began is the same. -/
theorem startOffset (continues : Continues before after) :
    after.backlog.map (·.startOffset) = before.backlog.map (·.startOffset) := by
  obtain ⟨writes, made⟩ := continues.backlog
  rw [made, Option.map_map]
  congr 1
  funext ring
  exact (ring.writeAll_frame writes).1

theorem feed (coordinator : Coordinator) (clients : Clients) (data : Bytes)
    (database : Option Nat) : Continues coordinator (coordinator.feed clients data database).1 := by
  cases recorded : coordinator.backlog with
  | none =>
      rw [feed_of_none recorded]
      exact refl coordinator
  | some ring =>
      rw [feed_of_some recorded]
      exact ⟨rfl, ⟨[coordinator.streamBytes data database], by simp [recorded]⟩, rfl,
        fun waits => waits⟩

theorem ping (coordinator : Coordinator) (clients : Clients) (now : Nat) (upkeep : Upkeep) :
    Continues coordinator (coordinator.ping clients now upkeep).1 := by
  have noted : Continues coordinator { coordinator with lastPing := now } :=
    ⟨rfl, ⟨[], by simp⟩, rfl, fun waits => waits⟩
  rcases ping_cases coordinator clients now upkeep with fed | same
  · rw [fed]
    exact noted.trans (feed ..)
  · rw [same]
    exact refl coordinator

/-- The upkeep leaves nobody waiting, or the history goes on. -/
theorem maintain (coordinator : Coordinator) (clients : Clients) (now : Nat) (upkeep : Upkeep) :
    ¬(coordinator.maintain clients now upkeep).2.1.Awaits ∨
      Continues coordinator (coordinator.maintain clients now upkeep).2.1 := by
  rcases maintain_steady coordinator clients now upkeep with lost | steady
  · exact .inl fun waits => lost (serves_of_awaits waits)
  · exact .inr ((ping coordinator clients now upkeep).trans (.of_steady steady))

/-- Registering a replica that does not wait. -/
theorem register (coordinator : Coordinator) (clients : Clients) (now : Nat) (id : ClientId)
    {state : ReplicaState} (idle : state ≠ .awaitingSnapshot) (offset : Int) :
    Continues coordinator (coordinator.register clients now id state offset) where
  identity := rfl
  backlog := ⟨[], by simp [Coordinator.register]⟩
  snapshotOffset := rfl
  awaits := awaits_register idle

/-- Whoever needs a snapshot joins those who wait. -/
theorem markAwaiting (waits : coordinator.Awaits) :
    Continues coordinator coordinator.markAwaiting.2 :=
  ⟨rfl, ⟨[], by simp [Coordinator.markAwaiting]⟩, rfl, fun _ => waits⟩

end Continues

/-- The backlog is a ring that stood at the place of the last snapshot, with some writes on
top. -/
structure Holds (coordinator : Coordinator) (ring : Backlog) (writes : List Bytes) : Prop where
  backlog : coordinator.backlog = some (ring.writeAll writes)
  place : ring.writeOffset = coordinator.snapshotOffset
  ready : ring.Ready

/-- A snapshot is begun at the end of the stream. -/
theorem Holds.begun {ring : Backlog} (orderly : coordinator.Orderly)
    (recorded : coordinator.backlog = some ring) : coordinator.snapshotStarted.Holds ring [] where
  backlog := recorded
  place := by simp [snapshotStarted, Coordinator.offset, recorded]
  ready := orderly.ready ring recorded

theorem Holds.continues {ring : Backlog} {writes : List Bytes} (holds : before.Holds ring writes)
    (continues : before.Continues after) : ∃ more, after.Holds ring (writes ++ more) := by
  obtain ⟨more, made⟩ := continues.backlog
  refine ⟨more, ?_, holds.place.trans continues.snapshotOffset.symm, holds.ready⟩
  rw [made, holds.backlog, Option.map_some, Backlog.writeAll_append]

/-! ### What becomes of those who wait -/

section

variable {clients : Clients} {id : ClientId}

/-- Nothing can be queued for a client whose queue nobody reads. -/
theorem pending_unread (unread : clients.reaches id = false) (other : ClientId)
    (message : Outgoing) : (clients.queue other message).pending id = clients.pending id := by
  rw [Clients.pending, Clients.pending, Clients.getElem?_queue]
  rw [Clients.reaches] at unread
  split
  · cases found : clients[id]? with
    | none => rfl
    | some client =>
        have deaf : client.reading = false := by simpa [found] using unread
        simp [deaf]
  · rfl

theorem pending_closeAll_unread (unread : clients.reaches id = false) (ids : List ClientId) :
    (clients.closeAll ids).pending id = clients.pending id := by
  rw [Clients.closeAll]
  induction ids generalizing clients with
  | nil => rfl
  | cons first ids ih =>
      exact (ih ((Clients.reaches_queue ..).trans unread)).trans
        (pending_unread unread first .close)

/-- What is queued for a client whose connection is asked to be closed once. -/
theorem dropReplicas_dropped {ids : List ClientId} (once : ids.Nodup) (among : id ∈ ids)
    (coordinator : Coordinator) (clients : Clients) :
    (coordinator.dropReplicas clients ids).1.stateOf id = none ∧
      (coordinator.dropReplicas clients ids).2.pending id =
        clients.pending id ++ if clients.reaches id then [.close] else [] := by
  refine ⟨by rw [stateOf_dropReplicas, if_pos among], ?_⟩
  cases reaches : clients.reaches id with
  | true =>
      have closed := Clients.pending_closeAll reaches ids
      rw [once.count, if_pos among] at closed
      exact closed
  | false =>
      rw [if_neg (by simp), List.append_nil]
      exact pending_closeAll_unread reaches ids

variable {now : Nat} {payload tail : Bytes}

/-- Whoever does not read what is queued for it stays where it is while others are shipped a
snapshot. -/
theorem pending_foldl_ship_unread {desk : Desk} (unread : desk.2.reaches id = false)
    (ids : List ClientId) :
    (ids.foldl (ship now payload tail) desk).2.pending id = desk.2.pending id := by
  induction ids generalizing desk with
  | nil => rfl
  | cons first ids ih =>
      exact (ih ((reaches_ship ..).trans unread)).trans (pending_unread unread ..)

theorem stateOf_foldl_ship_unread {desk : Desk} {ids : List ClientId} (once : ids.Nodup)
    (among : id ∈ ids) (unread : desk.2.reaches id = false) :
    (ids.foldl (ship now payload tail) desk).1.stateOf id =
      (desk.1.stateOf id).map fun _ => .sendingSnapshot := by
  induction ids generalizing desk with
  | nil => cases among
  | cons first ids ih =>
      rw [List.nodup_cons] at once
      rw [List.foldl_cons]
      rcases List.mem_cons.mp among with rfl | later
      · rw [stateOf, getElem?_foldl_ship once.1]
        simp only [ship, changeReplica, unread, Std.ExtTreeMap.getElem?_modify_self,
          Option.map_map, stateOf]
        rfl
      · have apart : first ≠ id := by
          rintro rfl
          exact once.1 later
        rw [ih once.2 later ((reaches_ship ..).trans unread), ship_other apart]

/-- A replica that waits is sent the finished snapshot and the stream from where it was begun.
It is online from then on, unless nobody reads what is queued for it. -/
theorem finishFullSync_served {coordinator : Coordinator} {ring : Backlog}
    (waits : coordinator.stateOf id = some .awaitingSnapshot)
    (recorded : coordinator.backlog = some ring)
    (read : ring.read coordinator.snapshotOffset = .ok tail) :
    (coordinator.finishFullSync clients now payload).1.stateOf id =
        some (if clients.reaches id then .online else .sendingSnapshot) ∧
      (coordinator.finishFullSync clients now payload).2.pending id =
        clients.pending id ++
          if clients.reaches id then
            [.data (fullReply coordinator.identity.current coordinator.snapshotOffset payload tail)]
          else [] := by
  have among := mem_replicasIn_iff.mpr waits
  have once := coordinator.nodup_replicasIn .awaitingSnapshot
  have some : (coordinator.replicasIn .awaitingSnapshot).isEmpty = false :=
    List.isEmpty_eq_false_iff_exists_mem.mpr ⟨id, among⟩
  simp only [finishFullSync, some, Bool.false_eq_true, if_false, recorded, read]
  cases reaches : clients.reaches id with
  | true =>
      obtain ⟨state, pending⟩ := @foldl_ship_among id now payload tail (coordinator, clients)
        _ once among reaches
      rw [waits] at state
      exact ⟨state, pending⟩
  | false =>
      have state := @stateOf_foldl_ship_unread id now payload tail (coordinator, clients)
        _ once among reaches
      have pending := @pending_foldl_ship_unread id now payload tail (coordinator, clients)
        reaches (coordinator.replicasIn .awaitingSnapshot)
      rw [waits] at state
      exact ⟨state, by simpa using pending⟩

/-- A replica that waits is dropped if the place where the snapshot was begun cannot be read
any more. -/
theorem finishFullSync_dropped {coordinator : Coordinator} {ring : Backlog}
    (waits : coordinator.stateOf id = some .awaitingSnapshot)
    (recorded : coordinator.backlog = some ring) {error : BacklogError}
    (read : ring.read coordinator.snapshotOffset = .error error) :
    (coordinator.finishFullSync clients now payload).1.stateOf id = none ∧
      (coordinator.finishFullSync clients now payload).2.pending id =
        clients.pending id ++ if clients.reaches id then [.close] else [] := by
  have among := mem_replicasIn_iff.mpr waits
  have once := coordinator.nodup_replicasIn .awaitingSnapshot
  have some : (coordinator.replicasIn .awaitingSnapshot).isEmpty = false :=
    List.isEmpty_eq_false_iff_exists_mem.mpr ⟨id, among⟩
  simp only [finishFullSync, some, Bool.false_eq_true, if_false, recorded, read]
  exact dropReplicas_dropped once among coordinator clients

theorem failFullSync_dropped {coordinator : Coordinator}
    (waits : coordinator.stateOf id = some .awaitingSnapshot) :
    (coordinator.failFullSync clients).1.stateOf id = none ∧
      (coordinator.failFullSync clients).2.pending id =
        clients.pending id ++ if clients.reaches id then [.close] else [] :=
  dropReplicas_dropped (coordinator.nodup_replicasIn .awaitingSnapshot)
    (mem_replicasIn_iff.mpr waits) coordinator clients

end

end Coordinator
end Stream
end ReplicaStore
