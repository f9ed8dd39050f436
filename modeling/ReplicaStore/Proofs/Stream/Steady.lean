import ReplicaStore.Stream.Coordinator

/-!
# What leaves the stream alone

Most of what a coordinator does concerns single replicas and says nothing in the stream.
It is steady then: the history, the bytes recorded and the place of the last snapshot
are the same, nobody new waits for that snapshot, and the stream has selected the same
database as before unless this was forgotten.
-/

namespace ReplicaStore.Stream.Coordinator

/-- Some replica waits for the snapshot that is being written. -/
def Awaits (coordinator : Coordinator) : Prop :=
  ∃ (id : ClientId) (replica : Replica),
    coordinator.replicas[id]? = some replica ∧ replica.state = .awaitingSnapshot

theorem awaits_congr {coordinator later : Coordinator} (same : later.replicas = coordinator.replicas) :
    later.Awaits ↔ coordinator.Awaits := by
  rw [Awaits, Awaits, same]

/-- There are some replicas. -/
def Serves (coordinator : Coordinator) : Prop :=
  ∃ (id : ClientId) (replica : Replica), coordinator.replicas[id]? = some replica

/-- Nothing has happened to the stream. -/
structure Steady (before after : Coordinator) : Prop where
  identity : after.identity = before.identity
  backlog : after.backlog = before.backlog
  stream : after.streamDatabase = none ∨ after.streamDatabase = before.streamDatabase
  snapshotOffset : after.snapshotOffset = before.snapshotOffset
  replicas : ∀ (id : ClientId) (replica : Replica), after.replicas[id]? = some replica →
    ∃ earlier : Replica, before.replicas[id]? = some earlier ∧
      (replica.state = .awaitingSnapshot → earlier.state = .awaitingSnapshot)

namespace Steady

variable {before between after : Coordinator}

theorem refl (coordinator : Coordinator) : Steady coordinator coordinator where
  identity := rfl
  backlog := rfl
  stream := .inr rfl
  snapshotOffset := rfl
  replicas := fun _ replica found => ⟨replica, found, fun waiting => waiting⟩

theorem trans (first : Steady before between) (second : Steady between after) :
    Steady before after where
  identity := second.identity.trans first.identity
  backlog := second.backlog.trans first.backlog
  stream := by
    rcases second.stream with forgotten | same
    · exact .inl forgotten
    · rw [same]
      exact first.stream
  snapshotOffset := second.snapshotOffset.trans first.snapshotOffset
  replicas := by
    intro id replica found
    obtain ⟨middle, there, kept⟩ := second.replicas id replica found
    obtain ⟨earlier, here, before⟩ := first.replicas id middle there
    exact ⟨earlier, here, fun waiting => before (kept waiting)⟩

theorem awaits (steady : Steady before after) (waiting : after.Awaits) : before.Awaits := by
  obtain ⟨id, replica, found, state⟩ := waiting
  obtain ⟨earlier, there, kept⟩ := steady.replicas id replica found
  exact ⟨id, earlier, there, kept state⟩

theorem serves (steady : Steady before after) (some : after.Serves) : before.Serves := by
  obtain ⟨id, replica, found⟩ := some
  obtain ⟨earlier, there, _⟩ := steady.replicas id replica found
  exact ⟨id, earlier, there⟩

/-! ### Single replicas -/

theorem changeReplica (coordinator : Coordinator) (id : ClientId) {change : Replica → Replica}
    (kept : ∀ replica, (change replica).state = .awaitingSnapshot →
      replica.state = .awaitingSnapshot) :
    Steady coordinator (coordinator.changeReplica id change) where
  identity := rfl
  backlog := rfl
  stream := .inr rfl
  snapshotOffset := rfl
  replicas := by
    intro other replica found
    simp only [Coordinator.changeReplica, Std.ExtTreeMap.getElem?_modify] at found
    split at found
    · next same =>
        obtain ⟨earlier, there, rfl⟩ := Option.map_eq_some_iff.mp found
        rw [Std.LawfulEqCmp.eq_of_compare same] at there
        exact ⟨earlier, there, kept earlier⟩
    · exact ⟨replica, found, fun waiting => waiting⟩

theorem acknowledge (coordinator : Coordinator) (now : Nat) (id : ClientId) (offset : Int) :
    Steady coordinator (coordinator.acknowledge now id offset) :=
  changeReplica coordinator id fun _ waiting => waiting

theorem touch (coordinator : Coordinator) (now : Nat) (id : ClientId) :
    Steady coordinator (coordinator.touch now id) :=
  changeReplica coordinator id fun _ waiting => waiting

theorem remove (coordinator : Coordinator) (id : ClientId) :
    Steady coordinator (coordinator.remove id) where
  identity := rfl
  backlog := rfl
  stream := .inr rfl
  snapshotOffset := rfl
  replicas := by
    intro other replica found
    simp only [Coordinator.remove, Std.ExtTreeMap.getElem?_erase] at found
    split at found
    · cases found
    · exact ⟨replica, found, fun waiting => waiting⟩

theorem forgetStreamDatabase (coordinator : Coordinator) :
    Steady coordinator coordinator.forgetStreamDatabase where
  identity := rfl
  backlog := rfl
  stream := .inl rfl
  snapshotOffset := rfl
  replicas := fun _ replica found => ⟨replica, found, fun waiting => waiting⟩

/-! ### Several replicas -/

theorem getElem?_dropReplicas (coordinator : Coordinator) (clients : Clients)
    (ids : List ClientId) (other : ClientId) :
    (coordinator.dropReplicas clients ids).1.replicas[other]? =
      if other ∈ ids then none else coordinator.replicas[other]? := by
  simp only [Coordinator.dropReplicas]
  generalize coordinator.replicas = replicas
  induction ids generalizing replicas with
  | nil => simp
  | cons id ids ih =>
      rw [List.foldl_cons, ih]
      by_cases among : other ∈ ids
      · simp [among]
      · by_cases same : id = other
        · simp [same]
        · simp [among, same, Ne.symm same, Std.ExtTreeMap.getElem?_erase]

theorem dropReplicas (coordinator : Coordinator) (clients : Clients) (ids : List ClientId) :
    Steady coordinator (coordinator.dropReplicas clients ids).1 where
  identity := rfl
  backlog := rfl
  stream := .inr rfl
  snapshotOffset := rfl
  replicas := by
    intro other replica found
    rw [getElem?_dropReplicas] at found
    split at found
    · cases found
    · exact ⟨replica, found, fun waiting => waiting⟩

/-- After all replicas have been dropped there is none. -/
theorem not_serves_dropAll (coordinator : Coordinator) (clients : Clients) :
    ¬(coordinator.dropAll clients).1.Serves := by
  rintro ⟨id, replica, found⟩
  rw [Coordinator.dropAll, getElem?_dropReplicas] at found
  split at found
  · cases found
  · next gone =>
      rw [Std.ExtTreeMap.mem_keys, Std.ExtTreeMap.mem_iff_isSome_getElem?, found] at gone
      exact gone rfl

end Steady

theorem mem_replicasIn {coordinator : Coordinator} {state : ReplicaState} {id : ClientId} :
    id ∈ coordinator.replicasIn state ↔
      ∃ replica : Replica, coordinator.replicas[id]? = some replica ∧ replica.state = state := by
  rw [replicasIn, Std.ExtTreeMap.mem_keys, Std.ExtTreeMap.mem_iff_isSome_getElem?,
    Std.ExtTreeMap.getElem?_filter']
  cases coordinator.replicas[id]? with
  | none => simp
  | some replica => cases same : replica.state == state <;> simp_all

theorem awaits_iff {coordinator : Coordinator} :
    coordinator.Awaits ↔ coordinator.hasReplicaIn .awaitingSnapshot = true := by
  simp only [hasReplicaIn, Bool.not_eq_true', List.isEmpty_eq_false_iff_exists_mem, mem_replicasIn]
  rfl

theorem serves_of_awaits {coordinator : Coordinator} (awaits : coordinator.Awaits) :
    coordinator.Serves := by
  obtain ⟨id, replica, found, _⟩ := awaits
  exact ⟨id, replica, found⟩

theorem awaits_register {coordinator : Coordinator} {clients : Clients} {now : Nat} {id : ClientId}
    {state : ReplicaState} {offset : Int} (other : state ≠ .awaitingSnapshot)
    (waits : (coordinator.register clients now id state offset).Awaits) : coordinator.Awaits := by
  obtain ⟨client, replica, found, waiting⟩ := waits
  simp only [register, Std.ExtTreeMap.getElem?_insert] at found
  split at found
  · cases found
    exact absurd waiting other
  · exact ⟨client, replica, found, waiting⟩

/-! ### Shipping snapshots -/

/-- A replica that a snapshot is shipped to does not wait for it any more. -/
theorem ship_replicas {state : Coordinator × Clients} {now : Nat} {payload tail : Bytes}
    {id other : ClientId} {replica : Replica}
    (found : (ship now payload tail state id).1.replicas[other]? = some replica) :
    ∃ earlier : Replica, state.1.replicas[other]? = some earlier ∧
      (replica.state = .awaitingSnapshot → other ≠ id ∧ earlier.state = .awaitingSnapshot) := by
  simp only [ship, Coordinator.changeReplica, Std.ExtTreeMap.getElem?_modify] at found
  split at found
  · next same =>
      obtain ⟨earlier, there, rfl⟩ := Option.map_eq_some_iff.mp found
      rw [Std.LawfulEqCmp.eq_of_compare same] at there
      refine ⟨earlier, there, ?_⟩
      split <;> simp
  · next apart =>
      refine ⟨replica, found, fun waiting => ⟨?_, waiting⟩⟩
      rintro rfl
      exact apart Std.ReflCmp.compare_self

/-- Shipping changes nothing but the states of replicas, and those that a snapshot is
shipped to do not wait any more. -/
theorem foldl_ship {now : Nat} {payload tail : Bytes} (ids : List ClientId)
    (state : Coordinator × Clients) :
    Steady state.1 (ids.foldl (ship now payload tail) state).1 ∧
    ∀ (id : ClientId) (replica : Replica),
      (ids.foldl (ship now payload tail) state).1.replicas[id]? = some replica →
      replica.state = .awaitingSnapshot → id ∉ ids := by
  induction ids generalizing state with
  | nil => exact ⟨.refl _, by simp⟩
  | cons first ids ih =>
      obtain ⟨steady, gone⟩ := ih (ship now payload tail state first)
      have shipped : Steady state.1 (ship now payload tail state first).1 :=
        ⟨rfl, rfl, .inr rfl, rfl, fun id replica found => by
          obtain ⟨earlier, there, kept⟩ := ship_replicas found
          exact ⟨earlier, there, fun waiting => (kept waiting).2⟩⟩
      refine ⟨shipped.trans steady, ?_⟩
      intro id replica found waiting
      rw [List.foldl_cons] at found
      obtain ⟨between, there, kept⟩ := steady.replicas id replica found
      obtain ⟨_, _, before⟩ := ship_replicas there
      rw [List.mem_cons]
      rintro (same | member)
      · exact (before (kept waiting)).1 same
      · exact gone id replica found waiting member

/-- A finished snapshot leaves the stream alone, and nobody waits for it any more. -/
theorem finishFullSync_steady (coordinator : Coordinator) (clients : Clients) (now : Nat)
    (payload : Bytes) :
    Steady coordinator (coordinator.finishFullSync clients now payload).1 ∧
      ¬(coordinator.finishFullSync clients now payload).1.Awaits := by
  have dropped (clients : Clients) :
      ¬(coordinator.dropReplicas clients (coordinator.replicasIn .awaitingSnapshot)).1.Awaits := by
    rintro ⟨id, replica, found, waiting⟩
    rw [Steady.getElem?_dropReplicas] at found
    split at found
    · cases found
    · next apart => exact apart (mem_replicasIn.mpr ⟨replica, found, waiting⟩)
  simp only [finishFullSync]
  split
  · next nobody =>
      refine ⟨.refl _, ?_⟩
      rw [awaits_iff, hasReplicaIn, nobody]
      simp
  · split
    · exact ⟨.dropReplicas .., dropped clients⟩
    · split
      · exact ⟨(Steady.dropReplicas ..).trans (.forgetStreamDatabase _), dropped clients⟩
      · next tail _ =>
          obtain ⟨steady, gone⟩ := @foldl_ship now payload tail
            (coordinator.replicasIn .awaitingSnapshot) (coordinator, clients)
          refine ⟨steady.trans (.forgetStreamDatabase _), ?_⟩
          rintro ⟨id, replica, found, waiting⟩
          obtain ⟨earlier, there, kept⟩ := steady.replicas id replica found
          exact gone id replica found waiting (mem_replicasIn.mpr ⟨earlier, there, kept waiting⟩)

theorem failFullSync_steady (coordinator : Coordinator) (clients : Clients) :
    Steady coordinator (coordinator.failFullSync clients).1 ∧
      ¬(coordinator.failFullSync clients).1.Awaits := by
  refine ⟨.dropReplicas .., ?_⟩
  rintro ⟨id, replica, found, waiting⟩
  rw [failFullSync, Steady.getElem?_dropReplicas] at found
  split at found
  · cases found
  · next apart => exact apart (mem_replicasIn.mpr ⟨replica, found, waiting⟩)

/-! ### Upkeep -/

theorem replicas_expireBacklog (coordinator : Coordinator) (now : Nat) (upkeep : Upkeep) :
    (coordinator.expireBacklog now upkeep).replicas = coordinator.replicas := by
  simp only [expireBacklog, rotateIdentity]
  split
  · split <;> simp only
  · simp only

/-- A backlog is given up at most when there are no replicas. -/
theorem backlog_expireBacklog (coordinator : Coordinator) (now : Nat) (upkeep : Upkeep) :
    (coordinator.expireBacklog now upkeep).backlog = coordinator.backlog ∨
      coordinator.replicas.isEmpty = true ∧
        (coordinator.expireBacklog now upkeep).backlog = none := by
  simp only [expireBacklog, rotateIdentity]
  split
  · next empty =>
      split
      · exact .inr ⟨empty, rfl⟩
      · exact .inl rfl
  · exact .inl rfl

/-- The regular upkeep either gives the history up, for which no replica may be left, or
does nothing to the stream but send a ping down. -/
theorem maintain_steady (coordinator : Coordinator) (clients : Clients) (now : Nat)
    (upkeep : Upkeep) :
    ¬(coordinator.maintain clients now upkeep).2.1.Serves ∨
      Steady (coordinator.ping clients now upkeep).1
        (coordinator.maintain clients now upkeep).2.1 := by
  simp only [maintain]
  generalize dropped : ((coordinator.ping clients now upkeep).1.dropReplicas _ _).1 = rest
  have steady : Steady (coordinator.ping clients now upkeep).1 rest := by
    rw [← dropped]
    exact .dropReplicas ..
  by_cases empty : rest.replicas.isEmpty = true
  · refine .inl ?_
    rintro ⟨id, replica, found⟩
    rw [replicas_expireBacklog, Std.ExtTreeMap.isEmpty_iff.mp empty] at found
    simp at found
  · rw [expireBacklog, if_neg empty]
    exact .inr (steady.trans ⟨rfl, rfl, .inr rfl, rfl, fun _ replica found =>
      ⟨replica, found, fun waiting => waiting⟩⟩)

theorem feed_of_none {coordinator : Coordinator} (none : coordinator.backlog = none)
    (clients : Clients) (data : Bytes) (database : Option Nat) :
    (coordinator.feed clients data database).1 = coordinator := by
  rw [feed, none]

theorem feed_of_some {coordinator : Coordinator} {backlog : Backlog}
    (some : coordinator.backlog = some backlog) (clients : Clients) (data : Bytes)
    (database : Option Nat) :
    (coordinator.feed clients data database).1 =
      { coordinator with
        backlog := Option.some (backlog.write (coordinator.streamBytes data database)).2
        streamDatabase := database.orElse fun _ => coordinator.streamDatabase } := by
  rw [feed, some]

/-- Bytes may have been recorded and sent.  But for the backlog, the selected database and the
time of the last ping, all is as before. -/
structure Fed (before after : Coordinator) : Prop where
  identity : after.identity = before.identity
  supply : after.supply = before.supply
  recorded : after.backlog.isSome = before.backlog.isSome
  replicas : after.replicas = before.replicas
  snapshotOffset : after.snapshotOffset = before.snapshotOffset
  idleSince : after.idleSince = before.idleSince

theorem fed_feed (coordinator : Coordinator) (clients : Clients) (data : Bytes)
    (database : Option Nat) : Fed coordinator (coordinator.feed clients data database).1 := by
  cases found : coordinator.backlog with
  | none =>
      rw [feed_of_none found]
      exact ⟨rfl, rfl, rfl, rfl, rfl, rfl⟩
  | some backlog =>
      rw [feed_of_some found]
      exact ⟨rfl, rfl, by rw [found]; rfl, rfl, rfl, rfl⟩

/-- What is fed for no database leaves the selection alone. -/
theorem streamDatabase_feed (coordinator : Coordinator) (clients : Clients) (data : Bytes) :
    (coordinator.feed clients data none).1.streamDatabase = coordinator.streamDatabase := by
  rw [feed]
  split <;> rfl

/-- A ping is due and fed, or nothing happens. -/
theorem ping_cases (coordinator : Coordinator) (clients : Clients) (now : Nat) (upkeep : Upkeep) :
    (coordinator.ping clients now upkeep).1 =
        ({ coordinator with lastPing := now }.feed clients (Wire.commandBytes ["PING"]) none).1 ∨
      (coordinator.ping clients now upkeep).1 = coordinator := by
  rw [ping]
  split
  · exact .inl rfl
  · exact .inr rfl

theorem fed_ping (coordinator : Coordinator) (clients : Clients) (now : Nat) (upkeep : Upkeep) :
    Fed coordinator (coordinator.ping clients now upkeep).1 := by
  rcases ping_cases coordinator clients now upkeep with fed | same
  · have noted := fed_feed { coordinator with lastPing := now } clients
      (Wire.commandBytes ["PING"]) none
    rw [fed]
    exact ⟨noted.identity, noted.supply, noted.recorded, noted.replicas, noted.snapshotOffset,
      noted.idleSince⟩
  · rw [same]
    exact ⟨rfl, rfl, rfl, rfl, rfl, rfl⟩

theorem streamDatabase_ping (coordinator : Coordinator) (clients : Clients) (now : Nat)
    (upkeep : Upkeep) :
    (coordinator.ping clients now upkeep).1.streamDatabase = coordinator.streamDatabase := by
  rcases ping_cases coordinator clients now upkeep with fed | same
  · rw [fed, streamDatabase_feed]
  · rw [same]

namespace Fed

variable {before after : Coordinator}

theorem awaits (fed : Fed before after) : after.Awaits ↔ before.Awaits :=
  awaits_congr fed.replicas

theorem unrecorded (fed : Fed before after) (none : before.backlog = none) :
    after.backlog = .none := by
  rw [← Option.not_isSome_iff_eq_none, fed.recorded, none]
  simp

end Fed

/-! ### Replicas and backlog -/

end Coordinator

namespace Backlog

/-- A backlog that takes up what is written, and holds no more than there is room for. -/
structure Ready (backlog : Backlog) : Prop where
  active : backlog.active = true
  bounded : backlog.held ≤ backlog.capacity

theorem Ready.fresh (capacity : Nat) (offset : Int) :
    ((Backlog.new capacity).reset offset).activate.Ready :=
  ⟨rfl, Nat.zero_le _⟩

theorem Ready.write {backlog : Backlog} (ready : backlog.Ready) (data : Bytes) :
    (backlog.write data).2.Ready := by
  rw [Backlog.write, if_pos ready.active]
  exact ⟨ready.active, Nat.min_le_right ..⟩

end Backlog

namespace Coordinator

/-- Whoever is a replica follows a stream that is recorded. -/
structure Orderly (coordinator : Coordinator) : Prop where
  recorded : coordinator.Serves → coordinator.backlog.isSome = true
  ready : ∀ backlog, coordinator.backlog = some backlog → backlog.Ready

namespace Orderly

variable {coordinator later : Coordinator}

theorem new (supply : IdSupply) (backlogSize now : Nat) :
    (Coordinator.new supply backlogSize now).Orderly where
  recorded := by
    rintro ⟨id, replica, found⟩
    simp [Coordinator.new] at found
  ready := by
    intro backlog found
    cases found

theorem congr (orderly : coordinator.Orderly)
    (replicas : later.replicas = coordinator.replicas)
    (backlog : later.backlog = coordinator.backlog) : later.Orderly where
  recorded := by
    rintro ⟨id, replica, found⟩
    rw [backlog]
    rw [replicas] at found
    exact orderly.recorded ⟨id, replica, found⟩
  ready := by
    rw [backlog]
    exact orderly.ready

theorem steady (orderly : coordinator.Orderly) (steady : Steady coordinator later) :
    later.Orderly where
  recorded := by
    intro serves
    rw [steady.backlog]
    exact orderly.recorded (steady.serves serves)
  ready := by
    rw [steady.backlog]
    exact orderly.ready

theorem bounded (orderly : coordinator.Orderly) :
    coordinator.backlogOrNew.held ≤ coordinator.backlogOrNew.capacity := by
  rw [backlogOrNew]
  cases found : coordinator.backlog with
  | none => exact Nat.zero_le _
  | some backlog => exact (orderly.ready backlog found).bounded

/-- A backlog that is changed is there. -/
theorem of_changeBacklog {change : Backlog → Backlog}
    (made : (change coordinator.backlogOrNew).Ready) :
    (coordinator.changeBacklog change).Orderly where
  recorded := fun _ => rfl
  ready := by
    rintro _ ⟨⟩
    exact made

theorem register (orderly : coordinator.Orderly) (some : coordinator.backlog.isSome = true)
    (clients : Clients) (now : Nat) (id : ClientId) (state : ReplicaState) (offset : Int) :
    (coordinator.register clients now id state offset).Orderly where
  recorded := fun _ => some
  ready := orderly.ready

theorem markAwaiting (orderly : coordinator.Orderly) :
    coordinator.markAwaiting.2.Orderly where
  recorded := by
    rintro ⟨id, replica, found⟩
    rw [Coordinator.markAwaiting, Std.ExtTreeMap.getElem?_map] at found
    obtain ⟨earlier, there, _⟩ := Option.map_eq_some_iff.mp found
    exact orderly.recorded ⟨id, earlier, there⟩
  ready := orderly.ready

theorem expireBacklog (orderly : coordinator.Orderly) (now : Nat) (upkeep : Upkeep) :
    (coordinator.expireBacklog now upkeep).Orderly := by
  have replicas := replicas_expireBacklog coordinator now upkeep
  rcases backlog_expireBacklog coordinator now upkeep with same | ⟨empty, none⟩
  · exact orderly.congr replicas same
  · constructor
    · rintro ⟨id, replica, found⟩
      rw [replicas, Std.ExtTreeMap.isEmpty_iff.mp empty] at found
      simp at found
    · intro backlog found
      rw [none] at found
      cases found

theorem feed (orderly : coordinator.Orderly) (clients : Clients) (data : Bytes)
    (database : Option Nat) : (coordinator.feed clients data database).1.Orderly := by
  cases found : coordinator.backlog with
  | none =>
      rw [feed_of_none found]
      exact orderly
  | some backlog =>
      rw [feed_of_some found]
      refine ⟨fun _ => rfl, ?_⟩
      rintro _ ⟨⟩
      exact (orderly.ready backlog found).write _

theorem beginFullResync (orderly : coordinator.Orderly) (clients : Clients) (now : Nat)
    (id : ClientId) (offset : Int) :
    (coordinator.beginFullResync clients now id offset).Orderly := by
  simp only [Coordinator.beginFullResync]
  cases found : coordinator.backlog with
  | some backlog => exact orderly.register (by rw [found]; rfl) ..
  | none =>
      apply register
      · constructor
        · intro _
          simp only [Option.isSome_some]
        · intro backlog given
          simp only [Option.some.injEq] at given
          rw [← given]
          exact .fresh ..
      · simp only [Option.isSome_some]

theorem maintain (orderly : coordinator.Orderly) (clients : Clients) (now : Nat)
    (upkeep : Upkeep) : (coordinator.maintain clients now upkeep).2.1.Orderly := by
  have pinged : (coordinator.ping clients now upkeep).1.Orderly := by
    have noted : { coordinator with lastPing := now }.Orderly := orderly.congr rfl rfl
    rcases ping_cases coordinator clients now upkeep with fed | same
    · rw [fed]
      exact noted.feed ..
    · rw [same]
      exact orderly
  simp only [Coordinator.maintain]
  exact (pinged.steady (.dropReplicas ..)).expireBacklog now upkeep

end Orderly
end ReplicaStore.Stream.Coordinator
