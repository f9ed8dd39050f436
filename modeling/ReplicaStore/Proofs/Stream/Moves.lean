import ReplicaStore.Proofs.Stream.Delivery

/-!
# The moves of a coordinator

All that can happen to a coordinator and to what is queued for the clients of its node is a
sequence of a few kinds of move.  Saying once which moves each happening is made of, every
fact about the stream is proved by looking at the kinds of move.

Some clients are the audience of the stream: what is queued for them comes of the
coordinator alone.  `Move.Spares` says that a move does nothing else to them.
-/

namespace ReplicaStore

namespace Clients

/-- What is queued for a client and was not taken yet, the oldest first. -/
def pending (clients : Clients) (id : ClientId) : List Outgoing :=
  (clients[id]?.map (·.queue.toList)).getD []

variable {clients later : Clients} {id other : ClientId}

theorem pending_congr (same : later[id]? = clients[id]?) : later.pending id = clients.pending id := by
  rw [pending, pending, same]

theorem reaches_congr (same : later[id]? = clients[id]?) : later.reaches id = clients.reaches id := by
  rw [reaches, reaches, same]

theorem getElem?_insert_of_ne (apart : other ≠ id) (client : Client) :
    (Std.ExtTreeMap.insert clients other client)[id]? = clients[id]? := by
  simp [Std.ExtTreeMap.getElem?_insert, apart]

theorem getElem?_erase_of_ne (apart : other ≠ id) :
    (Std.ExtTreeMap.erase clients other)[id]? = clients[id]? := by
  simp [Std.ExtTreeMap.getElem?_erase, apart]

theorem getElem?_modify_of_ne (apart : other ≠ id) (change : Client → Client) :
    (Std.ExtTreeMap.modify clients other change)[id]? = clients[id]? := by
  simp [Std.ExtTreeMap.getElem?_modify, apart]

/-- What does not touch queues leaves what is pending. -/
theorem pending_modify (clients : Clients) (id other : ClientId) {change : Client → Client}
    (kept : ∀ client, (change client).queue = client.queue) :
    pending (clients.modify other change) id = clients.pending id := by
  rw [pending, pending, Std.ExtTreeMap.getElem?_modify]
  split
  · next same =>
      rw [Std.LawfulEqCmp.eq_of_compare same]
      cases clients[id]? with
      | none => rfl
      | some client => simp [kept]
  · rfl

theorem pending_queue (reaches : clients.reaches id = true) (other : ClientId)
    (message : Outgoing) :
    (clients.queue other message).pending id =
      clients.pending id ++ if other = id then [message] else [] := by
  rw [pending, pending, getElem?_queue]
  split
  · rw [Clients.reaches] at reaches
    cases found : clients[id]? with
    | none => simp [found] at reaches
    | some client =>
        have reads : client.reading = true := by simpa [found] using reaches
        simp [reads]
  · simp

/-- The same message for several clients. -/
theorem pending_foldl_queue (reaches : clients.reaches id = true) (ids : List ClientId)
    (message : Outgoing) :
    pending (ids.foldl (fun clients other => clients.queue other message) clients) id =
      clients.pending id ++ List.replicate (ids.count id) message := by
  induction ids generalizing clients with
  | nil => simp
  | cons first ids ih =>
      rw [List.foldl_cons, ih ((reaches_queue ..).trans reaches), pending_queue reaches]
      by_cases same : first = id
      · simp [same, List.replicate_succ]
      · simp [same]

theorem pending_sendAll (reaches : clients.reaches id = true) {ids : List ClientId}
    (once : ids.Nodup) (bytes : Bytes) :
    (clients.sendAll ids bytes).pending id =
      clients.pending id ++ if id ∈ ids then [.data bytes] else [] := by
  rw [sendAll]
  refine (pending_foldl_queue reaches ids (.data bytes)).trans ?_
  rw [once.count]
  split <;> rfl

theorem pending_closeAll (reaches : clients.reaches id = true) (ids : List ClientId) :
    (clients.closeAll ids).pending id =
      clients.pending id ++ List.replicate (ids.count id) .close :=
  pending_foldl_queue reaches ids .close

theorem getElem?_takeQueued (clients : Clients) (id : ClientId) :
    clients.takeQueued.2[id]? = clients[id]?.map fun client => { client with queue := #[] } := by
  simp [takeQueued]

theorem reaches_takeQueued (clients : Clients) (id : ClientId) :
    clients.takeQueued.2.reaches id = clients.reaches id := by
  rw [reaches, reaches, getElem?_takeQueued]
  cases clients[id]? <;> rfl

theorem pending_takeQueued (clients : Clients) (id : ClientId) :
    clients.takeQueued.2.pending id = [] := by
  rw [pending, getElem?_takeQueued]
  cases clients[id]? <;> rfl

end Clients

namespace Stream

/-- An active backlog need not be activated. -/
theorem Coordinator.changeBacklog_activate {coordinator : Coordinator} {backlog : Backlog}
    (recorded : coordinator.backlog = some backlog) (active : backlog.active = true) :
    coordinator.changeBacklog (·.activate) = coordinator := by
  obtain ⟨identity, supply, _, backlogSize, replicas, streamDatabase, snapshotOffset, lastPing,
    idleSince⟩ := coordinator
  dsimp only at recorded
  subst recorded
  simp [changeBacklog, backlogOrNew, Backlog.activate, ← active]

/-- A coordinator, and what it works with. -/
abbrev Desk := Coordinator × Clients

/-- One thing that happens at a desk. -/
inductive Move where
  | greet (id : ClientId) (address : String)
  | leave (id : ClientId)
  | hangUp (id : ClientId)
  /-- A change of what is known about a client. -/
  | adjust (id : ClientId) (change : Client → Client)
  | queue (id : ClientId) (message : Outgoing)
  /-- A change of what is known about a replica. -/
  | note (id : ClientId) (change : Replica → Replica)
  | strike (id : ClientId)
  | pinged (now : Nat)
  /-- Bytes are added to the stream, which has then selected a database. -/
  | feed (bytes : Bytes) (database : Option Nat)
  | resume (now : Nat) (id : ClientId) (history : String) (offset : Int)
  /-- A backlog is created, and with it begins a history. -/
  | create (offset : Int)
  | enlist (now : Nat) (id : ClientId) (offset : Int)
  | begun
  | await
  | finish (now : Nat) (payload : Bytes)
  | fail
  /-- Whoever is kept waiting is told that the node is alive. -/
  | comfort
  | drop (ids : List ClientId)
  | forget
  | expire (now : Nat) (upkeep : Coordinator.Upkeep)
  /-- The history is continued under a drawn id, which replicas must ask for again. -/
  | branch
  /-- The history is continued under a given id, which replicas must ask for again. -/
  | shift (history : String)
  | activate
  /-- The history of another node is taken over from an offset. -/
  | renew (history : String) (offset : Int)

namespace Move

/-- The desk after a move. -/
def apply (desk : Desk) : Move → Desk
  | greet id address => (desk.1, desk.2.insert id { address })
  | leave id => (desk.1, desk.2.erase id)
  | hangUp id => (desk.1, desk.2.hangUp id)
  | adjust id change => (desk.1, desk.2.modify id change)
  | queue id message => (desk.1, desk.2.queue id message)
  | note id change => (desk.1.changeReplica id change, desk.2)
  | strike id => (desk.1.remove id, desk.2)
  | pinged now => ({ desk.1 with lastPing := now }, desk.2)
  | feed bytes database =>
      match desk.1.backlog with
      | none => desk
      | some backlog =>
          ({ desk.1 with
              backlog := some (backlog.write bytes).2
              streamDatabase := database.orElse fun _ => desk.1.streamDatabase },
            desk.2.sendAll (desk.1.replicasIn .online) bytes)
  | resume now id history offset =>
      (desk.1.partialResync? desk.2 now id history offset).getD desk
  | create offset =>
      ({ desk.1.rotateIdentity with
          backlog := some ((Backlog.new desk.1.backlogSize).reset (max offset 0)).activate
          streamDatabase := none }, desk.2)
  | enlist now id offset => (desk.1.register desk.2 now id .needSnapshot offset, desk.2)
  | begun => (desk.1.snapshotStarted, desk.2)
  | await => (desk.1.markAwaiting.2, desk.2)
  | finish now payload => desk.1.finishFullSync desk.2 now payload
  | fail => desk.1.failFullSync desk.2
  | comfort => (desk.1, desk.2.sendAll desk.1.keptWaiting [10])
  | drop ids => desk.1.dropReplicas desk.2 ids
  | forget => (desk.1.forgetStreamDatabase, desk.2)
  | expire now upkeep => (desk.1.expireBacklog now upkeep, desk.2)
  | branch => desk.1.branchIdentity.dropAll desk.2
  | shift history => (desk.1.shiftIdentity history desk.1.offset).dropAll desk.2
  | activate => (desk.1.changeBacklog (·.activate), desk.2)
  | renew history offset =>
      (((desk.1.changeBacklog fun backlog => backlog.deactivate.reset offset).changeBacklog
        (·.activate)).adoptIdentity history).dropAll desk.2

/-- The desk after several moves. -/
def applyAll (moves : List Move) (desk : Desk) : Desk :=
  moves.foldl apply desk

@[simp] theorem applyAll_nil (desk : Desk) : applyAll [] desk = desk := rfl

@[simp] theorem applyAll_cons (move : Move) (moves : List Move) (desk : Desk) :
    applyAll (move :: moves) desk = applyAll moves (move.apply desk) := rfl

@[simp] theorem applyAll_append (first second : List Move) (desk : Desk) :
    applyAll (first ++ second) desk = applyAll second (applyAll first desk) :=
  List.foldl_append ..

/-- What a move adds to the stream, if that is recorded. -/
def fed : Move → Bytes
  | feed bytes _ => bytes
  | _ => []

/-- Whether a move leaves the audience to the coordinator. -/
@[simp] def Spares (audience : ClientId → Prop) : Move → Prop
  | greet id _ | leave id | hangUp id | strike id | resume _ id _ _ | enlist _ id _ => ¬audience id
  | adjust _ change =>
      ∀ client, (change client).queue = client.queue ∧ (change client).reading = client.reading
  | queue id message => message = .close ∨ ¬audience id
  | note _ change => ∀ replica, (change replica).state = replica.state
  | _ => True

/-- Whether a move adds to the stream. -/
@[simp] def Feeds : Move → Prop
  | feed .. => True
  | _ => False

/-- Whether a move puts another stream in place of the one that is recorded. -/
@[simp] def Restarts : Move → Prop
  | create _ | activate | renew .. => True
  | _ => False

/-- Whether a move may give the backlog up. -/
@[simp] def Expires : Move → Prop
  | expire .. => True
  | _ => False

/-- Whether a move can happen to a node that follows a leader, or does not. -/
@[simp] def Suits (following : Bool) : Move → Prop
  | expire _ upkeep => upkeep.following = following
  | _ => True

theorem suits_of_not_expires {move : Move} (stays : ¬move.Expires) (following : Bool) :
    move.Suits following := by
  cases move <;> first | trivial | exact absurd trivial stays

/-- A move of something that adds nothing to the stream.  Only where no stream is recorded
may one begin. -/
structure Still (audience : ClientId → Prop) (unrecorded : Prop) (move : Move) : Prop where
  spares : move.Spares audience
  keeps : ¬move.Feeds ∧ ¬move.Expires
  restarts : move.Restarts → unrecorded

@[simp] theorem still_iff {audience : ClientId → Prop} {unrecorded : Prop} {move : Move} :
    move.Still audience unrecorded ↔
      move.Spares audience ∧ (¬move.Feeds ∧ ¬move.Expires) ∧ (move.Restarts → unrecorded) :=
  ⟨fun still => ⟨still.spares, still.keeps, still.restarts⟩,
    fun still => ⟨still.1, still.2.1, still.2.2⟩⟩

theorem backlog_branch (desk : Desk) : (apply desk branch).1.backlog = desk.1.backlog := by
  simp only [apply, Coordinator.dropAll, Coordinator.dropReplicas, Coordinator.branchIdentity]

/-- What is recorded stays so, unless it is given up. -/
theorem recorded {move : Move} (stays : ¬move.Expires) {desk : Desk}
    (recorded : desk.1.backlog.isSome = true) : (move.apply desk).1.backlog.isSome = true := by
  cases move with
  | feed bytes database =>
      simp only [apply]
      split
      · exact recorded
      · rfl
  | resume now id history offset =>
      simp only [apply, Coordinator.partialResync?]
      cases desk.1.missed? history offset <;> exact recorded
  | finish now payload =>
      simp only [apply]
      rw [(Coordinator.finishFullSync_steady ..).1.backlog]
      exact recorded
  | branch =>
      rw [backlog_branch]
      exact recorded
  | expire => exact absurd trivial stays
  | create | activate | renew => rfl
  | _ => exact recorded

end Move

/-- One desk comes of another by allowed moves. -/
def Desk.Becomes (allowed : Move → Prop) (before after : Desk) : Prop :=
  ∃ moves : List Move, (∀ move ∈ moves, allowed move) ∧ after = Move.applyAll moves before

namespace Desk.Becomes

variable {allowed wider : Move → Prop} {before between after : Desk}

theorem refl (desk : Desk) : Desk.Becomes allowed desk desk :=
  ⟨[], by simp, rfl⟩

theorem trans (first : Desk.Becomes allowed before between)
    (second : Desk.Becomes allowed between after) : Desk.Becomes allowed before after := by
  obtain ⟨moves, all, rfl⟩ := first
  obtain ⟨later, allLater, rfl⟩ := second
  refine ⟨moves ++ later, ?_, by rw [Move.applyAll_append]⟩
  intro move member
  rcases List.mem_append.mp member with here | there
  · exact all move here
  · exact allLater move there

theorem mono (becomes : Desk.Becomes allowed before after)
    (widen : ∀ move, allowed move → wider move) : Desk.Becomes wider before after := by
  obtain ⟨moves, all, reached⟩ := becomes
  exact ⟨moves, fun move member => widen move (all move member), reached⟩

/-- What every allowed move keeps is kept. -/
theorem keeps {holds : Desk → Prop} (becomes : Desk.Becomes allowed before after)
    (step : ∀ move desk, allowed move → holds desk → holds (move.apply desk))
    (start : holds before) : holds after := by
  obtain ⟨moves, all, rfl⟩ := becomes
  induction moves generalizing before with
  | nil => exact start
  | cons move moves ih =>
      apply ih
      · exact step move before (all move (List.mem_cons_self ..)) start
      · intro later member
        exact all later (List.mem_cons_of_mem _ member)

/-- What is recorded stays so. -/
theorem recorded (becomes : Desk.Becomes allowed before after)
    (stays : ∀ move, allowed move → ¬move.Expires) (recorded : before.1.backlog.isSome = true) :
    after.1.backlog.isSome = true :=
  @keeps _ _ _ (·.1.backlog.isSome = true) becomes
    (fun move _ ok recorded => Move.recorded (stays move ok) recorded) recorded

/-- Where a stream is recorded before, none may begin after. -/
theorem trans_still {audience : ClientId → Prop} {asks : Prop}
    (first : Desk.Becomes (Move.Still audience (before.1.backlog = none ∧ asks)) before between)
    (second : Desk.Becomes (Move.Still audience (between.1.backlog = none ∧ asks)) between after) :
    Desk.Becomes (Move.Still audience (before.1.backlog = none ∧ asks)) before after := by
  apply first.trans
  apply second.mono
  intro move still
  refine ⟨still.spares, still.keeps, fun restarts => ?_⟩
  obtain ⟨unrecorded, asked⟩ := still.restarts restarts
  refine ⟨?_, asked⟩
  cases backlog : before.1.backlog with
  | none => rfl
  | some ring =>
      have recorded := first.recorded (fun _ still => still.keeps.2) (by simp [backlog])
      simp [unrecorded] at recorded

end Desk.Becomes
end Stream
end ReplicaStore
