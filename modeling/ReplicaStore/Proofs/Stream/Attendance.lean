import ReplicaStore.Proofs.Stream.Chronicle

/-!
# What a replica in the audience is sent

A replica that is registered waits for a snapshot, kept awake by heartbeats, or is online.
What is queued for it once it is online is an opening, which names an offset, and after it
all that the stream is made of since that offset, in however many parts
(`Stream.Attends`).  Every move keeps it so (`Stream.Attends.apply`).
-/

namespace ReplicaStore

namespace Clients

/-- Whoever reads the queue of a client still does, and nothing was taken from it. -/
structure Extends (id : ClientId) (before after : Clients) : Prop where
  reads : before.reaches id = true → after.reaches id = true
  grows : before.reaches id = true → before.pending id <+: after.pending id

namespace Extends

variable {id : ClientId} {before between after : Clients}

theorem refl (clients : Clients) : Extends id clients clients :=
  ⟨fun reaches => reaches, fun _ => List.prefix_refl _⟩

theorem trans (first : Extends id before between) (second : Extends id between after) :
    Extends id before after where
  reads := fun reaches => second.reads (first.reads reaches)
  grows := fun reaches => (first.grows reaches).trans (second.grows (first.reads reaches))

theorem congr (same : after[id]? = before[id]?) : Extends id before after where
  reads := fun reaches => (reaches_congr same).trans reaches
  grows := fun _ => (pending_congr same).symm ▸ List.prefix_refl _

theorem queue (clients : Clients) (other : ClientId) (message : Outgoing) :
    Extends id clients (clients.queue other message) where
  reads := fun reaches => (reaches_queue ..).trans reaches
  grows := by
    intro reaches
    rw [pending_queue reaches]
    exact List.prefix_append ..

theorem foldl {α : Type} {step : Clients → α → Clients} (clients : Clients) (items : List α)
    (each : ∀ clients item, Extends id clients (step clients item)) :
    Extends id clients (items.foldl step clients) := by
  induction items generalizing clients with
  | nil => exact refl clients
  | cons item items ih => exact (each clients item).trans (ih _)

theorem closeAll (clients : Clients) (ids : List ClientId) :
    Extends id clients (clients.closeAll ids) :=
  foldl clients ids fun _ _ => queue ..

end Extends
end Clients

namespace Stream
namespace Coordinator

/-- The state of a replica, if the client is one. -/
def stateOf (coordinator : Coordinator) (id : ClientId) : Option ReplicaState :=
  coordinator.replicas[id]?.map (·.state)

variable {coordinator : Coordinator} {clients : Clients} {id other : ClientId}
  {state : ReplicaState}

theorem mem_replicasIn_iff : id ∈ coordinator.replicasIn state ↔ coordinator.stateOf id = some state := by
  rw [mem_replicasIn, stateOf, Option.map_eq_some_iff]

theorem online_iff : coordinator.Online id ↔ coordinator.stateOf id = some .online := by
  rw [Online, stateOf, Option.map_eq_some_iff]

theorem mem_keptWaiting :
    id ∈ coordinator.keptWaiting ↔
      coordinator.stateOf id = some .needSnapshot ∨
        coordinator.stateOf id = some .awaitingSnapshot := by
  rw [keptWaiting, Std.ExtTreeMap.mem_keys, Std.ExtTreeMap.mem_iff_isSome_getElem?,
    Std.ExtTreeMap.getElem?_filter', stateOf]
  cases coordinator.replicas[id]? with
  | none => simp
  | some replica => simp

theorem nodup_keptWaiting (coordinator : Coordinator) : coordinator.keptWaiting.Nodup :=
  Std.ExtTreeMap.nodup_keys

theorem nodup_replicasIn (coordinator : Coordinator) (state : ReplicaState) :
    (coordinator.replicasIn state).Nodup :=
  Std.ExtTreeMap.nodup_keys

theorem mem_keys_iff : id ∈ coordinator.replicas.keys ↔ (coordinator.stateOf id).isSome = true := by
  rw [Std.ExtTreeMap.mem_keys, Std.ExtTreeMap.mem_iff_isSome_getElem?, stateOf, Option.isSome_map]

theorem stateOf_changeReplica (coordinator : Coordinator) (id other : ClientId)
    {change : Replica → Replica} (kept : ∀ replica, (change replica).state = replica.state) :
    (coordinator.changeReplica other change).stateOf id = coordinator.stateOf id := by
  rw [stateOf, stateOf, changeReplica, Std.ExtTreeMap.getElem?_modify]
  split
  · next same =>
      rw [Std.LawfulEqCmp.eq_of_compare same]
      cases coordinator.replicas[id]? with
      | none => rfl
      | some replica => exact congrArg some (kept replica)
  · rfl

theorem stateOf_remove (apart : other ≠ id) :
    (coordinator.remove other).stateOf id = coordinator.stateOf id := by
  rw [stateOf, stateOf, remove, Std.ExtTreeMap.getElem?_erase]
  simp [apart]

theorem stateOf_register (now : Nat) (offset : Int) (apart : other ≠ id) :
    (coordinator.register clients now other state offset).stateOf id = coordinator.stateOf id := by
  rw [stateOf, stateOf, register, Std.ExtTreeMap.getElem?_insert]
  simp [apart]

theorem stateOf_register_self (now : Nat) (offset : Int) :
    (coordinator.register clients now id state offset).stateOf id = some state := by
  simp [stateOf, register]

theorem stateOf_dropReplicas (ids : List ClientId) :
    (coordinator.dropReplicas clients ids).1.stateOf id =
      if id ∈ ids then none else coordinator.stateOf id := by
  rw [stateOf, Steady.getElem?_dropReplicas]
  split <;> rfl

theorem stateOf_markAwaiting :
    coordinator.markAwaiting.2.stateOf id =
      (coordinator.stateOf id).map fun state =>
        if state = .needSnapshot then .awaitingSnapshot else state := by
  simp only [stateOf, markAwaiting, Std.ExtTreeMap.getElem?_map, Option.map_map]
  cases coordinator.replicas[id]? with
  | none => rfl
  | some replica =>
      simp only [Option.map_some, Function.comp_apply]
      split <;> rfl

theorem stateOf_branchIdentity : coordinator.branchIdentity.stateOf id = coordinator.stateOf id := by
  simp only [stateOf, branchIdentity]

theorem stateOf_expireBacklog (now : Nat) (upkeep : Upkeep) :
    (coordinator.expireBacklog now upkeep).stateOf id = coordinator.stateOf id := by
  rw [stateOf, replicas_expireBacklog, stateOf]

/-- As long as there is a replica, the backlog is not given up. -/
theorem backlog_expireBacklog_of_registered (registered : coordinator.stateOf id = some state)
    (now : Nat) (upkeep : Upkeep) :
    (coordinator.expireBacklog now upkeep).backlog = coordinator.backlog := by
  rcases backlog_expireBacklog coordinator now upkeep with same | ⟨empty, _⟩
  · exact same
  · rw [stateOf, Std.ExtTreeMap.isEmpty_iff.mp empty] at registered
    simp at registered

/-- Whoever can go on shares the history, and what it has missed can still be read. -/
theorem missed?_inv {history : String} {offset : Int} {tail : Bytes}
    (missed : coordinator.missed? history offset = some tail) :
    ∃ backlog, coordinator.backlog = some backlog ∧ backlog.read offset = .ok tail ∧
      coordinator.identity.sharesHistory history offset = true := by
  cases recorded : coordinator.backlog with
  | none => simp [missed?, recorded] at missed
  | some backlog =>
      simp only [missed?, recorded] at missed
      split at missed
      · next shares =>
          rw [Bool.and_eq_true] at shares
          refine ⟨backlog, rfl, ?_, shares.2⟩
          cases read : backlog.read offset with
          | error => simp [read, Except.toOption] at missed
          | ok bytes => simpa [read, Except.toOption] using missed
      · cases missed

/-! ### Shipping -/

section

variable {now : Nat} {payload tail : Bytes} {desk : Desk}

theorem reaches_ship (desk : Desk) (id other : ClientId) :
    (ship now payload tail desk other).2.reaches id = desk.2.reaches id :=
  Clients.reaches_queue ..

theorem extends_foldl_ship (ids : List ClientId) :
    Clients.Extends id desk.2 (ids.foldl (ship now payload tail) desk).2 := by
  induction ids generalizing desk with
  | nil => exact .refl _
  | cons first ids ih =>
      have one : Clients.Extends id desk.2 (ship now payload tail desk first).2 := .queue ..
      exact one.trans ih

/-- Whoever a snapshot is shipped to is online from then on, unless nobody reads what is
queued for it. -/
theorem ship_self (reaches : desk.2.reaches id = true) :
    (ship now payload tail desk id).1.stateOf id = (desk.1.stateOf id).map (fun _ => .online) := by
  simp only [ship, stateOf, changeReplica, reaches, if_true, Std.ExtTreeMap.getElem?_modify_self,
    Option.map_map]
  rfl

theorem ship_other (apart : other ≠ id) :
    (ship now payload tail desk other).1.stateOf id = desk.1.stateOf id := by
  simp only [ship, stateOf, changeReplica, Std.ExtTreeMap.getElem?_modify]
  simp [apart]

theorem foldl_ship_apart {ids : List ClientId} (reaches : desk.2.reaches id = true)
    (apart : id ∉ ids) :
    (ids.foldl (ship now payload tail) desk).1.stateOf id = desk.1.stateOf id ∧
      (ids.foldl (ship now payload tail) desk).2.pending id = desk.2.pending id := by
  induction ids generalizing desk with
  | nil => exact ⟨rfl, rfl⟩
  | cons first ids ih =>
      rw [List.mem_cons, not_or] at apart
      obtain ⟨state, pending⟩ := ih ((reaches_ship desk id first).trans reaches) apart.2
      refine ⟨state.trans (ship_other (Ne.symm apart.1)), pending.trans ?_⟩
      have queued := Clients.pending_queue reaches first
        (.data (fullReply desk.1.identity.current desk.1.snapshotOffset payload tail))
      rw [if_neg (Ne.symm apart.1), List.append_nil] at queued
      exact queued

/-- Each of several replicas gets the snapshot once. -/
theorem foldl_ship_among {ids : List ClientId} (once : ids.Nodup) (among : id ∈ ids)
    (reaches : desk.2.reaches id = true) :
    (ids.foldl (ship now payload tail) desk).1.stateOf id =
        (desk.1.stateOf id).map (fun _ => .online) ∧
      (ids.foldl (ship now payload tail) desk).2.pending id = desk.2.pending id ++
        [.data (fullReply desk.1.identity.current desk.1.snapshotOffset payload tail)] := by
  induction ids generalizing desk with
  | nil => cases among
  | cons first ids ih =>
      rw [List.nodup_cons] at once
      have reached : (ship now payload tail desk first).2.reaches id = true :=
        (reaches_ship desk id first).trans reaches
      have queued := Clients.pending_queue reaches first
        (.data (fullReply desk.1.identity.current desk.1.snapshotOffset payload tail))
      rcases List.mem_cons.mp among with rfl | later
      · obtain ⟨state, pending⟩ := foldl_ship_apart reached once.1
        rw [if_pos rfl] at queued
        exact ⟨state.trans (ship_self reaches), pending.trans queued⟩
      · have apart : first ≠ id := by
          rintro rfl
          exact once.1 later
        obtain ⟨state, pending⟩ := ih once.2 later reached
        rw [ship_other apart] at state
        rw [if_neg apart, List.append_nil] at queued
        exact ⟨state, pending.trans (congrArg (· ++ _) queued)⟩

end

end Coordinator

/-! ### What a move does to one replica -/

/-- The bytes that messages are, up to where the connection is closed. -/
def said : List Outgoing → Bytes
  | [] | .close :: _ => []
  | .data bytes :: messages => bytes ++ said messages

theorem said_replicate_close (count : Nat) : said (List.replicate count .close) = [] := by
  cases count <;> rfl

namespace Move

variable {id : ClientId} {state : ReplicaState} {move : Move} {moves : List Move} {desk later : Desk}

theorem extends_apply (spares : move.Spares (· = id)) :
    Clients.Extends id desk.2 (move.apply desk).2 := by
  cases move with
  | greet other | leave other | hangUp other =>
      have apart : other ≠ id := spares
      first
      | exact .congr (Clients.getElem?_insert_of_ne apart _)
      | exact .congr (Clients.getElem?_erase_of_ne apart)
      | exact .congr (Clients.getElem?_modify_of_ne apart _)
  | adjust other change =>
      refine ⟨(Clients.reaches_modify _ _ _ fun client => (spares client).2).trans, fun _ => ?_⟩
      exact (Clients.pending_modify _ _ _ fun client => (spares client).1).symm ▸ List.prefix_refl _
  | queue other message => exact .queue ..
  | feed bytes database =>
      simp only [apply]
      split
      · exact .refl _
      · exact .foldl _ _ fun _ _ => .queue ..
  | resume now other history offset =>
      simp only [apply, Coordinator.partialResync?]
      cases desk.1.missed? history offset with
      | none => exact .refl _
      | some tail => exact .queue ..
  | finish now payload =>
      simp only [apply, Coordinator.finishFullSync]
      split
      · exact .refl _
      · split
        · exact .closeAll ..
        · split
          · exact .closeAll ..
          · exact Coordinator.extends_foldl_ship _
  | comfort => exact .foldl _ _ fun _ _ => .queue ..
  | create offset =>
      simp only [apply]
      exact .refl desk.2
  | branch => exact .closeAll desk.2 desk.1.branchIdentity.replicas.keys
  | fail | drop | shift | renew => exact .closeAll ..
  | _ => exact .refl _

theorem extends_applyAll (spares : ∀ move ∈ moves, move.Spares (· = id)) :
    Clients.Extends id desk.2 (applyAll moves desk).2 := by
  induction moves generalizing desk with
  | nil => exact .refl _
  | cons move moves ih =>
      exact (extends_apply (spares move List.mem_cons_self)).trans
        (ih fun later member => spares later (List.mem_cons_of_mem _ member))

/-- What a move does to a replica in the audience, for which it queues some messages. -/
inductive Treats (id : ClientId) (move : Move) (before after : Coordinator) :
    ReplicaState → List Outgoing → Prop
  /-- Nothing, and what is fed is not for it. -/
  | lets {state : ReplicaState} (apart : state = .online → move.fed = [])
      (same : after.stateOf id = some state) : Treats id move before after state []
  | closes {state : ReplicaState} {messages : List Outgoing} (asked : .close ∈ messages)
      (silent : said messages = []) : Treats id move before after state messages
  | comforts {state : ReplicaState} (waits : state ≠ .online)
      (same : after.stateOf id = some state) : Treats id move before after state [.data [10]]
  /-- The snapshot that is being written is for it as well. -/
  | counts (counted : after.stateOf id = some .awaitingSnapshot) :
      Treats id move before after .needSnapshot []
  | ships (silent : move.fed = []) (online : after.stateOf id = some .online) {backlog : Backlog}
      (recorded : before.backlog = some backlog) {tail : Bytes}
      (given : backlog.read before.snapshotOffset = .ok tail) (payload : Bytes) :
      Treats id move before after .awaitingSnapshot
        [.data (Coordinator.fullReply before.identity.current before.snapshotOffset payload tail)]
  | feeds (same : after.stateOf id = some .online) :
      Treats id move before after .online [.data move.fed]

/-- Something is queued for a replica as it is treated by a move. -/
def Treated (id : ClientId) (move : Move) (desk later : Desk) (state : ReplicaState) : Prop :=
  ∃ messages, later.2.pending id = desk.2.pending id ++ messages ∧
    move.Treats id desk.1 later.1 state messages

namespace Treated

theorem lets (apart : state = .online → move.fed = [])
    (registered : desk.1.stateOf id = some state)
    (same : later.1.stateOf id = desk.1.stateOf id)
    (queue : later.2.pending id = desk.2.pending id) : move.Treated id desk later state :=
  ⟨[], by rw [queue, List.append_nil], .lets apart (same.trans registered)⟩

theorem drops (silent : move.fed = []) (registered : desk.1.stateOf id = some state)
    (reaches : desk.2.reaches id = true) (coordinator : Coordinator) (ids : List ClientId)
    (same : coordinator.stateOf id = desk.1.stateOf id)
    (states : later.1.stateOf id = (coordinator.dropReplicas desk.2 ids).1.stateOf id)
    (queues : later.2 = (coordinator.dropReplicas desk.2 ids).2) :
    move.Treated id desk later state := by
  have pending := Clients.pending_closeAll reaches ids
  by_cases among : id ∈ ids
  · refine ⟨_, by rw [queues]; exact pending, .closes ?_ (said_replicate_close _)⟩
    exact List.mem_replicate.mpr ⟨Nat.ne_of_gt (List.count_pos_iff.mpr among), rfl⟩
  · rw [Coordinator.stateOf_dropReplicas, if_neg among] at states
    rw [List.count_eq_zero_of_not_mem among, List.replicate_zero, List.append_nil] at pending
    exact .lets (fun _ => silent) registered (states.trans same) (by rw [queues]; exact pending)

theorem feed {bytes : Bytes} {database : Option Nat} (recorded : desk.1.backlog.isSome = true)
    (reaches : desk.2.reaches id = true) (registered : desk.1.stateOf id = some state) :
    Move.Treated id (.feed bytes database) desk (Move.apply desk (.feed bytes database)) state := by
  obtain ⟨backlog, found⟩ := Option.isSome_iff_exists.mp recorded
  have queue := Clients.pending_sendAll reaches (desk.1.nodup_replicasIn .online) bytes
  simp only [Coordinator.mem_replicasIn_iff, registered] at queue
  simp only [Move.apply, found]
  by_cases online : state = .online
  · subst online
    rw [if_pos rfl] at queue
    exact ⟨_, queue, .feeds registered⟩
  · rw [if_neg (by simpa using online), List.append_nil] at queue
    exact .lets (fun same => absurd same online) registered rfl queue

theorem resume {now : Nat} {other : ClientId} {history : String} {offset : Int}
    (apart : other ≠ id) (reaches : desk.2.reaches id = true)
    (registered : desk.1.stateOf id = some state) :
    Move.Treated id (.resume now other history offset) desk
      (Move.apply desk (.resume now other history offset)) state := by
  simp only [Move.apply, Coordinator.partialResync?]
  cases missed : desk.1.missed? history offset with
  | none => exact .lets (fun _ => rfl) registered rfl rfl
  | some tail =>
      have queue := Clients.pending_queue reaches other
        (.data (Coordinator.continueReply desk.1.identity.current tail))
      rw [if_neg apart, List.append_nil] at queue
      exact .lets (fun _ => rfl) registered (Coordinator.stateOf_register _ _ apart) queue

theorem finish {now : Nat} {payload : Bytes} (reaches : desk.2.reaches id = true)
    (registered : desk.1.stateOf id = some state) :
    Move.Treated id (.finish now payload) desk (Move.apply desk (.finish now payload)) state := by
  simp only [Move.apply, Coordinator.finishFullSync]
  split
  · exact .lets (fun _ => rfl) registered rfl rfl
  · split
    · exact .drops rfl registered reaches desk.1 _ rfl rfl rfl
    · next backlog recorded =>
        split
        · exact .drops rfl registered reaches desk.1 _ rfl rfl rfl
        · next tail given =>
            by_cases waits : id ∈ desk.1.replicasIn .awaitingSnapshot
            · obtain ⟨shipped, queue⟩ := @Coordinator.foldl_ship_among id now payload tail desk _
                (desk.1.nodup_replicasIn .awaitingSnapshot) waits reaches
              rw [Coordinator.mem_replicasIn_iff, registered] at waits
              obtain rfl := Option.some.inj waits
              rw [registered, Option.map_some] at shipped
              refine ⟨_, queue, .ships rfl ?_ recorded given payload⟩
              exact shipped
            · obtain ⟨same, queue⟩ := Coordinator.foldl_ship_apart reaches waits
              exact .lets (fun _ => rfl) registered same queue

theorem comfort (reaches : desk.2.reaches id = true) (registered : desk.1.stateOf id = some state) :
    Move.Treated id .comfort desk (Move.apply desk .comfort) state := by
  have queue : (desk.2.sendAll desk.1.keptWaiting [10]).pending id = _ :=
    Clients.pending_sendAll reaches desk.1.nodup_keptWaiting [10]
  by_cases waits : id ∈ desk.1.keptWaiting
  · rw [if_pos waits] at queue
    refine ⟨_, queue, .comforts ?_ registered⟩
    rintro rfl
    rw [Coordinator.mem_keptWaiting, registered] at waits
    simp at waits
  · rw [if_neg waits, List.append_nil] at queue
    exact .lets (fun _ => rfl) registered rfl queue

theorem await (registered : desk.1.stateOf id = some state) :
    Move.Treated id .await desk (Move.apply desk .await) state := by
  have counted := @Coordinator.stateOf_markAwaiting desk.1 id
  rw [registered, Option.map_some] at counted
  split at counted
  · next needs =>
      subst needs
      exact ⟨[], (List.append_nil _).symm, .counts counted⟩
  · exact .lets (fun _ => rfl) registered (counted.trans registered.symm) rfl

end Treated

theorem treated (spares : move.Spares (· = id)) (flows : ¬move.Restarts)
    (recorded : desk.1.backlog.isSome = true) (reaches : desk.2.reaches id = true)
    (registered : desk.1.stateOf id = some state) :
    move.Treated id desk (move.apply desk) state := by
  cases move with
  | greet other =>
      exact .lets (fun _ => rfl) registered rfl
        (Clients.pending_congr (Clients.getElem?_insert_of_ne spares _))
  | leave other =>
      exact .lets (fun _ => rfl) registered rfl
        (Clients.pending_congr (Clients.getElem?_erase_of_ne spares))
  | hangUp other =>
      exact .lets (fun _ => rfl) registered rfl
        (Clients.pending_congr (Clients.getElem?_modify_of_ne spares _))
  | adjust other change =>
      exact .lets (fun _ => rfl) registered rfl
        (Clients.pending_modify _ _ _ fun client => (spares client).1)
  | queue other message =>
      have queue := Clients.pending_queue reaches other message
      refine ⟨_, queue, ?_⟩
      by_cases same : other = id
      · have asks : message = .close := spares.resolve_right fun apart => apart same
        rw [if_pos same]
        subst asks
        exact .closes List.mem_cons_self rfl
      · rw [if_neg same]
        exact .lets (fun _ => rfl) registered
  | note other change =>
      exact .lets (fun _ => rfl) registered (Coordinator.stateOf_changeReplica _ _ _ spares) rfl
  | strike other =>
      exact .lets (fun _ => rfl) registered (Coordinator.stateOf_remove spares) rfl
  | enlist now other offset =>
      exact .lets (fun _ => rfl) registered (Coordinator.stateOf_register _ _ spares) rfl
  | expire now upkeep =>
      exact .lets (fun _ => rfl) registered (Coordinator.stateOf_expireBacklog ..) rfl
  | pinged | begun | forget => exact .lets (fun _ => rfl) registered rfl rfl
  | feed bytes database => exact .feed recorded reaches registered
  | resume now other history offset => exact .resume spares reaches registered
  | finish now payload => exact .finish reaches registered
  | comfort => exact .comfort reaches registered
  | await => exact .await registered
  | fail | drop => exact .drops rfl registered reaches desk.1 _ rfl rfl rfl
  | branch =>
      refine .drops rfl registered reaches desk.1.branchIdentity desk.1.branchIdentity.replicas.keys
        Coordinator.stateOf_branchIdentity ?_ ?_ <;> simp only [apply, Coordinator.dropAll]
  | shift history =>
      exact .drops rfl registered reaches (desk.1.shiftIdentity history desk.1.offset) _ rfl rfl rfl
  | create | activate | renew => exact absurd trivial flows

/-- The backlog is not given up as long as there is a replica. -/
theorem recorded_of_registered (recorded : desk.1.backlog.isSome = true)
    (registered : desk.1.stateOf id = some state) : (move.apply desk).1.backlog.isSome = true := by
  by_cases expires : move.Expires
  · cases move with
    | expire now upkeep =>
        simp only [apply, Coordinator.backlog_expireBacklog_of_registered registered]
        exact recorded
    | _ => cases expires
  · exact Move.recorded expires recorded

end Move

/-! ### All that is queued for a replica -/

/-- The first that a replica gets, and the offset from where the stream follows. -/
inductive Opening (requested : Int) : Bytes → Int → Prop
  | continued (history : String) : Opening requested (Coordinator.continueReply history []) requested
  | snapshot (history : String) (offset : Int) (payload : Bytes) :
      Opening requested (Coordinator.fullReply history offset payload []) offset

/-- So many heartbeats for somebody who waits. -/
def heartbeats (count : Nat) : List Outgoing :=
  List.replicate count (.data [10])

/-- What is queued for a replica since it has asked to go on from an offset. -/
inductive Attends (requested : Int) (id : ClientId) (coordinator : Coordinator)
    (chronicle : Chronicle) : List Outgoing → Prop
  | closed {messages : List Outgoing} (asked : .close ∈ messages) :
      Attends requested id coordinator chronicle messages
  | waiting (recorded : coordinator.backlog.isSome = true) {state : ReplicaState}
      (registered : coordinator.stateOf id = some state) (waits : state ≠ .online) (count : Nat) :
      Attends requested id coordinator chronicle (heartbeats count)
  | online (recorded : coordinator.backlog.isSome = true)
      (registered : coordinator.stateOf id = some .online) (count : Nat) {opening : Bytes}
      {place : Int} (opens : Opening requested opening place) (reaches : chronicle.Reaches place)
      {first : Bytes} {parts : List Bytes}
      (whole : first ++ parts.flatten = chronicle.since place) :
      Attends requested id coordinator chronicle
        (heartbeats count ++ .data (opening ++ first) :: parts.map .data)

namespace Attends

/-- A replica has just got its opening, and with it the stream up to its end. -/
theorem opened {requested : Int} {id : ClientId} {coordinator : Coordinator} {chronicle : Chronicle}
    (recorded : coordinator.backlog.isSome = true)
    (registered : coordinator.stateOf id = some .online) (count : Nat) {opening : Bytes}
    {place : Int} (opens : Opening requested opening place) (reaches : chronicle.Reaches place) :
    Attends requested id coordinator chronicle
      (heartbeats count ++ [.data (opening ++ chronicle.since place)]) :=
  @online _ _ _ _ recorded registered count _ _ opens reaches _ [] (by simp)

variable {requested : Int} {id : ClientId} {coordinator : Coordinator} {chronicle : Chronicle}
  {move : Move} {moves : List Move} {desk : Desk} {messages : List Outgoing}

theorem treat {state : ReplicaState} {new : List Outgoing}
    (attends : Attends requested id desk.1 chronicle messages) (kept : chronicle.Kept desk.1)
    (range : chronicle.InRange)
    (recorded : (move.apply desk).1.backlog.isSome = true)
    (registered : desk.1.stateOf id = some state)
    (treats : move.Treats id desk.1 (move.apply desk).1 state new) :
    Attends requested id (move.apply desk).1 (chronicle.extend move.fed) (messages ++ new) := by
  cases attends with
  | closed asked => exact .closed (List.mem_append_left _ asked)
  | waiting _ same waits count =>
      obtain rfl := Option.some.inj (registered.symm.trans same)
      cases treats with
      | closes asked => exact .closed (List.mem_append_right _ asked)
      | lets _ still =>
          rw [List.append_nil]
          exact .waiting recorded still waits count
      | comforts _ still =>
          have more : heartbeats count ++ [.data [10]] = heartbeats (count + 1) :=
            List.replicate_succ'.symm
          rw [more]
          exact .waiting recorded still waits (count + 1)
      | counts counted =>
          rw [List.append_nil]
          exact .waiting recorded counted (by decide) count
      | ships silent online found given payload =>
          obtain ⟨reaches, tail⟩ := kept.read range found given
          rw [silent, Chronicle.extend_nil]
          have whole : Coordinator.fullReply desk.1.identity.current desk.1.snapshotOffset payload
              (chronicle.since desk.1.snapshotOffset) = Coordinator.fullReply
                desk.1.identity.current desk.1.snapshotOffset payload [] ++
                  chronicle.since desk.1.snapshotOffset := by
            simp [Coordinator.fullReply]
          rw [tail, whole]
          exact .opened recorded online count (.snapshot ..) reaches
      | feeds => exact absurd rfl waits
  | online _ same count opens reaches whole =>
      obtain rfl := Option.some.inj (registered.symm.trans same)
      cases treats with
      | closes asked => exact .closed (List.mem_append_right _ asked)
      | lets apart still =>
          rw [List.append_nil, apart rfl, Chronicle.extend_nil]
          exact .online recorded still count opens reaches whole
      | comforts waits => exact absurd rfl waits
      | feeds still =>
          have more (opening first : Bytes) (parts : List Bytes) :
              heartbeats count ++ .data (opening ++ first) :: parts.map .data ++ [.data move.fed] =
                heartbeats count ++ .data (opening ++ first) :: (parts ++ [move.fed]).map .data := by
            simp
          rw [more]
          refine .online recorded still count opens (reaches.extend _) ?_
          rw [Chronicle.since_extend reaches, ← whole]
          simp

end Attends

/-- A replica is read, and what was taken from its queue and what is in it now are what was
there at an earlier time and what belongs to it as a replica. -/
structure Tends (requested : Int) (id : ClientId) (earlier taken : List Outgoing)
    (chronicle : Chronicle) (desk : Desk) : Prop where
  reaches : desk.2.reaches id = true
  sent : ∃ messages, taken ++ desk.2.pending id = earlier ++ messages ∧
    Attends requested id desk.1 chronicle messages

namespace Tends

variable {requested : Int} {id : ClientId} {earlier taken : List Outgoing} {chronicle : Chronicle}
  {move : Move} {moves : List Move} {desk : Desk}

/-- Whoever can go on from where it is gets all that it has missed. -/
theorem resume {history : String} {tail : Bytes} (now : Nat)
    (missed : desk.1.missed? history requested = some tail) (kept : chronicle.Kept desk.1)
    (range : chronicle.InRange) (reaches : desk.2.reaches id = true) :
    Tends requested id (desk.2.pending id) [] chronicle
      (Move.apply desk (.resume now id history requested)) := by
  obtain ⟨backlog, recorded, given, _⟩ := Coordinator.missed?_inv missed
  obtain ⟨place, rfl⟩ := kept.read range recorded given
  have queue := Clients.pending_queue reaches id
    (.data (Coordinator.continueReply desk.1.identity.current (chronicle.since requested)))
  rw [if_pos rfl] at queue
  have whole : Coordinator.continueReply desk.1.identity.current (chronicle.since requested) =
      Coordinator.continueReply desk.1.identity.current [] ++ chronicle.since requested := by
    simp [Coordinator.continueReply]
  simp only [Move.apply, Coordinator.partialResync?, missed, Option.map_some, Option.getD_some]
  refine ⟨(Clients.reaches_queue ..).trans reaches, _, queue, ?_⟩
  rw [whole]
  refine .opened ?_ (Coordinator.stateOf_register_self ..) 0 (.continued _) place
  simp [Coordinator.register, recorded]

/-- Whoever needs a snapshot waits at first. -/
theorem enlist (recorded : desk.1.backlog.isSome = true)
    (registered : desk.1.stateOf id = some .needSnapshot) (reaches : desk.2.reaches id = true) :
    Tends requested id (desk.2.pending id) [] chronicle desk :=
  ⟨reaches, [], by simp, .waiting recorded registered (by decide) 0⟩

/-- What is queued goes on as the stream does. -/
theorem apply (tends : Tends requested id earlier taken chronicle desk)
    (spares : move.Spares (· = id)) (flows : ¬move.Restarts) (kept : chronicle.Kept desk.1)
    (range : chronicle.InRange) :
    Tends requested id earlier taken (chronicle.extend move.fed) (move.apply desk) := by
  have grown := @Move.extends_apply id move desk spares
  obtain ⟨messages, whole, attends⟩ := tends.sent
  refine ⟨grown.reads tends.reaches, ?_⟩
  by_cases asked : .close ∈ messages
  · obtain ⟨new, queue⟩ := grown.grows tends.reaches
    refine ⟨messages ++ new, ?_, .closed (List.mem_append_left _ asked)⟩
    rw [← queue, ← List.append_assoc, whole, List.append_assoc]
  · obtain ⟨state, recorded, registered⟩ : ∃ state, desk.1.backlog.isSome = true ∧
        desk.1.stateOf id = some state := by
      cases attends with
      | closed closes => exact absurd closes asked
      | waiting recorded registered => exact ⟨_, recorded, registered⟩
      | online recorded registered => exact ⟨_, recorded, registered⟩
    obtain ⟨new, queue, treats⟩ := Move.treated spares flows recorded tends.reaches registered
    refine ⟨messages ++ new, ?_, attends.treat kept range
      (Move.recorded_of_registered recorded registered) registered treats⟩
    rw [queue, ← List.append_assoc, whole, List.append_assoc]

theorem applyAll (tends : Tends requested id earlier taken chronicle desk)
    (all : ∀ move ∈ moves, move.Spares (· = id) ∧ ¬move.Restarts) (kept : chronicle.Kept desk.1)
    (range : (chronicle.extend (moves.flatMap Move.fed)).InRange) :
    Tends requested id earlier taken (chronicle.extend (moves.flatMap Move.fed))
      (Move.applyAll moves desk) := by
  induction moves generalizing desk chronicle with
  | nil => simpa using tends
  | cons move moves ih =>
      rw [List.flatMap_cons, Chronicle.extend_append] at range ⊢
      obtain ⟨spares, flows⟩ := all move List.mem_cons_self
      exact ih (tends.apply spares flows kept range.of_extend.of_extend)
        (fun later member => all later (List.mem_cons_of_mem _ member))
        (kept.apply flows range.of_extend) range

/-- Whoever is asked to leave, or has left, may be sent anything more. -/
theorem leaves {later : Desk} {following : Chronicle}
    (tends : Tends requested id earlier taken chronicle desk)
    (grown : Clients.Extends id desk.2 later.2)
    (gone : desk.1.stateOf id = none ∨
      .close ∈ (later.2.pending id).drop (desk.2.pending id).length) :
    Tends requested id earlier taken following later := by
  obtain ⟨messages, whole, attends⟩ := tends.sent
  obtain ⟨new, queue⟩ := grown.grows tends.reaches
  rw [← queue, List.drop_left] at gone
  refine ⟨grown.reads tends.reaches, messages ++ new, ?_, .closed ?_⟩
  · rw [← queue, ← List.append_assoc, whole, List.append_assoc]
  · rw [List.mem_append]
    rcases gone with unknown | asked
    · cases attends with
      | closed asked => exact .inl asked
      | waiting _ registered => simp [unknown] at registered
      | online _ registered => simp [unknown] at registered
    · exact .inr asked

/-- Everybody has to leave when another history takes the place of this one. -/
theorem renew (tends : Tends requested id earlier taken chronicle desk) (history : String)
    (offset : Int) (following : Chronicle) :
    Tends requested id earlier taken following
      (Move.applyAll [.renew history offset, .forget] desk) := by
  refine tends.leaves (Clients.Extends.closeAll ..) ?_
  by_cases among : id ∈ desk.1.replicas.keys
  · refine .inr ?_
    have queue : (Move.applyAll [.renew history offset, .forget] desk).2.pending id = _ :=
      Clients.pending_closeAll tends.reaches desk.1.replicas.keys
    rw [queue, List.drop_left]
    exact List.mem_replicate.mpr ⟨Nat.ne_of_gt (List.count_pos_iff.mpr among), rfl⟩
  · rw [Coordinator.mem_keys_iff, Option.not_isSome_iff_eq_none] at among
    exact .inl among

/-- What else is known about a client does not matter. -/
theorem congr (tends : Tends requested id earlier taken chronicle desk) {clients : Clients}
    (reaches : clients.reaches id = desk.2.reaches id)
    (same : clients.pending id = desk.2.pending id) :
    Tends requested id earlier taken chronicle (desk.1, clients) :=
  ⟨reaches.trans tends.reaches, by rw [same]; exact tends.sent⟩

/-- What is queued may be taken at any time. -/
theorem take (tends : Tends requested id earlier taken chronicle desk) {clients : Clients}
    (reaches : clients.reaches id = desk.2.reaches id) (empty : clients.pending id = []) :
    Tends requested id earlier (taken ++ desk.2.pending id) chronicle (desk.1, clients) := by
  obtain ⟨messages, whole, attends⟩ := tends.sent
  exact ⟨reaches.trans tends.reaches, messages, by rw [empty, List.append_nil, whole], attends⟩

end Tends
end Stream
end ReplicaStore
