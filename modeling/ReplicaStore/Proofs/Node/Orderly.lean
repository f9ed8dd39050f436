import ReplicaStore.Proofs.Node.Run
import ReplicaStore.Proofs.Node.Steps
import ReplicaStore.Proofs.Command.Loading
import ReplicaStore.Proofs.Command.Running
import ReplicaStore.Proofs.Stream.Steady

/-!
# The books of a node

In every reachable node whoever is a replica follows a stream that is recorded, clients
work on databases that exist, and the link to a leader is idle if there is no leader.
-/

namespace ReplicaStore

namespace Clients

/-- The same clients are there, and each looks as before in some view. -/
structure Agree {α : Type} (view : Client → α) (before after : Clients) : Prop where
  same : ∀ id : ClientId, after[id]?.map view = before[id]?.map view

namespace Agree

variable {α : Type} {view : Client → α} {before between after : Clients}

theorem refl (clients : Clients) : Agree view clients clients :=
  ⟨fun _ => rfl⟩

theorem trans (first : Agree view before between) (second : Agree view between after) :
    Agree view before after :=
  ⟨fun id => (second.same id).trans (first.same id)⟩

theorem mem_iff (agree : Agree view before after) (id : ClientId) : id ∈ after ↔ id ∈ before := by
  have same := congrArg Option.isSome (agree.same id)
  rw [Option.isSome_map, Option.isSome_map] at same
  rw [Std.ExtTreeMap.mem_iff_isSome_getElem?, Std.ExtTreeMap.mem_iff_isSome_getElem?, same]

theorem modify (clients : Clients) (id : ClientId) {change : Client → Client}
    (kept : ∀ client, view (change client) = view client) :
    Agree view clients (clients.modify id change) := by
  constructor
  intro other
  rw [Std.ExtTreeMap.getElem?_modify]
  split
  · next same =>
      rw [Std.LawfulEqCmp.eq_of_compare same, Option.map_map]
      exact congrArg (Option.map · clients[other]?) (funext kept)
  · rfl

theorem foldl {α : Type} {step : Clients → α → Clients}
    (agree : ∀ clients item, Agree view clients (step clients item)) (items : List α)
    (clients : Clients) : Agree view clients (items.foldl step clients) := by
  induction items generalizing clients with
  | nil => exact refl clients
  | cons first items ih => exact (agree clients first).trans (ih _)

section

variable (unqueued : ∀ (client : Client) (queue : Array Outgoing),
  view { client with queue } = view client)

include unqueued

theorem queue (clients : Clients) (id : ClientId) (message : Outgoing) :
    Agree view clients (clients.queue id message) := by
  apply modify
  intro client
  split
  · exact unqueued client _
  · rfl

theorem sendAll (clients : Clients) (ids : List ClientId) (bytes : Bytes) :
    Agree view clients (clients.sendAll ids bytes) :=
  foldl (fun clients id => queue unqueued clients id (.data bytes)) ids clients

theorem closeAll (clients : Clients) (ids : List ClientId) :
    Agree view clients (clients.closeAll ids) :=
  foldl (fun clients id => queue unqueued clients id .close) ids clients

theorem takeQueued (clients : Clients) : Agree view clients clients.takeQueued.2 := by
  constructor
  intro id
  rw [Clients.takeQueued, Std.ExtTreeMap.getElem?_map, Option.map_map]
  exact congrArg (Option.map · clients[id]?) (funext fun client => unqueued client #[])

end
end Agree

/-- The database that a client works on. -/
def database? (clients : Clients) (id : ClientId) : Option Nat :=
  clients[id]?.map (·.database)

/-- The same clients are there, and each works on the database of before. -/
structure Keeps (before after : Clients) : Prop where
  database : ∀ id : ClientId, after.database? id = before.database? id

/-- Every client works on one of so many databases, or on the first. -/
def Within (count : Nat) (clients : Clients) : Prop :=
  ∀ (id : ClientId) (client : Client), clients[id]? = some client →
    client.database = 0 ∨ client.database < count

theorem Within.erase {clients : Clients} {count : Nat} (within : clients.Within count)
    (id : ClientId) : Clients.Within count (clients.erase id) := by
  intro other client found
  rw [Std.ExtTreeMap.getElem?_erase] at found
  split at found
  · cases found
  · exact within other client found

namespace Keeps

variable {before between after : Clients}

theorem refl (clients : Clients) : Keeps clients clients :=
  ⟨fun _ => rfl⟩

theorem trans (first : Keeps before between) (second : Keeps between after) :
    Keeps before after :=
  ⟨fun id => (second.database id).trans (first.database id)⟩

theorem symm (keeps : Keeps before after) : Keeps after before :=
  ⟨fun id => (keeps.database id).symm⟩

theorem within (keeps : Keeps before after) {count : Nat} (within : before.Within count) :
    after.Within count := by
  intro id client found
  have same := keeps.database id
  rw [database?, found, Option.map_some] at same
  obtain ⟨earlier, there, database⟩ := Option.map_eq_some_iff.mp same.symm
  rw [← database]
  exact within id earlier there

theorem modify (clients : Clients) (id : ClientId) {change : Client → Client}
    (kept : ∀ client, (change client).database = client.database) :
    Keeps clients (clients.modify id change) :=
  ⟨(Agree.modify clients id kept).same⟩

theorem queue (clients : Clients) (id : ClientId) (message : Outgoing) :
    Keeps clients (clients.queue id message) :=
  ⟨(Agree.queue (fun _ _ => rfl) clients id message).same⟩

theorem sendAll (clients : Clients) (ids : List ClientId) (bytes : Bytes) :
    Keeps clients (clients.sendAll ids bytes) :=
  ⟨(Agree.sendAll (fun _ _ => rfl) clients ids bytes).same⟩

theorem closeAll (clients : Clients) (ids : List ClientId) :
    Keeps clients (clients.closeAll ids) :=
  ⟨(Agree.closeAll (fun _ _ => rfl) clients ids).same⟩

/-- Where the same client is sent to one database, it works on the same one. -/
theorem setDatabase (keeps : Keeps before after) (id : ClientId) (database : Nat) :
    Keeps (before.modify id fun client => { client with database })
      (after.modify id fun client => { client with database }) := by
  constructor
  intro other
  have same := keeps.database other
  rw [database?, database?] at same ⊢
  rw [Std.ExtTreeMap.getElem?_modify, Std.ExtTreeMap.getElem?_modify]
  split
  · next here =>
      rw [Std.LawfulEqCmp.eq_of_compare here, Option.map_map, Option.map_map]
      have sent := congrArg (Option.map fun _ => database) same
      rw [Option.map_map, Option.map_map] at sent
      exact sent
  · exact same

theorem insert (keeps : Keeps before after) (id : ClientId) (client : Client) :
    Keeps (before.insert id client) (after.insert id client) := by
  constructor
  intro other
  have same := keeps.database other
  rw [database?, database?] at same ⊢
  rw [Std.ExtTreeMap.getElem?_insert, Std.ExtTreeMap.getElem?_insert]
  split
  · rfl
  · exact same

theorem erase (keeps : Keeps before after) (id : ClientId) :
    Keeps (before.erase id) (after.erase id) := by
  constructor
  intro other
  have same := keeps.database other
  rw [database?, database?] at same ⊢
  rw [Std.ExtTreeMap.getElem?_erase, Std.ExtTreeMap.getElem?_erase]
  split
  · rfl
  · exact same

/-- A client that is sent to its own database stays there. -/
theorem stay (clients : Clients) {id : ClientId} {database : Nat}
    (there : clients.database? id = some database) :
    Keeps clients (clients.modify id fun client => { client with database }) := by
  constructor
  intro other
  rw [database?, database?, Std.ExtTreeMap.getElem?_modify]
  split
  · next here =>
      obtain ⟨client, found, same⟩ := Option.map_eq_some_iff.mp there
      rw [← Std.LawfulEqCmp.eq_of_compare here, found, ← same]
      rfl
  · rfl

theorem takeQueued (clients : Clients) : Keeps clients clients.takeQueued.2 :=
  ⟨(Agree.takeQueued (fun _ _ => rfl) clients).same⟩

end Keeps
end Clients

namespace Stream.Coordinator

section

variable {α : Type} {view : Client → α}
  (unqueued : ∀ (client : Client) (queue : Array Outgoing), view { client with queue } = view client)
  (coordinator : Coordinator) (clients : Clients)

include unqueued

theorem feed_agree (data : Bytes) (database : Option Nat) :
    Clients.Agree view clients (coordinator.feed clients data database).2 := by
  rw [feed]
  split
  · exact .refl clients
  · exact .sendAll unqueued ..

theorem finishFullSync_agree (now : Nat) (payload : Bytes) :
    Clients.Agree view clients (coordinator.finishFullSync clients now payload).2 := by
  have ships (tail : Bytes) (ids : List ClientId) (state : Coordinator × Clients) :
      Clients.Agree view state.2 (ids.foldl (ship now payload tail) state).2 := by
    induction ids generalizing state with
    | nil => exact .refl _
    | cons first ids ih =>
        have sent : Clients.Agree view state.2 (ship now payload tail state first).2 :=
          .queue unqueued ..
        exact sent.trans (ih _)
  simp only [finishFullSync]
  split
  · exact .refl clients
  · split
    · exact .closeAll unqueued ..
    · split
      · exact .closeAll unqueued ..
      · exact ships _ _ (coordinator, clients)

theorem maintain_agree (now : Nat) (upkeep : Upkeep) :
    Clients.Agree view clients (coordinator.maintain clients now upkeep).2.2 := by
  have pinged : Clients.Agree view clients (coordinator.ping clients now upkeep).2 := by
    rw [ping]
    split
    · exact feed_agree unqueued ..
    · exact .refl clients
  simp only [maintain]
  exact pinged.trans ((Clients.Agree.sendAll unqueued ..).trans (.closeAll unqueued ..))

end

variable (coordinator : Coordinator) (clients : Clients)

theorem feed_keeps (data : Bytes) (database : Option Nat) :
    clients.Keeps (coordinator.feed clients data database).2 :=
  ⟨(feed_agree (fun _ _ => rfl) coordinator clients data database).same⟩

theorem finishFullSync_keeps (now : Nat) (payload : Bytes) :
    clients.Keeps (coordinator.finishFullSync clients now payload).2 :=
  ⟨(finishFullSync_agree (fun _ _ => rfl) coordinator clients now payload).same⟩

theorem maintain_keeps (now : Nat) (upkeep : Upkeep) :
    clients.Keeps (coordinator.maintain clients now upkeep).2.2 :=
  ⟨(maintain_agree (fun _ _ => rfl) coordinator clients now upkeep).same⟩

end Stream.Coordinator

namespace Deed

/-- The number of databases never changes. -/
theorem count_apply (deed : Deed) (node : Node) :
    (deed.apply node).partitions.count = node.partitions.count := by
  have begun {node later : Node} (begins : node.beginSnapshot? = some later) :
      later.partitions.count = node.partitions.count := by
    obtain ⟨_, rfl⟩ := Node.beginSnapshot?_inv begins
    exact List.length_map ..
  cases deed with
  | edit index operation => exact List.length_modify ..
  | flush => exact List.length_map ..
  | save =>
      rcases node.save_cases with ⟨_, same⟩ | ⟨_, _, _, same⟩ <;> rw [apply, same]
      simp [PartitionSet.stop, PartitionSet.resume, PartitionSet.count]
  | beginSnapshot =>
      simp only [apply]
      cases begins : node.beginSnapshot? with
      | none => rfl
      | some later => exact begun begins
  | synchronise id history offset =>
      have scheduled (node : Node) : node.scheduleFullSync.partitions.count = node.partitions.count := by
        rcases node.scheduleFullSync_cases with ⟨_, same⟩ | ⟨_, _, same⟩ | ⟨later, begins, same⟩ <;>
          rw [same]
        have count := begun begins
        exact count
      rcases Node.synchronise_cases id history offset node with ⟨_, _, same⟩ | ⟨_, same⟩ <;>
        rw [apply, same]
      rw [scheduled]
  | promote =>
      simp only [apply, Command.promote]
      split <;> rfl
  | publish | subscription | listeningPort | close | acknowledge | follow | answerLeader | feed => rfl

end Deed

namespace Link.Role

/-- There is no link without a leader. -/
def Idle (role : Role) : Prop :=
  role.leader = none → role.state = .idle

namespace Idle

variable {role : Role}

theorem of_leader (some : role.leader.isSome = true) : role.Idle := by
  intro none
  rw [none] at some
  cases some

theorem reconnect (idle : role.Idle) : role.reconnect.Idle := by
  simp only [Role.reconnect]
  split
  · next following => exact of_leader following
  · exact idle

theorem maintain (idle : role.Idle) (now : Nat) (request : SyncRequest) (timeout : Nat) :
    (role.maintain now request timeout).Idle := by
  simp only [Role.maintain]
  split
  · exact idle
  · simp only [Role.openLink]
    split
    · exact idle
    · next leader =>
        apply of_leader
        simp only [Role.setState, Role.dropLink, leader, Option.isSome_some]
  · split
    · exact idle.reconnect
    · exact idle
  · split
    · exact idle.reconnect
    · exact idle

end Idle

/-- Only a node with a leader takes notice of a link. -/
theorem leader_of_accepts {role : Role} (idle : role.Idle) {epoch : Nat}
    (accepts : role.accepts epoch = true) : role.leader.isSome = true := by
  cases leader : role.leader with
  | none => simp [Role.accepts, idle leader] at accepts
  | some leader => rfl

end Link.Role

namespace Node

theorem Becomes.count {allowed : Deed → Prop} {node later : Node}
    (becomes : node.Becomes allowed later) : later.partitions.count = node.partitions.count :=
  becomes.same (·.partitions.count) fun deed node _ => deed.count_apply node

/-- The books of a node are in order. -/
structure Orderly (node : Node) : Prop where
  coordinator : node.coordinator.Orderly
  clients : node.clients.Within node.partitions.count
  idle : node.role.Idle

namespace Orderly

open Stream.Coordinator (Steady)

variable {node later : Node}

/-- Replicas are at most dropped or noted, and neither databases nor the leader change. -/
theorem congr (orderly : node.Orderly) (steady : Steady node.coordinator later.coordinator)
    (clients : node.clients.Keeps later.clients)
    (count : later.partitions.count = node.partitions.count) (role : later.role = node.role) :
    later.Orderly where
  coordinator := orderly.coordinator.steady steady
  clients := by
    rw [count]
    exact clients.within orderly.clients
  idle := by
    rw [role]
    exact orderly.idle

theorem dropReplicas (orderly : node.Orderly) : node.dropReplicas.Orderly :=
  orderly.congr
    ((Steady.dropReplicas node.coordinator node.clients node.coordinator.replicas.keys).trans
      (.forgetStreamDatabase _))
    (.closeAll node.clients node.coordinator.replicas.keys) rfl rfl

theorem beginSnapshot (orderly : node.Orderly) (begun : node.beginSnapshot? = some later) :
    later.Orderly := by
  obtain ⟨_, rfl⟩ := beginSnapshot?_inv begun
  refine ⟨orderly.coordinator.congr rfl rfl, ?_, orderly.idle⟩
  have count : node.partitions.freeze.count = node.partitions.count := List.length_map ..
  rw [count]
  exact orderly.clients

theorem scheduleFullSync (orderly : node.Orderly) : node.scheduleFullSync.Orderly := by
  have marked {node : Node} (orderly : node.Orderly) :
      { node with coordinator := node.coordinator.markAwaiting.2 }.Orderly :=
    ⟨orderly.coordinator.markAwaiting, orderly.clients, orderly.idle⟩
  rcases node.scheduleFullSync_cases with ⟨_, same⟩ | ⟨_, _, same⟩ | ⟨begun, begins, same⟩ <;> rw [same]
  · exact orderly
  · exact marked orderly
  · exact marked (orderly.beginSnapshot begins)

theorem synchronise (orderly : node.Orderly) (id : ClientId) (history : String)
    (offset : Int) : (Command.synchronise id history offset node).Orderly := by
  have removed := orderly.coordinator.steady (.remove node.coordinator id)
  rcases synchronise_cases id history offset node with ⟨tail, missed, same⟩ | ⟨_, same⟩ <;> rw [same]
  · have some : (node.coordinator.remove id).backlog.isSome = true := by
      rw [Stream.Coordinator.missed?] at missed
      split at missed
      · cases missed
      · next there => rw [there]; rfl
    exact ⟨removed.register some .., (Clients.Keeps.queue ..).within orderly.clients, orderly.idle⟩
  · apply scheduleFullSync
    exact ⟨removed.beginFullResync .., orderly.clients, orderly.idle⟩

theorem feed (orderly : node.Orderly) (data : Bytes) (database : Option Nat) :
    (node.feed data database).Orderly :=
  ⟨orderly.coordinator.feed .., (Stream.Coordinator.feed_keeps ..).within orderly.clients,
    orderly.idle⟩

/-- Whatever a command is made of, the books stay in order. -/
theorem deed (orderly : node.Orderly) (deed : Deed) : (deed.apply node).Orderly := by
  have count := deed.count_apply node
  cases deed with
  | edit index operation =>
      exact orderly.congr (.refl _) (.refl _) count rfl
  | flush => exact orderly.congr (.refl _) (.refl _) count rfl
  | save =>
      rw [Deed.apply] at count ⊢
      rcases node.save_cases with ⟨_, same⟩ | ⟨_, _, _, same⟩ <;> rw [same] at count ⊢
      · exact orderly
      · exact orderly.congr (.refl _) (.refl _) count rfl
  | beginSnapshot =>
      simp only [Deed.apply]
      cases begun : node.beginSnapshot? with
      | none => exact orderly
      | some later => exact orderly.beginSnapshot begun
  | publish listeners bytes => exact orderly.congr (.refl _) (.sendAll ..) rfl rfl
  | subscription id channel listen =>
      exact orderly.congr (.refl _) (.modify _ _ fun _ => rfl) rfl rfl
  | listeningPort id port => exact orderly.congr (.refl _) (.modify _ _ fun _ => rfl) rfl rfl
  | close id => exact orderly.congr (.refl _) (.queue ..) rfl rfl
  | acknowledge id offset => exact orderly.congr (.acknowledge ..) (.refl _) rfl rfl
  | synchronise id history offset => exact orderly.synchronise id history offset
  | promote =>
      simp only [Deed.apply, Command.promote]
      split
      · have branched : node.coordinator.branchIdentity.Orderly := by
          apply orderly.coordinator.congr <;> simp only [Stream.Coordinator.branchIdentity]
        have promoted : { node with
            role := node.role.unfollow
            coordinator := node.coordinator.branchIdentity }.Orderly :=
          ⟨branched, orderly.clients, fun _ => rfl⟩
        exact promoted.dropReplicas
      · exact orderly
  | follow host port =>
      have leader : (node.role.follow host port).leader = some (host, port) := rfl
      have following : { node with role := node.role.follow host port }.Orderly := by
        refine ⟨orderly.coordinator, orderly.clients, fun none => ?_⟩
        rw [leader] at none
        cases none
      exact following.dropReplicas
  | answerLeader => exact ⟨orderly.coordinator, orderly.clients, orderly.idle⟩
  | feed data database => exact orderly.feed ..

theorem becomes {allowed : Deed → Prop} (orderly : node.Orderly)
    (becomes : node.Becomes allowed later) : later.Orderly :=
  becomes.keeps (fun deed _ _ orderly => orderly.deed deed) orderly

end Orderly
end Node

/-! ### The database of a session -/

/-- A context whose database exists, or is the first. -/
def Context.InRange (context : Context) : Prop :=
  context.session.database = 0 ∨ context.session.database < context.node.partitions.count

namespace Context.InRange

variable {context later : Context}

theorem congr (range : context.InRange) (database : later.session.database = context.session.database)
    (count : later.node.partitions.count = context.node.partitions.count) : later.InRange := by
  rw [InRange, database, count]
  exact range

theorem does {allowed : Deed → Prop} (range : context.InRange)
    (does : context.Does allowed later) : later.InRange :=
  range.congr (by rw [does.session]) does.becomes.count

end Context.InRange

namespace Command

open CommandM

/-- A handler that selects no database that does not exist. -/
def Selects (handler : Handler) : Prop :=
  ∀ (arguments : List String) (context : Context), context.InRange →
    ((handler arguments).outcome context).2.InRange

theorem basic_selects {command : Command} (member : command ∈ basic) : Selects command.handler := by
  intro arguments context range
  rcases basic_does member with rfl | rfl | does
  · dsimp only
    rcases outcome_select arguments context with unchanged | ⟨index, inside, changed⟩
    · rw [unchanged]
      exact range
    · rw [changed]
      exact .inr inside
  · obtain ⟨form, does⟩ := set_does arguments context
    have noted : Context.InRange
        { context with session := { context.session with propagateAs := form } } := range
    exact noted.does does
  · exact range.does (does arguments context)

theorem reload_selects (table : List Command) (context : Context) (range : context.InRange)
    (count : ((reload table).outcome context).2.node.partitions.count =
      context.node.partitions.count) :
    ((reload table).outcome context).2.InRange := by
  have session : (saveNow.outcome context).2.session = context.session := by
    rw [outcome_saveNow]
  refine range.congr ?_ count
  rw [outcome_reload]
  split
  · next given =>
      rw [given] at session
      exact congrArg Session.database session
  · next given =>
      rw [given] at session
      split <;> exact congrArg Session.database session

theorem all_selects {command : Command} (member : command ∈ all) : Selects command.handler := by
  rcases List.mem_cons.mp member with rfl | basic
  · intro arguments context range
    have count := (debug_ordinary context.node arguments context (.refl _)).count
    dsimp only
    rcases debug_cases Command.basic arguments context with ⟨_, _, _, form⟩ | ⟨_, number, _, _, form⟩ | does
    · rw [form] at count ⊢
      exact reload_selects _ context range count
    · rw [form]
      exact range.does (populateBy_does number context)
    · exact range.does does
  · exact basic_selects basic

theorem runFrom_selects {table : List Command}
    (handlers : ∀ command ∈ table, Selects command.handler) : Selects (runFrom table) := by
  intro arguments context range
  match arguments with
  | [] => exact range
  | name :: arguments =>
      rw [outcome_runFrom_cons]
      split
      · exact range
      · next command found =>
          have ran := handlers command (List.mem_of_find?_eq_some found) arguments context.ready range
          split
          · exact range
          · split
            · exact range
            · split
              · next after given =>
                  rw [given] at ran
                  exact ran
              · next reply after given =>
                  rw [given] at ran
                  dsimp only
                  split
                  · exact ran
                  · exact ran

theorem dispatch_inRange (context : Context) (arguments : List String) (range : context.InRange) :
    (dispatch context arguments).2.InRange := by
  rw [dispatch, dispatchFrom_context]
  exact runFrom_selects (fun _ member => all_selects member) arguments context range

end Command

/-! ### Taking over -/

namespace Node

/-- What becomes of a node with the data, the history and the stream of its leader. -/
def renewed (node : Node) (id : String) (offset : Int) (partitions : PartitionSet) : Node :=
  let coordinator := ((node.coordinator.changeBacklog fun backlog =>
    backlog.deactivate.reset offset).changeBacklog (·.activate)).adoptIdentity id
  { ({ node with partitions, coordinator } : Node).dropReplicas with
    role := { node.role with database := 0 }.setState node.clock.elapsed .connected }

/-- A snapshot of the leader that can be read takes the place of all data, and any other one
ends the link. -/
theorem applyFullSync_cases (node : Node) (id : String) (offset : Int) (payload : Bytes) :
    (Snapshot.commandsOf payload).toOption.isSome = false ∧
        node.applyFullSync id offset payload = { node with role := node.role.reconnect } ∨
      (Snapshot.commandsOf payload).toOption.isSome = true ∧ ∃ partitions : PartitionSet,
        partitions.count = node.partitions.count ∧
        node.applyFullSync id offset payload = node.renewed id offset partitions := by
  simp only [applyFullSync]
  cases read : Snapshot.commandsOf payload with
  | error error => exact .inl ⟨rfl, rfl⟩
  | ok commands =>
      dsimp only
      have does := Command.loadFrom_does Command.restores_all read { node with
        partitions := node.partitions.flush
        coordinator := node.coordinator.changeBacklog fun backlog =>
          backlog.deactivate.reset offset }
      have frame := does.frame
      have count := does.count
      have flushed : node.partitions.flush.count = node.partitions.count := List.length_map ..
      rw [Command.load]
      generalize (Command.loadFrom Command.all commands _).2 = loaded at frame count ⊢
      rw [frame]
      exact .inr ⟨rfl, loaded.partitions, count.trans flushed, rfl⟩

end Node

namespace Node.Orderly

open Stream.Coordinator (maintain_keeps)

variable {node later : Node}

theorem answer (orderly : node.Orderly) (id : ClientId) (reply : Reply) :
    (node.answer id reply).Orderly := by
  simp only [Node.answer]
  split
  · exact orderly
  · exact orderly.congr (.refl _) (.queue ..) rfl rfl

theorem serve (orderly : node.Orderly) (id : ClientId) (value : Wire.Value) :
    (node.serve id value).Orderly := by
  have issued (client : Client) : (node.issued id client).node.Orderly :=
    orderly.congr (.touch ..) (.refl _) rfl rfl
  simp only [Node.serve]
  split
  · exact orderly
  · next client found =>
      split
      · exact (issued client).answer ..
      · next arguments _ =>
          have range := Command.dispatch_inRange (node.issued id client) arguments
            (orderly.clients id client found)
          have ran := (issued client).becomes
            (Command.dispatch_ordinary (node.issued id client) arguments)
          apply answer
          refine ⟨ran.coordinator, ?_, ran.idle⟩
          intro other changed there
          dsimp only at there ⊢
          rw [Std.ExtTreeMap.getElem?_modify] at there
          split at there
          · obtain ⟨_, _, rfl⟩ := Option.map_eq_some_iff.mp there
            exact range
          · exact ran.clients other changed there

theorem maintain (orderly : node.Orderly) : node.maintain.Orderly := by
  have role := orderly.idle.maintain node.clock.elapsed node.syncRequest
    (1000 * node.settings.timeout)
  have maintained := orderly.coordinator.maintain node.clients node.clock.elapsed
  simp only [Node.maintain]
  split
  · exact ⟨maintained _, (maintain_keeps ..).within orderly.clients, role⟩
  · exact ⟨maintained _, (maintain_keeps ..).within orderly.clients, role⟩

/-! ### The link to a leader -/

theorem continueStream (orderly : node.Orderly) (leads : node.role.leader.isSome = true)
    (id : Option String) : (node.continueStream id).Orderly := by
  have activated {node : Node} (orderly : node.Orderly) (leads : node.role.leader.isSome = true)
      (elapsed : Nat) :
      { node with
        coordinator := node.coordinator.changeBacklog (·.activate)
        role := node.role.setState elapsed .connected }.Orderly := by
    refine ⟨.of_changeBacklog ⟨rfl, ?_⟩, orderly.clients, .of_leader leads⟩
    exact orderly.coordinator.bounded
  rcases node.continueStream_cases id with ⟨_, same⟩ | ⟨name, _, _, same⟩ <;> rw [same]
  · exact activated orderly leads _
  · have shifted : { node with
        coordinator := node.coordinator.shiftIdentity name node.coordinator.offset }.Orderly :=
      ⟨orderly.coordinator.congr rfl rfl, orderly.clients, orderly.idle⟩
    have dropped := @Orderly.congr _
      { node with
        coordinator := ((node.coordinator.shiftIdentity name node.coordinator.offset).dropAll
          node.clients).1
        clients := ((node.coordinator.shiftIdentity name node.coordinator.offset).dropAll
          node.clients).2 } shifted
      (.dropReplicas _ node.clients _) (.closeAll ..) rfl rfl
    exact activated dropped leads _

theorem applyFullSync (orderly : node.Orderly) (leads : node.role.leader.isSome = true)
    (id : String) (offset : Int) (payload : Bytes) :
    (node.applyFullSync id offset payload).Orderly := by
  rcases node.applyFullSync_cases id offset payload with ⟨_, same⟩ | ⟨_, partitions, count, same⟩
  · rw [same]
    exact ⟨orderly.coordinator, orderly.clients, orderly.idle.reconnect⟩
  · rw [same]
    have adopted : { node with
        partitions
        coordinator := ((node.coordinator.changeBacklog fun backlog =>
          backlog.deactivate.reset offset).changeBacklog (·.activate)).adoptIdentity id }.Orderly := by
      refine ⟨?_, ?_, orderly.idle⟩
      · have made : ((node.coordinator.changeBacklog fun backlog =>
            backlog.deactivate.reset offset).changeBacklog (·.activate)).Orderly :=
          .of_changeBacklog ⟨rfl, Nat.zero_le _⟩
        exact made.congr rfl rfl
      · dsimp only
        rw [count]
        exact orderly.clients
    have dropped := adopted.dropReplicas
    exact ⟨dropped.coordinator, dropped.clients, .of_leader leads⟩

theorem follow (orderly : node.Orderly) (arguments : List String) (raw : Bytes) :
    (node.follow arguments raw).Orderly := by
  have listening : node.listening.node.Orderly :=
    ⟨orderly.coordinator, orderly.clients, orderly.idle⟩
  rcases node.follow_cases arguments raw with ⟨_, same⟩ | ⟨_, same⟩ <;> rw [same]
  · have heard := listening.becomes (Command.dispatch_ordinary node.listening arguments)
    apply feed
    exact ⟨heard.coordinator, heard.clients, heard.idle⟩
  · exact listening

theorem takeLinkEvent (orderly : node.Orderly) (leads : node.role.leader.isSome = true)
    (event : Link.LinkEvent) : (node.takeLinkEvent event).Orderly := by
  cases event with
  | fullSync id offset payload => exact orderly.applyFullSync leads id offset payload
  | continued id => exact orderly.continueStream leads id
  | command arguments raw => exact orderly.follow arguments raw
  | state => exact ⟨orderly.coordinator, orderly.clients, .of_leader leads⟩
  | heartbeat => exact ⟨orderly.coordinator, orderly.clients, orderly.idle⟩
  | failed => exact ⟨orderly.coordinator, orderly.clients, orderly.idle.reconnect⟩

/-! ### Events -/

theorem takeReport (orderly : node.Orderly) (report : Report) :
    (node.takeReport report).Orderly := by
  cases report with
  | written index =>
      obtain ⟨_, _, same⟩ := node.partitionWritten_eq index
      rw [Node.takeReport, same]
      exact orderly.congr (.refl _) (.refl _) (List.length_modify ..) rfl
  | aborted index => exact orderly.congr (.refl _) (.refl _) (List.length_modify ..) rfl
  | finished result =>
      cases result with
      | ok payload =>
          exact orderly.congr (Stream.Coordinator.finishFullSync_steady ..).1
            (Stream.Coordinator.finishFullSync_keeps ..) rfl rfl
      | error error =>
          exact orderly.congr (Stream.Coordinator.failFullSync_steady _ node.clients).1
            (.closeAll ..) rfl rfl

theorem drain (orderly : node.Orderly) (index : Nat) (picked : List String) :
    (node.drain index picked).Orderly := by
  have count : (node.partitions.drain index picked).count = node.partitions.count := by
    simp only [PartitionSet.drain]
    split <;> exact List.length_modify ..
  obtain ⟨_, _, same⟩ := node.drain_eq index picked
  rw [same]
  exact orderly.congr (.refl _) (.refl _) count rfl

/-- Whatever happens to a node leaves its books in order. -/
theorem next {happening : Happening} (orderly : node.Orderly)
    (happened : node.next? happening = some later) : later.Orderly := by
  have apart {later : Node} (coordinator : later.coordinator = node.coordinator)
      (clients : node.clients.Keeps later.clients)
      (count : later.partitions.count = node.partitions.count) (role : later.role = node.role) :
      later.Orderly := orderly.congr (coordinator ▸ .refl _) clients count role
  cases happening with
  | connected id address =>
      cases happened
      refine ⟨orderly.coordinator, ?_, orderly.idle⟩
      intro other client found
      simp only [Node.handle, Node.connect, Std.ExtTreeMap.getElem?_insert] at found
      split at found
      · cases found
        exact .inl rfl
      · exact orderly.clients other client found
  | disconnected id =>
      cases happened
      have removed := orderly.coordinator.steady (.remove node.coordinator id)
      exact ⟨removed, orderly.clients.erase id, orderly.idle⟩
  | command id value =>
      cases happened
      exact orderly.serve id value
  | upkeep =>
      cases happened
      exact orderly.maintain
  | link epoch event =>
      cases happened
      simp only [Node.handle]
      split
      · next accepts =>
          exact orderly.takeLinkEvent (Link.Role.leader_of_accepts orderly.idle accepts) event
      · exact orderly
  | task position picked =>
      simp only [Node.next?, Option.map_eq_some_iff] at happened
      obtain ⟨task, _, rfl⟩ := happened
      have rest : { node with tasks := node.tasks.eraseIdx position }.Orderly :=
        apart rfl (.refl _) rfl rfl
      cases task with
      | beginSnapshot =>
          simp only [Task.event, Node.handle]
          split
          · exact rest.scheduleFullSync
          · exact rest
      | drain index => exact rest.drain index picked
  | report =>
      simp only [Node.next?, Node.stepWriter?] at happened
      split at happened
      · cases happened
      · cases happened
      · next report reports _ =>
          cases happened
          apply takeReport
          cases report <;> exact apart rfl (.refl _) rfl rfl
  | refuse id reply =>
      cases happened
      exact apart rfl ((Clients.Keeps.queue ..).trans (.queue ..)) rfl rfl
  | hangUp id =>
      cases happened
      exact apart rfl (.modify _ _ fun _ => rfl) rfl rfl
  | deliver =>
      cases happened
      exact apart rfl (.takeQueued _) rfl rfl
  | deliverToLeader =>
      cases happened
      exact ⟨orderly.coordinator, orderly.clients, orderly.idle⟩
  | advance | setWall | setStorage =>
      cases happened
      exact apart rfl (.refl _) rfl rfl

end Node.Orderly

namespace Node

theorem orderly_start {settings : Settings} {supply : Stream.IdSupply} {clock : Clock}
    {found : Except Snapshot.SnapshotError (Option Bytes)} {server : Server}
    (started : Server.start settings supply clock found = .ok server) :
    server.node.Orderly := by
  obtain ⟨loaded, made, role⟩ := Server.start_inv started
  have new {storage : Storage} : { Node.new settings supply clock with storage }.Orderly := by
    refine ⟨.new .., ?_, fun _ => rfl⟩
    intro id client found
    simp [Node.new] at found
  have orderly : loaded.Orderly := by
    rcases made with rfl | ⟨bytes, commands, _, rfl⟩
    · exact new
    · exact new.becomes (Command.load_ordinary commands _)
  rcases role with same | ⟨host, port, same⟩
  · rw [same]
    exact orderly
  · rw [same]
    exact ⟨orderly.coordinator, orderly.clients, .of_leader rfl⟩

/-- The books of every reachable node are in order. -/
theorem Reachable.orderly {node : Node} (reachable : node.Reachable) : node.Orderly := by
  induction reachable with
  | start port started =>
      exact (orderly_start started).congr (.refl _) (.refl _) rfl rfl
  | next happening _ happened ih => exact ih.next happened

end Node
end ReplicaStore
