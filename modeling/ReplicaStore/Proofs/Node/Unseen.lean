import ReplicaStore.Proofs.Node.Counted
import ReplicaStore.Proofs.Node.Progress

/-!
# Snapshots that nobody notices

Saving, the reports of a snapshot writer and the merging after it leave the time, the role, the
clients' databases and all that clients see of them as they are (`Node.Unseen`).  A run with
any of this in between therefore gives the same replies to commands on keys as the run without
it (`Node.Reachable.snapshots_unnoticed`): both go through nodes that such commands cannot tell
apart (`Node.Twins`).
-/

namespace ReplicaStore

/-- An entry is not expired yet right before its time. -/
theorem Entry.expired_before (entry : Entry) : entry.expired (entry.expiry.getD 0 - 1) = false := by
  cases given : entry.expiry with
  | none => simp [Entry.expired, given]
  | some moment =>
      simp only [Entry.expired, given, Option.getD_some]
      exact decide_eq_false (by omega)

/-- Of which the same can be read at every moment, that is the same. -/
theorem Keyspace.eq_of_unexpired {left right : Keyspace}
    (same : ∀ now, left.unexpired now = right.unexpired now) : left = right := by
  have found {left right : Keyspace} (same : ∀ now, left.unexpired now = right.unexpired now)
      {key : String} {entry : Entry} (there : left[key]? = some entry) :
      right[key]? = some entry := by
    have unexpired := congrArg (·[key]?) (same (entry.expiry.getD 0 - 1))
    simp only [getElem?_unexpired, there, Option.filter, entry.expired_before] at unexpired
    exact (Option.filter_eq_some_iff.mp unexpired.symm).1
  apply ext
  intro key
  cases here : left[key]? with
  | some entry => exact (found same here).symm
  | none =>
      cases there : right[key]? with
      | none => rfl
      | some entry => exact here.symm.trans (found (fun now => (same now).symm) there)

/-- What can be read at every moment is all that clients see. -/
theorem PartitionSet.contents_eq_of_live {left right : PartitionSet}
    (live : ∀ now, left.live now = right.live now) : left.contents = right.contents := by
  have visible (set : PartitionSet) (index : Nat) :
      set.contents[index]? = (set.get? index).map (·.visible) := List.getElem?_map ..
  apply List.ext_getElem?
  intro index
  rw [visible, visible]
  rcases get?_of_map_eq (live 0) index with ⟨here, there⟩ | ⟨here, there, foundLeft, foundRight, _⟩
  · rw [here, there]
  · rw [foundLeft, foundRight]
    apply congrArg some
    apply Keyspace.eq_of_unexpired
    intro now
    have views := congrArg (·[index]?) (live now)
    simp only [getElem?_live, foundLeft, foundRight] at views
    exact Option.some.inj views

theorem Node.clients_beginSnapshot {node later : Node} (begins : node.beginSnapshot? = some later) :
    later.clients = node.clients := by
  obtain ⟨_, rfl⟩ := beginSnapshot?_inv begins
  rfl

theorem Node.clients_scheduleFullSync (node : Node) : node.scheduleFullSync.clients = node.clients := by
  rcases node.scheduleFullSync_cases with ⟨_, same⟩ | ⟨_, _, same⟩ | ⟨begun, begins, same⟩ <;> rw [same]
  have clients := clients_beginSnapshot begins
  exact clients

namespace Deed

/-- Whatever a command is made of, the same clients work on the same databases. -/
theorem clients_apply (deed : Deed) (node : Node) : node.clients.Keeps (deed.apply node).clients := by
  cases deed with
  | edit | flush | acknowledge | answerLeader => exact .refl _
  | save =>
      rcases node.save_cases with ⟨_, same⟩ | ⟨_, _, _, same⟩ <;> rw [apply, same] <;> exact .refl _
  | beginSnapshot =>
      simp only [apply]
      cases begins : node.beginSnapshot? with
      | none => exact .refl _
      | some later =>
          rw [Option.getD_some, Node.clients_beginSnapshot begins]
          exact .refl _
  | publish listeners bytes => exact .sendAll ..
  | subscription id channel listen => exact .modify _ _ fun _ => rfl
  | listeningPort id port => exact .modify _ _ fun _ => rfl
  | close id => exact .queue ..
  | synchronise id history offset =>
      rcases Node.synchronise_cases id history offset node with ⟨_, _, same⟩ | ⟨_, same⟩ <;>
        rw [apply, same]
      · exact .queue ..
      · rw [Node.clients_scheduleFullSync]
        exact .refl _
  | promote =>
      simp only [apply, Command.promote]
      split
      · exact .closeAll ..
      · exact .refl _
  | follow host port => exact .closeAll ..
  | feed data database => exact Stream.Coordinator.feed_keeps ..

end Deed

namespace Node

variable {allowed : Deed → Prop} {node before between after later left right : Node}

theorem Becomes.clients (becomes : node.Becomes allowed later) : node.clients.Keeps later.clients :=
  @Becomes.keeps _ _ _ (fun later => node.clients.Keeps later.clients) becomes
    (fun deed between _ keeps => keeps.trans (deed.clients_apply between)) (.refl _)

/-! ### What is not seen -/

/-- Something has happened that commands on keys cannot notice. -/
structure Unseen (before after : Node) : Prop where
  wall : after.clock.wall = before.clock.wall
  leader : after.role.leader = before.role.leader
  clients : before.clients.Keeps after.clients
  retains : before.partitions.Retains after.partitions

namespace Unseen

theorem refl (sound : node.Sound) : node.Unseen node :=
  ⟨rfl, rfl, .refl _, .refl sound⟩

theorem trans (first : before.Unseen between) (second : between.Unseen after) :
    before.Unseen after :=
  ⟨second.wall.trans first.wall, second.leader.trans first.leader,
    first.clients.trans second.clients, first.retains.trans second.retains⟩

theorem following (unseen : before.Unseen after) : after.following = before.following := by
  rw [Node.following, Node.following, Link.Role.following, Link.Role.following, unseen.leader]

theorem save (sound : node.Sound) : node.Unseen node.save.2 := by
  obtain ⟨clock, role, _⟩ := node.save_frame
  exact ⟨by rw [clock], by rw [role], Deed.clients_apply .save node, save_retains sound⟩

theorem beginSnapshot (sound : node.Sound) (begun : node.beginSnapshot? = some later) :
    node.Unseen later := by
  have clients := Deed.clients_apply .beginSnapshot node
  rw [Deed.apply, begun] at clients
  have silent := beginSnapshot_silent sound begun
  exact ⟨silent.wall, silent.leader, clients, beginSnapshot_retains sound begun⟩

theorem scheduleFullSync (sound : node.Sound) : node.Unseen node.scheduleFullSync := by
  rcases node.scheduleFullSync_cases with ⟨_, same⟩ | ⟨_, _, same⟩ | ⟨begun, begins, same⟩ <;> rw [same]
  · exact refl sound
  · exact ⟨rfl, rfl, .refl _, .refl sound⟩
  · have unseen := beginSnapshot sound begins
    exact ⟨unseen.wall, unseen.leader, unseen.clients, unseen.retains⟩

/-- A report of a writer, also one that was not to be expected. -/
theorem takeReport (sound : node.Sound) (report : Report) : node.Unseen (node.takeReport report) := by
  obtain ⟨clock, role, _⟩ := node.takeReport_frame report
  refine ⟨by rw [clock], by rw [role], ?_, takeReport_retains sound report⟩
  cases report with
  | written index =>
      obtain ⟨_, _, same⟩ := node.partitionWritten_eq index
      rw [Node.takeReport, same]
      exact .refl _
  | aborted index => exact .refl _
  | finished result =>
      cases result with
      | ok payload => exact Stream.Coordinator.finishFullSync_keeps ..
      | error error => exact .closeAll ..

/-- The merging of any keys. -/
theorem drain (sound : node.Sound) (index : Nat) (picked : List String) :
    node.Unseen (node.drain index picked) := by
  have retains := drain_retains sound index picked
  obtain ⟨_, _, same⟩ := node.drain_eq index picked
  rw [same] at retains ⊢
  exact ⟨rfl, rfl, .refl _, retains⟩

theorem maintain (sound : node.Sound) : node.Unseen node.maintain := by
  obtain ⟨partitions, clock, _, leader, _⟩ := node.maintain_frame
  have clients := Stream.Coordinator.maintain_keeps node.coordinator node.clients
    node.clock.elapsed node.periods
  rw [← node.maintain_coordinates.2] at clients
  exact ⟨by rw [clock], leader, clients, (PartitionSet.Retains.refl sound).congr (by rw [partitions])⟩

end Unseen
end Node

namespace Command

open CommandM

/-- Whether a command saves, at once or in the background. -/
def saves : List String → Bool
  | [] => false
  | name :: _ => ["SAVE", "BGSAVE"].contains (Text.upper name)

theorem saves_does {command : Command} (member : command ∈ all)
    (named : command.name ∈ ["SAVE", "BGSAVE"]) (arguments : List String) (context : Context) :
    command.effect = .admin ∧
      (command.handler arguments).Does (fun deed => deed = .save ∨ deed = .beginSnapshot) context := by
  simp only [all, basic, List.mem_cons, List.not_mem_nil, or_false] at member
  rcases member with rfl | rfl | rfl | rfl | rfl | rfl | rfl | rfl | rfl | rfl | rfl | rfl | rfl |
    rfl | rfl | rfl | rfl | rfl | rfl | rfl | rfl | rfl | rfl | rfl | rfl | rfl | rfl | rfl | rfl | rfl
  all_goals try exact absurd named (by decide)
  · exact ⟨rfl, (save_does arguments).mono fun _ => .inl⟩
  · exact ⟨rfl, (bgsave_does arguments).mono fun _ => .inr⟩

/-- Saving is not seen by commands on keys, whether it succeeds or fails. -/
theorem dispatch_saves {arguments : List String} (saving : saves arguments = true)
    {context : Context} (sound : context.node.Sound) :
    context.node.Unseen (dispatch context arguments).2.node ∧
      (dispatch context arguments).2.session.database = context.session.database := by
  rw [dispatch, dispatchFrom_context]
  cases arguments with
  | nil => cases saving
  | cons name arguments =>
      rw [outcome_runFrom_cons]
      cases found : find? all name with
      | none => exact ⟨.refl sound, rfl⟩
      | some command =>
          obtain ⟨member, named⟩ := find?_inv found
          have saves : command.name ∈ ["SAVE", "BGSAVE"] := by
            rw [named]
            simpa [saves] using saving
          obtain ⟨admin, does⟩ := saves_does member saves arguments context.ready
          have unseen : context.node.Unseen
              ((command.handler arguments).outcome context.ready).2.node := by
            apply does.becomes.keeps _ (.refl sound)
            intro deed between allowed unseen
            rcases allowed with rfl | rfl
            · exact unseen.trans (.save unseen.retains.sound)
            · simp only [Deed.apply]
              cases begun : between.beginSnapshot? with
              | none => exact unseen
              | some later => exact unseen.trans (.beginSnapshot unseen.retains.sound begun)
          have session := congrArg Session.database (Context.Does.session does)
          dsimp only
          split
          · exact ⟨.refl sound, rfl⟩
          · split
            · exact ⟨.refl sound, rfl⟩
            · split
              · next given =>
                  rw [given] at unseen session
                  exact ⟨unseen, session⟩
              · next given =>
                  rw [given] at unseen session
                  simp only [admin, Effect.propagates, Bool.and_false, Bool.false_eq_true, if_false]
                  exact ⟨unseen, session⟩

end Command

namespace Node

variable {node left right : Node}

/-! ### Replies -/

/-- Runs a command of a client, and gives the reply that is still to be queued. -/
def obey (node : Node) (id : ClientId) (value : Wire.Value) : Reply × Node :=
  match node.clients[id]? with
  | none => ([], node)
  | some client =>
      let node := { node with coordinator := node.coordinator.touch node.clock.elapsed id }
      match value.arguments? with
      | none => ([CommandError.invalidFormat.reply], node)
      | some arguments =>
          let session : Session := { source := .client id, database := client.database }
          let (reply, context) := Command.dispatch { node, session } arguments
          (reply, { context.node with
            clients := context.node.clients.modify id fun client =>
              { client with database := context.session.database } })

/-- Serving a client is to do what it asks for and to queue the reply. -/
theorem serve_obey (node : Node) (id : ClientId) (value : Wire.Value) :
    node.serve id value = (node.obey id value).2.answer id (node.obey id value).1 := by
  rw [serve, obey]
  cases node.clients[id]? with
  | none => rfl
  | some client =>
      dsimp only
      cases value.arguments? <;> rfl

theorem clients_answer (node : Node) (id : ClientId) (reply : Reply) :
    node.clients.Keeps (node.answer id reply).clients := by
  simp only [answer]
  split
  · exact .refl _
  · exact .queue ..

/-- Nodes that commands on keys cannot tell apart. -/
structure Twins (left right : Node) : Prop where
  wall : left.clock.wall = right.clock.wall
  following : left.following = right.following
  clients : left.clients.Keeps right.clients
  partitions : left.partitions.Twins right.partitions

namespace Twins

theorem of_unseen (twins : Twins left right) {later : Node} (unseen : left.Unseen later)
    (counted : later.Counted) : Twins later right where
  wall := unseen.wall.trans twins.wall
  following := unseen.following.trans twins.following
  clients := ⟨fun id => (twins.clients.database id).trans (unseen.clients.database id).symm⟩
  partitions := ⟨counted, twins.partitions.countedRight,
    (PartitionSet.contents_eq_of_live unseen.retains.live).trans twins.partitions.contents⟩

/-- What is done to the clients alone leaves twins where it leaves their databases. -/
theorem of_clients (twins : Twins left right) {here there : Clients}
    (keepsLeft : left.clients.Keeps here) (keepsRight : right.clients.Keeps there) :
    Twins { left with clients := here } { right with clients := there } :=
  ⟨twins.wall, twins.following, (keepsLeft.symm.trans twins.clients).trans keepsRight,
    twins.partitions⟩

theorem answer (twins : Twins left right) (id : ClientId) (reply : Reply) :
    Twins (left.answer id reply) (right.answer id reply) := by
  simp only [Node.answer]
  split
  · exact twins
  · exact twins.of_clients (.queue ..) (.queue ..)

end Twins

/-- A command on keys gets the same reply from twins and leaves twins. -/
theorem obey_twins (twins : Twins left right) (id : ClientId) {value : Wire.Value}
    {arguments : List String} (reads : value.arguments? = some arguments)
    (concerns : Command.concernsKeys arguments = true) :
    (left.obey id value).1 = (right.obey id value).1 ∧
      Twins (left.obey id value).2 (right.obey id value).2 := by
  have same := twins.clients.database id
  rw [Clients.database?, Clients.database?] at same
  rw [obey, obey]
  cases here : left.clients[id]? with
  | none =>
      rw [here] at same
      rw [Option.map_eq_none_iff.mp same]
      exact ⟨rfl, twins⟩
  | some client =>
      rw [here] at same
      obtain ⟨other, there, database⟩ := Option.map_eq_some_iff.mp same
      rw [there]
      dsimp only
      rw [reads]
      dsimp only
      have contexts : Context.Twins
          ⟨{ left with coordinator := left.coordinator.touch left.clock.elapsed id },
            { source := .client id, database := client.database }⟩
          ⟨{ right with coordinator := right.coordinator.touch right.clock.elapsed id },
            { source := .client id, database := other.database }⟩ :=
        ⟨twins.wall, twins.following, by rw [database], twins.partitions⟩
      obtain ⟨reply, after⟩ := Command.dispatch_blind concerns contexts
      have keeps (node : Node) (session : Session) : node.clients.Keeps (Command.dispatch
          ⟨{ node with coordinator := node.coordinator.touch node.clock.elapsed id }, session⟩
          arguments).2.node.clients :=
        (Command.dispatch_ordinary
          ⟨{ node with coordinator := node.coordinator.touch node.clock.elapsed id }, session⟩
          arguments).clients
      refine ⟨reply, after.wall, after.following, ?_, after.partitions⟩
      rw [after.session]
      exact (((keeps left _).symm.trans twins.clients).trans (keeps right _)).setDatabase id _

/-! ### Runs -/

end Node

/-- One thing in a run. -/
inductive Turn where
  | happens (happening : Happening)
  /-- An event that the node did not bring about itself. -/
  | told (event : Event)

namespace Turn

/-- Commands on keys, clients that come and go, and the time of day. -/
def isShared : Turn → Bool
  | happens (.command _ value) => value.arguments?.any Command.concernsKeys
  | happens (.connected ..) | happens (.disconnected ..) | happens (.setWall ..)
  | happens (.refuse ..) | happens (.hangUp ..) => true
  | _ => false

/-- Everything about snapshots: saving at once and in the background, whether the storage
breaks, the reports of a writer, also unexpected ones, the merging of any keys, and the time
and the upkeep that bring all this about. -/
def isAside : Turn → Bool
  | happens (.command _ value) => value.arguments?.any Command.saves
  | happens (.task ..) | happens .report | happens (.setStorage ..) | happens (.advance ..)
  | happens .upkeep | happens .deliver | happens .deliverToLeader => true
  | told (.report ..) | told (.drain ..) | told .beginSnapshot => true
  | _ => false

/-- The node after a turn, which does nothing where it cannot happen. -/
def apply (turn : Turn) (node : Node) : Node :=
  match turn with
  | happens happening => (node.next? happening).getD node
  | told event => node.handle event

/-- The reply to a command that is no aside. -/
def reply? (turn : Turn) (node : Node) : Option Reply :=
  match turn with
  | happens (.command id value) =>
      if turn.isAside then none else some (node.obey id value).1
  | _ => none

end Turn

namespace Node

variable {node left right : Node}

/-- The replies in a run, but for those to asides. -/
def replies : List Turn → Node → List Reply
  | [], _ => []
  | turn :: turns, node => (turn.reply? node).toList ++ replies turns (turn.apply node)

/-! ### Asides -/

theorem Unseen.answer (sound : node.Sound) (id : ClientId) (reply : Reply) :
    node.Unseen (node.answer id reply) := by
  have clients := clients_answer node id reply
  simp only [Node.answer] at clients ⊢
  split
  · exact refl sound
  · next given =>
      rw [if_neg given] at clients
      exact ⟨rfl, rfl, clients, .refl sound⟩

theorem Unseen.obey (sound : node.Sound) (id : ClientId) {value : Wire.Value}
    {arguments : List String} (reads : value.arguments? = some arguments)
    (saving : Command.saves arguments = true) : node.Unseen (node.obey id value).2 := by
  rw [Node.obey]
  cases there : node.clients[id]? with
  | none => exact refl sound
  | some client =>
      dsimp only
      rw [reads]
      dsimp only
      obtain ⟨unseen, database⟩ := @Command.dispatch_saves arguments saving
        ⟨{ node with coordinator := node.coordinator.touch node.clock.elapsed id },
          { source := .client id, database := client.database }⟩ sound
      rw [database]
      refine ⟨unseen.wall, unseen.leader, ?_, unseen.retains⟩
      have stays := unseen.clients.database id
      rw [Clients.database?, Clients.database?, there] at stays
      exact unseen.clients.trans (.stay _ stays)

theorem Unseen.beginning (sound : node.Sound) :
    node.Unseen (node.handle .beginSnapshot) := by
  simp only [handle]
  split
  · exact scheduleFullSync sound
  · exact refl sound

/-- An aside is not seen by commands on keys. -/
theorem Unseen.aside {turn : Turn} (sound : node.Sound)
    (aside : turn.isAside = true) : node.Unseen (turn.apply node) := by
  cases turn with
  | told event =>
      cases event with
      | report report => exact takeReport sound report
      | drain index picked => exact drain sound index picked
      | beginSnapshot => exact beginning sound
      | _ => cases aside
  | happens happening =>
      cases happening with
      | command id value =>
          obtain ⟨arguments, reads, saving⟩ := (Option.any_eq_true ..).mp aside
          have obeyed := obey sound id reads saving
          simp only [Turn.apply, next?, Option.getD_some, handle, serve_obey]
          exact obeyed.trans (answer obeyed.retains.sound id _)
      | task position picked =>
          simp only [Turn.apply, next?]
          cases node.tasks[position]? with
          | none => exact refl sound
          | some task =>
              have rest : node.Unseen { node with tasks := node.tasks.eraseIdx position } :=
                ⟨rfl, rfl, .refl _, .refl sound⟩
              cases task with
              | beginSnapshot =>
                  exact rest.trans (@beginning { node with tasks := node.tasks.eraseIdx position }
                    sound)
              | drain index =>
                  exact rest.trans (@drain { node with tasks := node.tasks.eraseIdx position }
                    sound index picked)
      | report =>
          simp only [Turn.apply]
          cases happened : node.next? .report with
          | none => exact refl sound
          | some later =>
              obtain ⟨report, _, writing, storage, _, rfl, _⟩ := next?_report happened
              have written : node.Unseen { node with writing, storage } :=
                ⟨rfl, rfl, .refl _, .refl sound⟩
              exact written.trans (@takeReport { node with writing, storage } sound report)
      | upkeep => exact maintain sound
      | setStorage | advance | deliverToLeader => exact ⟨rfl, rfl, .refl _, .refl sound⟩
      | deliver => exact ⟨rfl, rfl, .takeQueued _, .refl sound⟩
      | _ => cases aside

/-! ### The same run without asides -/

theorem counted_apply (counted : node.Counted) {turn : Turn}
    (aside : turn.isAside = true) : (turn.apply node).Counted := by
  cases turn with
  | happens happening =>
      simp only [Turn.apply]
      cases happened : node.next? happening with
      | none => exact counted
      | some later => exact next_counted counted happened
  | told event =>
      cases event with
      | report report => exact takeReport_counted counted report
      | drain index picked => exact drain_counted counted index picked
      | beginSnapshot =>
          simp only [Turn.apply, handle]
          split
          · exact scheduleFullSync_counted counted
          · exact counted
      | _ => cases aside

theorem sound_apply (sound : node.Sound) {turn : Turn}
    (shared : turn.isShared = true) : (turn.apply node).Sound := by
  cases turn with
  | happens happening =>
      simp only [Turn.apply]
      cases happened : node.next? happening with
      | none => exact sound
      | some later => exact next_sound sound happened
  | told event => cases shared

/-- What both runs share leaves twins, and gives the same reply. -/
theorem apply_twins (twins : Twins left right) {turn : Turn} (shared : turn.isShared = true) :
    turn.reply? left = turn.reply? right ∧ Twins (turn.apply left) (turn.apply right) := by
  cases turn with
  | told event => cases shared
  | happens happening =>
      cases happening with
      | command id value =>
          obtain ⟨arguments, reads, concerns⟩ := (Option.any_eq_true ..).mp shared
          obtain ⟨same, after⟩ := obey_twins twins id reads concerns
          refine ⟨?_, ?_⟩
          · simp only [Turn.reply?, same]
          · simp only [Turn.apply, next?, Option.getD_some, handle, serve_obey, same]
            exact after.answer id _
      | connected id address =>
          exact ⟨rfl, twins.wall, twins.following, twins.clients.insert id _, twins.partitions⟩
      | disconnected id =>
          exact ⟨rfl, twins.wall, twins.following, twins.clients.erase id, twins.partitions⟩
      | setWall moment => exact ⟨rfl, rfl, twins.following, twins.clients, twins.partitions⟩
      | refuse id reply =>
          have closed (clients : Clients) : clients.Keeps ((clients.send id reply).close id) :=
            (Clients.Keeps.queue ..).trans (.queue ..)
          exact ⟨rfl, twins.of_clients (closed _) (closed _)⟩
      | hangUp id =>
          have deaf (clients : Clients) : clients.Keeps (clients.hangUp id) :=
            .modify clients id fun _ => rfl
          exact ⟨rfl, twins.of_clients (deaf _) (deaf _)⟩
      | _ => cases shared

theorem replies_twins (sound : left.Sound) (twins : Twins left right) (turns : List Turn)
    (allowed : ∀ turn ∈ turns, (turn.isShared || turn.isAside) = true) :
    left.replies turns = right.replies (turns.filter (!·.isAside)) := by
  induction turns generalizing left right with
  | nil => rfl
  | cons turn turns ih =>
      have later : ∀ turn ∈ turns, (turn.isShared || turn.isAside) = true :=
        fun turn member => allowed turn (List.mem_cons_of_mem _ member)
      by_cases aside : turn.isAside = true
      · have unseen := Unseen.aside sound aside
        have silent : turn.reply? left = none := by
          cases turn with
          | told event => rfl
          | happens happening =>
              cases happening with
              | command id value => exact if_pos aside
              | _ => rfl
        rw [List.filter_cons_of_neg (by simp [aside]), replies, silent]
        exact ih unseen.retains.sound
          (twins.of_unseen unseen (counted_apply twins.partitions.countedLeft aside)) later
      · have shared : turn.isShared = true := by
          simpa [aside] using allowed turn List.mem_cons_self
        obtain ⟨same, after⟩ := apply_twins twins shared
        rw [List.filter_cons_of_pos (by simp [aside]), replies, replies, same]
        exact congrArg _ (ih (sound_apply sound shared) after later)

theorem Twins.refl (counted : node.Counted) : Twins node node :=
  ⟨rfl, rfl, .refl _, counted, counted, rfl⟩

/-- Whatever is saved in a run of a reachable node, at once or in the background, successfully or
not, and whatever a writer reports and is merged back meanwhile, every reply to a command on
keys is the one that is given in the run without all this. -/
theorem Reachable.snapshots_unnoticed (reachable : node.Reachable) (turns : List Turn)
    (allowed : ∀ turn ∈ turns, (turn.isShared || turn.isAside) = true) :
    node.replies turns = node.replies (turns.filter (!·.isAside)) :=
  replies_twins reachable.sound (.refl reachable.counted) turns allowed

/-- Commands on keys of two clients, with a snapshot begun, given up and saved in between. -/
def interrupted : List Turn :=
  [.happens (.runs 1 ["SET", "a", "1"]), .happens (.runs 2 ["BGSAVE"]),
    .happens (.runs 1 ["DEL", "a"]), .happens (.runs 1 ["RPUSH", "l", "x", "y"]),
    .told (.report (.aborted 0)), .happens (.runs 2 ["DBSIZE"]), .happens .report,
    .told (.drain 0 ["l"]), .happens (.runs 2 ["LPOP", "l"]), .happens .report,
    .happens (.setStorage { breaksAfter := some 0 }), .happens (.runs 1 ["SAVE"]),
    .happens (.runs 2 ["LRANGE", "l", "0", "-1"]), .happens (.runs 1 ["GET", "a"])]

theorem snapshots_unnoticed_interrupted :
    small.Reachable ∧ (∀ turn ∈ interrupted, (turn.isShared || turn.isAside) = true) ∧
      small.replies interrupted = small.replies (interrupted.filter (!·.isAside)) ∧
      small.replies interrupted =
        [[.ok], [.integer 1], [.integer 2], [.integer 1], [.bulk "x"],
          [.array [.bulk "y"]], [.null]] := by
  have allowed : ∀ turn ∈ interrupted, (turn.isShared || turn.isAside) = true := by
    decide +kernel
  exact ⟨small_reachable, allowed,
    Reachable.snapshots_unnoticed small_reachable interrupted allowed, rfl⟩

end Node
end ReplicaStore
