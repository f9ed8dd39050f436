import ReplicaStore.Proofs.Node.Attuned

/-!
# Epochs of links

A node may drop the link to its leader at any time, and open another one later, while reports
of the first one are still to come.  The epochs keep them apart.  `Node.Linked` are all runs of
a node, with the epochs of the links that were opened so far, the last one first; each link
reports under its epoch, at any time later on.  No epoch is given twice, reports of a link that
is not open any more change nothing at all, and only the link that is open gets the node
connected (`Node.Linked.epochs_apart`).
-/

namespace ReplicaStore

namespace Link

/-- With these reports the node goes on with the stream of its leader. -/
def LinkEvent.isSync : LinkEvent → Bool
  | .fullSync .. | .continued _ => true
  | _ => false

namespace Role

variable {role between later : Role}

/-- The role is idle just if there is no leader. -/
def Minds (role : Role) : Prop :=
  role.state = .idle ↔ role.leader = none

/-- No link is opened: the one that is open stays so, or it is dropped and its epoch is over. -/
structure Retains (role later : Role) : Prop where
  minds : role.Minds → later.Minds
  link : later.epoch = role.epoch ∧ later.link.isSome = role.link.isSome ∨
    role.epoch < later.epoch ∧ later.link = none

/-- No link is opened, and none becomes connected. -/
structure Rests (role later : Role) : Prop extends role.Retains later where
  connected : later.state = .connected → role.state = .connected ∧ later.epoch = role.epoch

theorem Retains.trans (first : role.Retains between) (second : between.Retains later) :
    role.Retains later where
  minds := fun minds => second.minds (first.minds minds)
  link := by
    rcases first.link with ⟨epoch, link⟩ | ⟨epoch, link⟩
    · have further := second.link
      rwa [epoch, link] at further
    · refine .inr ?_
      rcases second.link with ⟨same, still⟩ | ⟨more, none⟩
      · refine ⟨by omega, ?_⟩
        simpa [link] using still
      · exact ⟨by omega, none⟩

namespace Rests

theorem of_alike (alike : role.Alike later) : role.Rests later where
  minds := by
    rw [Minds, Minds, alike.state, alike.leader]
    exact id
  link := by
    refine .inl ⟨alike.epoch, ?_⟩
    have request := congrArg Option.isSome alike.request
    simpa only [Option.isSome_map] using request
  connected := by
    rw [alike.state]
    exact fun connected => ⟨connected, alike.epoch⟩

theorem refl (role : Role) : role.Rests role :=
  .of_alike (.refl role)

theorem trans (first : role.Rests between) (second : between.Rests later) : role.Rests later where
  toRetains := first.toRetains.trans second.toRetains
  connected := by
    intro connected
    obtain ⟨middle, epoch⟩ := second.connected connected
    obtain ⟨before, same⟩ := first.connected middle
    exact ⟨before, epoch.trans same⟩

/-- A link that is given up is dropped, whatever the role is from then on. -/
theorem of_dropped (minds : role.Minds → later.Minds) (epoch : role.epoch < later.epoch)
    (link : later.link = none) (apart : later.state ≠ .connected) : role.Rests later where
  minds := minds
  link := .inr ⟨epoch, link⟩
  connected := fun connected => absurd connected apart

end Rests

theorem rests_follow (role : Role) (host : String) (port : Nat) : role.Rests (role.follow host port) :=
  .of_dropped (fun _ => by simp [Minds, follow]) (Nat.lt_succ_self _) rfl (by simp [follow])

theorem rests_unfollow (role : Role) : role.Rests role.unfollow :=
  .of_dropped (fun _ => by simp [Minds, unfollow]) (Nat.lt_succ_self _) rfl (by simp [unfollow])

theorem rests_reconnect (minds : role.Minds) : role.Rests role.reconnect := by
  obtain ⟨epoch, link⟩ := role.reconnect_dropped
  cases leader : role.leader with
  | none =>
      have idle : role.state = .idle := minds.mpr leader
      have same : role.reconnect = role.dropLink := by
        simp [reconnect, following, dropLink, leader]
      refine .of_dropped (fun _ => ?_) epoch link ?_ <;> rw [same]
      · simp [Minds, dropLink, idle, leader]
      · simp [dropLink, idle]
  | some named =>
      have same : role.reconnect = { role.dropLink with state := .connect } := by
        simp [reconnect, following, dropLink, leader]
      refine .of_dropped (fun _ => ?_) epoch link ?_ <;> rw [same]
      · simp [Minds, dropLink, leader]
      · simp

/-- The upkeep is to open a link. -/
def opens (role : Role) : Bool :=
  role.state == .connect && role.following

theorem rests_maintain (minds : role.Minds) (stays : role.opens = false) (now : Nat)
    (request : SyncRequest) (timeout : Nat) : role.Rests (role.maintain now request timeout) := by
  simp only [maintain]
  split
  · exact .refl role
  · next state =>
      have alone : role.leader = none := by
        simpa [opens, state, following] using stays
      rw [openLink, alone]
      exact .refl role
  · split
    · exact rests_reconnect minds
    · exact .of_alike (alike_send ..)
  · split
    · exact rests_reconnect minds
    · exact .refl role

/-- A link that is opened gets an epoch that no link had. -/
theorem maintain_opens (opens : role.opens = true) (now : Nat) (request : SyncRequest)
    (timeout : Nat) :
    role.epoch < (role.maintain now request timeout).epoch ∧
      (role.maintain now request timeout).link.isSome = true ∧
      (role.maintain now request timeout).state = .connecting ∧
      (role.maintain now request timeout).Minds := by
  simp only [Role.opens, Bool.and_eq_true, beq_iff_eq, following] at opens
  obtain ⟨state, follows⟩ := opens
  obtain ⟨⟨host, port⟩, leader⟩ := Option.isSome_iff_exists.mp follows
  simp only [maintain, state, openLink, leader]
  refine ⟨?_, rfl, rfl, ?_⟩
  · simp only [dropLink]
    omega
  · simp [Minds, setState, dropLink, leader]

/-- Whoever takes notice of a link has a leader. -/
theorem Minds.leader_of_accepts (minds : role.Minds) {epoch : Nat}
    (accepts : role.accepts epoch = true) : role.leader ≠ none := by
  intro none
  simp [Role.accepts, minds.mpr none] at accepts

theorem retains_setState (minds : role.Minds) {epoch : Nat} (accepts : role.accepts epoch = true)
    (now : Nat) {state : LinkState} (busy : state ≠ .idle) :
    role.Retains (role.setState now state) where
  minds := by
    have leader := minds.leader_of_accepts accepts
    simp [Minds, setState, busy, leader]
  link := .inl ⟨rfl, rfl⟩

/-! ### Links and their epochs -/

/-- What the epochs of the links that were opened, the last one first, say about a role. -/
structure Tags (opened : List Nat) (role : Role) : Prop where
  minds : role.Minds
  descends : opened.Pairwise (· > ·)
  bounded : ∀ epoch ∈ opened, epoch ≤ role.epoch
  current : role.link.isSome = true → opened.head? = some role.epoch
  /-- When a link is dropped, its epoch is over. -/
  past : role.link = none → ∀ epoch ∈ opened, epoch < role.epoch

namespace Tags

variable {opened : List Nat}

theorem retains (tags : role.Tags opened) (retains : role.Retains later) : later.Tags opened where
  minds := retains.minds tags.minds
  descends := tags.descends
  bounded := by
    intro epoch member
    have := tags.bounded epoch member
    rcases retains.link with ⟨same, _⟩ | ⟨more, _⟩ <;> omega
  current := by
    intro there
    rcases retains.link with ⟨same, link⟩ | ⟨_, none⟩
    · rw [same]
      exact tags.current (link ▸ there)
    · simp [none] at there
  past := by
    intro none epoch member
    rcases retains.link with ⟨same, link⟩ | ⟨more, _⟩
    · rw [same]
      refine tags.past ?_ epoch member
      simpa [none] using link.symm
    · have := tags.bounded epoch member
      omega

theorem opens (tags : role.Tags opened) (epoch : role.epoch < later.epoch)
    (link : later.link.isSome = true) (minds : later.Minds) : later.Tags (later.epoch :: opened) where
  minds := minds
  descends := by
    refine List.pairwise_cons.mpr ⟨fun early member => ?_, tags.descends⟩
    exact Nat.lt_of_le_of_lt (tags.bounded early member) epoch
  bounded := by
    intro other member
    rcases List.mem_cons.mp member with rfl | early
    · exact Nat.le_refl _
    · exact Nat.le_trans (tags.bounded other early) (Nat.le_of_lt epoch)
  current := fun _ => rfl
  past := by
    intro none
    simp [none] at link

/-- The epoch of a link is that of the role just as long as the link is the one that is open. -/
theorem epoch_iff (tags : role.Tags opened) {epoch : Nat} (member : epoch ∈ opened) :
    role.epoch = epoch ↔ opened.head? = some epoch ∧ role.link.isSome = true := by
  cases link : role.link with
  | none =>
      have := tags.past link epoch member
      simp only [Option.isSome_none, Bool.false_eq_true, and_false, iff_false]
      omega
  | some found =>
      have head := tags.current (by simp [link])
      simp [head]

end Tags
end Role
end Link

/-! ### What a node does with its role -/

namespace Node

variable {node later : Node}

/-- A deed opens no link: at most it follows another leader, or none. -/
theorem rests_deed (deed : Deed) (node : Node) : node.role.Rests (deed.apply node).role := by
  cases deed with
  | promote =>
      simp only [Deed.apply, Command.promote]
      split
      · exact Link.Role.rests_unfollow _
      · exact .refl _
  | follow host port => exact Link.Role.rests_follow _ host port
  | synchronise id history offset =>
      rw [Deed.apply, Command.role_synchronise]
      exact .refl _
  | answerLeader => exact .of_alike (Link.Role.alike_send ..)
  | save =>
      rw [Deed.apply, node.save_frame.2.1]
      exact .refl _
  | beginSnapshot =>
      simp only [Deed.apply]
      cases begun : node.beginSnapshot? with
      | none => exact .refl _
      | some later =>
          obtain ⟨_, rfl⟩ := beginSnapshot?_inv begun
          exact .refl _
  | edit | flush | publish | subscription | listeningPort | close | acknowledge | feed =>
      exact .refl _

theorem Becomes.rests_role {allowed : Deed → Prop} (becomes : node.Becomes allowed later) :
    node.role.Rests later.role :=
  @Becomes.keeps _ _ _ (fun between => node.role.Rests between.role) becomes
    (fun deed between _ rests => rests.trans (rests_deed deed between)) (.refl _)

theorem rests_serve (node : Node) (id : ClientId) (value : Wire.Value) :
    node.role.Rests (node.serve id value).role := by
  rcases node.serve_cases id value with
    ⟨_, same⟩ | ⟨client, _, ⟨_, _, same⟩ | ⟨arguments, _, _, same⟩⟩ <;> rw [same]
  · exact .refl _
  · exact .refl _
  · exact (Command.dispatch_ordinary (node.issued id client) arguments).rests_role

theorem rests_followed (node : Node) (arguments : List String) (raw : Bytes) :
    node.role.Rests (node.follow arguments raw).role := by
  have listening : node.role.Rests node.listening.node.role := .of_alike (Link.Role.alike_touch ..)
  rcases node.follow_cases arguments raw with ⟨_, same⟩ | ⟨_, same⟩ <;> rw [same]
  · have heard := (Command.dispatch_ordinary node.listening arguments).rests_role
    exact (listening.trans heard).trans (.of_alike ⟨rfl, rfl, rfl, rfl⟩)
  · exact listening

/-- Reports other than those that the stream goes on connect no link. -/
theorem rests_takeLinkEvent (minds : node.role.Minds) {epoch : Nat}
    (accepts : node.role.accepts epoch = true) {event : Link.LinkEvent}
    (plain : (Happening.link epoch event).isPlain = true) (other : event.isSync = false) :
    node.role.Rests (node.takeLinkEvent event).role := by
  cases event with
  | state state =>
      refine ⟨Link.Role.retains_setState minds accepts _ ?_, ?_⟩
      · rintro rfl
        cases plain
      · intro connected
        obtain rfl : state = .connected := connected
        cases plain
  | heartbeat => exact .of_alike (Link.Role.alike_touch ..)
  | failed reason => exact Link.Role.rests_reconnect minds
  | command arguments raw => exact rests_followed node arguments raw
  | fullSync | continued => cases other

theorem role_continueStream (node : Node) (id : Option String) :
    (node.continueStream id).role = node.role.setState node.clock.elapsed .connected := by
  rcases node.continueStream_cases id with ⟨_, same⟩ | ⟨_, _, _, same⟩ <;> rw [same]

theorem retains_takeLinkEvent (minds : node.role.Minds) {epoch : Nat}
    (accepts : node.role.accepts epoch = true) {event : Link.LinkEvent}
    (plain : (Happening.link epoch event).isPlain = true) :
    node.role.Retains (node.takeLinkEvent event).role := by
  have connected : node.role.Retains (node.role.setState node.clock.elapsed .connected) :=
    Link.Role.retains_setState minds accepts _ (by simp)
  cases event with
  | continued id =>
      rw [takeLinkEvent, role_continueStream]
      exact connected
  | fullSync id offset payload =>
      rcases node.applyFullSync_cases id offset payload with ⟨_, same⟩ | ⟨_, partitions, _, same⟩
      · rw [takeLinkEvent, same]
        exact (Link.Role.rests_reconnect minds).toRetains
      · rw [takeLinkEvent, same]
        have chosen : Link.Role.Alike (node.role.setState node.clock.elapsed .connected)
            (node.renewed id offset partitions).role := ⟨rfl, rfl, rfl, rfl⟩
        exact connected.trans (Link.Role.Rests.of_alike chosen).toRetains
  | state | heartbeat | command | failed =>
      exact (rests_takeLinkEvent minds accepts plain rfl).toRetains

/-! ### Runs -/

/-- What becomes of a node: anything that happens to it, or a change of its role from outside. -/
inductive LinkTurn where
  | happens (happening : Happening)
  | follow (host : String) (port : Nat)
  | unfollow
  | reconnect

namespace LinkTurn

/-- Reports come under the epochs of links that were opened, and speak of no state but how far a
link has come in being established. -/
def Fits (opened : List Nat) : LinkTurn → Prop
  | happens (.link epoch event) => epoch ∈ opened ∧ (Happening.link epoch event).isPlain = true
  | _ => True

end LinkTurn

/-- The node after a turn, if that can be. -/
def turn? (node : Node) : LinkTurn → Option Node
  | .happens happening => node.next? happening
  | .follow host port => some { node with role := node.role.follow host port }
  | .unfollow => some { node with role := node.role.unfollow }
  | .reconnect => some { node with role := node.role.reconnect }

/-- Whether a turn opens a link: only the upkeep does, if one is missing. -/
def opens (node : Node) : LinkTurn → Bool
  | .happens .upkeep => node.role.opens
  | _ => false

/-- A node that has been started and has taken any turns since, and the epochs of the links that
were opened meanwhile, the last one first. -/
inductive Linked : List Nat → Node → Prop
  | start {settings : Settings} {supply : Stream.IdSupply} {clock : Clock}
      {found : Except Snapshot.SnapshotError (Option Bytes)} {server : Server} (port : Nat)
      (started : Server.start settings supply clock found = .ok server) :
      Linked [] { server.node with port }
  | turn {opened : List Nat} {node later : Node} {turn : LinkTurn} (linked : Linked opened node)
      (fits : turn.Fits opened) (turned : node.turn? turn = some later) :
      Linked (if node.opens turn then later.role.epoch :: opened else opened) later

variable {opened : List Nat} {turn : LinkTurn}

/-- A turn that opens no link leaves the one that is open as it is or drops it, and connects it
only by a report of its own. -/
theorem turn_stays (tags : node.role.Tags opened) (fits : turn.Fits opened)
    (turned : node.turn? turn = some later) (stays : node.opens turn = false) :
    node.role.Retains later.role ∧ (node.role.Rests later.role ∨
      ∃ epoch event, turn = .happens (.link epoch event) ∧ event.isSync = true ∧
        opened.head? = some epoch ∧ node.role.link.isSome = true) := by
  have of_rests (rests : node.role.Rests later.role) : node.role.Retains later.role ∧
      (node.role.Rests later.role ∨ ∃ epoch event, turn = .happens (.link epoch event) ∧
        event.isSync = true ∧ opened.head? = some epoch ∧ node.role.link.isSome = true) :=
    ⟨rests.toRetains, .inl rests⟩
  cases turn with
  | follow host port =>
      cases turned
      exact of_rests (Link.Role.rests_follow _ host port)
  | unfollow =>
      cases turned
      exact of_rests (Link.Role.rests_unfollow _)
  | reconnect =>
      cases turned
      exact of_rests (Link.Role.rests_reconnect tags.minds)
  | happens happening =>
      have happened : node.next? happening = some later := turned
      cases happening with
      | command id value =>
          cases turned
          exact of_rests (rests_serve node id value)
      | upkeep =>
          cases turned
          apply of_rests
          rw [handle, role_maintain]
          exact Link.Role.rests_maintain tags.minds stays ..
      | link epoch event =>
          obtain ⟨member, plain⟩ := fits
          cases turned
          cases accepts : node.role.accepts epoch with
          | false =>
              apply of_rests
              rw [handle, accepts]
              exact .refl _
          | true =>
              have taken : node.handle (.link epoch event) = node.takeLinkEvent event := if_pos accepts
              rw [taken]
              refine ⟨retains_takeLinkEvent tags.minds accepts plain, ?_⟩
              cases sync : event.isSync with
              | false => exact .inl (rests_takeLinkEvent tags.minds accepts plain sync)
              | true =>
                  simp only [Link.Role.accepts, Bool.and_eq_true, beq_iff_eq] at accepts
                  obtain ⟨head, link⟩ := (tags.epoch_iff member).mp accepts.1
                  exact .inr ⟨epoch, event, rfl, sync, head, link⟩
      | connected | disconnected | advance | setWall | task | report | setStorage | refuse | hangUp
      | deliver | deliverToLeader => exact of_rests (.of_alike (unmoved_next happened rfl).role)

theorem turn_opens (tags : node.role.Tags opened) (turned : node.turn? turn = some later)
    (opens : node.opens turn = true) : later.role.Tags (later.role.epoch :: opened) ∧
      later.role.state = .connecting := by
  cases turn with
  | follow | unfollow | reconnect => cases opens
  | happens happening =>
      cases happening with
      | upkeep =>
          cases turned
          simp only [handle, role_maintain]
          obtain ⟨epoch, link, state, minds⟩ := Link.Role.maintain_opens opens node.clock.elapsed
            node.syncRequest (1000 * node.settings.timeout)
          exact ⟨tags.opens epoch link minds, state⟩
      | _ => cases opens

theorem Linked.tags (linked : node.Linked opened) : node.role.Tags opened := by
  induction linked with
  | @start settings supply clock found server port started =>
      obtain ⟨loaded, made, role⟩ := Server.start_inv started
      have fresh : Link.Role.Tags [] { lastHeard := clock.elapsed } := by
        refine ⟨?_, .nil, ?_, ?_, ?_⟩ <;> simp [Link.Role.Minds]
      have tags : loaded.role.Tags [] := by
        rcases made with rfl | ⟨bytes, commands, _, rfl⟩
        · exact fresh
        · refine Link.Role.Tags.retains ?_ (Command.load_ordinary commands _).rests_role.toRetains
          exact fresh
      rcases role with same | ⟨host, port, same⟩
      · rw [same]
        exact tags
      · rw [same]
        exact tags.retains (Link.Role.rests_follow _ host port).toRetains
  | @turn opened node later turn linked fits turned ih =>
      cases opens : node.opens turn with
      | true => exact (turn_opens ih turned opens).1
      | false => exact ih.retains (turn_stays ih fits turned opens).1

/-- However a node is told to follow others, links are opened, and reports of them come late:
the links have different epochs; a report of any link but the last one, or of that one once it
was dropped, changes nothing about the node; the role is idle just if there is no leader; and
while the same link stays open the node gets connected only by a snapshot of its leader or by
going on with its stream, reported by this very link. -/
theorem Linked.epochs_apart (linked : node.Linked opened) :
    opened.Nodup ∧
      (∀ epoch ∈ opened, opened.head? ≠ some epoch ∨ node.role.link = none →
        ∀ event, node.handle (.link epoch event) = node) ∧
      (node.role.state = .idle ↔ node.role.leader = none) ∧
      ∀ turn later, turn.Fits opened → node.turn? turn = some later →
        later.role.state = .connected →
          node.role.state = .connected ∧ later.role.epoch = node.role.epoch ∨
            ∃ epoch event, turn = .happens (.link epoch event) ∧ event.isSync = true ∧
              opened.head? = some epoch ∧ node.role.link.isSome = true := by
  have tags := linked.tags
  refine ⟨?_, ?_, tags.minds, ?_⟩
  · exact tags.descends.imp fun less => Nat.ne_of_gt less
  · intro epoch member stale event
    have apart : node.role.epoch ≠ epoch := by
      intro same
      obtain ⟨head, link⟩ := (tags.epoch_iff member).mp same
      rcases stale with other | dropped
      · exact other head
      · simp [dropped] at link
    have ignored : node.role.accepts epoch = false := by simp [Link.Role.accepts, apart]
    rw [handle, ignored]
    rfl
  · intro turn later fits turned connected
    cases opens : node.opens turn with
    | true =>
        rw [(turn_opens tags turned opens).2] at connected
        cases connected
    | false =>
        rcases (turn_stays tags fits turned opens).2 with rests | synced
        · exact .inl (rests.connected connected)
        · exact .inr synced

/-- A link is opened, given up and opened again: reports of the first one are not heard, and once
the leader is given up neither are those of the second one. -/
theorem epochs_apart_reopened :
    ∃ reopened left : Node, reopened.Linked [6, 3] ∧ left.Linked [6, 3] ∧
      reopened.role.link.isSome = true ∧
      (∀ event, reopened.handle (.link 3 event) = reopened) ∧
      ∀ event, left.handle (.link 6 event) = left := by
  have start := @Linked.start { databases := 1 } {} { wall := 1000 } (.ok none)
    { node := Node.new { databases := 1 } {} { wall := 1000 } } 7000 rfl
  have follows := @Linked.turn _ _ _ (.follow "127.0.0.1" 7001) start trivial rfl
  have first : Linked [3] _ := @Linked.turn _ _ _ (.happens .upkeep) follows trivial rfl
  have failed := @Linked.turn _ _ _ .reconnect first trivial rfl
  have second : Linked [6, 3] _ := @Linked.turn _ _ _ (.happens .upkeep) failed trivial rfl
  have alone := @Linked.turn _ _ _ .unfollow second trivial rfl
  refine ⟨_, _, second, alone, rfl, ?_, ?_⟩
  · exact second.epochs_apart.2.1 3 (by decide) (.inl (by decide))
  · exact alone.epochs_apart.2.1 6 (by decide) (.inr rfl)

end Node
end ReplicaStore
