import ReplicaStore.Proofs.Node.Standing

/-!
# When the stream is given up

A leader gives its stream up when it has had no replica for long enough.  It takes notice of
its replicas at the upkeep only: what counts is that no upkeep since some moment has left
any, and not whether a replica has come and gone, or a leader been followed, in between
(`Node.Reachable.gives_up_iff`).  So the stream may be given up right behind a replica, and
with it the former history that a promoted node keeps (`Node.gives_up_early`).
-/

namespace ReplicaStore

open ReplicaStore.Stream (Coordinator)

namespace Node

variable {before between after node later : Node}

/-! ### Nothing else takes notice -/

/-- Neither the clock nor the moment since which there have been no replicas has changed. -/
structure Undated (before after : Node) : Prop where
  clock : after.clock = before.clock
  idle : after.coordinator.idleSince = before.coordinator.idleSince

namespace Undated

theorem refl (node : Node) : node.Undated node :=
  ⟨rfl, rfl⟩

theorem trans (first : before.Undated between) (second : between.Undated after) :
    before.Undated after :=
  ⟨second.clock.trans first.clock, second.idle.trans first.idle⟩

theorem feed (node : Node) (data : Bytes) (database : Option Nat) :
    node.Undated (node.feed data database) :=
  ⟨rfl, (node.coordinator.fed_feed node.clients data database).idleSince⟩

theorem beginSnapshot (begun : node.beginSnapshot? = some later) : node.Undated later := by
  obtain ⟨_, rfl⟩ := beginSnapshot?_inv begun
  exact ⟨rfl, rfl⟩

theorem scheduleFullSync (node : Node) : node.Undated node.scheduleFullSync := by
  rcases node.scheduleFullSync_cases with ⟨_, same⟩ | ⟨_, _, same⟩ | ⟨begun, begins, same⟩ <;> rw [same]
  · exact refl node
  · exact ⟨rfl, rfl⟩
  · exact (beginSnapshot begins).trans ⟨rfl, rfl⟩

theorem synchronise (id : ClientId) (history : String) (offset : Int) (node : Node) :
    node.Undated (Command.synchronise id history offset node) := by
  rcases synchronise_cases id history offset node with ⟨_, _, same⟩ | ⟨_, same⟩ <;> rw [same]
  · exact ⟨rfl, rfl⟩
  · have scheduled (coordinator : Coordinator) := scheduleFullSync { node with coordinator }
    refine ⟨(scheduled _).clock, (scheduled _).idle.trans ?_⟩
    simp only [Coordinator.beginFullResync, Coordinator.register]
    split
    · rfl
    · simp only [Coordinator.rotateIdentity, Coordinator.remove]

theorem deed (deed : Deed) (node : Node) : node.Undated (deed.apply node) := by
  cases deed with
  | save =>
      obtain ⟨clock, _, coordinator, _⟩ := node.save_frame
      exact ⟨clock, congrArg Coordinator.idleSince coordinator⟩
  | beginSnapshot =>
      simp only [Deed.apply]
      cases begun : node.beginSnapshot? with
      | none => exact refl node
      | some later => exact beginSnapshot begun
  | synchronise id history offset => exact synchronise id history offset node
  | promote =>
      simp only [Deed.apply, Command.promote]
      split
      · refine ⟨rfl, ?_⟩
        simp only [dropReplicas, coordinate, Coordinator.dropAll, Coordinator.dropReplicas,
          Coordinator.forgetStreamDatabase, Coordinator.branchIdentity]
      · exact refl node
  | feed data database => exact feed node data _
  | edit | flush | publish | subscription | listeningPort | close | acknowledge | follow
  | answerLeader => exact ⟨rfl, rfl⟩

theorem becomes {allowed : Deed → Prop} (becomes : node.Becomes allowed later) :
    node.Undated later :=
  becomes.keeps (fun deed between _ undated => undated.trans (.deed deed between)) (.refl node)

theorem drain (node : Node) (index : Nat) (picked : List String) :
    node.Undated (node.drain index picked) := by
  obtain ⟨_, _, same⟩ := node.drain_eq index picked
  rw [same]
  exact ⟨rfl, rfl⟩

theorem ship (now : Nat) (payload tail : Bytes) (ids : List ClientId)
    (state : Coordinator × Clients) :
    (ids.foldl (Coordinator.ship now payload tail) state).1.idleSince = state.1.idleSince := by
  induction ids generalizing state with
  | nil => rfl
  | cons id ids ih => exact (ih _).trans rfl

theorem takeReport (node : Node) (report : Report) : node.Undated (node.takeReport report) := by
  cases report with
  | written index =>
      obtain ⟨_, _, same⟩ := node.partitionWritten_eq index
      rw [Node.takeReport, same]
      exact ⟨rfl, rfl⟩
  | aborted index => exact ⟨rfl, rfl⟩
  | finished result =>
      cases result with
      | ok payload =>
          refine ⟨rfl, ?_⟩
          simp only [Node.takeReport, snapshotFinished, coordinate, Coordinator.finishFullSync]
          split
          · rfl
          · split
            · rfl
            · split
              · rfl
              · exact ship _ _ _ _ _
      | error error => exact ⟨rfl, rfl⟩

theorem serve (node : Node) (id : ClientId) (value : Wire.Value) :
    node.Undated (node.serve id value) := by
  rcases node.serve_cases id value with
    ⟨_, same⟩ | ⟨client, _, ⟨_, _, same⟩ | ⟨arguments, _, _, same⟩⟩ <;> rw [same]
  · exact refl node
  · exact ⟨rfl, rfl⟩
  · have ran := becomes (Command.dispatch_ordinary (node.issued id client) arguments)
    exact ⟨ran.clock, ran.idle⟩

theorem takeLinkEvent (node : Node) (event : Link.LinkEvent) :
    node.Undated (node.takeLinkEvent event) := by
  cases event with
  | state | heartbeat | failed => exact ⟨rfl, rfl⟩
  | fullSync id offset payload =>
      rcases node.applyFullSync_cases id offset payload with ⟨_, same⟩ | ⟨_, partitions, _, same⟩
      · rw [Node.takeLinkEvent, same]
        exact ⟨rfl, rfl⟩
      · rw [Node.takeLinkEvent, same]
        exact ⟨rfl, rfl⟩
  | continued id =>
      rcases node.continueStream_cases id with ⟨_, same⟩ | ⟨_, _, _, same⟩ <;>
        rw [Node.takeLinkEvent, same] <;> exact ⟨rfl, rfl⟩
  | command arguments raw =>
      rcases node.follow_cases arguments raw with ⟨_, same⟩ | ⟨_, same⟩ <;>
        rw [Node.takeLinkEvent, same]
      · have heard := becomes (Command.dispatch_ordinary node.listening arguments)
        have fed (node : Node) := feed node raw none
        exact ⟨(fed _).clock.trans heard.clock, (fed _).idle.trans heard.idle⟩
      · exact ⟨rfl, rfl⟩

end Undated

/-- Whatever happens but the upkeep, the moment since which there have been no replicas is not
touched, and time does not go back. -/
theorem idleSince_next {happening : Happening} (happened : node.next? happening = some later)
    (other : happening ≠ .upkeep) :
    later.coordinator.idleSince = node.coordinator.idleSince ∧
      node.clock.elapsed ≤ later.clock.elapsed := by
  have of_undated (undated : node.Undated later) :
      later.coordinator.idleSince = node.coordinator.idleSince ∧
        node.clock.elapsed ≤ later.clock.elapsed :=
    ⟨undated.idle, Nat.le_of_eq (congrArg Clock.elapsed undated.clock).symm⟩
  cases happening with
  | upkeep => exact absurd rfl other
  | command id value =>
      cases happened
      exact of_undated (.serve node id value)
  | link epoch event =>
      cases happened
      apply of_undated
      simp only [handle]
      split
      · exact .takeLinkEvent node event
      · exact .refl node
  | task position picked =>
      simp only [next?, Option.map_eq_some_iff] at happened
      obtain ⟨task, _, rfl⟩ := happened
      have taken : node.Undated { node with tasks := node.tasks.eraseIdx position } := ⟨rfl, rfl⟩
      apply of_undated
      cases task with
      | beginSnapshot =>
          simp only [Task.event, handle]
          split
          · exact taken.trans (.scheduleFullSync _)
          · exact taken
      | drain index => exact taken.trans (.drain _ index picked)
  | report =>
      obtain ⟨report, _, writing, storage, _, rfl, _⟩ := next?_report happened
      exact of_undated (@Undated.trans node { node with writing, storage } _ ⟨rfl, rfl⟩
        (.takeReport _ report))
  | advance milliseconds =>
      cases happened
      exact ⟨rfl, Nat.le_add_right _ _⟩
  | setWall moment =>
      cases happened
      exact ⟨rfl, Nat.le_refl _⟩
  | connected | disconnected | setStorage | refuse | hangUp | deliver | deliverToLeader =>
      cases happened
      exact of_undated ⟨rfl, rfl⟩

/-! ### The upkeep -/

/-- The coordinator when the upkeep has sent a ping and dropped the replicas that were silent. -/
def attended (node : Node) : Coordinator :=
  let pinged := (node.coordinator.ping node.clients node.clock.elapsed node.periods).1
  (pinged.dropReplicas node.clients (pinged.timedOut node.clock.elapsed node.periods)).1

/-- What the upkeep does last is to look whether the stream is to be given up. -/
theorem coordinator_maintain (node : Node) :
    node.maintain.coordinator = node.attended.expireBacklog node.clock.elapsed node.periods :=
  node.maintain_coordinates.1

/-- A ping is all that is added to the stream before, if there is one. -/
theorem attended_frame (node : Node) :
    node.attended.idleSince = node.coordinator.idleSince ∧
      node.attended.identity = node.coordinator.identity ∧
      node.attended.supply = node.coordinator.supply ∧
      node.attended.backlog.isSome = node.coordinator.backlog.isSome := by
  have fed := node.coordinator.fed_ping node.clients node.clock.elapsed node.periods
  exact ⟨fed.idleSince, fed.identity, fed.supply, fed.recorded⟩

theorem replicas_maintain (node : Node) :
    node.maintain.coordinator.replicas = node.attended.replicas := by
  rw [coordinator_maintain]
  simp only [Coordinator.expireBacklog]
  split
  · split <;> rfl
  · rfl

/-- The upkeep that leaves no replicas notes since when there have been none, and any other one
that there are some. -/
theorem idleSince_maintain (node : Node) :
    node.maintain.coordinator.idleSince =
      if node.maintain.coordinator.replicas.isEmpty then
        some (node.coordinator.idleSince.getD node.clock.elapsed)
      else none := by
  rw [replicas_maintain, coordinator_maintain, ← node.attended_frame.1]
  simp only [Coordinator.expireBacklog]
  split
  · split <;> rfl
  · rfl

/-- When the upkeep gives a stream up, and what becomes of the history then. -/
theorem backlog_maintain (recorded : node.coordinator.backlog.isSome = true) :
    (node.maintain.coordinator.backlog = none ↔
      node.following = false ∧ node.maintain.coordinator.replicas.isEmpty = true ∧
        1000 * node.settings.backlogTtl ≤
          node.clock.elapsed - node.coordinator.idleSince.getD node.clock.elapsed) ∧
    (node.maintain.coordinator.backlog = none →
      node.maintain.coordinator.identity =
        node.coordinator.identity.adopt node.coordinator.supply.draw.1) := by
  obtain ⟨idle, identity, supply, still⟩ := node.attended_frame
  rw [← still] at recorded
  rw [replicas_maintain, coordinator_maintain, ← idle, ← identity, ← supply]
  have follows : node.periods.following = node.following := rfl
  have ttl : node.periods.backlogTtl = 1000 * node.settings.backlogTtl := rfl
  have kept : node.attended.backlog ≠ none := Option.isSome_iff_ne_none.mp recorded
  simp only [Coordinator.expireBacklog, recorded, follows, ttl]
  by_cases alone : node.attended.replicas.isEmpty = true
  · rw [if_pos alone]
    by_cases due : (!node.following && true && decide (1000 * node.settings.backlogTtl ≤
        node.clock.elapsed - node.attended.idleSince.getD node.clock.elapsed)) = true
    · rw [if_pos due]
      simp only [Bool.and_true, Bool.and_eq_true, Bool.not_eq_true', decide_eq_true_eq] at due
      exact ⟨⟨fun _ => ⟨due.1, alone, due.2⟩, fun _ => rfl⟩, fun _ => rfl⟩
    · rw [if_neg due]
      refine ⟨⟨fun gone => absurd gone kept, fun spent => absurd ?_ due⟩,
        fun gone => absurd gone kept⟩
      simp [spent.1, spent.2.2]
  · rw [if_neg alone]
    exact ⟨⟨fun gone => absurd gone kept, fun spent => absurd spent.2.1 alone⟩,
      fun gone => absurd gone kept⟩

/-! ### From upkeep to upkeep -/

/-- The upkeep at a moment has left no replicas, and neither has any other since.  What
happened between them does not matter. -/
inductive Unattended (since : Nat) : Node → Prop
  | begins {node : Node} (reachable : node.Reachable) (moment : node.clock.elapsed = since)
      (alone : node.maintain.coordinator.replicas.isEmpty = true) : Unattended since node.maintain
  | next {node later : Node} (happening : Happening) (unattended : Unattended since node)
      (happened : node.next? happening = some later)
      (alone : happening = .upkeep → later.coordinator.replicas.isEmpty = true) :
      Unattended since later

theorem idleSince_start {settings : Settings} {supply : Stream.IdSupply} {clock : Clock}
    {found : Except Snapshot.SnapshotError (Option Bytes)} {server : Server}
    (started : Server.start settings supply clock found = .ok server) :
    server.node.coordinator.idleSince = none := by
  obtain ⟨loaded, made, role⟩ := Server.start_inv started
  have unnoticed : loaded.coordinator.idleSince = none := by
    rcases made with rfl | ⟨bytes, commands, _, rfl⟩
    · rfl
    · exact (Undated.becomes (Command.load_ordinary commands _)).idle
  rcases role with same | ⟨host, port, same⟩
  · rw [same]
    exact unnoticed
  · rw [same]
    exact unnoticed

/-- Since the moment that a node has noted, no upkeep has left any replicas. -/
theorem Reachable.unattended {since : Nat} (reachable : node.Reachable)
    (noted : node.coordinator.idleSince = some since) :
    node.Unattended since ∧ since ≤ node.clock.elapsed := by
  induction reachable with
  | start port started =>
      rw [idleSince_start started] at noted
      cases noted
  | @next node later happening reachable happened ih =>
      by_cases maintains : happening = .upkeep
      · subst maintains
        cases happened
        have passes : node.clock.elapsed = (node.handle .upkeep).clock.elapsed := by
          obtain ⟨_, clock, _⟩ := node.maintain_frame
          rw [handle, clock]
        rw [handle, idleSince_maintain] at noted
        split at noted
        · next alone =>
            -- A moment that is noted already is kept.
            cases before : node.coordinator.idleSince with
            | none =>
                rw [before] at noted
                obtain rfl : node.clock.elapsed = since := Option.some.inj noted
                exact ⟨.begins reachable rfl alone, Nat.le_of_eq passes⟩
            | some moment =>
                rw [before] at noted
                obtain rfl : moment = since := Option.some.inj noted
                obtain ⟨unattended, past⟩ := ih before
                exact ⟨.next .upkeep unattended rfl fun _ => alone, passes ▸ past⟩
        · cases noted
      · obtain ⟨same, passes⟩ := idleSince_next happened maintains
        obtain ⟨unattended, past⟩ := ih (same.symm.trans noted)
        exact ⟨.next happening unattended happened fun given => absurd given maintains,
          Nat.le_trans past passes⟩

/-- The moment that a node has noted is the first of those since which no upkeep has left any
replicas. -/
theorem Unattended.noted {since : Nat} (unattended : node.Unattended since) :
    ∃ first ≤ since, node.coordinator.idleSince = some first := by
  induction unattended with
  | @begins node reachable moment alone =>
      rw [idleSince_maintain, if_pos alone, moment]
      cases before : node.coordinator.idleSince with
      | none => exact ⟨since, Nat.le_refl _, rfl⟩
      | some first => exact ⟨first, moment ▸ (reachable.unattended before).2, rfl⟩
  | @next node later happening _ happened alone ih =>
      obtain ⟨first, early, noted⟩ := ih
      by_cases maintains : happening = .upkeep
      · subst maintains
        cases happened
        have alone : node.maintain.coordinator.replicas.isEmpty = true := alone rfl
        rw [handle, idleSince_maintain, if_pos alone, noted]
        exact ⟨first, early, rfl⟩
      · exact ⟨first, early, (idleSince_next happened maintains).1.trans noted⟩

/-- The upkeep gives a recorded stream up just if the node follows nobody and no upkeep, from
one that is long enough ago to this one, has left any replicas.  The node then goes on under an
id of its own, and its former history is forgotten. -/
theorem Reachable.gives_up_iff (reachable : node.Reachable)
    (recorded : node.coordinator.backlog.isSome = true) :
    (node.maintain.coordinator.backlog = none ↔
      node.following = false ∧ ∃ since, node.maintain.Unattended since ∧
        since + 1000 * node.settings.backlogTtl ≤ node.clock.elapsed) ∧
    (node.maintain.coordinator.backlog = none →
      node.maintain.coordinator.identity =
        node.coordinator.identity.adopt node.coordinator.supply.draw.1) := by
  have maintained : node.maintain.Reachable := reachable.next .upkeep rfl
  have noted := node.idleSince_maintain
  obtain ⟨gives, renamed⟩ := backlog_maintain recorded
  refine ⟨gives.trans ⟨?_, ?_⟩, renamed⟩
  · rintro ⟨leads, alone, late⟩
    rw [if_pos alone] at noted
    refine ⟨leads, _, (maintained.unattended noted).1, ?_⟩
    have past : node.coordinator.idleSince.getD node.clock.elapsed ≤ node.clock.elapsed := by
      cases before : node.coordinator.idleSince with
      | none => exact Nat.le_refl _
      | some since => exact (reachable.unattended before).2
    omega
  · rintro ⟨leads, since, unattended, late⟩
    obtain ⟨first, early, same⟩ := unattended.noted
    rw [same] at noted
    split at noted
    · next alone =>
        obtain rfl : first = node.coordinator.idleSince.getD node.clock.elapsed :=
          Option.some.inj noted
        exact ⟨leads, alone, by omega⟩
    · cases noted

/-- A node that gives its stream up after ten seconds and has three clients, one of which has
come and gone as a replica before the upkeep. -/
def forsaken : Node :=
  { Node.new { databases := 1, backlogTtl := 10 } {} { wall := 1000 } with port := 7000 }.run
    [.connected 1 "127.0.0.1:40001", .runs 1 ["PSYNC", "?", "-1"], .report, .report,
      .disconnected 1, .upkeep, .advance 9900, .connected 2 "127.0.0.1:40002",
      .connected 3 "127.0.0.1:40003"]

/-- A tenth of a second before the stream is given up there is a replica, and then a leader that
the node follows, whose history it keeps when it is promoted. -/
theorem gives_up_early :
    let attended := forsaken.run [.runs 2 ["PSYNC", "?", "-1"], .report, .report]
    let follower := attended.run [.runs 3 ["REPLICAOF", "10.0.0.1", "7000"]]
    let promoted := follower.run [.runs 3 ["REPLICAOF", "NO", "ONE"]]
    let late := promoted.run [.advance 100]
    attended.coordinator.isReplica 2 = true ∧ follower.following = true ∧
      promoted.coordinator.identity.previous = attended.coordinator.identity.current ∧
      late.clock.elapsed = attended.clock.elapsed + 100 ∧
      late.coordinator.backlog.isSome = true ∧ late.maintain.coordinator.backlog = none ∧
      late.maintain.coordinator.identity.previous = Stream.emptyId := by
  decide +kernel

end Node
end ReplicaStore
