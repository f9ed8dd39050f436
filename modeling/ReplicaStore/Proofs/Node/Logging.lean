import ReplicaStore.Proofs.Node.Marking
import ReplicaStore.Proofs.Node.Reforms
import ReplicaStore.Proofs.Stream.Routing

/-!
# What a leader logs

A step of a node that leads adds nothing to its stream, or a ping, or just the command of a
client that is to be logged, in front of which the stream is told the client's database if
need be (`Node.advances`).
-/

namespace ReplicaStore

open ReplicaStore.Stream (Coordinator Piece)
open ReplicaStore.Stream.Coordinator (Steady)

namespace Command

/-- No command that is passed on selects a database or is a ping. -/
theorem passesOn_inv {name : String} (passes : passesOn name = true) :
    Text.upper (Text.upper name) = Text.upper name ∧ Text.upper name ≠ "SELECT" ∧
      Text.upper name ≠ "PING" := by
  cases known : find? all name with
  | none =>
      have unknown : lookup? name = none := known
      simp [passesOn, unknown] at passes
  | some command =>
      have there : lookup? name = some command := known
      obtain ⟨member, named⟩ := find?_inv known
      have propagates : command.effect.propagates = true := by simpa [passesOn, there] using passes
      have names : ∀ entry ∈ all.map (fun command => (command.name, command.effect.propagates)),
          entry.2 = true → entry.1 ≠ "SELECT" ∧ entry.1 ≠ "PING" := by decide
      rw [← named]
      exact ⟨upper_name member, names (command.name, command.effect.propagates)
        (List.mem_map.mpr ⟨command, member, rfl⟩) propagates⟩

/-- What is streamed is run by whoever reads the stream, and selects nothing. -/
theorem runs_streamed {name : String} (passes : passesOn name = true) (now : Int)
    (rest : List String) (database : Nat) :
    Stream.runs database (streamed now (name :: rest)) = [(database, streamed now (name :: rest))] ∧
      Stream.selectedBy database (streamed now (name :: rest)) = database ∧
      streamed now (name :: rest) ≠ [] := by
  obtain ⟨idempotent, noSelect, noPing⟩ := passesOn_inv passes
  have plain {first : String} (others : List String)
      (other : Text.upper first ≠ "SELECT" ∧ Text.upper first ≠ "PING") :
      Stream.runs database (first :: others) = [(database, first :: others)] ∧
        Stream.selectedBy database (first :: others) = database ∧ first :: others ≠ [] := by
    refine ⟨by simp [Stream.runs, other.1, other.2], ?_, List.cons_ne_nil _ _⟩
    rcases others with _ | ⟨index, _ | _⟩
    · rfl
    · simp [Stream.selectedBy, other.1]
    · rfl
  rw [streamed]
  split
  · have set : Text.upper "SET" ≠ "SELECT" ∧ Text.upper "SET" ≠ "PING" := by decide
    cases dated : dated? now rest with
    | none => exact plain rest set
    | some form =>
        rcases rest with _ | ⟨key, _ | ⟨value, _ | ⟨option, _ | ⟨span, _ | _⟩⟩⟩⟩ <;>
          simp only [dated?] at dated
        all_goals first | cases dated | skip
        split at dated
        · obtain ⟨_, _, rfl⟩ := Option.map_eq_some_iff.mp dated
          exact plain _ set
        · cases dated
  · exact plain rest (by rw [idempotent]; exact ⟨noSelect, noPing⟩)

theorem runs_logged {context : Context} {arguments form : List String} {database : Nat}
    (logs : logged? context arguments = some (database, form)) (index : Nat) :
    Stream.runs index form = [(index, form)] ∧ Stream.selectedBy index form = index ∧ form ≠ [] := by
  cases arguments with
  | nil => cases logs
  | cons name rest =>
      rw [logged?] at logs
      split at logs
      · next passes =>
          cases logs
          exact runs_streamed (Bool.and_eq_true_iff.mp passes).1 _ rest index
      · cases logs

end Command

theorem Link.Role.following_reconnect (role : Role) : role.reconnect.following = role.following := by
  cases leader : role.leader <;> simp [reconnect, dropLink, following, leader]

namespace Node

/-- What is logged when something happens to a leader: a client's command that is one for
replicas and has succeeded, and the database that the client had selected. -/
def logged (node : Node) : Happening → List (Nat × List String)
  | .command id value =>
      match node.clients[id]?, value.arguments? with
      | some client, some arguments =>
          (Command.logged? (node.issued id client) arguments).toList
      | _, _ => []
  | _ => []

variable {node later : Node} {happening : Happening}

/-- A step of a leader whose stream is recorded. -/
inductive Advances (node : Node) (happening : Happening) (later : Node) : Prop
  | quiet (silent : node.added happening = []) (unlogged : node.logged happening = [])
      (marks : node.Marks True later)
  | pings (added : node.added happening = [.ofCommand ["PING"]])
      (unlogged : node.logged happening = [])
      (stream : later.coordinator.streamDatabase = none ∨
        later.coordinator.streamDatabase = node.coordinator.streamDatabase)
      (keeps : later.coordinator.Awaits →
        node.coordinator.Awaits ∧ later.coordinator.snapshotOffset = node.coordinator.snapshotOffset)
  | logs {database : Nat} {form : List String}
      (added : node.added happening = node.coordinator.pieces form (some database))
      (logged : node.logged happening = [(database, form)])
      (runs : ∀ index, Stream.runs index form = [(index, form)] ∧
        Stream.selectedBy index form = index ∧ form ≠ [])
      (stream : later.coordinator.streamDatabase = some database)
      (keeps : later.coordinator.Awaits →
        node.coordinator.Awaits ∧ later.coordinator.snapshotOffset = node.coordinator.snapshotOffset)

theorem Marks.weaken {asks : Prop} (marks : node.Marks asks later) : node.Marks True later where
  stream := marks.stream
  awaits := fun waits => (marks.awaits waits).imp_right fun settles =>
    ⟨.inl trivial, settles.2⟩
  begins := marks.begins
  turns := fun follows leads => ⟨(marks.turns follows leads).1, fun waits =>
    ⟨trivial, ((marks.turns follows leads).2 waits).2⟩⟩

/-! ### Upkeep -/

theorem stream_maintain (node : Node) :
    node.maintain.coordinator.streamDatabase = none ∨
      node.maintain.coordinator.streamDatabase = node.coordinator.streamDatabase := by
  rw [node.maintain_coordinates.1,
    ← node.coordinator.streamDatabase_ping node.clients node.clock.elapsed node.periods]
  simp only [Coordinator.maintain, Coordinator.expireBacklog, Coordinator.rotateIdentity]
  repeat' split
  all_goals first | exact .inl rfl | exact .inr rfl

theorem following_maintain (node : Node) : node.maintain.following = node.following := by
  obtain ⟨_, _, _, leader, _⟩ := node.maintain_frame
  simp only [following, Link.Role.following, leader]

/-- The upkeep lets nobody wait who did not before. -/
theorem awaits_maintain (node : Node) (waits : node.maintain.coordinator.Awaits) :
    node.coordinator.Awaits ∧
      node.maintain.coordinator.snapshotOffset = node.coordinator.snapshotOffset ∧
      (node.pings = false → node.maintain.coordinator.backlog = node.coordinator.backlog) := by
  have steady := Coordinator.maintain_steady node.coordinator node.clients node.clock.elapsed
    node.periods
  rw [← node.maintain_coordinates.1, ping_periods] at steady
  rcases steady with lost | steady
  · exact absurd (Coordinator.serves_of_awaits waits) lost
  · have waited := steady.awaits waits
    have place := steady.snapshotOffset
    have backlog := steady.backlog
    by_cases pings : node.pings = true
    · have frame := Coordinator.fed_feed
        { node.coordinator with lastPing := node.clock.elapsed } node.clients
        (Wire.commandBytes ["PING"]) none
      rw [if_pos pings] at waited place
      refine ⟨frame.awaits.mp waited, place.trans frame.snapshotOffset, fun silent => ?_⟩
      rw [silent] at pings
      cases pings
    · rw [if_neg pings] at waited place backlog
      exact ⟨waited, place, fun _ => backlog⟩

theorem unrecorded_maintain (node : Node) (unrecorded : node.coordinator.backlog = none) :
    node.maintain.coordinator.backlog = none := by
  have pinged := (node.coordinator.fed_ping node.clients node.clock.elapsed
    node.periods).unrecorded unrecorded
  rw [node.maintain_coordinates.1]
  simp only [Coordinator.maintain]
  rcases Coordinator.backlog_expireBacklog _ node.clock.elapsed node.periods with same | ⟨_, none⟩
  · rw [same]
    exact pinged
  · exact none

theorem marks_maintain (silent : node.pings = false) :
    node.Marks True node.maintain where
  stream := node.stream_maintain
  awaits := by
    intro waits
    obtain ⟨waited, place, backlog⟩ := node.awaits_maintain waits
    exact .inl ⟨waited, place, by rw [Coordinator.offset, backlog silent, Coordinator.offset]⟩
  begins := by
    intro unrecorded recorded
    rw [node.unrecorded_maintain unrecorded] at recorded
    cases recorded
  turns := by
    intro follows leads
    rw [following_maintain, follows] at leads
    cases leads

/-! ### Other steps -/

theorem marks_takeReport (node : Node) (report : Report) : node.Marks True (node.takeReport report) := by
  obtain ⟨_, role, _, steady⟩ := node.takeReport_frame report
  exact .of_steady steady (by rw [following, role]; rfl)

/-- What neither is a command nor comes of the upkeep or of the leader adds nothing. -/
theorem marks_next (happened : node.next? happening = some later)
    (other : happening.isAside = true) : node.Marks True later := by
  cases happening with
  | command | upkeep | link => cases other
  | disconnected id =>
      cases happened
      exact .of_steady (.remove ..) rfl
  | task position picked =>
      simp only [next?, Option.map_eq_some_iff] at happened
      obtain ⟨task, _, rfl⟩ := happened
      have begun : node.Marks True { node with tasks := node.tasks.eraseIdx position } :=
        .of_steady (.refl _) rfl
      cases task with
      | beginSnapshot =>
          simp only [Task.event, handle]
          split
          · exact begun.trans (marks_scheduleFullSync trivial _)
          · exact begun
      | drain index =>
          obtain ⟨_, _, same⟩ := drain_eq { node with tasks := node.tasks.eraseIdx position } index picked
          rw [Task.event, handle, same]
          exact .of_steady (.refl _) rfl
  | report =>
      obtain ⟨report, reports, writing, storage, _, rfl, _⟩ := next?_report happened
      exact @Marks.trans node { node with writing, storage } _ True (.of_steady (.refl _) rfl)
        (marks_takeReport { node with writing, storage } report)
  | connected | advance | setWall | setStorage | refuse | hangUp | deliver | deliverToLeader =>
      cases happened
      exact .of_steady (.refl _) rfl

/-! ### Commands of clients -/

theorem coordinator_answer (node : Node) (id : ClientId) (reply : Reply) :
    (node.answer id reply).coordinator = node.coordinator := by
  simp only [answer]
  split <;> rfl

theorem role_answer (node : Node) (id : ClientId) (reply : Reply) :
    (node.answer id reply).role = node.role := by
  simp only [answer]
  split <;> rfl

/-- What serving a client comes to. -/
inductive Serves (node : Node) (id : ClientId) (value : Wire.Value) : Prop
  | quiet (silent : node.following = false → node.added (.command id value) = [] ∧
        node.logged (.command id value) = [])
      (marks : node.Marks True (node.serve id value))
      (ran : ∃ before after : Node, node.Unmoved before ∧
        before.Becomes (Deed.Spares (fun _ => False) (.client id)) after ∧
        after.Unmoved (node.serve id value))
  | logs (leads : node.following = false) {database : Nat} {form : List String}
      (added : node.added (.command id value) = node.coordinator.pieces form (some database))
      (logged : node.logged (.command id value) = [(database, form)])
      (runs : ∀ index, Stream.runs index form = [(index, form)] ∧
        Stream.selectedBy index form = index ∧ form ≠ [])
      (frame : ∃ clients data, (node.serve id value).coordinator =
        ((node.coordinator.touch node.clock.elapsed id).feed clients data (some database)).1)
      (role : (node.serve id value).role = node.role)

theorem serves (orderly : node.Orderly) (id : ClientId) (value : Wire.Value) :
    node.Serves id value := by
  cases found : node.clients[id]? with
  | none =>
      have same : node.serve id value = node := by simp only [serve, found]
      refine .quiet (fun _ => by simp [added, logged, found]) ?_
        ⟨node, node, .refl _, .refl _, ?_⟩
      · rw [same]
        exact .refl node
      · rw [same]
        exact .refl node
  | some client =>
      have touch := Steady.touch node.coordinator node.clock.elapsed id
      have touched : node.Marks True (node.issued id client).node := .of_steady touch rfl
      have near : node.Unmoved (node.issued id client).node := ⟨rfl, rfl, rfl, .refl _⟩
      cases given : value.arguments? with
      | none =>
          have same : (node.serve id value).coordinator = (node.issued id client).node.coordinator ∧
              (node.serve id value).role = (node.issued id client).node.role := by
            simp only [serve, found, given]
            rw [coordinator_answer, role_answer]
            exact ⟨rfl, rfl⟩
          refine .quiet (fun _ => by simp [added, logged, found, given])
            (touched.trans (.of_steady (same.1 ▸ .refl _) ?_))
            ⟨_, _, near, .refl _, .of_same same.1 same.2⟩
          rw [following, same.2]
          rfl
      | some arguments =>
          have issued : (node.issued id client).node.Orderly :=
            orderly.congr touch (.refl _) rfl rfl
          have served : (node.serve id value).coordinator =
              (Command.dispatch (node.issued id client) arguments).2.node.coordinator ∧
              (node.serve id value).role =
                (Command.dispatch (node.issued id client) arguments).2.node.role := by
            simp only [serve, found, given]
            rw [coordinator_answer, role_answer]
            exact ⟨rfl, rfl⟩
          have outside : Command.Outside (fun _ => False) (node.issued id client) :=
            fun _ _ inside => inside
          have deaf : (node.issued id client).node.Deaf fun _ => False := fun _ _ _ inside => inside
          rcases @Command.dispatch_spares (fun _ => False) (node.issued id client) deaf outside
            arguments with ⟨becomes, silent⟩ | ⟨_, leads, form, database, after, adds, _, frame, fed⟩
          · have following : (node.serve id value).following =
                (Command.dispatch (node.issued id client) arguments).2.node.following := by
              rw [Node.following, served.2]
              rfl
            refine .quiet (fun leads => ?_) (touched.trans ((becomes.marks issued).weaken.trans
              (.of_steady (served.1 ▸ .refl _) following)))
              ⟨_, _, near, becomes, .of_same served.1 served.2⟩
            have nothing := silent rfl leads
            have unlogged := @Command.addition?_eq (node.issued id client) leads arguments
            rw [nothing, eq_comm, Option.map_eq_none_iff] at unlogged
            simp [added, logged, found, given, nothing, unlogged]
          · have streams := @Command.addition?_eq (node.issued id client) leads arguments
            rw [adds, eq_comm, Option.map_eq_some_iff] at streams
            obtain ⟨⟨index, command⟩, logs, same⟩ := streams
            cases same
            have leading : node.following = false := leads
            refine @Serves.logs node id value leading index command ?_ ?_
              (fun selected => Command.runs_logged logs selected) ?_ ?_
            · simp [added, found, given, leading, adds]
            · simp [logged, found, given, logs]
            · refine ⟨after.clients, Wire.commandBytes command, ?_⟩
              have same : after.coordinator = (node.issued id client).node.coordinator := by
                rw [frame]
              rw [served.1, fed]
              exact congrArg (fun before : Coordinator =>
                (before.feed after.clients (Wire.commandBytes command) (some index)).1) same
            · rw [served.2, fed]
              have same : after.role = node.role := by
                rw [frame]
                rfl
              exact same

/-- Whoever leads takes no notice of what a link reports. -/
theorem refuses (orderly : node.Orderly) (leads : node.following = false) (epoch : Nat) :
    node.role.accepts epoch = false := by
  cases accepts : node.role.accepts epoch with
  | false => rfl
  | true =>
      have leader : node.following = true := Link.Role.leader_of_accepts orderly.idle accepts
      rw [leads] at leader
      cases leader

/-- A step of a node that leads logs just the command of a client that is added to the stream. -/
theorem advances (orderly : node.Orderly) (leads : node.following = false)
    (recorded : node.coordinator.backlog.isSome = true) (happened : node.next? happening = some later) :
    node.Advances happening later := by
  cases happening with
  | command id value =>
      cases happened
      rcases serves orderly id value with ⟨silent, marks⟩ |
        @⟨_, database, form, added, logged, runs, ⟨clients, data, fed⟩, _⟩
      · exact .quiet (silent leads).1 (silent leads).2 marks
      · have steady := Steady.touch node.coordinator node.clock.elapsed id
        have frame := (node.coordinator.touch node.clock.elapsed id).fed_feed clients data
          (some database)
        obtain ⟨backlog, found⟩ := Option.isSome_iff_exists.mp recorded
        replace found : (node.coordinator.touch node.clock.elapsed id).backlog = some backlog := found
        refine .logs added logged runs ?_ fun waits => ⟨steady.awaits ?_, ?_⟩
        · simp only [handle, fed, Coordinator.feed, found]
          rfl
        · simp only [handle, fed] at waits
          exact frame.awaits.mp waits
        · simp only [handle, fed, frame.snapshotOffset, steady.snapshotOffset]
  | upkeep =>
      cases happened
      by_cases pings : node.pings = true
      · exact .pings (by simp [added, pings]) rfl node.stream_maintain fun waits =>
          ⟨(node.awaits_maintain waits).1, (node.awaits_maintain waits).2.1⟩
      · exact .quiet (by simp [added, pings]) rfl (marks_maintain (by simpa using pings))
  | link epoch event =>
      cases happened
      have refused := refuses orderly leads epoch
      have still : node.handle (.link epoch event) = node := by simp [handle, refused]
      rw [still]
      refine .quiet ?_ rfl (.refl node)
      cases event with
      | command arguments raw => simp [added, refused]
      | _ => rfl
  | connected | disconnected | advance | setWall | task | report | setStorage | refuse | hangUp
  | deliver | deliverToLeader => exact .quiet rfl rfl (marks_next happened rfl)

/-! ### Where logging begins -/

/-- A leader comes to record a stream by taking it up from nothing, or by ceasing to follow. -/
structure Commences (node later : Node) : Prop where
  before : node.following = true ∨ node.coordinator.backlog = none
  leads : later.following = false
  recorded : later.coordinator.backlog.isSome = true

/-- The stream has selected nothing then, and whoever waits for a snapshot waits for one
that was begun just now. -/
theorem Marks.opens (marks : node.Marks True later) (orderly : node.Orderly)
    (opens : node.Commences later) :
    later.coordinator.streamDatabase = none ∧
      (later.coordinator.Awaits → later.coordinator.Settled) := by
  rcases opens.before with follows | unrecorded
  · obtain ⟨forgotten, settles⟩ := marks.turns follows opens.leads
    exact ⟨forgotten, fun waits => (settles waits).2⟩
  · refine ⟨marks.begins unrecorded opens.recorded, fun waits => ?_⟩
    rcases marks.awaits waits with ⟨waited, _⟩ | ⟨_, settled⟩
    · have some := orderly.coordinator.recorded (Coordinator.serves_of_awaits waited)
      rw [unrecorded] at some
      cases some
    · exact settled

/-- A follower that is promoted by its leader's stream has nobody left who waits. -/
theorem opens_follow (orderly : node.Orderly) (follows : node.following = true)
    {arguments : List String} {raw : Bytes} (leads : (node.follow arguments raw).following = false) :
    (node.follow arguments raw).coordinator.streamDatabase = none ∧
      ¬(node.follow arguments raw).coordinator.Awaits := by
  by_cases connected : node.role.state = .connected
  · have listening : node.listening.node.Orderly :=
      { coordinator := orderly.coordinator
        clients := orderly.clients
        idle := .of_leader follows }
    have deaf : node.listening.node.Deaf fun _ => False := fun _ _ _ inside => inside
    have outside : Command.Outside (fun _ => False) node.listening := fun _ _ inside => inside
    rcases @Command.dispatch_spares (fun _ => False) node.listening deaf outside arguments with
      ⟨becomes, _⟩ | ⟨client, _⟩
    · rw [← hear_eq] at becomes
      have marks := becomes.marks listening
      rw [follow_eq connected] at leads ⊢
      obtain ⟨forgotten, nobody⟩ := marks.turns follows leads
      have frame := (node.hear arguments).node.coordinator.fed_feed
        (node.hear arguments).node.clients raw none
      refine ⟨?_, fun waits => ?_⟩
      · exact (Coordinator.streamDatabase_feed ..).trans forgotten
      · exact Bool.false_ne_true (nobody (frame.awaits.mp waits)).1
    · cases client
  · rw [follow_apart connected] at leads
    exact absurd (follows.symm.trans leads) (by decide)

/-- What the leader reports, commands apart, does not promote a follower. -/
theorem following_takeLinkEvent {event : Link.LinkEvent}
    (other : ∀ arguments raw, event ≠ .command arguments raw) :
    (node.takeLinkEvent event).following = node.following := by
  cases event with
  | state | heartbeat => rfl
  | failed => exact node.role.following_reconnect
  | continued history =>
      rcases node.continueStream_cases history with ⟨_, same⟩ | ⟨_, _, _, same⟩ <;>
        rw [takeLinkEvent, same] <;> rfl
  | command arguments raw => exact absurd rfl (other arguments raw)
  | fullSync history offset payload =>
      simp only [takeLinkEvent]
      rcases node.applyFullSync_cases history offset payload with ⟨_, same⟩ | ⟨_, partitions, _, same⟩
      · rw [same]
        exact node.role.following_reconnect
      · rw [same]
        rfl

theorem opens_next (orderly : node.Orderly) (opens : node.Commences later)
    (happened : node.next? happening = some later) :
    later.coordinator.streamDatabase = none ∧
      (later.coordinator.Awaits → later.coordinator.Settled) := by
  cases happening with
  | command id value =>
      cases happened
      rcases serves orderly id value with ⟨_, marks⟩ |
        @⟨leads, database, form, _, _, _, ⟨clients, data, fed⟩, _⟩
      · exact marks.opens orderly opens
      · have unrecorded : (node.coordinator.touch node.clock.elapsed id).backlog = none :=
          opens.before.resolve_left (by simp [leads])
        have recorded := opens.recorded
        simp [handle, fed, Coordinator.feed, unrecorded] at recorded
  | upkeep =>
      cases happened
      have leads := opens.leads
      have recorded := opens.recorded
      simp only [handle] at leads recorded
      rw [following_maintain] at leads
      rw [node.unrecorded_maintain (opens.before.resolve_left (by simp [leads]))] at recorded
      cases recorded
  | link epoch event =>
      cases happened
      have before := opens.before
      have leads := opens.leads
      have recorded := opens.recorded
      simp only [handle] at leads recorded ⊢
      split at leads
      · next accepts =>
          have follows : node.following = true := Link.Role.leader_of_accepts orderly.idle accepts
          simp only [accepts, if_true] at recorded ⊢
          cases event with
          | command arguments raw =>
              obtain ⟨forgotten, nobody⟩ := opens_follow orderly follows leads
              exact ⟨forgotten, fun waits => absurd waits nobody⟩
          | state | heartbeat | fullSync | continued | failed =>
              rw [following_takeLinkEvent (by intro _ _ same; cases same), follows] at leads
              cases leads
      · next refused =>
          rw [if_neg refused, before.resolve_left (by simp [leads])] at recorded
          cases recorded
  | connected | disconnected | advance | setWall | task | report | setStorage | refuse | hangUp
  | deliver | deliverToLeader =>
      exact (marks_next happened rfl).opens orderly opens

end Node
end ReplicaStore
