import ReplicaStore.Proofs.Cluster.History

/-!
# Going on after a partial synchronisation

All that nodes and lines stand for is kept by whatever happens in a cluster
(`Cluster.Coherent.step`), from the moment on at which its nodes were started.  So a leader
that lets a follower go on where it is has all of the follower's history, and what it sends
is all that the follower lacks of its own (`Cluster.resumes_history`).
-/

namespace ReplicaStore

open ReplicaStore.Stream (Annals Chronicle Coordinator IdSupply Leads Piece Says Sends Told)

/-! ### What is asked for -/

namespace Node

variable {node leader follower : Node} {supply other : IdSupply} {annals earlier : Annals}
  {history behind : Chronicle} {request : Link.SyncRequest} {tail : Bytes}

/-- What a node would ask a leader for now, or is to ask for over the link that it has opened. -/
inductive Presents (node : Node) : Link.SyncRequest → Prop
  | now : Presents node node.syncRequest
  | opened {link : Link.OpenLink} (follows : node.following = true)
      (opened : node.role.link = some link) (apart : node.role.connected = false) :
      Presents node link.request

/-- Whoever asks to go on asks for it from the end of the stream under the name that the
stream has. -/
theorem Presents.stands (presents : node.Presents request) (pledged : node.Pledged) {id : String}
    (named : request.id = some id) :
    node.coordinator.backlog.isSome = true ∧ id = node.coordinator.identity.current ∧
      request.offset = node.coordinator.offset := by
  cases presents with
  | now =>
      obtain ⟨backlog, recorded, rfl⟩ := Option.map_eq_some_iff.mp named
      exact ⟨by rw [recorded]; rfl, rfl, rfl⟩
  | opened follows opened apart => exact pledged.asks follows _ opened apart id named

/-- What is asked for can be written down. -/
theorem Presents.inRange (presents : follower.Presents request)
    (asking : follower.Upholds other annals behind) :
    0 ≤ request.presented.2 ∧ request.presented.2 ≤ Text.maxSigned64 ∨ request.presented.2 = -1 := by
  cases named : request.id with
  | none => exact .inr (by simp [Link.SyncRequest.presented, named])
  | some id =>
      obtain ⟨recorded, _, offset⟩ := presents.stands asking.pledged named
      have ends := asking.stands.offset recorded
      have least := asking.range.least
      have most := asking.range.most
      simp only [Link.SyncRequest.presented, named, offset, ends]
      refine .inl ⟨?_, most⟩
      simp only [Chronicle.ends]
      omega

/-- A leader that lets a follower go on has all of the history that the follower had when it
asked. -/
theorem Upholds.resumes (upholds : leader.Upholds supply annals history)
    (asking : follower.Upholds other earlier behind) (grows : earlier.Grows annals)
    (presents : follower.Presents request)
    (missed : leader.coordinator.missed? request.presented.1 request.presented.2 = some tail) :
    request.id.isSome = true ∧ behind.ends = request.presented.2 ∧ behind.Within history ∧
      tail = history.since behind.ends := by
  obtain ⟨backlog, found, given, shares⟩ := Coordinator.missed?_inv missed
  obtain ⟨reaches, rest⟩ := upholds.kept.read upholds.range found given
  cases named : request.id with
  | none =>
      -- A follower without a stream presents an offset that no stream reaches.
      have before : history.start ≤ -1 := by simpa [Link.SyncRequest.presented, named] using reaches.1
      have least := upholds.range.least
      omega
  | some id =>
      obtain ⟨recorded, rfl, offset⟩ := presents.stands asking.pledged named
      have ends := asking.stands.offset recorded
      simp only [Link.SyncRequest.presented, named, offset, ends] at shares reaches rest ⊢
      have within := (upholds.stands.tells (by simp [found])).shares
        ((asking.stands.tells recorded).current.grows grows) asking.range.least shares reaches.2
      exact ⟨rfl, trivial, within, rest⟩

/-- A node that has just been started stands for nothing yet. -/
theorem upholds_start {settings : Settings} {clock : Clock}
    {found : Except Snapshot.SnapshotError (Option Bytes)} {server : Server} (port : Nat)
    (started : Server.start settings supply clock found = .ok server) :
    Upholds supply (fun _ => none) {} { server.node with port } := by
  obtain ⟨partitions, storage, role, closed, same⟩ := start_new started
  have unrecorded := unrecorded_start started
  refine ⟨(Reachable.start port started).orderly, Settled.pledged (.inr ?_), ⟨?_, ?_, ?_, ?_⟩,
    .of_none unrecorded, ⟨Int.le_refl 0, by decide⟩⟩
  · rw [same]
    exact closed
  · refine ⟨1, ?_, fun _ _ => rfl⟩
    simp only [same, Node.new, Coordinator.new, IdSupply.draw, IdSupply.skip, Nat.one_mul]
  all_goals simp [unrecorded]

/-! ### Being asked -/

/-- Whoever takes up a replica records its stream. -/
theorem recorded_synchronise (node : Node) (id : ClientId) (name : String) (offset : Int) :
    (Command.synchronise id name offset node).coordinator.backlog.isSome = true := by
  rcases synchronise_standing id name offset node with ⟨recorded, unmoved⟩ | ⟨_, _, _, _, recorded⟩
  · rw [unmoved.backlog]
    exact recorded
  · exact recorded

variable {id : ClientId} {value : Wire.Value} {base : Option Chronicle}

/-- A leader that is asked to let a follower go on tells it what follows, or lets it wait for a
snapshot. -/
theorem asked (kept : history.Kept leader.coordinator)
    (reaches : leader.clients.reaches id = true) (empty : leader.clients.pending id = [])
    (linked : leader.following = true → leader.role.connected = true)
    (given : value.arguments? = some request.words)
    (offset : 0 ≤ request.presented.2 ∧ request.presented.2 ≤ Text.maxSigned64 ∨
      request.presented.2 = -1)
    (shares : ∀ tail, leader.coordinator.missed? request.presented.1 request.presented.2 = some tail →
      ∃ source : Chronicle, base = some source ∧ source.ends = request.presented.2 ∧
        source.Within history)
    (later : (leader.serve id value).Upholds supply annals
      (history.next leader (.command id value) (leader.serve id value))) :
    (leader.serve id value).channels = leader.channels ∧ ∃ told : Option (Told base),
      Leads True (history.next leader (.command id value) (leader.serve id value)) none told ∧
      Sends annals id (leader.serve id value).desk
        (history.next leader (.command id value) (leader.serve id value)) told [] := by
  have read : Text.readSigned64 (toString request.presented.2) = some request.presented.2 := by
    rcases offset with ⟨least, most⟩ | never
    · exact Text.readSigned64_toString_int least most
    · rw [never]
      decide
  obtain ⟨_, channels, issued, database, _, _, served⟩ := serve_psync reaches linked given rfl read
  have recorded : (leader.serve id value).coordinator.backlog.isSome = true := by
    have coordinator : (leader.serve id value).coordinator =
        (Command.synchronise id request.presented.1 request.presented.2 issued).coordinator :=
      congrArg Prod.fst served
    rw [coordinator]
    exact recorded_synchronise ..
  exact ⟨channels, sends_psync reaches empty linked given rfl read kept later.range shares
    (later.stands.tells recorded).current⟩

end Node

namespace Cluster

variable {Place : Type} [DecidableEq Place] {supplies : Place → IdSupply} {annals further : Annals}
  {cluster later : Cluster Place} {follower leader : Place} {client : ClientId} {link : Link.OpenLink}
  {value : Wire.Value} {line : Line Place} {event : Link.LinkEvent} {count : Nat}

namespace Asks

omit [DecidableEq Place] in
theorem presents (asks : cluster.Asks follower leader client link value) :
    (cluster.nodes follower).Presents link.request :=
  .opened asks.follows asks.opened asks.apart

omit [DecidableEq Place] in
theorem other (asks : cluster.Asks follower leader client link value) : leader ≠ follower := by
  rintro rfl
  have apart := asks.apart
  rw [asks.linked asks.follows] at apart
  cases apart

/-- The line on which a follower is told what it has asked for. -/
theorem links (asks : cluster.Asks follower leader client link value)
    (coherent : Coherent supplies annals cluster)
    (moves : Moves supplies annals further cluster leader (.command client value)
      ((cluster.nodes leader).serve client value)
      (cluster.next leader (.command client value) ((cluster.nodes leader).serve client value))) :
    (cluster.after leader (.command client value) ((cluster.nodes leader).serve client value)
      (cluster.next leader (.command client value)
        ((cluster.nodes leader).serve client value))).Linked further follower
      { epoch := (cluster.nodes follower).role.epoch
        leader
        client
        story := cluster.next leader (.command client value)
          ((cluster.nodes leader).serve client value) } := by
  have leads := coherent.nodes leader
  have follows := coherent.nodes follower
  obtain ⟨channels, told, opens, sends⟩ := @Node.asked _ _ _ _ link.request client value
    (link.request.id.map fun _ => cluster.histories follower) leads.kept asks.reaches asks.answered
    asks.linked asks.request (asks.presents.inRange follows) (fun tail missed => by
      obtain ⟨named, ends, within, _⟩ := leads.resumes follows (.refl annals) asks.presents missed
      obtain ⟨id, named⟩ := Option.isSome_iff_exists.mp named
      exact ⟨_, by rw [named]; rfl, ends, within⟩) moves.upholds
  refine ⟨asks.other, _, told, ⟨?_, ?_, fun _ => ⟨?_, ?_⟩⟩, Nat.le_of_eq ?_, fun _ => ?_, fun _ => ?_⟩
  · simpa [Line.sent, Line.messages, after, Node.desk] using sends.spoken
  · rintro answered rfl
    cases opens with
    | opens _ within => exact within
  · simpa [after] using asks.deaf.congr channels
  · simp only [after, Function.update_self]
    exact sends
  · simp [after, Function.update_of_ne asks.other.symm]
  · simpa [after, Function.update_of_ne asks.other.symm] using asks.follows
  · simp only [after, Function.update_of_ne asks.other.symm]
    refine .waits asks.apart fun source same => ?_
    obtain ⟨id, named, rfl⟩ := Option.map_eq_some_iff.mp same
    exact ⟨(asks.presents.stands follows.pledged named).1, rfl⟩

end Asks

namespace Coherent

/-! ### Steps -/

/-- Nothing is told to anybody by a leader. -/
theorem stepped {place : Place} {happening : Happening} {result : Node} (apart : IdSupply.Apart supplies)
    (coherent : Coherent supplies annals cluster)
    (admits : (cluster.nodes place).Admits happening)
    (modest : happening.Modest (cluster.Serves place))
    (happened : (cluster.nodes place).next? happening = some result)
    (range : (cluster.next place happening result).InRange) :
    ∃ further, annals.Grows further ∧ Coherent supplies further
      (cluster.after place happening result (cluster.next place happening result)) := by
  obtain ⟨further, moves⟩ := coherent.happens apart admits modest happened range
  refine ⟨further, moves.tracks.advances.grows, moves.tracks.advances.worded coherent.worded,
    moves.nodes coherent apart, ?_⟩
  intro follower line there
  obtain ⟨before, followed, rfl⟩ := Option.map_eq_some_iff.mp there
  refine moves.linked coherent followed ?_
  rintro rfl base told meets
  exact coherent.rests admits happened meets

/-- A follower asks a leader to let it go on. -/
theorem asked (apart : IdSupply.Apart supplies) (coherent : Coherent supplies annals cluster)
    (asks : cluster.Asks follower leader client link value)
    (range : (cluster.next leader (.command client value)
      ((cluster.nodes leader).serve client value)).InRange) :
    ∃ further, annals.Grows further ∧ Coherent supplies further ((cluster.after leader (.command client value)
      ((cluster.nodes leader).serve client value)
      (cluster.next leader (.command client value)
        ((cluster.nodes leader).serve client value))).setLine follower
      { epoch := (cluster.nodes follower).role.epoch
        leader
        client
        story := cluster.next leader (.command client value)
          ((cluster.nodes leader).serve client value) }) := by
  have admits : (cluster.nodes leader).Admits (.command client value) := trivial
  obtain ⟨further, moves⟩ := coherent.happens apart admits asks.modest rfl range
  exact ⟨further, moves.tracks.advances.grows,
    .setLine moves coherent apart (fun _ => ⟨admits, rfl⟩) (asks.links coherent moves)⟩

/-- A follower takes what its leader has told it. -/
theorem told (apart : IdSupply.Apart supplies) (coherent : Coherent supplies annals cluster)
    (followed : cluster.lines follower = some line)
    (accepts : (cluster.nodes follower).role.accepts line.epoch = true)
    (reports : Link.Reports (line.sent (cluster.nodes line.leader)) line.read event count)
    (range : (cluster.received follower line event
      ((cluster.nodes follower).handle (.link line.epoch event))).InRange) :
    ∃ further, annals.Grows further ∧ Coherent supplies further ((cluster.after follower (.link line.epoch event)
      ((cluster.nodes follower).handle (.link line.epoch event))
      (cluster.received follower line event
        ((cluster.nodes follower).handle (.link line.epoch event)))).setLine follower
      { line with read := some count }) := by
  obtain ⟨distinct, base, told, carries, meets⟩ := coherent.lines follower line followed
  have same : line.epoch = (cluster.nodes follower).role.epoch := by
    simp only [Link.Role.accepts, Bool.and_eq_true, beq_iff_eq] at accepts
    exact accepts.1.symm
  have handled : (cluster.nodes follower).handle (.link line.epoch event) =
      (cluster.nodes follower).takeLinkEvent event := by
    simp only [Node.handle, accepts, if_true]
  rw [handled] at range ⊢
  generalize ends : cluster.received follower line event ((cluster.nodes follower).takeLinkEvent event) =
    whole at range ⊢
  obtain ⟨further, receives⟩ := (coherent.nodes follower).receives (single apart follower)
    coherent.worded (same ▸ accepts) (meets.follows same) carries.spoken (meets.hears same) reports
    carries.story (by rw [← ends, ← same]; rfl) range
  have moves : Moves supplies annals further cluster follower (.link line.epoch event)
      ((cluster.nodes follower).takeLinkEvent event) whole := by
    refine ⟨trivial, congrArg some handled, same ▸ receives.tracks, fun stays => ?_, receives.upholds⟩
    rw [← ends, received, if_neg (by simp [stays])]
  refine ⟨further, moves.tracks.advances.grows, .setLine moves coherent apart
    (fun other => absurd rfl other) ⟨distinct, base, told, ?_, ?_⟩⟩
  · have carries := carries.grows moves.tracks.advances.grows
    simp only [after, Function.update_of_ne distinct]
    exact ⟨carries.spoken, carries.story, carries.serves⟩
  · simp only [after, Function.update_of_ne distinct, Function.update_self]
    refine ⟨same ▸ receives.epoch, fun still => ?_, fun still => ?_⟩
    · exact (receives.hears (still.symm.trans same)).1
    · exact (receives.hears (still.symm.trans same)).2

/-- The connection between a follower and its leader breaks. -/
theorem broken (coherent : Coherent supplies annals cluster)
    (followed : cluster.lines follower = some line) :
    Coherent supplies annals (cluster.setLine follower (line.broken (cluster.nodes line.leader))) where
  worded := coherent.worded
  nodes := coherent.nodes
  lines := by
    intro other found there
    by_cases own : other = follower
    · subst own
      obtain rfl : line.broken (cluster.nodes line.leader) = found := by
        simpa [Cluster.setLine] using there
      obtain ⟨distinct, base, told, carries, meets⟩ := coherent.lines other line followed
      have sent : (line.broken (cluster.nodes line.leader)).sent (cluster.nodes line.leader) =
          line.sent (cluster.nodes line.leader) := by
        rw [Line.sent, Line.messages_dead rfl]
        rfl
      refine ⟨distinct, base, told, ⟨?_, carries.story, fun live => by cases live⟩, ?_⟩
      · exact sent ▸ carries.spoken
      · exact sent ▸ meets.congr rfl rfl
    · simp only [Cluster.setLine, Function.update_of_ne own] at there
      exact coherent.lines other found there

/-- All that nodes and lines stand for is kept by whatever happens. -/
theorem step (apart : IdSupply.Apart supplies) (coherent : Coherent supplies annals cluster)
    (step : cluster.Step later) :
    ∃ further, annals.Grows further ∧ Coherent supplies further later := by
  cases step with
  | happens admits modest happened range => exact coherent.stepped apart admits modest happened range
  | asks asks range => exact coherent.asked apart asks range
  | receives followed accepts reports range => exact coherent.told apart followed accepts reports range
  | breaks followed => exact ⟨annals, .refl annals, coherent.broken followed⟩

/-- In a run, the histories that are known only grow. -/
theorem run (apart : IdSupply.Apart supplies) (coherent : Coherent supplies annals cluster)
    (run : Relation.ReflTransGen Step cluster later) :
    ∃ further, annals.Grows further ∧ Coherent supplies further later := by
  induction run with
  | refl => exact ⟨annals, .refl annals, coherent⟩
  | tail _ last ih =>
      obtain ⟨between, first, coherent⟩ := ih
      obtain ⟨further, second, coherent⟩ := coherent.step apart last
      exact ⟨further, first.trans second, coherent⟩

omit [DecidableEq Place] in
/-- Nodes that have just been started stand for nothing yet. -/
theorem start (started : cluster.Started supplies) :
    Coherent supplies (fun _ => none) cluster where
  worded := by
    rintro name whole ⟨⟩
  nodes := by
    intro place
    obtain ⟨settings, clock, found, server, port, begun, same⟩ := started.nodes place
    rw [same, started.histories]
    exact Node.upholds_start port begun
  lines := by
    intro follower line followed
    rw [started.lines] at followed
    cases followed

end Coherent

/-- Whenever a leader lets a follower go on from what the follower has presented, all of the
history that the follower had then is the beginning of the leader's, up to the offset that was
presented, and with what the leader sends it becomes just that of the leader. -/
theorem resumes_history (apart : IdSupply.Apart supplies) {before : Cluster Place}
    (reachable : before.Reachable supplies) {request : Link.SyncRequest}
    (presents : (before.nodes follower).Presents request)
    (run : Relation.ReflTransGen Step before cluster) {now : Nat} {coordinator : Coordinator}
    {clients : Clients}
    (accepted : (cluster.nodes leader).coordinator.partialResync? (cluster.nodes leader).clients now
      client request.presented.1 request.presented.2 = some (coordinator, clients)) :
    ∃ tail : Bytes,
      clients = (cluster.nodes leader).clients.send client
        (Coordinator.continueReply (cluster.nodes leader).coordinator.identity.current tail) ∧
      before.histories follower = (cluster.histories leader).upTo request.presented.2 ∧
      (before.histories follower).extend tail = cluster.histories leader := by
  obtain ⟨first, started, begun⟩ := reachable
  obtain ⟨earlier, _, asking⟩ := (Coherent.start started).run apart begun
  obtain ⟨annals, grows, coherent⟩ := asking.run apart run
  obtain ⟨tail, missed, same⟩ := Option.map_eq_some_iff.mp accepted
  obtain ⟨_, ends, within, rfl⟩ := (coherent.nodes leader).resumes (asking.nodes follower) grows
    presents missed
  refine ⟨_, (congrArg Prod.snd same).symm, ?_, within.extend_since⟩
  rw [← ends]
  exact within.eq_upTo

/-! ### Two small nodes -/

/-- The cluster after something that may happen to a node of itself. -/
def happen (cluster : Cluster Place) (place : Place) (happening : Happening) : Cluster Place :=
  cluster.after place happening ((cluster.nodes place).run [happening])
    (cluster.next place happening ((cluster.nodes place).run [happening]))

theorem step_happen {place : Place} {happening : Happening}
    (admits : (cluster.nodes place).Admits happening)
    (modest : happening.Modest (cluster.Serves place))
    (happens : ((cluster.nodes place).next? happening).isSome = true)
    (range : (cluster.next place happening ((cluster.nodes place).run [happening])).InRange) :
    cluster.Step (cluster.happen place happening) :=
  .happens admits modest (Node.next?_run happens) range

/-- A cluster in which nobody has asked to follow yet. -/
structure Unasked (supplies : Place → IdSupply) (cluster : Cluster Place) : Prop where
  reachable : cluster.Reachable supplies
  lines : ∀ follower, cluster.lines follower = none

omit [DecidableEq Place] in
theorem nobody_served (lines : ∀ follower, cluster.lines follower = none) {place : Place}
    {id : ClientId} : ¬cluster.Serves place id := by
  rintro ⟨follower, line, followed, _⟩
  rw [lines] at followed
  cases followed

theorem Unasked.happen (unasked : cluster.Unasked supplies) (place : Place) (happening : Happening)
    (admits : (cluster.nodes place).Admits happening)
    (happens : ((cluster.nodes place).next? happening).isSome = true)
    (range : (cluster.next place happening ((cluster.nodes place).run [happening])).InRange) :
    (cluster.happen place happening).Unasked supplies where
  reachable := by
    have modest : happening.Modest (cluster.Serves place) := by
      cases happening with
      | connected | disconnected | hangUp | refuse => exact nobody_served unasked.lines
      | command => exact fun serves => absurd serves (nobody_served unasked.lines)
      | _ => trivial
    obtain ⟨start, started, run⟩ := unasked.reachable
    exact ⟨start, started, run.tail (step_happen admits modest happens range)⟩
  lines follower := by
    simp only [Cluster.happen, after, unasked.lines, Option.map_none]

/-- Two supplies that never give out the same id. -/
def smallSupply (place : Bool) : IdSupply where
  next := if place then 1 else 2
  stride := 2

theorem small_apart : IdSupply.Apart smallSupply :=
  IdSupply.apart_of_residues (by decide) (fun _ => rfl) (by decide)

/-- Two nodes with one database each. -/
def small : Cluster Bool where
  nodes place := { Node.new { databases := 1 } (smallSupply place) { wall := 1000 } with port := 7000 }
  histories _ := {}
  lines _ := none

theorem small_unasked : small.Unasked smallSupply where
  reachable := by
    refine ⟨small, ⟨fun place => ?_, fun _ => rfl, fun _ => rfl⟩, .refl⟩
    exact ⟨{ databases := 1 }, { wall := 1000 }, .ok none,
      { node := Node.new { databases := 1 } (smallSupply place) { wall := 1000 } }, 7000, rfl, rfl⟩
  lines _ := rfl

/-- One of them has opened a link to the other one, which has two clients. -/
def smallFollowing : Cluster Bool :=
  ((((small.happen false (.connected 1 "127.0.0.1:40001")).happen false
    (.connected 2 "127.0.0.1:40002")).happen true (.connected 1 "127.0.0.1:40003")).happen true
    (.runs 1 ["REPLICAOF", "127.0.0.1", "7000"])).happen true .upkeep

theorem small_following : smallFollowing.Unasked smallSupply := by
  have first := small_unasked.happen false (.connected 1 "127.0.0.1:40001") trivial rfl
    (by decide +kernel)
  have second := first.happen false (.connected 2 "127.0.0.1:40002") trivial rfl (by decide +kernel)
  have third := second.happen true (.connected 1 "127.0.0.1:40003") trivial rfl (by decide +kernel)
  have told := third.happen true (.runs 1 ["REPLICAOF", "127.0.0.1", "7000"]) trivial rfl
    (by decide +kernel)
  exact told.happen true .upkeep trivial rfl (by decide +kernel)

/-- What the follower asks its leader for, which is everything. -/
def smallRequest : Wire.Value :=
  .command ["PSYNC", "?", "-1"]

theorem small_asks : smallFollowing.Asks true false 1
    ⟨"127.0.0.1", 7000, { listeningPort := 7000, id := none, offset := 0 }, []⟩ smallRequest where
  follows := by decide +kernel
  opened := by decide +kernel
  apart := by decide +kernel
  modest serves := absurd serves (nobody_served small_following.lines)
  reaches := by decide +kernel
  deaf := by
    intro channel id listens
    cases listens
  answered := by decide +kernel
  linked := by decide +kernel
  request := by decide +kernel

/-- The leader has been asked. -/
def smallAsked : Cluster Bool :=
  (smallFollowing.after false (.command 1 smallRequest)
    ((smallFollowing.nodes false).serve 1 smallRequest)
    (smallFollowing.next false (.command 1 smallRequest)
      ((smallFollowing.nodes false).serve 1 smallRequest))).setLine true
    { epoch := (smallFollowing.nodes true).role.epoch
      leader := false
      client := 1
      story := smallFollowing.next false (.command 1 smallRequest)
        ((smallFollowing.nodes false).serve 1 smallRequest) }

/-- The leader has written a snapshot, and sends it. -/
def smallShipped : Cluster Bool :=
  (smallAsked.happen false .report).happen false .report

/-- The line on which the snapshot is sent. -/
def smallLine : Line Bool where
  epoch := 3
  leader := false
  client := 1
  story := {}

theorem small_shipped :
    smallShipped.Reachable smallSupply ∧ smallShipped.lines true = some smallLine := by
  obtain ⟨start, started, run⟩ := small_following.reachable
  have asked : smallFollowing.Step smallAsked := .asks small_asks (by decide +kernel)
  have written : smallAsked.Step (smallAsked.happen false .report) :=
    step_happen trivial trivial rfl (by decide +kernel)
  have shipped : (smallAsked.happen false .report).Step smallShipped :=
    step_happen trivial trivial rfl (by decide +kernel)
  exact ⟨⟨start, started, ((run.tail asked).tail written).tail shipped⟩, rfl⟩

/-- A snapshot of a database without keys. -/
def smallPayload : Bytes :=
  Snapshot.image [{}] 1000

theorem small_reports : Link.Reports (smallLine.sent (smallShipped.nodes false)) smallLine.read
    (.fullSync (Stream.drawnId 4) 0 smallPayload)
    (Coordinator.fullReply (Stream.drawnId 4) 0 smallPayload []).length := by
  have sent : smallLine.sent (smallShipped.nodes false) =
      Coordinator.fullReply (Stream.drawnId 4) 0 smallPayload [] := by decide +kernel
  rw [sent]
  exact .of_fullReply (Stream.isWord_drawnId 4) (by decide +kernel) (by decide) (by decide)
    (by decide +kernel) []

/-- The follower has loaded the snapshot. -/
def smallLoaded : Cluster Bool :=
  (smallShipped.after true (.link 3 (.fullSync (Stream.drawnId 4) 0 smallPayload))
    ((smallShipped.nodes true).handle (.link 3 (.fullSync (Stream.drawnId 4) 0 smallPayload)))
    (smallShipped.received true smallLine (.fullSync (Stream.drawnId 4) 0 smallPayload)
      ((smallShipped.nodes true).handle
        (.link 3 (.fullSync (Stream.drawnId 4) 0 smallPayload))))).setLine true
    { smallLine with
      read := some (Coordinator.fullReply (Stream.drawnId 4) 0 smallPayload []).length }

theorem small_loaded : smallLoaded.Reachable smallSupply := by
  obtain ⟨⟨start, started, run⟩, followed⟩ := small_shipped
  exact ⟨start, started, run.tail
    (.receives followed (by decide +kernel) small_reports (by decide +kernel))⟩

/-- A client of the leader has written a key. -/
def smallWritten : Cluster Bool :=
  smallLoaded.happen false (.runs 2 ["SET", "a", "1"])

theorem small_written : smallLoaded.Step smallWritten := by
  have apart : ¬smallLoaded.Serves false 2 := by
    rintro ⟨follower, line, followed, _, _, client⟩
    cases follower with
    | false => cases followed
    | true =>
        cases followed
        cases client
  exact step_happen trivial (fun serves => absurd serves apart) rfl (by decide +kernel)

/-- The follower has a snapshot, and its leader has been written to since. -/
theorem resumes_history_after_write :
    IdSupply.Apart smallSupply ∧ smallLoaded.Reachable smallSupply ∧
      Relation.ReflTransGen Step smallLoaded smallWritten ∧
      ∃ (request : Link.SyncRequest) (coordinator : Coordinator) (clients : Clients) (tail : Bytes),
        (smallLoaded.nodes true).Presents request ∧ request.presented = (Stream.drawnId 4, 0) ∧
        (smallWritten.nodes false).coordinator.partialResync? (smallWritten.nodes false).clients 0 1
          request.presented.1 request.presented.2 = some (coordinator, clients) ∧
        tail.length = 50 ∧ smallLoaded.histories true = (smallWritten.histories false).upTo 0 ∧
        (smallLoaded.histories true).extend tail = smallWritten.histories false := by
  have run : Relation.ReflTransGen Step smallLoaded smallWritten := .single small_written
  obtain ⟨⟨coordinator, clients⟩, accepted⟩ := Option.isSome_iff_exists.mp (by decide +kernel :
    ((smallWritten.nodes false).coordinator.partialResync? (smallWritten.nodes false).clients 0 1
      (smallLoaded.nodes true).syncRequest.presented.1
      (smallLoaded.nodes true).syncRequest.presented.2).isSome = true)
  obtain ⟨tail, _, upTo, whole⟩ := resumes_history small_apart small_loaded .now run accepted
  have presented : (smallLoaded.nodes true).syncRequest.presented = (Stream.drawnId 4, 0) := by
    decide +kernel
  have length : (smallWritten.histories false).ends = (smallLoaded.histories true).ends + 50 := by
    decide +kernel
  refine ⟨small_apart, small_loaded, run, _, coordinator, clients, tail, .now, presented, accepted,
    ?_, ?_, whole⟩
  · rw [← whole, Chronicle.ends_extend] at length
    omega
  · rw [presented] at upTo
    exact upTo

end Cluster
end ReplicaStore
