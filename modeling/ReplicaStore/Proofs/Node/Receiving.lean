import ReplicaStore.Proofs.Node.Hearing

/-!
# Following a history

A node in good order stands for its history in the annals.  What it reads of what its leader
has sent it keeps it so, and adds to its history as the leader told (`Node.Upholds.receives`).
-/

namespace ReplicaStore

open ReplicaStore.Stream (Annals Chronicle Coordinator IdSupply Piece Says Told)

namespace Node

variable {node later : Node} {supply : IdSupply} {annals further : Annals}
  {history whole : Chronicle} {happening : Happening}

/-- A node in good order, which has kept its history and stands for it in the annals. -/
structure Upholds (supply : IdSupply) (annals : Annals) (history : Chronicle) (node : Node) : Prop where
  orderly : node.Orderly
  pledged : node.Pledged
  stands : node.Stands supply annals history
  kept : history.Kept node.coordinator
  range : history.InRange

/-- What others do does not matter. -/
theorem Upholds.grows (upholds : node.Upholds supply annals history) (grows : annals.Grows further)
    (own : ∀ count, further (supply.id count) = annals (supply.id count)) :
    node.Upholds supply further history :=
  ⟨upholds.orderly, upholds.pledged, upholds.stands.grows grows own, upholds.kept, upholds.range⟩

/-- A node may do what adds to its stream by itself. -/
theorem Upholds.next (upholds : node.Upholds supply annals history)
    (single : ∀ left right, supply.id left = supply.id right → left = right)
    (admits : node.Admits happening) (happened : node.next? happening = some later)
    (range : (history.next node happening later).InRange) :
    ∃ further, Tracks supply annals further history node happening later
        (history.next node happening later) ∧
      later.Upholds supply further (history.next node happening later) := by
  have kept := kept_next upholds.kept upholds.orderly happened range
  obtain ⟨further, tracks⟩ := upholds.stands.next single upholds.orderly admits happened kept
  exact ⟨further, tracks, upholds.orderly.next happened,
    (Clings.next upholds.orderly admits happened).pledged upholds.pledged, tracks.stands, kept, range⟩

/-! ### What the leader has sent -/

/-- What a follower comes to by something that its leader has sent it: it has the history that
it was told, or gives the link up. -/
structure Receives {base : Option Chronicle} (supply : IdSupply) (annals further : Annals)
    (history : Chronicle) (node : Node) (event : Link.LinkEvent) (told : Option (Told base))
    (sent : Bytes) (count : Nat) (later : Node) (whole : Chronicle) : Prop where
  tracks : Tracks supply annals further history node (.link node.role.epoch event) later whole
  upholds : later.Upholds supply further whole
  epoch : node.role.epoch ≤ later.role.epoch
  hears : later.role.epoch = node.role.epoch →
    later.following = true ∧ later.Heeds whole told sent (some count)

/-- What is read of a stream behind its front is a beginning of it. -/
theorem read_within (front tail : Bytes) (count : Nat) :
    ((front ++ tail).take count).drop front.length <+: tail := by
  rw [List.drop_take, List.drop_left]
  exact List.take_prefix ..

/-- With the next piece more is read by just that piece. -/
theorem read_more {front tail raw rest : Bytes} {before : Nat}
    (next : (front ++ tail).drop before = raw ++ rest) (least : front.length ≤ before)
    (most : before ≤ (front ++ tail).length) :
    ((front ++ tail).take (before + raw.length)).drop front.length =
      ((front ++ tail).take before).drop front.length ++ raw := by
  rw [List.take_add, next, List.take_left, List.drop_append_of_le_length]
  rw [List.length_take]
  omega

namespace Upholds

variable {base : Option Chronicle} {told : Option (Told base)} {sent : Bytes} {count : Nat}
  {story : Chronicle}

theorem next?_link (accepts : node.role.accepts node.role.epoch = true) (event : Link.LinkEvent) :
    node.next? (.link node.role.epoch event) = some (node.takeLinkEvent event) := by
  simp only [next?, handle, accepts, if_true]

/-- The node is told to go on where it is. -/
theorem continued {id : Option String} (upholds : node.Upholds supply annals history)
    (worded : annals.Worded) (accepts : node.role.accepts node.role.epoch = true)
    (follows : node.following = true) (spoken : Says annals told sent)
    (hears : node.Heeds history told sent none)
    (reports : Link.Reports sent none (.continued id) count) :
    Receives supply annals annals history node (.continued id) told sent count
      (node.continueStream id)
      (history.next node (.link node.role.epoch (.continued id)) (node.continueStream id)) := by
  obtain ⟨answered, rfl, rfl, same, rfl⟩ := reports.continued_told spoken worded
  cases hears with
  | waits apart held =>
      obtain ⟨recorded, rfl⟩ := held _ same
      cases spoken with
      | @tells _ tail known =>
          have has := known.mono (answered.source.within_extend tail)
          obtain ⟨stands, named⟩ := upholds.stands.continued upholds.orderly follows recorded has
          obtain ⟨backlog, _, role, _⟩ :=
            continueStream_standing upholds.orderly recorded answered.name
          have still : answered.source.next node (.link node.role.epoch (.continued (some answered.name)))
              (node.continueStream (some answered.name)) = answered.source := by
            rw [Chronicle.next_of_recorded recorded rfl]
            exact Chronicle.extend_nil _
          have connected : (node.continueStream (some answered.name)).role.connected = true := by
            rw [role]
            rfl
          have orderly : (node.continueStream (some answered.name)).Orderly :=
            upholds.orderly.next (next?_link accepts (.continued (some answered.name)))
          rw [still]
          refine ⟨.of_quiet upholds.stands rfl (.refl _) stands,
            ⟨orderly, Settled.pledged (.inl connected), stands, upholds.kept.congr backlog, upholds.range⟩, ?_, fun _ => ⟨?_, ?_⟩⟩
          · rw [role]
            exact Nat.le_refl _
          · rw [following, role]
            exact follows
          · refine .reads rfl connected (by rw [backlog]; exact recorded) named (Nat.le_refl _)
              (by simp) ?_
            simp

/-- The node is told to take over a snapshot. -/
theorem loaded {id : String} {offset : Int} {payload : Bytes}
    (upholds : node.Upholds supply annals history) (worded : annals.Worded)
    (accepts : node.role.accepts node.role.epoch = true) (follows : node.following = true)
    (spoken : Says annals told sent)
    (reports : Link.Reports sent none (.fullSync id offset payload) count)
    (readable : (Snapshot.commandsOf payload).toOption.isSome = true)
    (within : ∀ answered, told = some answered → answered.source.Within story) :
    Receives supply annals annals history node (.fullSync id offset payload) told sent count
      (node.applyFullSync id offset payload)
      (story.upTo (node.applyFullSync id offset payload).coordinator.offset) := by
  obtain ⟨answered, rfl, rfl, rfl, rfl⟩ := reports.fullSync_told spoken worded
  cases spoken with
  | @tells _ tail known =>
      have has := known.mono (answered.source.within_extend tail)
      obtain ⟨stands, named, recorded⟩ := @Stands.loaded _ _ _ _ _ payload _ upholds.stands follows
        readable has
      have role := @applyFullSync_role node answered.name answered.source.ends payload readable
      have connected : (node.applyFullSync answered.name answered.source.ends payload).role.connected =
          true := by
        rw [role]
        rfl
      have source : story.upTo
          (node.applyFullSync answered.name answered.source.ends payload).coordinator.offset =
          answered.source := by
        rw [stands.offset recorded]
        exact (within answered rfl).eq_upTo.symm
      rw [source]
      refine ⟨.of_quiet upholds.stands rfl (.refl _) stands,
        ⟨upholds.orderly.next (next?_link accepts (.fullSync _ _ _)),
          Settled.pledged (.inl connected), stands, kept_loaded answered.range readable, answered.range⟩, ?_, fun _ => ⟨?_, ?_⟩⟩
      · rw [role]
        exact Nat.le_refl _
      · rw [following, role]
        exact follows
      · refine .reads rfl connected recorded named (Nat.le_refl _) (by simp) ?_
        simp

/-- A snapshot that cannot be read ends the link. -/
theorem unreadable {id : String} {offset : Int} {payload : Bytes}
    (upholds : node.Upholds supply annals history)
    (single : ∀ left right, supply.id left = supply.id right → left = right)
    (accepts : node.role.accepts node.role.epoch = true)
    (broken : (Snapshot.commandsOf payload).toOption.isSome = false)
    (range : (history.next node (.link node.role.epoch (.fullSync id offset payload))
      (node.applyFullSync id offset payload)).InRange) :
    ∃ further, Receives supply annals further history node (.fullSync id offset payload) told sent count
      (node.applyFullSync id offset payload)
      (history.next node (.link node.role.epoch (.fullSync id offset payload))
        (node.applyFullSync id offset payload)) := by
  have dropped : node.applyFullSync id offset payload = { node with role := node.role.reconnect } := by
    rcases node.applyFullSync_cases id offset payload with ⟨_, same⟩ | ⟨readable, _⟩
    · exact same
    · rw [broken] at readable
      cases readable
  have same : node.loads (.link node.role.epoch (.fullSync id offset payload)) = false := by
    simp [loads, broken]
  have happened := next?_link accepts (.fullSync id offset payload)
  have kept := kept_next upholds.kept upholds.orderly happened range
  have orderly := upholds.orderly.next happened
  simp only [takeLinkEvent] at kept orderly
  rw [dropped] at kept orderly range ⊢
  have reforms : node.Reforms { node with role := node.role.reconnect } :=
    .keeps rfl rfl rfl fun leads => (node.role.following_reconnect.symm.trans leads)
  obtain ⟨further, advances, stands, _⟩ := upholds.stands.reforms single reforms
  have quiet := @next_quiet node { node with role := node.role.reconnect } history _ same rfl
  rw [← quiet] at stands
  obtain ⟨epoch, closed⟩ := node.role.reconnect_dropped
  exact ⟨further, .of_quiet upholds.stands rfl advances stands,
    ⟨orderly, Settled.pledged (.inr closed), stands, kept, range⟩, Nat.le_of_lt epoch,
    fun still => absurd still (Nat.ne_of_gt epoch)⟩

/-- The node is told a command of the stream. -/
theorem hears_command {arguments : List String} {raw : Bytes} {stage : Option Nat}
    (upholds : node.Upholds supply annals history)
    (single : ∀ left right, supply.id left = supply.id right → left = right)
    (accepts : node.role.accepts node.role.epoch = true) (follows : node.following = true)
    (spoken : Says annals told sent) (hears : node.Heeds history told sent stage)
    (reports : Link.Reports sent stage (.command arguments raw) count)
    (range : (history.next node (.link node.role.epoch (.command arguments raw))
      (node.follow arguments raw)).InRange) :
    ∃ further, Receives supply annals further history node (.command arguments raw) told sent count
      (node.follow arguments raw)
      (history.next node (.link node.role.epoch (.command arguments raw))
        (node.follow arguments raw)) := by
  cases reports with
  | @command before _ rest inside next =>
      cases hears with
      | @reads answered _ got connected recorded named least most whole =>
          subst got
          cases spoken with
          | @tells _ tail known =>
              have added : Piece.bytes (node.added (.link node.role.epoch (.command arguments raw))) =
                  raw := by
                simp [Node.added, accepts, connected]
              have goes_on : history.next node (.link node.role.epoch (.command arguments raw))
                  (node.follow arguments raw) = history.extend raw := by
                rw [Chronicle.next_of_recorded recorded rfl, added]
              have more : history.extend raw = answered.source.extend
                  (((answered.front ++ tail).take (before + raw.length)).drop
                    answered.front.length) := by
                rw [read_more next least most, Chronicle.extend_append, ← whole]
              have has : annals.Has node.coordinator.identity.current (history.extend raw) := by
                rw [named, more]
                exact known.mono ⟨rfl, (List.prefix_append_right_inj _).mpr (read_within ..)⟩
              have happened := next?_link accepts (.command arguments raw)
              have kept := kept_next upholds.kept upholds.orderly happened range
              have orderly := upholds.orderly.next happened
              simp only [takeLinkEvent] at kept orderly
              rw [goes_on] at range kept ⊢
              obtain ⟨further, tracks⟩ := follow_tracks single upholds.stands accepts connected recorded
                arguments kept has
              obtain ⟨epoch, settled, clings⟩ := follow_clings follows connected recorded arguments raw
              refine ⟨further, tracks, ⟨orderly, settled.pledged, tracks.stands, kept, range⟩, epoch,
                fun same => ?_⟩
              obtain ⟨following, linked, identity, there⟩ := clings same
              refine ⟨following.trans follows, .reads rfl linked there (by rw [identity]; exact named)
                (by omega) ?_ more⟩
              have length := congrArg List.length next
              simp only [List.length_drop, List.length_append] at length inside ⊢
              omega

/-- Whatever a follower makes of what its leader has sent it, it stands for its history as
before, and has of it what it was told. -/
theorem receives {event : Link.LinkEvent} {stage : Option Nat}
    (upholds : node.Upholds supply annals history)
    (single : ∀ left right, supply.id left = supply.id right → left = right)
    (worded : annals.Worded) (accepts : node.role.accepts node.role.epoch = true)
    (follows : node.following = true) (spoken : Says annals told sent)
    (hears : node.Heeds history told sent stage) (reports : Link.Reports sent stage event count)
    (within : ∀ answered, told = some answered → answered.source.Within story)
    (ends : whole = if node.loads (.link node.role.epoch event) then
        story.upTo (node.takeLinkEvent event).coordinator.offset
      else history.next node (.link node.role.epoch event) (node.takeLinkEvent event))
    (range : whole.InRange) :
    ∃ further, Receives supply annals further history node event told sent count
      (node.takeLinkEvent event) whole := by
  subst ends
  cases event with
  | continued id =>
      obtain rfl : stage = none := by cases reports; rfl
      exact ⟨annals, upholds.continued worded accepts follows spoken hears reports⟩
  | fullSync id offset payload =>
      obtain rfl : stage = none := by cases reports; rfl
      cases readable : (Snapshot.commandsOf payload).toOption.isSome with
      | true =>
          have loads : node.loads (.link node.role.epoch (.fullSync id offset payload)) = true := by
            simp [Node.loads, accepts, readable]
          rw [if_pos loads]
          exact ⟨annals, upholds.loaded worded accepts follows spoken reports readable within⟩
      | false =>
          have loads : ¬node.loads (.link node.role.epoch (.fullSync id offset payload)) = true := by
            simp [Node.loads, readable]
          rw [if_neg loads] at range ⊢
          exact upholds.unreadable single accepts readable range
  | command arguments raw => exact upholds.hears_command single accepts follows spoken hears reports range
  | state | heartbeat | failed => cases reports

end Upholds
end Node
end ReplicaStore
