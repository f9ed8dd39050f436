import ReplicaStore.Proofs.Node.Standing
import ReplicaStore.Proofs.Node.Telling
import ReplicaStore.Proofs.Stream.Replies

/-!
# What a follower makes of what it is told

A follower that is told to go on has the beginning of a history, one that loads a snapshot
takes over the beginning that the snapshot stands for, and with every command of the stream
it has more of the history under the name that it was told (`Node.Heeds`).
-/

namespace ReplicaStore

open ReplicaStore.Stream (Annals Chronicle Coordinator IdSupply Leads Move Piece Says Told)

namespace Node

variable {node later : Node} {supply : IdSupply} {annals : Annals} {history : Chronicle}
  {base : Option Chronicle} {told last : Option (Told base)} {sent : Bytes} {stage : Option Nat}

/-- A follower waits for an answer, with the history that it had when it asked, or it has read
so many bytes of what it has been sent, and has the history that they stand for. -/
inductive Heeds (node : Node) (history : Chronicle) (told : Option (Told base)) (sent : Bytes) :
    Option Nat → Prop
  | waits (apart : node.role.connected = false)
      (same : ∀ source, base = some source →
        node.coordinator.backlog.isSome = true ∧ history = source) :
      Heeds node history told sent none
  | reads {answered : Told base} {count : Nat} (got : told = some answered)
      (connected : node.role.connected = true) (recorded : node.coordinator.backlog.isSome = true)
      (named : node.coordinator.identity.current = answered.name)
      (least : answered.front.length ≤ count) (most : count ≤ sent.length)
      (whole : history = answered.source.extend ((sent.take count).drop answered.front.length)) :
      Heeds node history told sent (some count)

namespace Heeds

/-- A follower may be told more. -/
theorem onward {lasts : Prop} {whole : Chronicle} {more : Bytes}
    (hears : node.Heeds history told sent stage) (leads : Leads lasts whole told last)
    (grown : sent <+: more) : node.Heeds history last more stage := by
  cases hears with
  | waits apart same => exact .waits apart same
  | reads got connected recorded named least most ends =>
      subst got
      cases leads
      obtain ⟨rest, rfl⟩ := grown
      refine .reads rfl connected recorded named least (by simp; omega) ?_
      rw [List.take_append_of_le_length most]
      exact ends

/-- As long as the link is as far as it was, the stream of a follower stays as it is. -/
theorem clings {whole : Chronicle} (hears : node.Heeds history told sent stage)
    (follows : node.following = true) (clings : node.Clings later)
    (same : later.role.epoch = node.role.epoch)
    (still : node.coordinator.backlog.isSome = true → whole = history) :
    later.Heeds whole told sent stage := by
  have connected := (clings.same same).1
  cases hears with
  | waits apart held =>
      refine .waits (connected.trans apart) fun source started => ?_
      obtain ⟨recorded, ends⟩ := held source started
      rw [(clings.rests same follows recorded).2, still recorded]
      exact ⟨recorded, ends⟩
  | reads got linked recorded named least most ends =>
      obtain ⟨identity, backlog⟩ := clings.rests same follows recorded
      rw [still recorded]
      exact .reads got (connected.trans linked) (by rw [backlog]; exact recorded)
        (by rw [identity]; exact named) least most ends

end Heeds

/-! ### Going on -/

/-- Being told to go on leaves the stream as it is, under the name that was told. -/
theorem continueStream_standing (orderly : node.Orderly)
    (recorded : node.coordinator.backlog.isSome = true) (id : String) :
    (node.continueStream (some id)).coordinator.backlog = node.coordinator.backlog ∧
    (node.continueStream (some id)).coordinator.supply = node.coordinator.supply ∧
    (node.continueStream (some id)).role = node.role.setState node.clock.elapsed .connected ∧
    (id = node.coordinator.identity.current ∧
        (node.continueStream (some id)).coordinator.identity = node.coordinator.identity ∨
      (node.continueStream (some id)).coordinator.identity =
        node.coordinator.identity.shift id node.coordinator.offset) := by
  obtain ⟨backlog, found⟩ := Option.isSome_iff_exists.mp recorded
  have active := (orderly.coordinator.ready backlog found).active
  rcases node.continueStream_cases (some id) with ⟨named, same⟩ | ⟨_, ⟨⟩, _, same⟩ <;> rw [same]
  · rw [Coordinator.changeBacklog_activate found active]
    exact ⟨rfl, rfl, rfl, .inl ⟨named id rfl, rfl⟩⟩
  · have dropped : ((node.coordinator.shiftIdentity id node.coordinator.offset).dropAll
        node.clients).1.backlog = some backlog := found
    rw [Coordinator.changeBacklog_activate dropped active]
    exact ⟨rfl, rfl, rfl, .inr rfl⟩

/-- A history goes on under the name that was told. -/
theorem Stands.continued {id : String} (stands : node.Stands supply annals history)
    (orderly : node.Orderly) (follows : node.following = true)
    (recorded : node.coordinator.backlog.isSome = true) (known : annals.Has id history) :
    (node.continueStream (some id)).Stands supply annals history ∧
      (node.continueStream (some id)).coordinator.identity.current = id := by
  obtain ⟨backlog, supplied, role, identity⟩ := continueStream_standing orderly recorded id
  have offset := stands.offset recorded
  refine ⟨⟨?_, fun _ => ?_, fun _ => ?_, fun _ leads => ?_⟩, ?_⟩
  · rw [supplied]
    exact stands.supplied
  · rw [Coordinator.offset, backlog]
    exact offset
  · rcases identity with ⟨_, same⟩ | shifted
    · rw [same]
      exact stands.tells recorded
    · rw [shifted, offset]
      exact (stands.tells recorded).shift known
  · rw [following, role] at leads
    rw [following] at follows
    exact absurd (follows.symm.trans leads) (by decide)
  · rcases identity with ⟨named, same⟩ | shifted
    · rw [same, named]
    · rw [shifted]
      rfl

/-! ### Taking over -/

theorem applyFullSync_role {id : String} {offset : Int} {payload : Bytes}
    (readable : (Snapshot.commandsOf payload).toOption.isSome = true) :
    (node.applyFullSync id offset payload).role =
      { node.role with database := 0 }.setState node.clock.elapsed .connected := by
  rcases node.applyFullSync_cases id offset payload with ⟨broken, _⟩ | ⟨_, partitions, _, same⟩
  · rw [readable] at broken
    cases broken
  · rw [same]
    rfl

/-- The beginning of a history is taken over with a snapshot. -/
theorem Stands.loaded {id : String} {payload : Bytes} {source : Chronicle}
    (stands : node.Stands supply annals history) (follows : node.following = true)
    (readable : (Snapshot.commandsOf payload).toOption.isSome = true)
    (known : annals.Has id source) :
    (node.applyFullSync id source.ends payload).Stands supply annals source ∧
      (node.applyFullSync id source.ends payload).coordinator.identity.current = id ∧
      (node.applyFullSync id source.ends payload).coordinator.backlog.isSome = true := by
  have coordinator : (node.applyFullSync id source.ends payload).coordinator =
      (Move.applyAll [.renew id source.ends, .forget] node.desk).1 :=
    congrArg Prod.fst (applyFullSync_desk readable)
  have role := @applyFullSync_role node id source.ends payload readable
  refine ⟨⟨?_, fun _ => ?_, fun _ => ?_, fun _ leads => ?_⟩, ?_, ?_⟩
  · rw [coordinator]
    exact stands.supplied
  · rw [coordinator]
    rfl
  · rw [coordinator]
    exact .adopt node.coordinator.identity known
  · rw [following, role] at leads
    rw [following] at follows
    exact absurd (follows.symm.trans leads) (by decide)
  · rw [coordinator]
    rfl
  · rw [coordinator]
    rfl

/-- A stream that begins where a history ends has kept that history, since nothing of it can
be read. -/
theorem kept_loaded {id : String} {payload : Bytes} {source : Chronicle} (range : source.InRange)
    (readable : (Snapshot.commandsOf payload).toOption.isSome = true) :
    source.Kept (node.applyFullSync id source.ends payload).coordinator := by
  have coordinator : (node.applyFullSync id source.ends payload).coordinator =
      (Move.applyAll [.renew id source.ends, .forget] node.desk).1 :=
    congrArg Prod.fst (applyFullSync_desk readable)
  rw [coordinator]
  rintro backlog ⟨⟩
  refine ⟨⟨rfl, range.least, rfl, Nat.zero_le _, ?_⟩, Nat.zero_le _⟩
  intro index inside held
  exact absurd (Nat.le_zero.mp held) (by omega)

/-! ### Having more -/

/-- A link is up, or none is open. -/
def Settled (node : Node) : Prop :=
  node.role.connected = true ∨ node.role.link = none

theorem Unmoved.settled (unmoved : node.Unmoved later) (settled : node.Settled) : later.Settled := by
  refine settled.imp (fun connected => ?_) fun closed => ?_
  · rw [Link.Role.connected, unmoved.role.state]
    exact connected
  · have request := unmoved.role.request
    rw [closed] at request
    exact Option.map_eq_none_iff.mp request

theorem Settled.pledged (settled : node.Settled) : node.Pledged := by
  refine ⟨fun _ link opened apart => ?_⟩
  rcases settled with connected | closed
  · rw [connected] at apart
    cases apart
  · rw [closed] at opened
    cases opened

theorem settled_deed {audience : ClientId → Prop} {source : Source} {deed : Deed}
    (spares : deed.Spares audience source) (settled : node.Settled) : (deed.apply node).Settled := by
  cases deed with
  | promote =>
      simp only [Deed.apply, Command.promote]
      split
      · exact .inr rfl
      · exact settled
  | follow host port => exact .inr rfl
  | synchronise id history offset =>
      rcases synchronise_standing id history offset node with ⟨_, unmoved⟩ | ⟨_, role, _⟩
      · exact unmoved.settled settled
      · rw [Settled]
        simp only [Deed.apply]
        rw [role]
        exact settled
  | _ => exact (unmoved_deed spares (by simp) node).settled settled

/-- Running a command of the leader. -/
theorem hear_becomes (node : Node) (arguments : List String) :
    node.Unmoved node.listening.node ∧
      node.listening.node.Becomes (Deed.Spares (fun _ => False) .leader)
        (node.hear arguments).node := by
  refine ⟨⟨rfl, rfl, rfl, Link.Role.alike_touch ..⟩, ?_⟩
  have deaf : node.listening.node.Deaf (fun _ => False) := fun _ _ _ => id
  have outside : Command.Outside (fun _ => False) node.listening := by
    rintro id ⟨⟩
  rcases Command.dispatch_spares deaf outside arguments with ⟨becomes, _⟩ | ⟨client, _⟩
  · exact becomes
  · cases client

/-- With every command of the stream a follower has more of the history, and it goes on to
follow unless the command was to do otherwise. -/
theorem follow_tracks (single : ∀ left right, supply.id left = supply.id right → left = right)
    (stands : node.Stands supply annals history) {epoch : Nat} (accepts : node.role.accepts epoch = true)
    (connected : node.role.connected = true) (recorded : node.coordinator.backlog.isSome = true)
    (arguments : List String) {raw : Bytes}
    (kept : (history.extend raw).Kept (node.follow arguments raw).coordinator)
    (known : annals.Has node.coordinator.identity.current (history.extend raw)) :
    ∃ further, Tracks supply annals further history node (.link epoch (.command arguments raw))
      (node.follow arguments raw) (history.extend raw) := by
  obtain ⟨touched, becomes⟩ := hear_becomes node arguments
  have state : node.role.state = .connected := by simpa [Link.Role.connected] using connected
  obtain ⟨same, further, advances, between, name⟩ := (stands.unmoved touched).becomes single becomes
  have there : (node.hear arguments).node.coordinator.backlog.isSome = true := by
    rw [same recorded]
    exact recorded
  have still : node.listening.node.coordinator.backlog.isSome = true := recorded
  rw [carried_of_some still] at between
  have added : Piece.bytes (node.added (.link epoch (.command arguments raw))) = raw := by
    simp [Node.added, accepts, connected]
  have later : (node.follow arguments raw).coordinator =
      ((node.hear arguments).node.coordinator.feed (node.hear arguments).node.clients raw none).1 := by
    rw [follow_eq state]
    rfl
  have own : (node.hear arguments).node.Owns supply further history ∨
      further.Has (node.hear arguments).node.coordinator.identity.current (history.extend raw) := by
    rcases name recorded with identity | owns
    · rw [identity]
      exact .inr (known.grows advances.grows)
    · exact .inl owns
  have frame := (node.hear arguments).node.coordinator.fed_feed (node.hear arguments).node.clients
    raw none
  rw [← later] at frame
  obtain ⟨furthest, more, stays, _⟩ := @Stands.feeds _ (node.follow arguments raw) _ _ _ raw single
    between there frame.identity frame.supply
    (fun leads => by rw [follow_eq state] at leads; exact leads) (fun _ => kept.offset_eq ‹_›) own
  exact ⟨furthest, advances.trans more, stays, fun _ => by
    rw [added]
    exact known.grows (advances.trans more).grows⟩

theorem follow_clings (follows : node.following = true) (connected : node.role.connected = true)
    (recorded : node.coordinator.backlog.isSome = true) (arguments : List String) (raw : Bytes) :
    node.role.epoch ≤ (node.follow arguments raw).role.epoch ∧ (node.follow arguments raw).Settled ∧
      ((node.follow arguments raw).role.epoch = node.role.epoch →
        (node.follow arguments raw).following = node.following ∧
        (node.follow arguments raw).role.connected = true ∧
        (node.follow arguments raw).coordinator.identity = node.coordinator.identity ∧
        (node.follow arguments raw).coordinator.backlog.isSome = true) := by
  obtain ⟨touched, becomes⟩ := hear_becomes node arguments
  have state : node.role.state = .connected := by simpa [Link.Role.connected] using connected
  have clings : node.Clings (node.hear arguments).node :=
    (Clings.of_unmoved touched).trans becomes.clings
  have settled : (node.hear arguments).node.Settled :=
    becomes.keeps (fun _ _ spares settled => settled_deed spares settled) (touched.settled (.inl connected))
  have coordinator : (node.follow arguments raw).coordinator =
      ((node.hear arguments).node.coordinator.feed (node.hear arguments).node.clients raw none).1 := by
    rw [follow_eq state]
    rfl
  have frame := (node.hear arguments).node.coordinator.fed_feed (node.hear arguments).node.clients
    raw none
  rw [← coordinator] at frame
  have role : (node.follow arguments raw).role = { (node.hear arguments).node.role with
      database := (node.hear arguments).session.database } := by
    rw [follow_eq state]
    rfl
  refine ⟨?_, ?_, fun same => ?_⟩
  · rw [role]
    exact clings.epoch
  · rw [Settled, role]
    exact settled
  · rw [role] at same
    obtain ⟨identity, backlog⟩ := clings.rests same follows recorded
    obtain ⟨still, following⟩ := clings.same same
    refine ⟨?_, ?_, ?_, ?_⟩
    · rw [Node.following, role]
      exact following
    · rw [role]
      exact still.trans connected
    · exact frame.identity.trans identity
    · rw [frame.recorded, backlog]
      exact recorded

end Node
end ReplicaStore
