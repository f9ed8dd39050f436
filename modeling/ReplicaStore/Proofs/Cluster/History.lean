import ReplicaStore.Proofs.Cluster.Basic

/-!
# Histories in a cluster

Whoever goes by the name of a history has the beginning of it, and so has whoever is on its
way to: all that a line carries is the beginning of a history that is known
(`Cluster.Coherent`).  What happens to one node leaves that so for all other ones, and for
the lines on which they follow (`Cluster.Moves.linked`).
-/

namespace ReplicaStore

open ReplicaStore.Stream (Annals Chronicle Coordinator IdSupply Leads Piece Says Sends Told said)

/-! ### Lines -/

namespace Line

variable {Place : Type} {line : Line Place} {leader later follower : Node} {annals further : Annals}
  {history whole : Chronicle} {base : Option Chronicle} {told last : Option (Told base)}
  {sent more : Bytes} {happening : Happening} {supply : IdSupply}

/-- A line carries what its leader tells of a history. -/
structure Carries (annals : Annals) (leader : Node) (history : Chronicle) (told : Option (Told base))
    (line : Line Place) : Prop where
  spoken : Says annals told (line.sent leader)
  story : ∀ answered, told = some answered → answered.source.Within line.story
  serves : line.live = true → leader.Deaf (· = line.client) ∧
    Sends annals line.client leader.desk history told line.taken

/-- A line reaches its follower as long as that is the link that the follower has. -/
structure Meets (follower : Node) (history : Chronicle) (told : Option (Told base)) (sent : Bytes)
    (line : Line Place) : Prop where
  epoch : line.epoch ≤ follower.role.epoch
  follows : line.epoch = follower.role.epoch → follower.following = true
  hears : line.epoch = follower.role.epoch → follower.Heeds history told sent line.read

theorem messages_live (live : line.live = true) :
    line.messages leader = line.taken ++ leader.clients.pending line.client := by
  rw [messages, if_pos live]

theorem messages_dead (dead : line.live = false) : line.messages leader = line.taken := by
  rw [messages, dead]
  exact List.append_nil _

theorem sent_passes (live : line.live = true) :
    (line.passes leader history happening).sent later =
      said (line.taken ++ leader.takes line.client happening ++ later.clients.pending line.client) := by
  rw [sent, passes, if_pos live, messages_live]
  exact live

namespace Carries

theorem grows (carries : line.Carries annals leader history told) (grows : annals.Grows further) :
    line.Carries further leader history told where
  spoken := carries.spoken.grows grows
  story := carries.story
  serves := fun live => ⟨(carries.serves live).1, (carries.serves live).2.grows grows⟩

/-- Something happens to the leader of a line on which nothing more comes. -/
theorem passes_dead (carries : line.Carries annals leader history told) (dead : line.live = false)
    (grows : annals.Grows further) :
    line.sent later = line.sent leader ∧
      (line.passes leader history happening).Carries further later whole told := by
  have same : line.passes leader history happening = line := by
    rw [Line.passes, dead]
    rfl
  have stays : line.sent later = line.sent leader := by
    rw [sent, sent, messages_dead dead, messages_dead dead]
  rw [same]
  refine ⟨stays, stays ▸ carries.spoken.grows grows, carries.story, fun contrary => ?_⟩
  rw [dead] at contrary
  cases contrary

/-- Something happens to the leader. -/
theorem passes (carries : line.Carries annals leader history told)
    (upholds : leader.Upholds supply annals history)
    (modest : line.live = true → happening.Modest (· = line.client))
    (happened : leader.next? happening = some later)
    (tracks : Node.Tracks supply annals further history leader happening later whole)
    (goes_on : leader.loads happening = false → whole = history.next leader happening later)
    (range : whole.InRange) :
    ∃ last : Option (Told base), (∃ lasts chronicle, Leads lasts chronicle told last) ∧
      line.sent leader <+: (line.passes leader history happening).sent later ∧
      (line.passes leader history happening).Carries further later whole last := by
  cases live : line.live with
  | false =>
      obtain ⟨stays, still⟩ := carries.passes_dead live tracks.advances.grows
      refine ⟨told, ⟨True, whole, .same _⟩, ?_, still⟩
      rw [← stays, Line.passes, live]
      exact List.prefix_refl _
  | true =>
      obtain ⟨deaf, sends⟩ := carries.serves live
      obtain ⟨last, leads, there⟩ := Node.sends_next (sends.grows tracks.advances.grows)
        upholds.kept upholds.orderly deaf (modest live) happened goes_on range tracks.known
      obtain ⟨new, queue⟩ := Node.queue_next sends.reaches upholds.orderly deaf (modest live) happened
      refine ⟨last, ⟨_, _, leads⟩, ?_, ?_, ?_, fun _ => ?_⟩
      · rw [sent_passes live, sent, messages_live live, List.append_assoc, ← queue, ← List.append_assoc]
        exact Stream.said_prefix _ _
      · rw [sent_passes live]
        exact there.spoken
      · intro answered got
        rw [Line.passes, if_pos live, messages_live live]
        cases leads with
        | same =>
            dsimp only
            split
            · exact carries.story answered got
            · next lasts =>
                subst got
                exact (sends.speaks.resolve_left lasts).within.trans (history.within_extend _)
        | opens lasts within =>
            cases got
            dsimp only
            rw [if_neg lasts]
            exact within
      · rw [Line.passes, if_pos live]
        exact ⟨deaf.next (modest live) happened, there⟩

end Carries

namespace Meets

/-- The follower may be told more. -/
theorem onward {lasts : Prop} {chronicle : Chronicle}
    (meets : line.Meets follower history told sent) (leads : Leads lasts chronicle told last)
    (grown : sent <+: more) : line.Meets follower history last more :=
  ⟨meets.epoch, meets.follows, fun same => (meets.hears same).onward leads grown⟩

/-- Only how much was read matters of the line. -/
theorem congr {other : Line Place} (meets : line.Meets follower history told sent)
    (epoch : other.epoch = line.epoch) (read : other.read = line.read) :
    other.Meets follower history told sent := by
  refine ⟨?_, ?_, ?_⟩ <;> rw [epoch]
  · exact meets.epoch
  · exact meets.follows
  · rw [read]
    exact meets.hears

/-- The follower goes on following, or gives the link up. -/
theorem rests (meets : line.Meets follower history told sent) (clings : follower.Clings later)
    (still : follower.following = true → follower.coordinator.backlog.isSome = true →
      whole = history) : line.Meets later whole told sent := by
  have early (same : line.epoch = later.role.epoch) : line.epoch = follower.role.epoch :=
    Nat.le_antisymm meets.epoch (same ▸ clings.epoch)
  refine ⟨Nat.le_trans meets.epoch clings.epoch, fun same => ?_, fun same => ?_⟩
  · rw [(clings.same (same.symm.trans (early same))).2]
    exact meets.follows (early same)
  · have follows := meets.follows (early same)
    exact (meets.hears (early same)).clings follows clings (same.symm.trans (early same))
      (still follows)

end Meets
end Line

/-- Of a follower nothing is added to the stream unless its leader told it. -/
theorem Node.Admits.silent {node : Node} {happening : Happening} (admits : node.Admits happening)
    (follows : node.following = true) : node.added happening = [] := by
  cases happening with
  | command id value =>
      simp only [Node.added, follows, if_true]
      split <;> rfl
  | upkeep =>
      have quiet : node.pings = false := by
        cases pings : node.pings with
        | false => rfl
        | true =>
            rw [Node.pings_leads pings] at follows
            cases follows
      simp [Node.added, quiet]
  | link epoch event => exact admits.added
  | _ => rfl

theorem Happening.Modest.mono {narrow wide : ClientId → Prop} {happening : Happening}
    (modest : happening.Modest wide) (within : ∀ id, narrow id → wide id) :
    happening.Modest narrow := by
  cases happening with
  | connected id | disconnected id | refuse id | hangUp id => exact fun inside => modest (within id inside)
  | command id value => exact fun inside => modest (within id inside)
  | _ => trivial

namespace Cluster

variable {Place : Type} [DecidableEq Place] {supplies : Place → IdSupply} {annals further : Annals}
  {cluster : Cluster Place} {place follower : Place} {line : Line Place} {happening : Happening}
  {later : Node} {whole : Chronicle}

/-- A line carries what its follower is to be told, and reaches it. -/
def Linked (cluster : Cluster Place) (annals : Annals) (follower : Place) (line : Line Place) : Prop :=
  line.leader ≠ follower ∧ ∃ (base : Option Chronicle) (told : Option (Told base)),
    line.Carries annals (cluster.nodes line.leader) (cluster.histories line.leader) told ∧
    line.Meets (cluster.nodes follower) (cluster.histories follower) told
      (line.sent (cluster.nodes line.leader))

/-- All nodes stand for their histories in the same annals, and all lines carry some of them. -/
structure Coherent (supplies : Place → IdSupply) (annals : Annals) (cluster : Cluster Place) : Prop where
  worded : annals.Worded
  nodes : ∀ place, (cluster.nodes place).Upholds (supplies place) annals (cluster.histories place)
  lines : ∀ follower line, cluster.lines follower = some line → cluster.Linked annals follower line

/-- Something happens to a node, and the other ones are as they were. -/
structure Moves (supplies : Place → IdSupply) (annals further : Annals) (cluster : Cluster Place)
    (place : Place) (happening : Happening) (later : Node) (whole : Chronicle) : Prop where
  modest : happening.Modest (cluster.Serves place)
  happened : (cluster.nodes place).next? happening = some later
  tracks : Node.Tracks (supplies place) annals further (cluster.histories place)
    (cluster.nodes place) happening later whole
  goes_on : (cluster.nodes place).loads happening = false → whole = cluster.next place happening later
  upholds : later.Upholds (supplies place) further whole

namespace Moves

theorem nodes (moves : Moves supplies annals further cluster place happening later whole)
    (coherent : Coherent supplies annals cluster) (apart : IdSupply.Apart supplies) (other : Place) :
    ((cluster.after place happening later whole).nodes other).Upholds (supplies other) further
      ((cluster.after place happening later whole).histories other) := by
  by_cases same : other = place
  · subst same
    simpa [after] using moves.upholds
  · simp only [after, Function.update_of_ne same]
    refine (coherent.nodes other).grows moves.tracks.advances.grows fun count => ?_
    refine moves.tracks.advances.apart _ fun drawn twice => ?_
    exact same (apart _ _ _ _ twice).1

/-- A line goes on to carry what its follower is to be told, and to reach it. -/
theorem linked (moves : Moves supplies annals further cluster place happening later whole)
    (coherent : Coherent supplies annals cluster)
    (followed : cluster.lines follower = some line)
    (meets : follower = place → ∀ (base : Option Chronicle) (told : Option (Told base)),
      line.Meets (cluster.nodes place) (cluster.histories place) told
        (line.sent (cluster.nodes line.leader)) →
      line.Meets later whole told (line.sent (cluster.nodes line.leader))) :
    (cluster.after place happening later whole).Linked further follower
      (cluster.carry place happening line) := by
  obtain ⟨apart, base, told, carries, reaches⟩ := coherent.lines follower line followed
  obtain ⟨leader, epoch, read⟩ := cluster.carry_frame place happening line
  rw [Linked, leader]
  refine ⟨apart, base, ?_⟩
  by_cases leads : line.leader = place
  · subst leads
    have modest (live : line.live = true) : happening.Modest (· = line.client) :=
      moves.modest.mono fun id same => ⟨follower, line, followed, rfl, live, same.symm⟩
    obtain ⟨last, ⟨_, _, onward⟩, grown, there⟩ := carries.passes (coherent.nodes line.leader) modest
      moves.happened moves.tracks moves.goes_on moves.upholds.range
    have same : cluster.carry line.leader happening line =
        line.passes (cluster.nodes line.leader) (cluster.histories line.leader) happening := if_pos rfl
    refine ⟨last, ?_, ?_⟩
    · simpa [after, same] using there
    · simp only [after, Function.update_self, Function.update_of_ne (Ne.symm apart)]
      rw [same] at epoch read ⊢
      exact (reaches.onward onward grown).congr epoch read
  · have same : cluster.carry place happening line = line := if_neg leads
    rw [same]
    refine ⟨told, ?_, ?_⟩
    · simp only [after, Function.update_of_ne leads]
      exact carries.grows moves.tracks.advances.grows
    · by_cases own : follower = place
      · subst own
        simp only [after, Function.update_self, Function.update_of_ne leads]
        exact meets rfl base told reaches
      · simp only [after, Function.update_of_ne leads, Function.update_of_ne own]
        exact reaches

end Moves

/-! ### Steps -/

namespace Coherent

omit [DecidableEq Place] in
theorem single (apart : IdSupply.Apart supplies) (place : Place) (left right : Nat)
    (same : (supplies place).id left = (supplies place).id right) : left = right :=
  (apart place place left right same).2

omit [DecidableEq Place] in
/-- A follower that is not told anything keeps its line. -/
theorem rests (coherent : Coherent supplies annals cluster)
    (admits : (cluster.nodes place).Admits happening)
    (happened : (cluster.nodes place).next? happening = some later) {base : Option Chronicle}
    {told : Option (Told base)} {sent : Bytes}
    (meets : line.Meets (cluster.nodes place) (cluster.histories place) told sent) :
    line.Meets later (cluster.next place happening later) told sent := by
  refine meets.rests (Node.Clings.next (coherent.nodes place).orderly admits happened)
    fun follows recorded => ?_
  rw [Cluster.next, Chronicle.next_of_recorded recorded admits.loads, admits.silent follows]
  exact Chronicle.extend_nil _

omit [DecidableEq Place] in
/-- Something happens that is not told to a node by its leader. -/
theorem happens (coherent : Coherent supplies annals cluster) (apart : IdSupply.Apart supplies)
    (admits : (cluster.nodes place).Admits happening)
    (modest : happening.Modest (cluster.Serves place))
    (happened : (cluster.nodes place).next? happening = some later)
    (range : (cluster.next place happening later).InRange) :
    ∃ further, Moves supplies annals further cluster place happening later
      (cluster.next place happening later) := by
  obtain ⟨further, tracks, upholds⟩ := (coherent.nodes place).next (single apart place) admits
    happened range
  exact ⟨further, modest, happened, tracks, fun _ => rfl, upholds⟩

/-- All lines but one, if a follower has a new one. -/
theorem setLine (moves : Moves supplies annals further cluster place happening later whole)
    (coherent : Coherent supplies annals cluster) (apart : IdSupply.Apart supplies)
    (admits : place ≠ follower → (cluster.nodes place).Admits happening ∧
      whole = cluster.next place happening later)
    (linked : (cluster.after place happening later whole).Linked further follower line) :
    Coherent supplies further ((cluster.after place happening later whole).setLine follower line) where
  worded := moves.tracks.advances.worded coherent.worded
  nodes := moves.nodes coherent apart
  lines := by
    intro other followed there
    by_cases same : other = follower
    · subst same
      obtain rfl : line = followed := by simpa [Cluster.setLine] using there
      exact linked
    · simp only [Cluster.setLine, Function.update_of_ne same, after, Option.map_eq_some_iff] at there
      obtain ⟨before, there, rfl⟩ := there
      refine moves.linked coherent there ?_
      rintro rfl base told meets
      obtain ⟨admitted, rfl⟩ := admits same
      exact coherent.rests admitted moves.happened meets

end Coherent
end Cluster
end ReplicaStore
