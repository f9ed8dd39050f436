import ReplicaStore.Proofs.Node.Passage
import ReplicaStore.Proofs.Stream.Attendance

/-!
# Whose history a node takes further

The identity of a node and its backlog change in a few ways only, as long as nothing comes
from its leader (`Node.Reforms`).  While a node goes on following the leader that it
follows, they do not change at all (`Node.Clings`).
-/

namespace ReplicaStore

open ReplicaStore.Stream (Coordinator)

/-- What happens is neither a command, nor the upkeep, nor something that the leader reports. -/
def Happening.isAside : Happening → Bool
  | .command .. | .upkeep | .link .. => false
  | _ => true

/-- A link is as far as it was, and has asked for the same. -/
structure Link.Role.Alike (role later : Role) : Prop where
  state : later.state = role.state
  leader : later.leader = role.leader
  epoch : later.epoch = role.epoch
  request : later.link.map (·.request) = role.link.map (·.request)

namespace Link.Role

variable {role between later : Role}

theorem Alike.refl (role : Role) : role.Alike role :=
  ⟨rfl, rfl, rfl, rfl⟩

theorem Alike.trans (first : role.Alike between) (second : between.Alike later) :
    role.Alike later where
  state := second.state.trans first.state
  leader := second.leader.trans first.leader
  epoch := second.epoch.trans first.epoch
  request := second.request.trans first.request

theorem alike_touch (role : Role) (now : Nat) : role.Alike (role.touch now) :=
  ⟨rfl, rfl, rfl, rfl⟩

theorem alike_send (role : Role) (bytes : Bytes) : role.Alike (role.send bytes) where
  state := rfl
  leader := rfl
  epoch := rfl
  request := by
    rw [send, Option.map_map]
    rfl

/-- A link that is given up leaves nothing behind. -/
theorem reconnect_dropped (role : Role) : role.epoch < role.reconnect.epoch ∧ role.reconnect.link = none := by
  simp only [reconnect]
  split <;> exact ⟨Nat.lt_succ_self _, rfl⟩

/-- The upkeep leaves a link alone, gives it up, or opens one with a request. -/
theorem maintain_cases (role : Role) (now : Nat) (request : SyncRequest) (timeout : Nat) :
    role.Alike (role.maintain now request timeout) ∨
      role.epoch < (role.maintain now request timeout).epoch ∧
        ∀ link, (role.maintain now request timeout).link = some link → link.request = request := by
  have dropped : role.epoch < role.reconnect.epoch ∧
      ∀ link, role.reconnect.link = some link → link.request = request := by
    obtain ⟨epoch, none⟩ := role.reconnect_dropped
    exact ⟨epoch, by simp [none]⟩
  simp only [maintain]
  split
  · exact .inl (.refl role)
  · simp only [openLink]
    split
    · exact .inl (.refl role)
    · refine .inr ⟨Nat.lt_of_lt_of_le (Nat.lt_succ_self _) (Nat.le_succ _), fun link opened => ?_⟩
      cases opened
      rfl
  · split
    · exact .inr dropped
    · exact .inl (alike_send ..)
  · split
    · exact .inr dropped
    · exact .inl (.refl role)

end Link.Role

namespace Node

variable {node between later : Node}

/-- The identity, the backlog and the link of a node are as they were. -/
structure Unmoved (node later : Node) : Prop where
  identity : later.coordinator.identity = node.coordinator.identity
  supply : later.coordinator.supply = node.coordinator.supply
  backlog : later.coordinator.backlog = node.coordinator.backlog
  role : node.role.Alike later.role

namespace Unmoved

theorem refl (node : Node) : node.Unmoved node :=
  ⟨rfl, rfl, rfl, .refl _⟩

theorem trans (first : node.Unmoved between) (second : between.Unmoved later) :
    node.Unmoved later where
  identity := second.identity.trans first.identity
  supply := second.supply.trans first.supply
  backlog := second.backlog.trans first.backlog
  role := first.role.trans second.role

theorem offset (unmoved : node.Unmoved later) : later.coordinator.offset = node.coordinator.offset := by
  rw [Coordinator.offset, unmoved.backlog, Coordinator.offset]

theorem following (unmoved : node.Unmoved later) : later.following = node.following := by
  rw [Node.following, Link.Role.following, unmoved.role.leader]
  rfl

/-- What changes neither the coordinator nor the role. -/
theorem of_same (coordinator : later.coordinator = node.coordinator) (role : later.role = node.role) :
    node.Unmoved later := by
  refine ⟨by rw [coordinator], by rw [coordinator], by rw [coordinator], ?_⟩
  rw [role]
  exact .refl _

end Unmoved

theorem unmoved_scheduleFullSync (node : Node) : node.Unmoved node.scheduleFullSync := by
  rcases node.scheduleFullSync_cases with ⟨_, same⟩ | ⟨_, _, same⟩ | ⟨begun, begins, same⟩ <;> rw [same]
  · exact .refl node
  · exact ⟨rfl, rfl, rfl, .refl _⟩
  · obtain ⟨_, rfl⟩ := beginSnapshot?_inv begins
    exact ⟨rfl, rfl, rfl, .refl _⟩

/-- How the identity and the backlog of a node change if nothing is added to its stream and
nothing comes from its leader. -/
inductive Reforms (node later : Node) : Prop
  | keeps (identity : later.coordinator.identity = node.coordinator.identity)
      (supply : later.coordinator.supply = node.coordinator.supply)
      (backlog : later.coordinator.backlog = node.coordinator.backlog)
      (leads : later.following = false → node.following = false)
  /-- The history goes on under a drawn id. -/
  | branches (identity : later.coordinator.identity =
        node.coordinator.identity.shift node.coordinator.supply.draw.1 node.coordinator.offset)
      (supply : later.coordinator.supply = node.coordinator.supply.draw.2)
      (backlog : later.coordinator.backlog = node.coordinator.backlog)
  /-- A stream begins, and with it a history. -/
  | begins (unrecorded : node.coordinator.backlog = none)
      (identity : later.coordinator.identity =
        node.coordinator.identity.adopt node.coordinator.supply.draw.1)
      (supply : later.coordinator.supply = node.coordinator.supply.draw.2)
      (recorded : later.coordinator.backlog.isSome = true)

/-- A stream that is recorded stays as it is. -/
theorem Reforms.backlog (reforms : node.Reforms later)
    (recorded : node.coordinator.backlog.isSome = true) :
    later.coordinator.backlog = node.coordinator.backlog := by
  cases reforms with
  | keeps _ _ backlog | branches _ _ backlog => exact backlog
  | begins unrecorded =>
      rw [unrecorded] at recorded
      cases recorded

theorem Unmoved.reforms (unmoved : node.Unmoved later) : node.Reforms later :=
  .keeps unmoved.identity unmoved.supply unmoved.backlog fun leads => unmoved.following ▸ leads

/-- The request that a link was opened with is what a follower would ask for now, as long as
the link is being established. -/
structure Pledged (node : Node) : Prop where
  asks : node.following = true → ∀ link, node.role.link = some link →
    node.role.connected = false → ∀ id, link.request.id = some id →
      node.coordinator.backlog.isSome = true ∧ id = node.coordinator.identity.current ∧
        link.request.offset = node.coordinator.offset

/-- While a node goes on following its leader, its identity and its stream stay as they are. -/
structure Clings (node later : Node) : Prop where
  epoch : node.role.epoch ≤ later.role.epoch
  same : later.role.epoch = node.role.epoch →
    later.role.connected = node.role.connected ∧ later.following = node.following
  rests : later.role.epoch = node.role.epoch → node.following = true →
    node.coordinator.backlog.isSome = true →
    later.coordinator.identity = node.coordinator.identity ∧
      later.coordinator.backlog = node.coordinator.backlog
  pledged : node.Pledged → later.Pledged

namespace Clings

theorem refl (node : Node) : node.Clings node :=
  ⟨Nat.le_refl _, fun _ => ⟨rfl, rfl⟩, fun _ _ _ => ⟨rfl, rfl⟩, fun pledged => pledged⟩

theorem trans (first : node.Clings between) (second : between.Clings later) : node.Clings later where
  epoch := Nat.le_trans first.epoch second.epoch
  same := by
    intro same
    have early : between.role.epoch = node.role.epoch :=
      Nat.le_antisymm (same ▸ second.epoch) first.epoch
    obtain ⟨connected, following⟩ := second.same (same.trans early.symm)
    exact ⟨connected.trans (first.same early).1, following.trans (first.same early).2⟩
  rests := by
    intro same follows recorded
    have early : between.role.epoch = node.role.epoch :=
      Nat.le_antisymm (same ▸ second.epoch) first.epoch
    obtain ⟨identity, backlog⟩ := first.rests early follows recorded
    obtain ⟨sameIdentity, sameBacklog⟩ := second.rests (same.trans early.symm)
      ((first.same early).2.trans follows) (by rw [backlog, recorded])
    exact ⟨sameIdentity.trans identity, sameBacklog.trans backlog⟩
  pledged := fun pledged => second.pledged (first.pledged pledged)

theorem of_unmoved (unmoved : node.Unmoved later) : node.Clings later where
  epoch := Nat.le_of_eq unmoved.role.epoch.symm
  same := fun _ => ⟨by rw [Link.Role.connected, unmoved.role.state, Link.Role.connected],
    unmoved.following⟩
  rests := fun _ _ _ => ⟨unmoved.identity, unmoved.backlog⟩
  pledged := by
    refine fun pledged => ⟨fun follows link opened apart id asked => ?_⟩
    obtain ⟨before, found, request⟩ : ∃ before, node.role.link = some before ∧
        before.request = link.request := by
      have request := unmoved.role.request
      rw [opened] at request
      exact Option.map_eq_some_iff.mp request.symm
    rw [← request] at asked ⊢
    rw [unmoved.backlog, unmoved.identity, unmoved.offset]
    refine pledged.asks (unmoved.following ▸ follows) before found ?_ id asked
    rw [← apart, Link.Role.connected, Link.Role.connected, unmoved.role.state]

/-- A link that is dropped leaves nothing behind. -/
theorem of_dropped (epoch : node.role.epoch < later.role.epoch) (dropped : later.role.link = none) :
    node.Clings later where
  epoch := Nat.le_of_lt epoch
  same := fun same => absurd same (Nat.ne_of_gt epoch)
  rests := fun same => absurd same (Nat.ne_of_gt epoch)
  pledged := by
    refine fun _ => ⟨fun _ link opened => ?_⟩
    rw [dropped] at opened
    cases opened

/-- Where no stream is recorded, the link has not asked to go on with one. -/
theorem of_unrecorded (unrecorded : node.coordinator.backlog = none) (role : later.role = node.role) :
    node.Clings later where
  epoch := Nat.le_of_eq (by rw [role])
  same := fun _ => ⟨by rw [role], by rw [following, role]; rfl⟩
  rests := by
    intro _ _ recorded
    rw [unrecorded] at recorded
    cases recorded
  pledged := by
    refine fun pledged => ⟨fun follows link opened apart id asked => ?_⟩
    rw [following, role] at follows
    rw [role] at opened apart
    have recorded := (pledged.asks follows link opened apart id asked).1
    rw [unrecorded] at recorded
    cases recorded

end Clings

/-! ### Deeds -/

variable {audience : ClientId → Prop} {source : Source} {deed : Deed}

theorem reforms_promote (node : Node) : node.Reforms (Command.promote node) := by
  simp only [Command.promote]
  split
  · refine .branches ?_ ?_ ?_ <;>
      simp only [dropReplicas, coordinate, Coordinator.dropAll, Coordinator.dropReplicas,
        Coordinator.forgetStreamDatabase, Coordinator.branchIdentity]
  · exact (Unmoved.refl node).reforms

theorem clings_promote (node : Node) : node.Clings (Command.promote node) := by
  simp only [Command.promote]
  split
  · refine .of_dropped ?_ rfl
    exact Nat.lt_succ_self _
  · exact .refl node

theorem clings_follow (host : String) (port : Nat) (node : Node) :
    node.Clings (Command.follow host port node) :=
  .of_dropped (Nat.lt_succ_self _) rfl

/-- Taking up a replica keeps the stream, or begins one. -/
theorem synchronise_standing (id : ClientId) (history : String) (offset : Int) (node : Node) :
    node.coordinator.backlog.isSome = true ∧
        node.Unmoved (Command.synchronise id history offset node) ∨
      node.coordinator.backlog = none ∧
        (Command.synchronise id history offset node).role = node.role ∧
        (Command.synchronise id history offset node).coordinator.identity =
          node.coordinator.identity.adopt node.coordinator.supply.draw.1 ∧
        (Command.synchronise id history offset node).coordinator.supply =
          node.coordinator.supply.draw.2 ∧
        (Command.synchronise id history offset node).coordinator.backlog.isSome = true := by
  rcases synchronise_cases id history offset node with ⟨tail, missed, same⟩ | ⟨_, same⟩ <;> rw [same]
  · obtain ⟨backlog, recorded, _⟩ := Coordinator.missed?_inv missed
    exact .inl ⟨Option.isSome_iff_exists.mpr ⟨backlog, recorded⟩, rfl, rfl, rfl, .refl _⟩
  · cases recorded : node.coordinator.backlog with
    | some backlog =>
        have there : (node.coordinator.remove id).backlog = some backlog := recorded
        refine .inl ⟨rfl, Unmoved.trans ?_ (unmoved_scheduleFullSync _)⟩
        simp only [Coordinator.beginFullResync, there]
        exact ⟨rfl, rfl, rfl, .refl _⟩
    | none =>
        have there : (node.coordinator.remove id).backlog = none := recorded
        have scheduled := unmoved_scheduleFullSync { node with
          coordinator := (node.coordinator.remove id).beginFullResync node.clients
            node.clock.elapsed id offset }
        refine .inr ⟨rfl, Command.role_scheduleFullSync _, ?_, ?_, ?_⟩
        · rw [scheduled.identity]
          simp only [Coordinator.beginFullResync, recorded, Coordinator.register,
            Coordinator.rotateIdentity, Coordinator.remove]
        · rw [scheduled.supply]
          simp only [Coordinator.beginFullResync, recorded, Coordinator.register,
            Coordinator.rotateIdentity, Coordinator.remove]
        · rw [scheduled.backlog]
          simp only [Coordinator.beginFullResync, there, Coordinator.register]
          rfl

/-- Most deeds leave the identity and the backlog as they are. -/
theorem unmoved_deed (spares : deed.Spares audience source)
    (other : deed ≠ .promote ∧ (∀ host port, deed ≠ .follow host port) ∧
      ∀ id history offset, deed ≠ .synchronise id history offset) (node : Node) :
    node.Unmoved (deed.apply node) := by
  cases deed with
  | promote => exact absurd rfl other.1
  | follow host port => exact absurd rfl (other.2.1 host port)
  | synchronise id history offset => exact absurd rfl (other.2.2 id history offset)
  | feed => exact absurd spares id
  | save =>
      rcases node.save_cases with ⟨_, same⟩ | ⟨_, _, _, same⟩ <;> rw [Deed.apply, same]
      · exact .refl node
      · exact .of_same rfl rfl
  | beginSnapshot =>
      simp only [Deed.apply]
      cases begun : node.beginSnapshot? with
      | none => exact .refl node
      | some later =>
          obtain ⟨_, rfl⟩ := beginSnapshot?_inv begun
          exact ⟨rfl, rfl, rfl, .refl _⟩
  | acknowledge => exact ⟨rfl, rfl, rfl, .refl _⟩
  | answerLeader => exact ⟨rfl, rfl, rfl, Link.Role.alike_send ..⟩
  | edit | flush | publish | subscription | listeningPort | close => exact .of_same rfl rfl

theorem reforms_deed (spares : deed.Spares audience source) (node : Node) :
    node.Reforms (deed.apply node) := by
  cases deed with
  | promote => exact reforms_promote node
  | follow host port => exact .keeps rfl rfl rfl fun leads => by cases leads
  | synchronise id history offset =>
      rcases synchronise_standing id history offset node with ⟨_, unmoved⟩ |
        ⟨unrecorded, _, identity, supply, recorded⟩
      · exact unmoved.reforms
      · exact .begins unrecorded identity supply recorded
  | _ => exact (unmoved_deed spares (by simp) node).reforms

theorem clings_deed (spares : deed.Spares audience source) (node : Node) :
    node.Clings (deed.apply node) := by
  cases deed with
  | promote => exact clings_promote node
  | follow host port => exact clings_follow host port node
  | synchronise id history offset =>
      rcases synchronise_standing id history offset node with ⟨_, unmoved⟩ |
        ⟨unrecorded, role, _⟩
      · exact .of_unmoved unmoved
      · exact .of_unrecorded unrecorded role
  | _ => exact .of_unmoved (unmoved_deed spares (by simp) node)

theorem Becomes.clings (becomes : node.Becomes (Deed.Spares audience source) later) :
    node.Clings later :=
  becomes.keeps (fun _ between spares clings => clings.trans (clings_deed spares between)) (.refl node)

/-! ### Asides -/

theorem supply_finish (node : Node) (now : Nat) (payload : Bytes) :
    (node.coordinator.finishFullSync node.clients now payload).1.supply = node.coordinator.supply := by
  have shipped (tail : Bytes) (ids : List ClientId) (desk : Coordinator × Clients) :
      (ids.foldl (Coordinator.ship now payload tail) desk).1.supply = desk.1.supply := by
    induction ids generalizing desk with
    | nil => rfl
    | cons first ids ih => exact (ih _).trans rfl
  simp only [Coordinator.finishFullSync]
  split
  · rfl
  · split
    · rfl
    · split
      · rfl
      · exact shipped _ _ _

theorem unmoved_takeReport (node : Node) (report : Report) : node.Unmoved (node.takeReport report) := by
  cases report with
  | written index =>
      obtain ⟨_, _, same⟩ := node.partitionWritten_eq index
      rw [takeReport, same]
      exact .of_same rfl rfl
  | aborted index => exact .of_same rfl rfl
  | finished result =>
      cases result with
      | ok payload =>
          have steady := (node.coordinator.finishFullSync_steady node.clients node.clock.elapsed
            payload).1
          exact ⟨steady.identity, supply_finish node _ payload, steady.backlog, .refl _⟩
      | error error => exact ⟨rfl, rfl, rfl, .refl _⟩

/-- What is neither a command, nor the upkeep, nor comes of the leader changes nothing. -/
theorem unmoved_next {happening : Happening} (happened : node.next? happening = some later)
    (other : happening.isAside = true) : node.Unmoved later := by
  cases happening with
  | command | upkeep | link => cases other
  | disconnected id =>
      cases happened
      exact ⟨rfl, rfl, rfl, .refl _⟩
  | task position picked =>
      simp only [next?, Option.map_eq_some_iff] at happened
      obtain ⟨task, _, rfl⟩ := happened
      have begun : node.Unmoved { node with tasks := node.tasks.eraseIdx position } :=
        .of_same rfl rfl
      cases task with
      | beginSnapshot =>
          simp only [Task.event, handle]
          split
          · exact begun.trans (unmoved_scheduleFullSync _)
          · exact begun
      | drain index =>
          obtain ⟨_, _, same⟩ := drain_eq { node with tasks := node.tasks.eraseIdx position } index picked
          rw [Task.event, handle, same]
          exact .of_same rfl rfl
  | report =>
      obtain ⟨report, reports, writing, storage, _, rfl, _⟩ := next?_report happened
      exact @Unmoved.trans node { node with writing, storage } _ (.of_same rfl rfl)
        (unmoved_takeReport _ report)
  | deliverToLeader =>
      cases happened
      refine ⟨rfl, rfl, rfl, rfl, rfl, rfl, ?_⟩
      cases node.role.link <;> rfl
  | connected | advance | setWall | setStorage | refuse | hangUp | deliver =>
      cases happened
      exact .of_same rfl rfl

end Node
end ReplicaStore
