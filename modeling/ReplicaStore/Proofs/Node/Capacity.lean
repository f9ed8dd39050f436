import ReplicaStore.Proofs.Node.Chronicle
import ReplicaStore.Proofs.Settings.Amounts
import ReplicaStore.Proofs.Stream.Waiting

/-!
# How large the backlog is

The size of the backlog is set before a node is started, and whatever backlog the node has at any
time has this capacity (`Node.capacity_run`).  It is therefore the amount of memory that was
written, neither more nor less (`Node.loaded_capacity_exact`).
-/

namespace ReplicaStore

/-! ### Backlogs -/

namespace Stream

/-- Whatever backlog a coordinator has, or is yet to create, is of a given size. -/
structure OfSize (size : Nat) (coordinator : Coordinator) : Prop where
  planned : coordinator.backlogSize = size
  capacity : ∀ backlog, coordinator.backlog = some backlog → backlog.capacity = max 1 size

namespace OfSize

variable {size : Nat} {coordinator later : Coordinator}

theorem new (supply : IdSupply) (size now : Nat) : OfSize size (Coordinator.new supply size now) where
  planned := rfl
  capacity := by
    rintro _ ⟨⟩

theorem of_same (ofSize : OfSize size coordinator)
    (planned : later.backlogSize = coordinator.backlogSize)
    (backlog : later.backlog = coordinator.backlog) : OfSize size later where
  planned := planned.trans ofSize.planned
  capacity := by
    rw [backlog]
    exact ofSize.capacity

/-- A backlog of that size takes the place of the one that was there, or of none. -/
theorem of_backlog {backlog : Backlog} (planned : later.backlogSize = size)
    (recorded : later.backlog = some backlog) (capacity : backlog.capacity = max 1 size) :
    OfSize size later where
  planned := planned
  capacity := by
    intro other found
    rw [recorded] at found
    cases found
    exact capacity

theorem backlogOrNew (ofSize : OfSize size coordinator) :
    coordinator.backlogOrNew.capacity = max 1 size := by
  rw [Coordinator.backlogOrNew]
  cases recorded : coordinator.backlog with
  | none => rw [Option.getD_none, ofSize.planned]; rfl
  | some backlog => exact ofSize.capacity backlog recorded

theorem dropReplicas (ofSize : OfSize size coordinator) (clients : Clients) (ids : List ClientId) :
    OfSize size (coordinator.dropReplicas clients ids).1 := ofSize.of_same rfl rfl

theorem forgetStreamDatabase (ofSize : OfSize size coordinator) :
    OfSize size coordinator.forgetStreamDatabase := ofSize.of_same rfl rfl

theorem rotateIdentity (ofSize : OfSize size coordinator) : OfSize size coordinator.rotateIdentity := by
  apply ofSize.of_same <;> simp only [Coordinator.rotateIdentity]

theorem branchIdentity (ofSize : OfSize size coordinator) : OfSize size coordinator.branchIdentity := by
  apply ofSize.of_same <;> simp only [Coordinator.branchIdentity]

theorem finishFullSync (ofSize : OfSize size coordinator) (clients : Clients) (now : Nat)
    (payload : Bytes) : OfSize size (coordinator.finishFullSync clients now payload).1 := by
  have shipped : ∀ (tail : Bytes) (ids : List ClientId) (state : Coordinator × Clients),
      OfSize size state.1 → OfSize size (ids.foldl (Coordinator.ship now payload tail) state).1 := by
    intro tail ids
    induction ids with
    | nil => exact fun _ ofSize => ofSize
    | cons id ids ih => exact fun state ofSize => ih _ (ofSize.of_same rfl rfl)
  simp only [Coordinator.finishFullSync]
  split
  · exact ofSize
  · split
    · exact ofSize.dropReplicas ..
    · split
      · exact (ofSize.dropReplicas ..).forgetStreamDatabase
      · exact (shipped _ _ _ ofSize).forgetStreamDatabase

/-- No move makes a backlog of another size. -/
theorem apply {desk : Desk} (ofSize : OfSize size desk.1) (move : Move) :
    OfSize size (move.apply desk).1 := by
  cases move with
  | feed bytes database =>
      simp only [Move.apply]
      cases recorded : desk.1.backlog with
      | none => exact ofSize
      | some backlog =>
          refine of_backlog ofSize.planned rfl ?_
          rw [(backlog.write_frame bytes).2]
          exact ofSize.capacity backlog recorded
  | resume now id history offset =>
      simp only [Move.apply, Coordinator.partialResync?]
      cases desk.1.missed? history offset with
      | none => exact ofSize
      | some tail => exact ofSize.of_same rfl rfl
  | create offset =>
      have planned := ofSize.rotateIdentity.planned
      constructor
      · simpa only [Move.apply] using planned
      · rintro _ ⟨⟩
        rw [← ofSize.planned]
        rfl
  | finish now payload => exact ofSize.finishFullSync desk.2 now payload
  | expire now upkeep =>
      simp only [Move.apply, Coordinator.expireBacklog]
      split
      · split
        · have idle : OfSize size
              { desk.1 with idleSince := some (desk.1.idleSince.getD now) } := ofSize.of_same rfl rfl
          exact ⟨idle.rotateIdentity.planned, by rintro _ ⟨⟩⟩
        · exact ofSize.of_same rfl rfl
      · exact ofSize.of_same rfl rfl
  | activate => exact of_backlog ofSize.planned rfl ofSize.backlogOrNew
  | renew history offset => exact of_backlog ofSize.planned rfl ofSize.backlogOrNew
  | greet | leave | hangUp | adjust | queue | comfort => exact ofSize
  | note | strike | pinged | enlist | begun | await => exact ofSize.of_same rfl rfl
  | fail | drop => exact ofSize.dropReplicas ..
  | forget => exact ofSize.forgetStreamDatabase
  | branch => exact ofSize.branchIdentity.dropReplicas ..
  | shift history =>
      have shifted : OfSize size (desk.1.shiftIdentity history desk.1.offset) := ofSize.of_same rfl rfl
      exact shifted.dropReplicas ..

theorem applyAll {desk : Desk} (ofSize : OfSize size desk.1) (moves : List Move) :
    OfSize size (Move.applyAll moves desk).1 := by
  induction moves generalizing desk with
  | nil => exact ofSize
  | cons move moves ih => exact ih (ofSize.apply move)

end OfSize
end Stream

namespace Node

open ReplicaStore.Stream (Move OfSize)

variable {node later : Node} {size : Nat} {happening : Happening}

theorem ofSize_next (ofSize : OfSize size node.coordinator) (orderly : node.Orderly)
    (happened : node.next? happening = some later) : OfSize size later.coordinator := by
  by_cases delivers : happening = .deliver
  · subst delivers
    cases happened
    exact ofSize
  · have moved : ∃ moves, later.desk = Move.applyAll moves node.desk := by
      cases orderly_passes orderly delivers happened with
      | flows _ moves _ _ reached => exact ⟨moves, reached⟩
      | opens _ _ _ becomes =>
          obtain ⟨moves, _, reached⟩ := becomes
          exact ⟨moves, reached⟩
      | loads _ _ reached => exact ⟨_, reached⟩
    obtain ⟨moves, reached⟩ := moved
    have coordinator : later.coordinator = (Move.applyAll moves node.desk).1 :=
      congrArg Prod.fst reached
    rw [coordinator]
    exact OfSize.applyAll ofSize moves

/-- Whatever backlog a node has at any time after it was started, its capacity is the size that
was set, or one if that is zero. -/
theorem capacity_run {settings : Settings} {supply : Stream.IdSupply} {clock : Clock}
    {found : Except Snapshot.SnapshotError (Option Bytes)} {server : Server}
    (started : Server.start settings supply clock found = .ok server) (port : Nat)
    (happenings : List Happening) {backlog : Stream.Backlog}
    (recorded : ({ server.node with port }.run happenings).coordinator.backlog = some backlog) :
    backlog.capacity = max 1 settings.backlogSize := by
  have start : OfSize settings.backlogSize { server.node with port }.coordinator := by
    obtain ⟨partitions, storage, role, _, same⟩ := start_new started
    rw [same]
    exact .new supply settings.backlogSize clock.elapsed
  have reachable : Reachable { server.node with port } := .start port started
  generalize { server.node with port } = node at start reachable recorded
  have ofSize : OfSize settings.backlogSize (node.run happenings).coordinator := by
    clear recorded
    induction happenings generalizing node with
    | nil => exact start
    | cons happening more ih =>
        have next : OfSize settings.backlogSize
            ((node.next? happening).getD node).coordinator := by
          cases happened : node.next? happening with
          | none => exact start
          | some later => exact ofSize_next start reachable.orderly happened
        have reached : Reachable ((node.next? happening).getD node) := reachable.run [happening]
        exact ih _ next reached
  exact ofSize.capacity backlog recorded

/-- Whatever settings are loaded, their size of the backlog is exactly the amount of memory that is
written last, in the file or on the command line, or a default if none is written.  All backlogs
that a node with these settings ever has are of this capacity; only a size of zero gives a ring of
one byte. -/
theorem loaded_capacity_exact {readFile : String → Option Bytes} {arguments : List String}
    {settings : Settings} (loaded : Settings.load readFile arguments = .ok settings) :
    (∃ line, Settings.WholeLine readFile arguments line ∧
      Settings.WritesSize line settings.backlogSize) ∧
    ∀ (supply : Stream.IdSupply) (clock : Clock)
      (found : Except Snapshot.SnapshotError (Option Bytes)) (server : Server),
      Server.start settings supply clock found = .ok server →
      ∀ (port : Nat) (happenings : List Happening) (backlog : Stream.Backlog),
        ({ server.node with port }.run happenings).coordinator.backlog = some backlog →
        backlog.capacity = max 1 settings.backlogSize :=
  ⟨Settings.load_backlogSize loaded, fun _ _ _ _ started port happenings _ recorded =>
    capacity_run started port happenings recorded⟩

/-- Two mebibytes are written in a file, and a replica that asks for the stream has a backlog
made. -/
theorem loaded_capacity_exact_file :
    let readFile : String → Option Bytes := fun _ => some (Bytes.ofText "Repl-Backlog-Size 2MB\n")
    let settings : Settings := { file := some "server.conf", backlogSize := 2 * 1024 ^ 2 }
    let asked := { Node.new settings {} { wall := 1000 } with port := 7000 }.run
      [.connected 1 "127.0.0.1:40001", .runs 1 ["PSYNC", "?", "-1"]]
    Settings.load readFile ["server.conf"] = .ok settings ∧
      (∃ line, Settings.WholeLine readFile ["server.conf"] line ∧
        Settings.WritesSize line (2 * 1024 ^ 2)) ∧
      ∃ backlog, asked.coordinator.backlog = some backlog ∧ backlog.capacity = 2 * 1024 ^ 2 := by
  intro readFile settings asked
  have loaded : Settings.load readFile ["server.conf"] = .ok settings := by decide +kernel
  have recorded : asked.coordinator.backlog.isSome = true := by decide +kernel
  have positive : max 1 settings.backlogSize = 2 * 1024 ^ 2 := Nat.max_eq_right (by decide)
  obtain ⟨backlog, found⟩ := Option.isSome_iff_exists.mp recorded
  obtain ⟨written, holds⟩ := loaded_capacity_exact loaded
  have capacity : backlog.capacity = max 1 settings.backlogSize :=
    holds {} { wall := 1000 } (.ok none) { node := Node.new settings {} { wall := 1000 } } rfl 7000 _
      backlog found
  exact ⟨loaded, written, backlog, found, capacity.trans positive⟩

end Node
end ReplicaStore
