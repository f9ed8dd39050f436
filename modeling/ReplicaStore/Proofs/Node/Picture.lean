import ReplicaStore.Proofs.Node.Sound

/-!
# What a snapshot holds

A snapshot is written of the primaries.  When it is begun, these hold all that clients see,
and so the snapshot can be loaded again by any node with as many databases, which then has
the same to be read.  All of this takes for granted that the sizes of keys and values, the
number of databases and the time can be written down in 64 bits.
-/

namespace ReplicaStore

namespace PartitionSet

variable {set : PartitionSet}

theorem unexpired_contents (set : PartitionSet) (now : Int) :
    set.contents.map (·.unexpired now) = set.live now := by
  rw [contents, List.map_map]
  rfl

theorem Sound.contents (sound : set.Sound) :
    ∀ view ∈ set.contents, ∀ (key : String) (entry : Entry), view[key]? = some entry →
      entry.Storable := by
  intro view member key entry found
  obtain ⟨partition, among, rfl⟩ := List.mem_map.mp member
  rw [Partition.getElem?_visible] at found
  exact (sound partition among).storable key entry found

theorem contents_freeze (set : PartitionSet) : set.freeze.contents = set.contents := by
  simp only [contents, freeze, List.map_map]
  apply List.map_congr_left
  intro partition _
  exact Partition.visible_congr rfl rfl

/-- Frozen from normal, the primaries hold all that clients see. -/
theorem views_freeze (sound : set.Sound) (normal : ∀ phase ∈ set.phases, phase = .normal) :
    set.freeze.views = set.contents := by
  simp only [views, freeze, contents, List.map_map]
  apply List.map_congr_left
  intro partition among
  have settled := (sound partition among).settled (normal _ (List.mem_map_of_mem among))
  exact (Partition.visible_of_shadow_empty settled).symm

/-- Stopped, unless a snapshot is being written, the primaries hold all that clients see. -/
theorem views_stop (sound : set.Sound)
    (phases : ∀ phase ∈ set.phases, phase = .normal ∨ phase = .moving) :
    set.stop.views = set.contents := by
  simp only [views, stop, contents, List.map_map]
  apply List.map_congr_left
  intro partition among
  dsimp only [Function.comp]
  rcases phases _ (List.mem_map_of_mem among) with normal | moving
  · have apart : partition.phase ≠ .moving := by simp [normal]
    have settled := (sound partition among).settled normal
    rw [if_neg apart, Partition.visible_of_shadow_empty settled]
    rfl
  · rw [if_pos moving, ← Partition.visible_mergeAll partition]
    exact (Partition.visible_of_shadow_empty (Partition.shadow_promoteAll_keys partition)).symm

end PartitionSet

namespace Node

variable {node other : Node}

/-- Everything about a node can be written down in 64 bits, the wall clock shows no negative
moment, and there is at least one database, as the settings have it. -/
structure Bounded (node : Node) : Prop where
  since : 0 ≤ node.clock.wall
  before : node.clock.wall ≤ Text.maxSigned64
  positive : 0 < node.partitions.count
  count : (node.partitions.count : Int) ≤ Text.maxSigned64
  fits : ∀ view ∈ node.partitions.live node.clock.wall, ∀ (key : String) (entry : Entry),
    view[key]? = some entry →
      (key.utf8ByteSize : Int) ≤ Text.maxSigned64 ∧ Snapshot.FitsDatum entry.datum

instance (node : Node) : Decidable node.Bounded :=
  decidable_of_iff
    (0 ≤ node.clock.wall ∧ node.clock.wall ≤ Text.maxSigned64 ∧ 0 < node.partitions.count ∧
      (node.partitions.count : Int) ≤ Text.maxSigned64 ∧
      ∀ view ∈ node.partitions.live node.clock.wall, ∀ pair ∈ view.toList,
        (pair.1.utf8ByteSize : Int) ≤ Text.maxSigned64 ∧ Snapshot.FitsDatum pair.2.datum) (by
    constructor
    · rintro ⟨since, before, positive, count, fits⟩
      refine ⟨since, before, positive, count, ?_⟩
      intro view member key entry found
      exact fits view member (key, entry) (Std.ExtTreeMap.mem_toList_iff_getElem?_eq_some.mpr found)
    · intro bounded
      refine ⟨bounded.since, bounded.before, bounded.positive, bounded.count, ?_⟩
      intro view member pair among
      exact bounded.fits view member pair.1 pair.2
        (Std.ExtTreeMap.mem_toList_iff_getElem?_eq_some.mp among))

/-- Only what can be read matters for the sizes. -/
theorem Bounded.congr (bounded : node.Bounded) (wall : other.clock.wall = node.clock.wall)
    (live : other.partitions.live node.clock.wall = node.partitions.live node.clock.wall) :
    other.Bounded where
  since := wall ▸ bounded.since
  before := wall ▸ bounded.before
  positive := by
    rw [← PartitionSet.count_live _ node.clock.wall, live, PartitionSet.count_live]
    exact bounded.positive
  count := by
    rw [← PartitionSet.count_live _ node.clock.wall, live, PartitionSet.count_live]
    exact bounded.count
  fits := by
    rw [wall, live]
    exact bounded.fits

/-- Everything that is to be written of a node can be written down in 64 bits: the wall clock shows
no negative moment, and no number and no length is greater. -/
structure Sized (node : Node) : Prop where
  since : 0 ≤ node.clock.wall
  before : node.clock.wall ≤ Text.maxSigned64
  count : (node.partitions.count : Int) ≤ Text.maxSigned64
  fits : ∀ view ∈ node.partitions.live node.clock.wall, ∀ (key : String) (entry : Entry),
    view[key]? = some entry →
      (key.utf8ByteSize : Int) ≤ Text.maxSigned64 ∧ Snapshot.FitsDatum entry.datum

theorem Bounded.sized (bounded : node.Bounded) : node.Sized :=
  ⟨bounded.since, bounded.before, bounded.count, bounded.fits⟩

/-- A snapshot, with its entries in any order, that can be loaded by whoever has at least as many
databases.  No command fails, and at the same moment the same can be read. -/
theorem Sized.loads (sized : node.Sized) (sound : node.Sound) {table : List Command}
    (restores : Command.Restores table) {orders : Snapshot.Orders}
    (of : orders.Of node.partitions.contents node.clock.wall) {base : Node}
    (wall : base.clock.wall = node.clock.wall)
    (room : node.partitions.count ≤ base.partitions.count) :
    ∃ commands partitions,
      Snapshot.commandsOf (Snapshot.imageIn orders node.partitions.contents node.clock.wall) =
        .ok commands ∧
      Command.loadFrom table commands { base with partitions := base.partitions.flush } =
        (0, { base with partitions }) ∧
      partitions.Sound ∧
      partitions.live node.clock.wall = node.partitions.live node.clock.wall ++
        List.replicate (base.partitions.count - node.partitions.count) ∅ := by
  have size : (node.partitions.contents.length : Int) ≤ Text.maxSigned64 := by
    rw [PartitionSet.count_contents]
    exact sized.count
  have read := Snapshot.commandsOf_imageIn of sized.since sized.before size (by
    intro view member key entry found unexpired
    have shown : view.unexpired node.clock.wall ∈ node.partitions.live node.clock.wall := by
      rw [← PartitionSet.unexpired_contents]
      exact List.mem_map_of_mem member
    obtain ⟨key, datum⟩ := sized.fits _ shown key entry (by
      rw [Keyspace.getElem?_unexpired, found]
      simp [Option.filter, unexpired])
    refine ⟨key, datum, ?_⟩
    intro moment expires
    have storable := PartitionSet.Sound.contents sound view member _ _ found
    refine ⟨?_, storable.expiry moment expires⟩
    have later : node.clock.wall < moment := by simpa [Entry.expired, expires] using unexpired
    exact Int.le_trans sized.since (Int.le_of_lt later))
  have since : 0 ≤ base.clock.wall := wall ▸ sized.since
  rw [← wall] at of
  obtain ⟨partitions, loaded, sound, live⟩ := Command.loadFrom_restored restores since of size
    (PartitionSet.Sound.contents sound) (by rw [PartitionSet.count_contents]; exact room)
  rw [wall, PartitionSet.unexpired_contents, PartitionSet.count_contents] at live
  exact ⟨_, partitions, read, loaded, sound, live⟩

/-- The snapshot of all that clients see. -/
def picture (node : Node) : Bytes :=
  Snapshot.image node.partitions.contents node.clock.wall

/-- Whoever has as many databases and loads the picture of a node at the same moment has
the same to be read, and nothing else about it changes. -/
theorem Sized.load_picture (sized : node.Sized) (sound : node.Sound)
    {table : List Command} (restores : Command.Restores table) {base : Node}
    (wall : base.clock.wall = node.clock.wall) (count : base.partitions.count = node.partitions.count) :
    ∃ commands partitions, Snapshot.commandsOf node.picture = .ok commands ∧
      (Command.loadFrom table commands { base with partitions := base.partitions.flush }).2 =
        { base with partitions } ∧
      partitions.Sound ∧
      partitions.live node.clock.wall = node.partitions.live node.clock.wall := by
  obtain ⟨commands, partitions, read, loaded, sound, live⟩ :=
    sized.loads sound restores (Snapshot.Orders.sorted_of _ _) wall (Nat.le_of_eq count.symm)
  rw [← Snapshot.image_eq_imageIn] at read
  rw [count, Nat.sub_self, List.replicate_zero, List.append_nil] at live
  exact ⟨commands, partitions, read, congrArg Prod.snd loaded, sound, live⟩

/-- What is written in the background shows all that clients see. -/
theorem writing_beginSnapshot {node begun : Node} (sound : node.Sound) (lifecycle : node.Lifecycle)
    (begins : node.beginSnapshot? = some begun) :
    begun.writing =
      some (node.storage.reports node.partitions.contents node.clock.wall) := by
  obtain ⟨normal, rfl⟩ := beginSnapshot?_inv begins
  rw [PartitionSet.views_freeze sound (lifecycle.normal normal)]

/-- What is saved at once shows all that clients see. -/
theorem save_picture (sound : node.Sound) (lifecycle : node.Lifecycle) {payload : Bytes}
    (saved : node.save.1 = .ok payload) : payload = node.picture := by
  obtain ⟨status, rfl⟩ := save_inv saved
  have phases : ∀ phase ∈ node.partitions.phases, phase = .normal ∨ phase = .moving := by
    rcases status with normal | moving
    · intro phase member
      exact .inl (lifecycle.normal normal phase member)
    · exact (lifecycle.moving moving).1
  rw [picture, PartitionSet.views_stop sound phases]

end Node
end ReplicaStore
