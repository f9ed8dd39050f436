import Mathlib.Data.List.Forall2
import ReplicaStore.Partition.Tables
import ReplicaStore.Proofs.Partition.Freezing

/-!
# What lies in the tables

A partition determines its tables (`Partition.tables`): each entry is taken apart into a value and
an expiry.  Tables that come about in this way cannot hold an expiry without its value or one of a
tombstone.  The operations on tables are those on partitions (`Partition.perform_tables`), so no
others ever come about, and what is known of partitions is known of tables.  To a client there is no
difference either (`Tables.answers_alike`).
-/

namespace ReplicaStore

/-! ## One table -/

namespace Table

variable {α β : Type} {value : β → α} {expiry : β → Option Int} {map : Std.ExtTreeMap String β}
  {key other : String}

theorem ext {left right : Table α} (values : ∀ key : String, left.values[key]? = right.values[key]?)
    (expiries : ∀ key : String, left.expiries[key]? = right.expiries[key]?) : left = right := by
  obtain ⟨leftValues, leftExpiries⟩ := left
  obtain ⟨rightValues, rightExpiries⟩ := right
  congr 1
  · exact Std.ExtTreeMap.ext_getElem? values
  · exact Std.ExtTreeMap.ext_getElem? expiries

/-- The table of entries that hold a value and perhaps an expiry. -/
def ofMap (value : β → α) (expiry : β → Option Int) (map : Std.ExtTreeMap String β) : Table α where
  values := map.map fun _ entry => value entry
  expiries := map.filterMap fun _ entry => expiry entry

@[simp] theorem getElem?_values_ofMap :
    (ofMap value expiry map).values[key]? = map[key]?.map value := by
  simp [ofMap]

@[simp] theorem getElem?_expiries_ofMap :
    (ofMap value expiry map).expiries[key]? = map[key]?.bind expiry := by
  simp [ofMap]

@[simp] theorem mem_values_ofMap : key ∈ (ofMap value expiry map).values ↔ key ∈ map := by
  simp [ofMap]

/-- No expiry is without its value. -/
theorem mem_values_of_mem_expiries (timed : key ∈ (ofMap value expiry map).expiries) :
    key ∈ (ofMap value expiry map).values :=
  mem_values_ofMap.mpr (Std.ExtTreeMap.mem_of_mem_filterMap timed)

theorem getElem?_values_insert (table : Table α) (key other : String) (value : α)
    (expiry : Option Int) : (table.insert key value expiry).values[other]? =
      if key = other then some value else table.values[other]? := by
  simp [insert, Std.ExtTreeMap.getElem?_insert]

theorem getElem?_expiries_insert (table : Table α) (key other : String) (value : α)
    (expiry : Option Int) : (table.insert key value expiry).expiries[other]? =
      if key = other then expiry else table.expiries[other]? := by
  cases expiry <;> simp [insert, Std.ExtTreeMap.getElem?_insert, Std.ExtTreeMap.getElem?_erase]

theorem getElem?_values_replace (table : Table α) (key other : String) (value : α) :
    (table.replace key value).values[other]? =
      if key = other then some value else table.values[other]? := by
  simp [replace, Std.ExtTreeMap.getElem?_insert]

/-- A value that has just been stored leaves no trace when it is replaced. -/
theorem replace_insert (table : Table α) (key : String) (first second : α) (expiry : Option Int) :
    (table.insert key first expiry).replace key second = table.insert key second expiry := by
  apply ext
  · intro other
    rw [getElem?_values_replace, getElem?_values_insert, getElem?_values_insert]
    split <;> rfl
  · intro other
    change (table.insert key first expiry).expiries[other]? = _
    rw [getElem?_expiries_insert, getElem?_expiries_insert]

theorem ofMap_insert (key : String) (entry : β) :
    ofMap value expiry (map.insert key entry) =
      (ofMap value expiry map).insert key (value entry) (expiry entry) := by
  apply ext
  · intro other
    rw [getElem?_values_ofMap, getElem?_values_insert, getElem?_values_ofMap,
      Std.ExtTreeMap.getElem?_insert]
    by_cases same : key = other <;> simp [same]
  · intro other
    rw [getElem?_expiries_ofMap, getElem?_expiries_insert, getElem?_expiries_ofMap,
      Std.ExtTreeMap.getElem?_insert]
    by_cases same : key = other <;> simp [same]

theorem ofMap_erase (key : String) :
    ofMap value expiry (map.erase key) = (ofMap value expiry map).erase key := by
  unfold erase
  split
  · apply ext
    · intro other
      simp only [getElem?_values_ofMap, Std.ExtTreeMap.getElem?_erase]
      split <;> rfl
    · intro other
      simp only [getElem?_expiries_ofMap, Std.ExtTreeMap.getElem?_erase]
      split <;> rfl
  · next absent =>
      rw [mem_values_ofMap] at absent
      congr 1
      apply Std.ExtTreeMap.ext_getElem?
      intro other
      rw [Std.ExtTreeMap.getElem?_erase]
      split
      · next same =>
          rw [Std.compare_eq_iff_eq] at same
          rw [← same, Std.ExtTreeMap.getElem?_eq_none absent]
      · rfl

/-- An entry with the expiry of the one whose place it takes. -/
theorem ofMap_replace {before : β} (found : map[key]? = some before) (after : β)
    (same : expiry after = expiry before) :
    ofMap value expiry (map.insert key after) =
      (ofMap value expiry map).replace key (value after) := by
  apply ext
  · intro other
    rw [getElem?_values_ofMap, getElem?_values_replace, getElem?_values_ofMap,
      Std.ExtTreeMap.getElem?_insert]
    by_cases here : key = other <;> simp [here]
  · intro other
    change _ = (ofMap value expiry map).expiries[other]?
    rw [getElem?_expiries_ofMap, getElem?_expiries_ofMap, Std.ExtTreeMap.getElem?_insert]
    by_cases here : key = other
    · subst here
      simp [found, same]
    · simp [here]

end Table

/-! ## The tables of a partition -/

/-- What the shadow's table of values holds for a slot. -/
def Slot.mark : Slot → Mark
  | present entry => .value entry.datum
  | tombstone => .tombstone

/-- What the shadow's table of expiries holds for a slot. -/
def Slot.expiry : Slot → Option Int
  | present entry => entry.expiry
  | tombstone => none

@[simp] theorem Slot.value?_mark (slot : Slot) :
    slot.mark.value? = slot.entry?.map (·.datum) := by
  cases slot <;> rfl

theorem Slot.mark_eq_tombstone {slot : Slot} (hidden : slot.mark = .tombstone) :
    slot = .tombstone := by
  cases slot with
  | present entry => cases hidden
  | tombstone => rfl

def Keyspace.table (keyspace : Keyspace) : Table Datum :=
  .ofMap (·.datum) (·.expiry) keyspace

def Shadow.table (shadow : Shadow) : Table Mark :=
  .ofMap Slot.mark Slot.expiry shadow

namespace Partition

/-- How a partition is laid out. -/
def tables (partition : Partition) : Tables where
  primary := partition.primary.table
  shadow := partition.shadow.table
  phase := partition.phase
  drift := partition.drift

variable {partition : Partition} {key : String}

section Tables

variable (partition : Partition) (key : String)

@[simp] theorem phase_tables : partition.tables.phase = partition.phase := rfl

@[simp] theorem drift_tables : partition.tables.drift = partition.drift := rfl

@[simp] theorem primary_values_tables :
    partition.tables.primary.values[key]? = partition.primary[key]?.map (·.datum) :=
  Table.getElem?_values_ofMap

@[simp] theorem primary_expiries_tables :
    partition.tables.primary.expiries[key]? = partition.primary[key]?.bind (·.expiry) :=
  Table.getElem?_expiries_ofMap

@[simp] theorem mem_primary_tables :
    key ∈ partition.tables.primary.values ↔ key ∈ partition.primary :=
  Table.mem_values_ofMap

@[simp] theorem shadow_values_tables :
    partition.tables.shadow.values[key]? = partition.shadow[key]?.map Slot.mark :=
  Table.getElem?_values_ofMap

@[simp] theorem shadow_expiries_tables :
    partition.tables.shadow.expiries[key]? = partition.shadow[key]?.bind Slot.expiry :=
  Table.getElem?_expiries_ofMap

@[simp] theorem mem_shadow_tables :
    key ∈ partition.tables.shadow.values ↔ key ∈ partition.shadow :=
  Table.mem_values_ofMap

/-! ### Looking up -/

theorem lookup_tables : partition.tables.lookup key = (partition.lookup key).map (·.datum) := by
  simp only [Tables.lookup, shadow_values_tables, primary_values_tables, lookup]
  cases partition.shadow[key]? with
  | none => rfl
  | some slot => exact slot.value?_mark

theorem expiry_tables : partition.tables.expiry key = partition.expiry key := by
  simp only [Tables.expiry, shadow_values_tables, shadow_expiries_tables,
    primary_expiries_tables, expiry, lookup]
  cases partition.shadow[key]? with
  | none => rfl
  | some slot => cases slot <;> rfl

theorem contribution_tables :
    partition.tables.contribution key = partition.contribution key := by
  simp only [Tables.contribution, shadow_values_tables, mem_primary_tables, contribution]
  cases partition.shadow[key]? with
  | none => rfl
  | some slot => cases slot <;> rfl

theorem size_tables : partition.tables.size = partition.size := by
  have stored : partition.tables.primary.values.size = partition.primary.size :=
    Std.ExtTreeMap.size_map
  cases phase : partition.phase <;>
    simp only [Tables.size, size, phase_tables, drift_tables, stored, phase]

theorem expired_tables (now : Int) : partition.tables.expired key now = partition.expired key now := by
  simp only [Tables.expired, lookup_tables, expiry_tables, expired, expiry, Entry.expired]
  cases partition.lookup key <;> rfl

/-! ### Merging and storing -/

theorem applyMark_table (keyspace : Keyspace) (slot : Slot) :
    Tables.applyMark keyspace.table key slot.expiry slot.mark =
      (applySlot keyspace key slot).table := by
  cases slot with
  | present entry => exact (Table.ofMap_insert key entry).symm
  | tombstone => exact (Table.ofMap_erase key).symm

theorem promote_tables : partition.tables.promote key = (partition.promote key).tables := by
  simp only [promote, Tables.promote, shadow_values_tables, shadow_expiries_tables,
    contribution_tables]
  cases partition.shadow[key]? with
  | none => rfl
  | some slot =>
      simp only [tables, Option.map_some, Option.bind_some, applyMark_table]
      congr 1
      exact (Table.ofMap_erase key).symm

theorem promoteAll_tables (keys : List String) :
    partition.tables.promoteAll keys = (partition.promoteAll keys).tables := by
  unfold promoteAll Tables.promoteAll
  induction keys generalizing partition with
  | nil => rfl
  | cons key keys ih => rw [List.foldl_cons, promote_tables, ih, List.foldl_cons]

/-- The count of visible keys is kept right in the same way. -/
theorem setShadow_tables (slot : Option Slot) :
    partition.tables.setShadow key (partition.setSlot key slot).shadow.table =
      (partition.setSlot key slot).tables := by
  have changed := contribution_tables
    { partition with shadow := (partition.setSlot key slot).shadow } key
  have before := contribution_tables partition key
  simp only [tables] at changed before
  simp only [Tables.setShadow, tables, changed, before]
  rfl

theorem setShadow_insert_tables (slot : Slot) :
    partition.tables.setShadow key
        (partition.tables.shadow.insert key slot.mark slot.expiry) =
      (partition.setSlot key (some slot)).tables := by
  rw [← setShadow_tables]
  exact congrArg _ (Table.ofMap_insert key slot).symm

theorem setShadow_erase_tables :
    partition.tables.setShadow key (partition.tables.shadow.erase key) =
      (partition.setSlot key none).tables := by
  rw [← setShadow_tables]
  exact congrArg _ (Table.ofMap_erase key).symm

theorem put_tables (entry : Entry) :
    partition.tables.put key entry.datum entry.expiry = (partition.put key entry).tables := by
  simp only [put, Tables.put, phase_tables]
  cases partition.phase with
  | normal => simp only [tables, Keyspace.table, Table.ofMap_insert]
  | frozen | stopped => exact setShadow_insert_tables partition key (.present entry)
  | moving =>
      simp only [promote_tables]
      simp only [tables, Keyspace.table, Table.ofMap_insert]

/-! ### Changing in place -/

theorem modifyPrimary_tables {partition : Partition} {key : String}
    (missing : partition.shadow[key]? = none) (change : Datum → Datum) :
    partition.tables.modifyPrimary key change =
      match partition.lookup key with
      | none => (none, partition.tables)
      | some entry => (some entry.datum, Partition.tables { partition with
          primary := partition.primary.insert key
            { entry with datum := change entry.datum } }) := by
  simp only [Tables.modifyPrimary, primary_values_tables, lookup, missing]
  cases found : partition.primary[key]? with
  | none => rfl
  | some entry =>
      simp only [Option.map_some, Prod.mk.injEq, true_and]
      simp only [tables, Keyspace.table]
      rw [Table.ofMap_replace found { entry with datum := change entry.datum } rfl]

/-- An entry that is copied from the primary is not told from one that the shadow had before. -/
theorem modifyShadow_tables (change : Datum → Datum) :
    partition.tables.modifyShadow key change =
      match partition.lookup key with
      | none => (none, partition.tables)
      | some entry => (some entry.datum, Partition.tables { partition with
          shadow := partition.shadow.insert key
            (.present { entry with datum := change entry.datum }) }) := by
  simp only [Tables.modifyShadow, Tables.copy, mem_shadow_tables, primary_values_tables,
    primary_expiries_tables, lookup]
  cases found : partition.shadow[key]? with
  | some slot =>
      have slotted : key ∈ partition.shadow := by
        rw [← Std.ExtTreeMap.isSome_getElem?_iff_mem, found]
        rfl
      simp only [if_pos slotted, shadow_values_tables, found, Option.map_some]
      cases slot with
      | tombstone => rfl
      | present entry =>
          simp only [Slot.mark, Slot.entry?, Prod.mk.injEq, true_and]
          simp only [tables, Shadow.table]
          rw [Table.ofMap_replace found (.present { entry with datum := change entry.datum }) rfl]
          rfl
  | none =>
      have unslotted : key ∉ partition.shadow := by
        rw [← Std.ExtTreeMap.isSome_getElem?_iff_mem, found]
        exact Bool.false_ne_true
      simp only [if_neg unslotted]
      cases stored : partition.primary[key]? with
      | none => simp only [Option.map_none, shadow_values_tables, found]
      | some entry =>
          simp only [Option.map_some, Option.bind_some, Table.getElem?_values_insert, if_pos,
            Table.replace_insert, Prod.mk.injEq, true_and]
          simp only [tables, Shadow.table]
          rw [Table.ofMap_insert]
          rfl

/-! ### Keys -/

theorem mem_keys_tables : key ∈ partition.tables.keys ↔ key ∈ partition.keys := by
  rw [mem_keys, Tables.keys, List.mem_append]
  apply or_congr
  · rw [List.mem_filter, Std.ExtTreeMap.mem_keys, decide_eq_true_eq, mem_primary_tables,
      mem_shadow_tables]
  · rw [List.mem_filterMap]
    constructor
    · rintro ⟨⟨other, mark⟩, member, shown⟩
      obtain ⟨datum, value, rfl⟩ := Option.map_eq_some_iff.mp shown
      rw [Std.ExtTreeMap.mem_toList_iff_getElem?_eq_some, shadow_values_tables,
        Option.map_eq_some_iff] at member
      obtain ⟨slot, found, rfl⟩ := member
      cases slot with
      | present entry => exact ⟨entry, found⟩
      | tombstone => cases value
    · rintro ⟨entry, found⟩
      refine ⟨(key, .value entry.datum), ?_, rfl⟩
      rw [Std.ExtTreeMap.mem_toList_iff_getElem?_eq_some, shadow_values_tables, found]
      rfl

theorem nodup_keys_tables : partition.tables.keys.Nodup := by
  apply List.nodup_append.mpr
  refine ⟨List.Pairwise.filter _ Std.ExtTreeMap.nodup_keys, ?_, ?_⟩
  · apply List.Pairwise.filterMap _ _ Std.ExtTreeMap.distinct_keys_toList
    intro first second apart key shown other shownToo same
    obtain ⟨_, _, rfl⟩ := Option.map_eq_some_iff.mp shown
    obtain ⟨_, _, rfl⟩ := Option.map_eq_some_iff.mp shownToo
    exact apart (Std.compare_eq_iff_eq.mpr same)
  · -- a key is listed for the primary only where the shadow says nothing about it
    intro key listed other shown same
    obtain ⟨⟨_, _⟩, member, marked⟩ := List.mem_filterMap.mp shown
    obtain ⟨_, _, rfl⟩ := Option.map_eq_some_iff.mp marked
    have absent := of_decide_eq_true (List.mem_filter.mp listed).2
    rw [Std.ExtTreeMap.mem_toList_iff_getElem?_eq_some, ← same] at member
    rw [← Std.ExtTreeMap.isSome_getElem?_iff_mem, member] at absent
    exact absent rfl

/-- The visible keys are the same, in another order. -/
theorem keys_tables : partition.tables.keys.Perm partition.keys :=
  (List.perm_ext_iff_of_nodup (nodup_keys_tables partition) Std.ExtTreeMap.nodup_keys).mpr
    (mem_keys_tables partition)

/-! ### Snapshots -/

theorem settleIfMerged_tables :
    partition.tables.settleIfMerged = partition.settleIfMerged.tables := by
  have empty : partition.tables.shadow.values.isEmpty = partition.shadow.isEmpty := by
    simp only [tables, Shadow.table, Table.ofMap, Std.ExtTreeMap.isEmpty_eq_size_beq_zero,
      Std.ExtTreeMap.size_map]
  simp only [Tables.settleIfMerged, settleIfMerged, empty]
  split <;> rfl

theorem finishWrite_tables : partition.tables.finishWrite = partition.finishWrite.tables := by
  by_cases frozen : partition.phase = .frozen
  · have frozenToo : partition.tables.phase = .frozen := frozen
    rw [Tables.finishWrite, if_pos frozenToo, finishWrite, if_pos frozen]
    exact settleIfMerged_tables { partition with phase := .moving }
  · have frozenToo : partition.tables.phase ≠ .frozen := frozen
    rw [Tables.finishWrite, if_neg frozenToo, finishWrite, if_neg frozen]

theorem mergeAll_tables : partition.tables.mergeAll = partition.mergeAll.tables := by
  have slots : partition.tables.shadow.values.keys = partition.shadow.keys :=
    Std.ExtTreeMap.keys_map
  simp only [Tables.mergeAll, slots, promoteAll_tables]
  rfl

theorem drain_tables (picked : List String) :
    partition.tables.drain picked = (partition.drain picked).tables := by
  simp only [Tables.drain, drain, phase_tables, promoteAll_tables]
  split
  · exact settleIfMerged_tables (partition.promoteAll picked)
  · rfl

end Tables

section Settled

variable (settled : partition.Settled)

include settled

/-- In the normal phase only the primary is asked whether the key is there, which is all that
clients see. -/
theorem remove_tables (key : String) :
    partition.tables.remove key = (partition.remove key).map id tables := by
  simp only [Tables.remove, remove, delete, phase_tables, lookup_tables, Option.isSome_map,
    mem_primary_tables, Prod.map, id]
  cases phase : partition.phase with
  | normal =>
      have seen : partition.tables.primary.values.contains key =
          (partition.lookup key).isSome := by
        rw [lookup_of_shadow_empty (settled phase), Bool.eq_iff_iff,
          Std.ExtTreeMap.contains_iff_mem, mem_primary_tables, Keyspace.mem_iff]
      rw [seen]
      simp only [tables, Keyspace.table, Table.ofMap_erase]
  | frozen | stopped =>
      simp only [Prod.mk.injEq, true_and]
      split
      · exact setShadow_insert_tables partition key .tombstone
      · exact setShadow_erase_tables partition key
  | moving =>
      simp only [promote_tables]
      simp only [tables, Keyspace.table, Table.ofMap_erase]

theorem touch_tables (key : String) (now : Int) :
    partition.tables.touch key now = (partition.touch key now).tables := by
  have reaped : ∀ merged : Partition, merged.Settled →
      (if merged.tables.expired key now then (merged.tables.remove key).2 else merged.tables) =
        (if merged.expired key now then merged.delete key else merged).tables := by
    intro merged settled
    rw [expired_tables, remove_tables settled]
    split <;> rfl
  simp only [Tables.touch, touch, phase_tables, promote_tables]
  split
  · exact reaped _ (settled.promote key)
  · exact reaped _ settled

theorem get_tables (key : String) (now : Int) :
    partition.tables.get key now = (partition.get key now).map id tables := by
  simp only [Tables.get, get, touch_tables settled, lookup_tables, Prod.map, id]

theorem contains_tables (key : String) (now : Int) :
    partition.tables.contains key now = (partition.contains key now).map id tables := by
  simp only [Tables.contains, contains, get_tables settled, Prod.map, id]

theorem modify_tables (key : String) (now : Int) (change : Datum → Datum) :
    partition.tables.modify key now change = (partition.modify key now change).map id tables := by
  have empty := settled.touch key now
  have merged : (partition.touch key now).phase = .moving →
      (partition.touch key now).shadow[key]? = none := by
    intro moving
    rw [phase_touch] at moving
    exact shadow_touch_of_moving moving key now
  simp only [Tables.modify, modify, touch_tables settled, phase_tables]
  generalize partition.touch key now = touched at *
  cases phase : touched.phase with
  | normal =>
      have missing : touched.shadow[key]? = none := by simp [empty phase]
      rw [modifyPrimary_tables missing]
      cases touched.lookup key with
      | none => rfl
      | some entry => rw [phase]; rfl
  | moving =>
      rw [modifyPrimary_tables (merged phase)]
      cases touched.lookup key with
      | none => rfl
      | some entry => rw [phase]; rfl
  | frozen | stopped =>
      rw [modifyShadow_tables]
      cases touched.lookup key with
      | none => rfl
      | some entry => rw [phase]; rfl

end Settled

end Partition

/-! ## All operations -/

/-- Answers that are the same but for the order of keys. -/
inductive Answer.Alike : Answer → Answer → Prop
  | refl (answer : Answer) : Alike answer answer
  | keys {left right : List String} (reordered : left.Perm right) :
      Alike (.keys left) (.keys right)

namespace Tables

/-- Does something to a partition in its tables. -/
def perform (tables : Tables) : Operation → Answer × Tables
  | .put key entry => (.nothing, tables.put key entry.datum entry.expiry)
  | .delete key => (tables.remove key).map .existed id
  | .get key now => (tables.get key now).map .value id
  | .contains key now => (tables.contains key now).map .existed id
  | .modify key now change => (tables.modify key now change).map .value id
  | .expiry key => (.moment (tables.expiry key), tables)
  | .keys => (.keys tables.keys, tables)
  | .freeze => (.nothing, tables.freeze)
  | .stop => (.nothing, tables.stop)
  | .finishWrite => (.nothing, tables.finishWrite)
  | .mergeAll => (.nothing, tables.mergeAll)
  | .drain picked => (.nothing, tables.drain picked)
  | .flush => (.nothing, tables.flush)

/-- What tables become by some operations. -/
def run (tables : Tables) (operations : List Operation) : Tables :=
  operations.foldl (fun tables operation => (tables.perform operation).2) tables

end Tables

namespace Partition

variable {partition : Partition}

/-- One operation on the tables of a partition is that operation on the partition. -/
theorem perform_tables (settled : partition.Settled) (operation : Operation) :
    (partition.tables.perform operation).2 = (partition.perform operation).2.tables ∧
      (partition.tables.perform operation).1.Alike (partition.perform operation).1 := by
  cases operation with
  | put key entry => exact ⟨put_tables partition key entry, .refl _⟩
  | delete key =>
      simp only [Tables.perform, remove_tables settled]
      exact ⟨rfl, .refl _⟩
  | get key now =>
      simp only [Tables.perform, get_tables settled]
      exact ⟨rfl, .refl _⟩
  | contains key now =>
      simp only [Tables.perform, contains_tables settled]
      exact ⟨rfl, .refl _⟩
  | modify key now change =>
      simp only [Tables.perform, modify_tables settled]
      exact ⟨rfl, .refl _⟩
  | expiry key =>
      simp only [Tables.perform, expiry_tables]
      exact ⟨rfl, .refl _⟩
  | keys => exact ⟨rfl, .keys (keys_tables partition)⟩
  | freeze => exact ⟨rfl, .refl _⟩
  | stop => exact ⟨rfl, .refl _⟩
  | finishWrite => exact ⟨finishWrite_tables partition, .refl _⟩
  | mergeAll => exact ⟨mergeAll_tables partition, .refl _⟩
  | drain picked => exact ⟨drain_tables partition picked, .refl _⟩
  | flush => exact ⟨rfl, .refl _⟩

theorem run_tables (settled : partition.Settled) (operations : List Operation) :
    partition.tables.run operations = (partition.run operations).tables := by
  induction operations generalizing partition with
  | nil => rfl
  | cons operation more ih =>
      have step := (perform_tables settled operation).1
      have rest := ih (settled.perform operation)
      rw [← step] at rest
      exact rest

end Partition

namespace Tables

/-- Whatever is done to new tables, all that is given back on the way is what a partition gives,
if not always with the keys in the same order. -/
theorem answers_alike (operations : List Operation) :
    List.Forall₂ Answer.Alike (answers perform operations {})
      (answers Partition.perform operations {}) := by
  have run : ∀ partition : Partition, partition.Settled →
      List.Forall₂ Answer.Alike (answers perform operations partition.tables)
        (answers Partition.perform operations partition) := by
    induction operations with
    | nil => exact fun _ _ => .nil
    | cons operation more ih =>
        intro partition settled
        obtain ⟨next, alike⟩ := Partition.perform_tables settled operation
        simp only [answers, next]
        exact .cons alike (ih _ (settled.perform operation))
  exact run {} .new

/-- Whatever is done to new tables, they are those of a partition to which the same is done.  No
expiry is without its value, and each tombstone hides a value of the primary and has no expiry.  In
the normal phase the shadow is empty and nothing is left to correct in the count of keys.  Work on
keys leaves the phase alone, and as long as the phase holds the primary, nothing in the tables of
the primary changes. -/
theorem sound_after (operations : List Operation) :
    let tables := ({} : Tables).run operations
    tables = (Partition.after operations).tables ∧
    (∀ key ∈ tables.primary.expiries, key ∈ tables.primary.values) ∧
    (∀ key ∈ tables.shadow.expiries, key ∈ tables.shadow.values) ∧
    (∀ key, tables.shadow.values[key]? = some .tombstone →
      key ∈ tables.primary.values ∧ key ∉ tables.shadow.expiries) ∧
    (tables.phase = .normal → tables.shadow = {} ∧ tables.drift = 0) ∧
    (∀ operation : Operation, operation.onKey → (tables.perform operation).2.phase = tables.phase) ∧
    ∀ later : List Operation,
      (∀ count ≤ later.length, (tables.run (later.take count)).phase.holds = true) →
      (tables.run later).primary = tables.primary := by
  have counted := Partition.counted_after operations
  have backed := Partition.backed_after operations
  have same : ({} : Tables).run operations = (Partition.after operations).tables :=
    Partition.run_tables .new operations
  intro tables
  simp only [tables, same]
  generalize Partition.after operations = partition at counted backed
  refine ⟨trivial, fun key => Table.mem_values_of_mem_expiries,
    fun key => Table.mem_values_of_mem_expiries, ?_, ?_, ?_, ?_⟩
  · intro key hidden
    rw [Partition.shadow_values_tables, Option.map_eq_some_iff] at hidden
    obtain ⟨slot, found, marked⟩ := hidden
    rw [Slot.mark_eq_tombstone marked] at found
    refine ⟨(Partition.mem_primary_tables ..).mpr (backed key found), ?_⟩
    rw [← Std.ExtTreeMap.isSome_getElem?_iff_mem, Partition.shadow_expiries_tables, found]
    exact Bool.false_ne_true
  · intro normal
    have empty : partition.shadow = ∅ := counted.settled normal
    refine ⟨?_, counted.drift_of_normal normal⟩
    simp only [Partition.tables, empty]
    rfl
  · intro operation onKey
    rw [(Partition.perform_tables counted.settled operation).1]
    exact Partition.phase_perform onKey partition
  · intro later held
    simp only [Partition.run_tables counted.settled] at held ⊢
    exact congrArg Keyspace.table (Partition.primary_run later held)

/-- A key is deleted and another one stored with an expiry while the partition is frozen; it is
frozen again before either is merged, and stopped later. -/
theorem sound_after_refrozen :
    let operations : List Operation :=
      [.put "a" ⟨.text "1", some 50⟩, .put "b" ⟨.text "2", none⟩, .freeze, .delete "b",
        .put "c" ⟨.text "3", some 70⟩, .finishWrite, .freeze]
    let later : List Operation :=
      [.get "a" 60, .modify "c" 60 fun _ => .text "4", .stop, .put "b" ⟨.text "5", some 80⟩,
        .drain ["c"], .delete "c"]
    let tables := ({} : Tables).run operations
    tables.phase = .frozen ∧ tables.shadow.values["b"]? = some .tombstone ∧
      "b" ∈ tables.primary.values ∧ "b" ∉ tables.shadow.expiries ∧
      "c" ∈ tables.shadow.expiries ∧ "c" ∈ tables.shadow.values ∧
      (tables.run later).phase = .stopped ∧ (tables.run later).primary = tables.primary := by
  intro operations later tables
  obtain ⟨_, _, shadow, tombstone, _, _, held⟩ := sound_after operations
  have hidden : tables.shadow.values["b"]? = some .tombstone := by decide +kernel
  have timed : "c" ∈ tables.shadow.expiries := by decide +kernel
  have holds : ∀ count ≤ later.length, (tables.run (later.take count)).phase.holds = true := by
    decide +kernel
  obtain ⟨backed, timeless⟩ := tombstone "b" hidden
  exact ⟨by decide +kernel, hidden, backed, timeless, timed, shadow "c" timed, by decide +kernel,
    held later holds⟩

end Tables

end ReplicaStore
