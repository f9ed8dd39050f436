import Mathlib.Data.List.Basic
import ReplicaStore.Command.Info
import ReplicaStore.Proofs.Node.Counted
import ReplicaStore.Proofs.Partition.Tables

/-!
# The report on the databases

A report has one line for each database with keys.  The number of keys in it is that of the keys
that clients see, whatever the phase of the database is (`Node.Reachable.reports_keys`).

The number of keys that expire is counted in the primary.  It is short of what clients see by the
expiries in the shadow, and it has those that the shadow hides on top (`Partition.expiries_eq`).  So
it is right where the shadow is empty, and wrong by no more than the shadow has slots
(`Node.Reachable.reports_expiries`).  It can be more than there are keys (`Node.overstated_report`).
-/

namespace ReplicaStore

/-- Whether there is an entry that expires. -/
def Entry.expires (entry : Option Entry) : Bool :=
  entry.any (·.expiry.isSome)

/-! ### Keyspaces -/

namespace Keyspace

variable {keyspace : Keyspace} {key : String}

theorem values_eq (keyspace : Keyspace) : keyspace.values = keyspace.toList.map Prod.snd := by
  obtain ⟨⟨inner⟩⟩ := keyspace
  induction inner using Quotient.inductionOn with
  | h tree =>
      change tree.inner.values = (Std.DTreeMap.Internal.Impl.Const.toList tree.inner).map Prod.snd
      rw [Std.DTreeMap.Internal.Impl.values_eq_map_snd,
        Std.DTreeMap.Internal.Impl.Const.toList_eq_toListModel_map, List.map_map]
      rfl

/-- The entries that expire. -/
def expiring (keyspace : Keyspace) : Keyspace :=
  keyspace.filter fun _ entry => entry.expiry.isSome

theorem getElem?_expiring (keyspace : Keyspace) (key : String) :
    keyspace.expiring[key]? = keyspace[key]?.filter (·.expiry.isSome) := by
  simp [expiring]

theorem expiryCount_eq (keyspace : Keyspace) : keyspace.expiryCount = keyspace.expiring.size := by
  rw [expiryCount, values_eq, List.countP_map, List.countP_eq_length_filter,
    ← Std.ExtTreeMap.length_toList, expiring, Std.ExtTreeMap.toList_filter]
  rfl

/-- How many keys expire is the size of the table of their expiries, which nothing has to be
counted for. -/
theorem size_expiries_table (keyspace : Keyspace) :
    keyspace.table.expiries.size = keyspace.expiryCount := by
  rw [table, Table.ofMap, ← Std.ExtTreeMap.length_toList, Std.ExtTreeMap.toList_filterMap,
    List.length_filterMap_eq_countP, expiryCount, values_eq, List.countP_map]
  apply List.countP_congr
  intro stored _
  simp

/-- How many keys expire is how many do without one of them, and that one. -/
theorem expiryCount_erase (keyspace : Keyspace) (key : String) :
    keyspace.expiryCount =
      expiryCount (keyspace.erase key) + if Entry.expires keyspace[key]? then 1 else 0 := by
  have apart : keyspace.expiring.erase key = expiring (keyspace.erase key) := by
    apply ext
    intro other
    rw [getElem?_erase, getElem?_expiring, getElem?_expiring, getElem?_erase]
    split <;> rfl
  have here : key ∈ keyspace.expiring ↔ Entry.expires keyspace[key]? = true := by
    rw [mem_iff, getElem?_expiring, Entry.expires]
    cases keyspace[key]? with
    | none => simp
    | some entry => cases entry.expiry.isSome <;> simp_all
  have size := size_eq keyspace.expiring key
  rw [apart, count] at size
  rw [expiryCount_eq, expiryCount_eq]
  by_cases expires : Entry.expires keyspace[key]? = true
  · rw [if_pos (here.mpr expires)] at size
    rw [if_pos expires]
    omega
  · rw [if_neg (mt here.mp expires)] at size
    rw [if_neg expires]
    omega

end Keyspace

/-! ### Partitions -/

namespace Partition

variable {partition : Partition}

/-- The slots of the shadow with an entry that expires. -/
def shadowExpiries (partition : Partition) : Nat :=
  partition.shadow.toList.countP fun (_, slot) => Entry.expires slot.entry?

/-- The slots of the shadow that hide an entry of the primary that expires. -/
def hiddenExpiries (partition : Partition) : Nat :=
  partition.shadow.toList.countP fun (key, _) => Entry.expires partition.primary[key]?

/-- The visible keys that expire. -/
def expiries (partition : Partition) : Nat :=
  partition.keys.countP fun key => (partition.expiry key).isSome

theorem expiries_eq_expiryCount (partition : Partition) :
    partition.expiries = partition.visible.expiryCount := by
  rw [expiries, keys, ← Std.ExtTreeMap.map_fst_toList_eq_keys, Keyspace.expiryCount,
    Keyspace.values_eq, List.countP_map, List.countP_map]
  apply List.countP_congr
  rintro ⟨key, entry⟩ member
  have stored : partition.lookup key = some entry := by
    rw [← getElem?_visible]
    exact Std.ExtTreeMap.mem_toList_iff_getElem?_eq_some.mp member
  simp [expiry, stored]

/-- A slot adds its expiry and takes away the one that it hides. -/
theorem expiryCount_applySlot (keyspace : Keyspace) (key : String) (slot : Slot) :
    (applySlot keyspace key slot).expiryCount + (if Entry.expires keyspace[key]? then 1 else 0) =
      keyspace.expiryCount + if Entry.expires slot.entry? then 1 else 0 := by
  have apart : (applySlot keyspace key slot).erase key = keyspace.erase key := by
    apply Keyspace.ext
    intro other
    rw [Keyspace.getElem?_erase, Keyspace.getElem?_erase, getElem?_applySlot]
    split <;> rfl
  rw [Keyspace.expiryCount_erase (applySlot keyspace key slot) key, apart,
    Keyspace.expiryCount_erase keyspace key, getElem?_applySlot, if_pos rfl]
  omega

theorem expiryCount_foldl_applySlot (slots : List (String × Slot)) (keyspace : Keyspace)
    (distinct : slots.Pairwise fun left right => left.1 ≠ right.1) :
    (slots.foldl (fun keyspace slot => applySlot keyspace slot.1 slot.2) keyspace).expiryCount +
        slots.countP (fun slot => Entry.expires keyspace[slot.1]?) =
      keyspace.expiryCount + slots.countP fun slot => Entry.expires (Slot.entry? slot.2) := by
  induction slots generalizing keyspace with
  | nil => rfl
  | cons first slots ih =>
      obtain ⟨apart, distinct⟩ := List.pairwise_cons.mp distinct
      have rest := ih (applySlot keyspace first.1 first.2) distinct
      have one := expiryCount_applySlot keyspace first.1 first.2
      have others : slots.countP (fun slot =>
          Entry.expires (applySlot keyspace first.1 first.2)[slot.1]?) =
          slots.countP fun slot => Entry.expires keyspace[slot.1]? := by
        apply List.countP_congr
        intro slot member
        rw [getElem?_applySlot, if_neg (apart slot member)]
      rw [others] at rest
      rw [List.foldl_cons, List.countP_cons, List.countP_cons]
      omega

/-- How the expiries of the primary and those that clients see go together. -/
theorem expiries_eq (partition : Partition) :
    partition.expiries + partition.hiddenExpiries =
      partition.primary.expiryCount + partition.shadowExpiries := by
  have distinct : partition.shadow.toList.Pairwise fun left right => left.1 ≠ right.1 :=
    Std.ExtTreeMap.distinct_keys_toList.imp fun apart equal => apart (by simp [equal])
  rw [expiries_eq_expiryCount, visible, Std.ExtTreeMap.foldl_eq_foldl_toList]
  exact expiryCount_foldl_applySlot _ _ distinct

theorem hiddenExpiries_le (partition : Partition) :
    partition.hiddenExpiries ≤ partition.shadow.size := by
  rw [← Std.ExtTreeMap.length_toList]
  exact List.countP_le_length

theorem shadowExpiries_le (partition : Partition) :
    partition.shadowExpiries ≤ partition.shadow.size := by
  rw [← Std.ExtTreeMap.length_toList]
  exact List.countP_le_length

end Partition

/-! ### Reports -/

namespace Node

variable {node : Node} {index : Nat} {partition : Partition}

/-- The line of a database, going by its visible keys. -/
theorem keyspaceLine?_eq (counted : partition.Counted) (index : Nat) :
    keyspaceLine? index partition =
      if partition.keys = [] then none
      else some s!"db{index}:keys={partition.keys.length},expires={partition.primary.expiryCount}" := by
  have size : partition.size = partition.keys.length := by
    rw [counted.size_eq, Partition.keys, Std.ExtTreeMap.length_keys]
  simp only [keyspaceLine?, size, List.length_eq_zero_iff]

/-- A report has a line for each database with visible keys, and says how many there are. -/
theorem Reachable.reports_keys (reachable : node.Reachable) :
    node.keyspaceSection = "# Keyspace" ::
      node.partitions.partitions.zipIdx.filterMap fun (partition, index) =>
        if partition.keys = [] then none
        else some s!"db{index}:keys={partition.keys.length},expires={partition.primary.expiryCount}" := by
  rw [keyspaceSection]
  refine congrArg _ (List.filterMap_congr ?_)
  rintro ⟨partition, index⟩ member
  have found := List.mem_of_getElem? (List.mk_mem_zipIdx_iff_getElem?.mp member)
  exact keyspaceLine?_eq (reachable.counted partition found) index

/-- The number of keys that expire is right in the normal phase, and otherwise wrong by no more than
the number of slots in the shadow.  It is right exactly if the shadow has as many expiries as
it hides. -/
theorem Reachable.reports_expiries (reachable : node.Reachable)
    (found : node.partitions.get? index = some partition) :
    (partition.phase = .normal → partition.primary.expiryCount = partition.expiries) ∧
      (partition.primary.expiryCount = partition.expiries ↔
        partition.shadowExpiries = partition.hiddenExpiries) ∧
      partition.primary.expiryCount ≤ partition.expiries + partition.shadow.size ∧
      partition.expiries ≤ partition.primary.expiryCount + partition.shadow.size := by
  have counted : partition.Counted := reachable.counted partition (List.mem_of_getElem? found)
  have balance := partition.expiries_eq
  have hidden := partition.hiddenExpiries_le
  have shadow := partition.shadowExpiries_le
  refine ⟨fun normal => ?_, by omega, by omega, by omega⟩
  rw [Partition.expiries_eq_expiryCount,
    Partition.visible_of_shadow_empty (counted.settled normal)]

/-- One of two keys that expire was removed while a snapshot was written. -/
def overstated : Node :=
  { Node.new { databases := 1 } {} { wall := 1000 } with port := 7000 }.run
    [.connected 1 "127.0.0.1:40001", .runs 1 ["SET", "a", "1", "PXAT", "4102444800000"],
      .runs 1 ["SET", "b", "1", "PXAT", "4102444800000"], .runs 1 ["BGSAVE"],
      .runs 1 ["DEL", "a"]]

/-- The report has one key then, and two keys that expire. -/
theorem overstated_report :
    overstated.Reachable ∧ overstated.keyspaceSection = ["# Keyspace", "db0:keys=1,expires=2"] ∧
      (overstated.partitions.get? 0).map (·.expiries) = some 1 := by
  have reachable : overstated.Reachable :=
    (@Reachable.start { databases := 1 } {} { wall := 1000 } (.ok none)
      { node := Node.new { databases := 1 } {} { wall := 1000 } } 7000 rfl).run _
  exact ⟨reachable, by decide +kernel, by decide +kernel⟩

end Node
end ReplicaStore
