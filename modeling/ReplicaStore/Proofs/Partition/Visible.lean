import ReplicaStore.Partition.Snapshot

/-!
# What clients see of a partition

`Partition.visible` merges the shadow into the primary, `Partition.lookup` reads one
key without merging anything.  This module shows that both describe the same keyspace
and gives one equation per operation for it: storing and removing act on the visible
keyspace as they would on a plain one, and merging does not change it.

The equations need that nothing is left in the shadow of a partition in the normal
phase, because there the primary is changed behind the shadow's back.  That is
`Partition.Settled`, and every operation keeps it.
-/

namespace ReplicaStore

namespace Keyspace

/-- Two keyspaces are the same if every key holds the same in both. -/
theorem ext {left right : Keyspace} (equal : ∀ key : String, left[key]? = right[key]?) :
    left = right :=
  Std.ExtTreeMap.ext_getElem? equal

@[simp] theorem getElem?_insert (keyspace : Keyspace) (key other : String) (entry : Entry) :
    (keyspace.insert key entry)[other]? = if key = other then some entry else keyspace[other]? := by
  simp [Std.ExtTreeMap.getElem?_insert]

@[simp] theorem getElem?_erase (keyspace : Keyspace) (key other : String) :
    (keyspace.erase key)[other]? = if key = other then none else keyspace[other]? := by
  simp [Std.ExtTreeMap.getElem?_erase]

end Keyspace

namespace Shadow

@[simp] theorem getElem?_insert (shadow : Shadow) (key other : String) (slot : Slot) :
    (shadow.insert key slot)[other]? = if key = other then some slot else shadow[other]? := by
  simp [Std.ExtTreeMap.getElem?_insert]

@[simp] theorem getElem?_erase (shadow : Shadow) (key other : String) :
    (shadow.erase key)[other]? = if key = other then none else shadow[other]? := by
  simp [Std.ExtTreeMap.getElem?_erase]

end Shadow

namespace Partition

variable {partition : Partition} {key other : String}

/-- Nothing is left to merge in the normal phase. -/
def Settled (partition : Partition) : Prop :=
  partition.phase = .normal → partition.shadow = ∅

/-! ## The merged keyspace, key by key -/

@[simp] theorem getElem?_applySlot (keyspace : Keyspace) (key other : String) (slot : Slot) :
    (applySlot keyspace key slot)[other]? =
      if key = other then slot.entry? else keyspace[other]? := by
  cases slot <;> simp [applySlot, Slot.entry?]

/-- Applying slots of other keys does not change what a key holds. -/
theorem getElem?_foldl_applySlot_of_notMem (slots : List (String × Slot)) (keyspace : Keyspace)
    (absent : ∀ slot, (other, slot) ∉ slots) :
    (slots.foldl (fun keyspace slot => applySlot keyspace slot.1 slot.2) keyspace)[other]? =
      keyspace[other]? := by
  induction slots generalizing keyspace with
  | nil => rfl
  | cons first rest ih =>
      obtain ⟨key, slot⟩ := first
      have apart : key ≠ other := by
        rintro rfl
        exact absent slot (List.mem_cons_self ..)
      rw [List.foldl_cons]
      rw [ih _ fun slot member => absent slot (List.mem_cons_of_mem _ member)]
      simp [apart]

/-- Of several slots, each of its own key, the one of a key decides what it holds. -/
theorem getElem?_foldl_applySlot_of_mem (slots : List (String × Slot)) (keyspace : Keyspace)
    (distinct : slots.Pairwise fun left right => left.1 ≠ right.1) {slot : Slot}
    (member : (other, slot) ∈ slots) :
    (slots.foldl (fun keyspace slot => applySlot keyspace slot.1 slot.2) keyspace)[other]? =
      slot.entry? := by
  induction slots generalizing keyspace with
  | nil => cases member
  | cons first rest ih =>
      rw [List.pairwise_cons] at distinct
      rw [List.foldl_cons]
      rcases List.mem_cons.mp member with rfl | later
      · rw [getElem?_foldl_applySlot_of_notMem]
        · simp
        · intro slot twice
          exact distinct.1 _ twice rfl
      · exact ih _ distinct.2 later

/-- The visible keyspace holds under each key what is looked up there. -/
@[simp] theorem getElem?_visible (partition : Partition) (key : String) :
    partition.visible[key]? = partition.lookup key := by
  have distinct : partition.shadow.toList.Pairwise fun left right => left.1 ≠ right.1 :=
    Std.ExtTreeMap.distinct_keys_toList.imp fun apart equal => apart (by simp [equal])
  simp only [visible, Std.ExtTreeMap.foldl_eq_foldl_toList, lookup]
  cases found : partition.shadow[key]? with
  | some slot =>
      have member := Std.ExtTreeMap.mem_toList_iff_getElem?_eq_some.mpr found
      exact getElem?_foldl_applySlot_of_mem _ _ distinct member
  | none =>
      apply getElem?_foldl_applySlot_of_notMem
      intro slot member
      rw [Std.ExtTreeMap.mem_toList_iff_getElem?_eq_some, found] at member
      cases member

/-- Two partitions look the same to clients if every key does. -/
theorem visible_eq {left : Partition} {right : Keyspace}
    (equal : ∀ key, left.lookup key = right[key]?) : left.visible = right :=
  Keyspace.ext fun key => by rw [getElem?_visible, equal]

/-- Without a shadow clients see the primary. -/
theorem lookup_of_shadow_empty (empty : partition.shadow = ∅) (key : String) :
    partition.lookup key = partition.primary[key]? := by
  simp [lookup, empty]

theorem visible_of_shadow_empty (empty : partition.shadow = ∅) :
    partition.visible = partition.primary :=
  visible_eq (lookup_of_shadow_empty empty)

/-! ## Merging -/

/-- Merging the slot of a key changes nothing that clients see. -/
@[simp] theorem lookup_promote (partition : Partition) (key other : String) :
    (partition.promote key).lookup other = partition.lookup other := by
  unfold promote
  split
  · rfl
  · next slot found =>
      by_cases same : key = other
      · subst same
        simp [lookup, found]
      · simp [lookup, same]

@[simp] theorem phase_promote (partition : Partition) (key : String) :
    (partition.promote key).phase = partition.phase := by
  unfold promote
  split <;> rfl

/-- The merged key has no slot any more. -/
@[simp] theorem shadow_promote (partition : Partition) (key : String) :
    (partition.promote key).shadow = partition.shadow.erase key := by
  unfold promote
  split
  · next missing =>
      apply Std.ExtTreeMap.ext_getElem?
      intro other
      by_cases same : key = other
      · subst same
        simp [missing]
      · simp [same]
  · rfl

/-- Merging the slot of a key changes the primary at no other key. -/
theorem primary_promote (partition : Partition) (apart : key ≠ other) :
    (partition.promote key).primary[other]? = partition.primary[other]? := by
  unfold promote
  split
  · rfl
  · simp [apart]

@[simp] theorem visible_promote (partition : Partition) (key : String) :
    (partition.promote key).visible = partition.visible :=
  visible_eq fun other => by simp

@[simp] theorem visible_promoteAll (partition : Partition) (keys : List String) :
    (partition.promoteAll keys).visible = partition.visible := by
  unfold promoteAll
  induction keys generalizing partition with
  | nil => rfl
  | cons key keys ih => rw [List.foldl_cons, ih, visible_promote]

@[simp] theorem phase_promoteAll (partition : Partition) (keys : List String) :
    (partition.promoteAll keys).phase = partition.phase := by
  unfold promoteAll
  induction keys generalizing partition with
  | nil => rfl
  | cons key keys ih => rw [List.foldl_cons, ih, phase_promote]

/-- Of the slots only those of other keys are left. -/
theorem getElem?_shadow_promoteAll (partition : Partition) (keys : List String) (key : String) :
    (partition.promoteAll keys).shadow[key]? =
      if key ∈ keys then none else partition.shadow[key]? := by
  unfold promoteAll
  induction keys generalizing partition with
  | nil => simp
  | cons first keys ih =>
      rw [List.foldl_cons, ih, shadow_promote]
      by_cases same : first = key
      · simp [same]
      · simp [same, Ne.symm same]

/-- Merging all slots leaves none. -/
theorem shadow_promoteAll_keys (partition : Partition) :
    (partition.promoteAll partition.shadow.keys).shadow = ∅ := by
  apply Std.ExtTreeMap.ext_getElem?
  intro key
  rw [getElem?_shadow_promoteAll, Std.ExtTreeMap.getElem?_empty]
  split
  · rfl
  · next absent =>
      rw [Std.ExtTreeMap.mem_keys] at absent
      exact Std.ExtTreeMap.getElem?_eq_none absent

/-- What clients see does not depend on the phase or on the count of keys. -/
theorem visible_congr {left right : Partition} (primary : left.primary = right.primary)
    (shadow : left.shadow = right.shadow) : left.visible = right.visible := by
  simp only [visible, primary, shadow]

@[simp] theorem visible_settleIfMerged (partition : Partition) :
    partition.settleIfMerged.visible = partition.visible := by
  unfold settleIfMerged
  split
  · exact visible_congr rfl rfl
  · rfl

/-! ## Storing and removing -/

/-- Setting a slot, or taking it away, decides alone what a key holds. -/
theorem lookup_setSlot (partition : Partition) (key other : String) (slot : Option Slot) :
    (partition.setSlot key slot).lookup other =
      if key = other then
        match slot with
        | some slot => slot.entry?
        | none => partition.primary[other]?
      else partition.lookup other := by
  by_cases same : key = other
  · cases slot <;> simp [lookup, setSlot, same]
  · cases slot <;> simp [lookup, setSlot, same]

@[simp] theorem phase_setSlot (partition : Partition) (key : String) (slot : Option Slot) :
    (partition.setSlot key slot).phase = partition.phase := rfl

theorem lookup_put (settled : partition.Settled) (key other : String) (entry : Entry) :
    (partition.put key entry).lookup other =
      if key = other then some entry else partition.lookup other := by
  unfold put
  split
  · next phase =>
      have empty := settled phase
      simp [lookup, empty]
  · simp [lookup_setSlot, Slot.entry?]
  · simp [lookup_setSlot, Slot.entry?]
  · have merged := lookup_promote partition key other
    by_cases same : key = other
    · simp [lookup, same]
    · simpa [lookup, same] using merged

theorem lookup_delete (settled : partition.Settled) (key other : String) :
    (partition.delete key).lookup other =
      if key = other then none else partition.lookup other := by
  have frozen : (partition.setSlot key
      (if key ∈ partition.primary then some .tombstone else none)).lookup other =
        if key = other then none else partition.lookup other := by
    rw [lookup_setSlot]
    by_cases same : key = other
    · subst same
      by_cases stored : key ∈ partition.primary
      · simp [stored, Slot.entry?]
      · simp [stored]
    · simp [same]
  unfold delete
  split
  · next phase =>
      have empty := settled phase
      simp [lookup, empty]
  · exact frozen
  · exact frozen
  · have merged := lookup_promote partition key other
    by_cases same : key = other
    · simp [lookup, same]
    · simpa [lookup, same] using merged

/-- Storing an entry stores it in what clients see. -/
theorem visible_put (settled : partition.Settled) (key : String) (entry : Entry) :
    (partition.put key entry).visible = partition.visible.insert key entry :=
  visible_eq fun other => by simp [lookup_put settled]

/-- Removing a key removes it from what clients see. -/
theorem visible_delete (settled : partition.Settled) (key : String) :
    (partition.delete key).visible = partition.visible.erase key :=
  visible_eq fun other => by simp [lookup_delete settled]

/-! ## Nothing is left behind in the normal phase -/

namespace Settled

theorem new : Settled {} := fun _ => rfl

theorem of_shadow_empty (empty : partition.shadow = ∅) : partition.Settled :=
  fun _ => empty

theorem of_phase_ne (phase : partition.phase ≠ .normal) : partition.Settled :=
  fun normal => absurd normal phase

theorem promote (settled : partition.Settled) (key : String) :
    (partition.promote key).Settled := by
  intro normal
  rw [phase_promote] at normal
  rw [shadow_promote, settled normal]
  simp

theorem settleIfMerged (moving : partition.phase ≠ .normal) :
    partition.settleIfMerged.Settled := by
  unfold Partition.settleIfMerged
  split
  · next merged => exact of_shadow_empty (by simpa [Std.ExtTreeMap.isEmpty_iff] using merged)
  · exact of_phase_ne moving

theorem mergeAll (partition : Partition) : partition.mergeAll.Settled :=
  of_shadow_empty (shadow_promoteAll_keys partition)

theorem finishWrite (settled : partition.Settled) : partition.finishWrite.Settled := by
  unfold Partition.finishWrite
  split
  · exact settleIfMerged (by simp)
  · exact settled

theorem drain (settled : partition.Settled) (picked : List String) :
    (partition.drain picked).Settled := by
  unfold Partition.drain
  split
  · next moving => exact settleIfMerged (by simp [moving])
  · exact settled

end Settled

@[simp] theorem visible_mergeAll (partition : Partition) :
    partition.mergeAll.visible = partition.visible :=
  (visible_congr rfl rfl).trans (visible_promoteAll partition _)

@[simp] theorem visible_finishWrite (partition : Partition) :
    partition.finishWrite.visible = partition.visible := by
  unfold finishWrite
  split
  · rw [visible_settleIfMerged]
    exact visible_congr rfl rfl
  · rfl

@[simp] theorem visible_drain (partition : Partition) (picked : List String) :
    (partition.drain picked).visible = partition.visible := by
  unfold drain
  split
  · rw [visible_settleIfMerged, visible_promoteAll]
  · rfl

end Partition
end ReplicaStore
