import Mathlib.Logic.Relation
import ReplicaStore.Proofs.Partition.Visible

/-!
# What the operations on a key do

Storing, removing, touching and changing a key come down to four kinds of edits, of which each phase
allows some (`Partition.Edit`).  Where a phase holds the primary, only the slot of the key changes.
Elsewhere the primary changes, once the slot of the key is merged.

What every edit keeps is kept by all operations on keys: there is no need to go through them again.
-/

namespace ReplicaStore

/-- Whether a phase keeps the primary from changing. -/
def Phase.holds : Phase → Bool
  | .frozen | .stopped => true
  | .normal | .moving => false

namespace Partition

variable {partition later : Partition} {key other : String}

/-- Whether the primary may change at a key, with no slot in the way. -/
def Free (partition : Partition) (key : String) : Prop :=
  partition.phase = .normal ∨ partition.phase = .moving ∧ partition.shadow[key]? = none

/-- One change at a key, in a phase that allows it. -/
inductive Edit (key : String) (partition : Partition) : Partition → Prop
  | store (free : partition.Free key) (primary : Keyspace)
      (apart : ∀ other, key ≠ other → primary[other]? = partition.primary[other]?) :
      Edit key partition { partition with primary }
  | merge (moving : partition.phase = .moving) : Edit key partition (partition.promote key)
  /-- A slot is set or taken away.  Only a key of the primary is hidden. -/
  | setSlot (held : partition.phase.holds = true) (slot : Option Slot)
      (hides : slot = some .tombstone → key ∈ partition.primary) :
      Edit key partition (partition.setSlot key slot)
  /-- A visible key gets a slot of its own, which makes no difference to the count. -/
  | copy (held : partition.phase.holds = true) {entry : Entry}
      (found : partition.lookup key = some entry) (changed : Entry) :
      Edit key partition { partition with shadow := partition.shadow.insert key (.present changed) }

/-- Any number of changes at a key. -/
abbrev Edits (key : String) : Partition → Partition → Prop :=
  Relation.ReflTransGen (Edit key)

theorem free_promote (moving : partition.phase = .moving) (key : String) :
    (partition.promote key).Free key :=
  .inr (by simp [moving])

/-- Where the primary may change, a settled partition has no slot. -/
theorem Settled.missing (settled : partition.Settled) (free : partition.Free key) :
    partition.shadow[key]? = none := by
  rcases free with normal | ⟨_, missing⟩
  · rw [settled normal, Std.ExtTreeMap.getElem?_empty]
  · exact missing

theorem ne_normal_of_holds (held : partition.phase.holds = true) : partition.phase ≠ .normal := by
  intro normal
  rw [normal] at held
  cases held

theorem ne_moving_of_holds (held : partition.phase.holds = true) : partition.phase ≠ .moving := by
  intro moving
  rw [moving] at held
  cases held

/-! ## What edits keep -/

namespace Edit

theorem insert (free : partition.Free key) (entry : Entry) :
    Edit key partition { partition with primary := partition.primary.insert key entry } :=
  .store free _ fun other different => by rw [Keyspace.getElem?_insert, if_neg different]

theorem erase (free : partition.Free key) :
    Edit key partition { partition with primary := partition.primary.erase key } :=
  .store free _ fun other different => by rw [Keyspace.getElem?_erase, if_neg different]

theorem phase (edit : Edit key partition later) : later.phase = partition.phase := by
  cases edit with
  | merge moving => exact phase_promote partition key
  | store | setSlot | copy => rfl

/-- All other keys are left alone. -/
theorem apart (edit : Edit key partition later) (different : key ≠ other) :
    later.primary[other]? = partition.primary[other]? ∧
      later.shadow[other]? = partition.shadow[other]? := by
  cases edit with
  | store free primary apart => exact ⟨apart other different, rfl⟩
  | merge moving => exact ⟨primary_promote partition different, by simp [different]⟩
  | setSlot held slot hides => cases slot <;> simp [Partition.setSlot, different]
  | copy held found changed => simp [different]

/-- Where a phase holds the primary, no edit changes it. -/
theorem primary (edit : Edit key partition later) (held : partition.phase.holds = true) :
    later.primary = partition.primary := by
  cases edit with
  | store free primary apart =>
      rcases free with normal | ⟨moving, _⟩
      · exact absurd normal (ne_normal_of_holds held)
      · exact absurd moving (ne_moving_of_holds held)
  | merge moving => exact absurd moving (ne_moving_of_holds held)
  | setSlot | copy => rfl

theorem settled (edit : Edit key partition later) (settled : partition.Settled) :
    later.Settled := by
  cases edit with
  | store free primary apart => exact settled
  | merge moving => exact settled.promote key
  | setSlot held slot hides => exact .of_phase_ne (ne_normal_of_holds held)
  | copy held found changed => exact .of_phase_ne (ne_normal_of_holds held)

end Edit

namespace Edits

theorem phase (edits : Edits key partition later) : later.phase = partition.phase := by
  induction edits with
  | refl => rfl
  | tail _ edit same => exact edit.phase.trans same

theorem primary (edits : Edits key partition later) (held : partition.phase.holds = true) :
    later.primary = partition.primary := by
  induction edits with
  | refl => rfl
  | tail before edit same =>
      have still := held
      rw [← Edits.phase before] at still
      exact (edit.primary still).trans same

end Edits

theorem Settled.edits (settled : partition.Settled) (edits : Edits key partition later) :
    later.Settled := by
  induction edits with
  | refl => exact settled
  | tail _ edit settled => exact edit.settled settled

/-! ## The operations as edits -/

section Operations

variable (partition : Partition) (key : String)

theorem edits_put (entry : Entry) : Edits key partition (partition.put key entry) := by
  unfold put
  split
  · next normal => exact .single (.insert (.inl normal) entry)
  · next frozen => exact .single (.setSlot (by rw [frozen]; rfl) _ (by rintro ⟨⟩))
  · next stopped => exact .single (.setSlot (by rw [stopped]; rfl) _ (by rintro ⟨⟩))
  · next moving => exact .tail (.single (.merge moving)) (.insert (free_promote moving key) entry)

theorem edits_delete : Edits key partition (partition.delete key) := by
  have hides : (if key ∈ partition.primary then some Slot.tombstone else none) =
      some .tombstone → key ∈ partition.primary := by
    intro hidden
    split at hidden
    · assumption
    · cases hidden
  unfold delete
  split
  · next normal => exact .single (.erase (.inl normal))
  · next frozen => exact .single (.setSlot (by rw [frozen]; rfl) _ hides)
  · next stopped => exact .single (.setSlot (by rw [stopped]; rfl) _ hides)
  · next moving => exact .tail (.single (.merge moving)) (.erase (free_promote moving key))

theorem edits_touch (now : Int) : Edits key partition (partition.touch key now) := by
  have reaped : ∀ merged : Partition, Edits key partition merged →
      Edits key partition (if merged.expired key now then merged.delete key else merged) := by
    intro merged edits
    split
    · exact edits.trans (edits_delete merged key)
    · exact edits
  unfold touch
  split
  · next moving => exact reaped _ (.single (.merge moving))
  · exact reaped _ .refl

@[simp] theorem phase_put (entry : Entry) : (partition.put key entry).phase = partition.phase :=
  (edits_put partition key entry).phase

@[simp] theorem phase_delete : (partition.delete key).phase = partition.phase :=
  (edits_delete partition key).phase

@[simp] theorem phase_touch (now : Int) : (partition.touch key now).phase = partition.phase :=
  (edits_touch partition key now).phase

/-- A touched key of a partition that is merging has no slot. -/
theorem shadow_touch_of_moving {partition : Partition} (moving : partition.phase = .moving)
    (key : String) (now : Int) : (partition.touch key now).shadow[key]? = none := by
  have merged : (partition.promote key).shadow[key]? = none := by simp
  unfold touch
  simp only [moving, if_true]
  split
  · simp [delete, moving]
  · exact merged

theorem edits_modify (now : Int) (change : Datum → Datum) :
    Edits key partition (partition.modify key now change).2 := by
  have touched := edits_touch partition key now
  unfold modify
  cases found : (partition.touch key now).lookup key with
  | none => simpa only [found] using touched
  | some entry =>
      simp only [found]
      split
      · next normal => exact touched.tail (.insert (.inl normal) _)
      · next moving =>
          have before : partition.phase = .moving := by rw [← moving, phase_touch]
          have merged := shadow_touch_of_moving before key now
          exact touched.tail (.insert (.inr ⟨moving, merged⟩) _)
      · next frozen => exact touched.tail (.copy (by rw [frozen]; rfl) found _)
      · next stopped => exact touched.tail (.copy (by rw [stopped]; rfl) found _)

end Operations

/-! ## Every operation on a key leaves nothing behind in the normal phase -/

namespace Settled

theorem put (settled : partition.Settled) (key : String) (entry : Entry) :
    (partition.put key entry).Settled :=
  settled.edits (edits_put partition key entry)

theorem delete (settled : partition.Settled) (key : String) : (partition.delete key).Settled :=
  settled.edits (edits_delete partition key)

theorem touch (settled : partition.Settled) (key : String) (now : Int) :
    (partition.touch key now).Settled :=
  settled.edits (edits_touch partition key now)

theorem modify (settled : partition.Settled) (key : String) (now : Int)
    (change : Datum → Datum) : (partition.modify key now change).2.Settled :=
  settled.edits (edits_modify partition key now change)

end Settled

end Partition
end ReplicaStore
