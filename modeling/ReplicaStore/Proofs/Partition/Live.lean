import ReplicaStore.Proofs.Partition.PlainMap
import ReplicaStore.Text.Integer

/-!
# What can still be read

The entries that clients see and whose time has not come are the live ones.  Whatever
commands do to a partition at one moment depends on the live entries alone and leaves
the same live entries: two partitions with the same ones stay alike, however different
their phases and their shadows are.

Besides, only entries that a snapshot can carry are ever stored (`Entry.Storable`).
-/

namespace ReplicaStore

/-- An expiry is written in a word of 64 signed bits, and an empty list is no value. -/
structure Entry.Storable (entry : Entry) : Prop where
  expiry : ∀ moment, entry.expiry = some moment → moment ≤ Text.maxSigned64
  datum : entry.datum ≠ .list []

namespace Keyspace

variable (keyspace : Keyspace) (key : String) (now : Int)

theorem unexpired_insert (entry : Entry) :
    Keyspace.unexpired (keyspace.insert key entry) now =
      if entry.expired now then (keyspace.unexpired now).erase key
      else (keyspace.unexpired now).insert key entry := by
  apply ext
  intro other
  by_cases gone : entry.expired now
  · by_cases same : key = other <;> simp [getElem?_unexpired, gone, same, Option.filter]
  · by_cases same : key = other <;> simp [getElem?_unexpired, gone, same, Option.filter]

/-- Whatever is stored under a key does not matter once it is removed. -/
theorem erase_insert (entry : Entry) : (keyspace.insert key entry).erase key = keyspace.erase key := by
  apply ext
  intro other
  by_cases same : key = other <;> simp [same]

theorem unexpired_erase :
    Keyspace.unexpired (keyspace.erase key) now = (keyspace.unexpired now).erase key := by
  apply ext
  intro other
  by_cases same : key = other <;> simp [getElem?_unexpired, same]

theorem getElem?_unexpired_touch (other : String) :
    (keyspace.touch key now)[other]?.filter (!·.expired now) = (keyspace.unexpired now)[other]? := by
  rw [getElem?_unexpired]
  by_cases same : other = key
  · subst same
    rw [getElem?_touch]
    cases keyspace[other]? with
    | none => rfl
    | some entry => cases gone : entry.expired now <;> simp [Option.filter, gone]
  · have untouched : (keyspace.touch key now)[other]? = keyspace[other]? := by
      simp only [touch]
      split
      · simp [Ne.symm same]
      · rfl
    rw [untouched]

theorem unexpired_touch : (keyspace.touch key now).unexpired now = keyspace.unexpired now := by
  apply ext
  intro other
  rw [getElem?_unexpired, getElem?_unexpired_touch]

/-- A touched key shows its live entry. -/
theorem getElem?_touch_self : (keyspace.touch key now)[key]? = (keyspace.unexpired now)[key]? := by
  rw [getElem?_touch, getElem?_unexpired]

theorem modify_fst (change : Datum → Datum) :
    (keyspace.modify key now change).1 = (keyspace.unexpired now)[key]?.map (·.datum) := by
  simp only [modify, getElem?_touch_self]
  cases (keyspace.unexpired now)[key]? <;> rfl

theorem unexpired_modify (change : Datum → Datum) :
    (keyspace.modify key now change).2.unexpired now =
      match (keyspace.unexpired now)[key]? with
      | none => keyspace.unexpired now
      | some entry =>
          (keyspace.unexpired now).insert key { entry with datum := change entry.datum } := by
  simp only [modify, getElem?_touch_self]
  cases found : (keyspace.unexpired now)[key]? with
  | none => exact unexpired_touch keyspace key now
  | some entry =>
      have live : entry.expired now = false := by
        rw [getElem?_unexpired, Option.filter_eq_some_iff] at found
        simpa using found.2
      have changed : Entry.expired { entry with datum := change entry.datum } now = false := live
      dsimp only
      rw [unexpired_insert, if_neg (by simp [changed]), unexpired_touch]

end Keyspace

namespace Partition

variable {partition : Partition}

/-- The entries that clients can still read. -/
def live (partition : Partition) (now : Int) : Keyspace :=
  partition.visible.unexpired now

theorem live_put (settled : partition.Settled) (key : String) (entry : Entry) (now : Int) :
    (partition.put key entry).live now =
      if entry.expired now then (partition.live now).erase key
      else (partition.live now).insert key entry := by
  rw [live, visible_put settled, Keyspace.unexpired_insert]
  rfl

theorem live_delete (settled : partition.Settled) (key : String) (now : Int) :
    (partition.delete key).live now = (partition.live now).erase key := by
  rw [live, visible_delete settled, Keyspace.unexpired_erase]
  rfl

theorem live_touch (settled : partition.Settled) (key : String) (now : Int) :
    (partition.touch key now).live now = partition.live now := by
  rw [live, visible_touch settled, Keyspace.unexpired_touch]
  rfl

theorem get_fst (settled : partition.Settled) (key : String) (now : Int) :
    (partition.get key now).1 = (partition.live now)[key]?.map (·.datum) := by
  have same := congrArg Prod.fst (get_eq settled key now)
  rw [Prod.map_fst] at same
  rw [id] at same
  rw [same, Keyspace.get, live, Keyspace.getElem?_touch_self]

theorem modify_fst (settled : partition.Settled) (key : String) (now : Int)
    (change : Datum → Datum) :
    (partition.modify key now change).1 = (partition.live now)[key]?.map (·.datum) := by
  have same := congrArg Prod.fst (modify_eq settled key now change)
  rw [Prod.map_fst] at same
  rw [id] at same
  rw [same, Keyspace.modify_fst]
  rfl

theorem live_modify (settled : partition.Settled) (key : String) (now : Int)
    (change : Datum → Datum) :
    (partition.modify key now change).2.live now =
      match (partition.live now)[key]? with
      | none => partition.live now
      | some entry =>
          (partition.live now).insert key { entry with datum := change entry.datum } := by
  have same := congrArg Prod.snd (modify_eq settled key now change)
  rw [Prod.map_snd] at same
  rw [live, same, Keyspace.unexpired_modify]
  rfl

/-- Nothing is left behind in the normal phase, and a snapshot can carry all there is. -/
structure Sound (partition : Partition) : Prop where
  settled : partition.Settled
  storable : ∀ key entry, partition.lookup key = some entry → entry.Storable

namespace Sound

variable {later : Partition}

theorem new : Sound {} where
  settled := .new
  storable := by simp [lookup]

/-- Whoever sees no more than before sees nothing that a snapshot cannot carry. -/
theorem of_visible (sound : partition.Sound) (settled : later.Settled)
    (visible : later.visible = partition.visible) : later.Sound where
  settled := settled
  storable := by
    intro key entry found
    apply sound.storable key
    rw [← getElem?_visible, ← visible, getElem?_visible, found]

theorem put (sound : partition.Sound) (key : String) {entry : Entry} (storable : entry.Storable) :
    (partition.put key entry).Sound where
  settled := sound.settled.put key entry
  storable := by
    intro other stored found
    rw [lookup_put sound.settled] at found
    split at found
    · cases found
      exact storable
    · exact sound.storable other stored found

theorem delete (sound : partition.Sound) (key : String) : (partition.delete key).Sound where
  settled := sound.settled.delete key
  storable := by
    intro other stored found
    rw [lookup_delete sound.settled] at found
    split at found
    · cases found
    · exact sound.storable other stored found

theorem touch (sound : partition.Sound) (key : String) (now : Int) :
    (partition.touch key now).Sound where
  settled := sound.settled.touch key now
  storable := by
    intro other stored found
    rw [← getElem?_visible, visible_touch sound.settled, Keyspace.touch] at found
    apply sound.storable other
    rw [← getElem?_visible]
    split at found
    · rw [Keyspace.getElem?_erase] at found
      split at found
      · cases found
      · exact found
    · exact found

/-- A value can be changed to any other that a snapshot can carry. -/
theorem modify (sound : partition.Sound) (key : String) (now : Int) {change : Datum → Datum}
    (carried : ∀ datum, (partition.live now)[key]?.map (·.datum) = some datum →
      change datum ≠ .list []) :
    (partition.modify key now change).2.Sound where
  settled := sound.settled.modify key now change
  storable := by
    intro other stored found
    have touched := sound.touch key now
    have same := congrArg Prod.snd (modify_eq sound.settled key now change)
    rw [Prod.map_snd, Keyspace.modify, ← visible_touch sound.settled] at same
    rw [← getElem?_visible, same] at found
    simp only [getElem?_visible] at found
    have live := Keyspace.getElem?_touch_self partition.visible key now
    rw [← visible_touch sound.settled, getElem?_visible] at live
    cases here : (partition.touch key now).lookup key with
    | none =>
        simp only [here, getElem?_visible] at found
        exact touched.storable other stored found
    | some entry =>
        simp only [here, Keyspace.getElem?_insert, getElem?_visible] at found
        split at found
        · cases found
          constructor
          · exact (touched.storable key entry here).expiry
          · apply carried
            rw [Partition.live, ← live, here]
            rfl
        · exact touched.storable other stored found

/-- Whatever a value was changed to, it does not matter once it is removed. -/
theorem modify_delete (sound : partition.Sound) (key : String) (now : Int)
    (change : Datum → Datum) : ((partition.modify key now change).2.delete key).Sound where
  settled := (sound.settled.modify key now change).delete key
  storable := by
    intro other stored found
    rw [lookup_delete (sound.settled.modify key now change)] at found
    split at found
    · cases found
    · next apart =>
        have same := congrArg Prod.snd (modify_eq sound.settled key now change)
        rw [Prod.map_snd, Keyspace.modify, ← visible_touch sound.settled] at same
        rw [← getElem?_visible, same] at found
        apply (sound.touch key now).storable other
        rw [← getElem?_visible]
        cases here : (partition.touch key now).visible[key]? with
        | none => simpa only [here] using found
        | some entry => simpa only [here, Keyspace.getElem?_insert, if_neg apart] using found

end Sound

theorem live_modify_delete (settled : partition.Settled) (key : String) (now : Int)
    (change : Datum → Datum) :
    ((partition.modify key now change).2.delete key).live now = (partition.live now).erase key := by
  rw [live_delete (settled.modify key now change), live_modify settled]
  cases (partition.live now)[key]? with
  | none => rfl
  | some entry => exact Keyspace.erase_insert ..

/-! ### Two partitions with the same live entries -/

/-- Two partitions of which the same can be read at a moment. -/
structure Alike (now : Int) (left right : Partition) : Prop where
  soundLeft : left.Sound
  soundRight : right.Sound
  live : left.live now = right.live now

namespace Alike

variable {now : Int} {left right : Partition}

theorem refl (sound : partition.Sound) (now : Int) : Alike now partition partition :=
  ⟨sound, sound, rfl⟩

theorem put (alike : Alike now left right) (key : String) {entry : Entry}
    (storable : entry.Storable) : Alike now (left.put key entry) (right.put key entry) where
  soundLeft := alike.soundLeft.put key storable
  soundRight := alike.soundRight.put key storable
  live := by rw [live_put alike.soundLeft.settled, live_put alike.soundRight.settled, alike.live]

theorem delete (alike : Alike now left right) (key : String) :
    Alike now (left.delete key) (right.delete key) where
  soundLeft := alike.soundLeft.delete key
  soundRight := alike.soundRight.delete key
  live := by rw [live_delete alike.soundLeft.settled, live_delete alike.soundRight.settled, alike.live]

theorem touch (alike : Alike now left right) (key : String) :
    Alike now (left.touch key now) (right.touch key now) where
  soundLeft := alike.soundLeft.touch key now
  soundRight := alike.soundRight.touch key now
  live := by rw [live_touch alike.soundLeft.settled, live_touch alike.soundRight.settled, alike.live]

theorem modify (alike : Alike now left right) (key : String) {change : Datum → Datum}
    (carried : ∀ datum, (left.live now)[key]?.map (·.datum) = some datum →
      change datum ≠ .list []) :
    Alike now (left.modify key now change).2 (right.modify key now change).2 where
  soundLeft := alike.soundLeft.modify key now carried
  soundRight := alike.soundRight.modify key now (alike.live ▸ carried)
  live := by rw [live_modify alike.soundLeft.settled, live_modify alike.soundRight.settled, alike.live]

theorem modify_delete (alike : Alike now left right) (key : String) (change : Datum → Datum) :
    Alike now ((left.modify key now change).2.delete key)
      ((right.modify key now change).2.delete key) where
  soundLeft := alike.soundLeft.modify_delete key now change
  soundRight := alike.soundRight.modify_delete key now change
  live := by
    rw [live_modify_delete alike.soundLeft.settled, live_modify_delete alike.soundRight.settled,
      alike.live]

end Alike

/-- A way of using a partition at a moment that gives the same and leaves partitions
alike wherever the same can be read. -/
def Uniform {α : Type} (now : Int) (use : Partition → α × Partition) : Prop :=
  ∀ left right, Alike now left right →
    (use left).1 = (use right).1 ∧ Alike now (use left).2 (use right).2

namespace Uniform

variable {α β : Type} {now : Int}

theorem get (key : String) (now : Int) : Uniform now (Partition.get · key now) := by
  intro left right alike
  refine ⟨?_, alike.touch key⟩
  rw [get_fst alike.soundLeft.settled, get_fst alike.soundRight.settled, alike.live]

theorem contains (key : String) (now : Int) : Uniform now (Partition.contains · key now) := by
  intro left right alike
  obtain ⟨same, after⟩ := get key now left right alike
  exact ⟨congrArg Option.isSome same, after⟩

theorem put (key : String) {entry : Entry} (storable : entry.Storable) (now : Int) :
    Uniform now fun partition => ((), partition.put key entry) :=
  fun _ _ alike => ⟨rfl, alike.put key storable⟩

theorem modify (key : String) (now : Int) {change : Datum → Datum}
    (carried : ∀ datum, datum ≠ .list [] → change datum ≠ .list []) :
    Uniform now (Partition.modify · key now change) := by
  intro left right alike
  constructor
  · rw [modify_fst alike.soundLeft.settled, modify_fst alike.soundRight.settled, alike.live]
  · apply alike.modify key
    intro datum found
    obtain ⟨entry, live, rfl⟩ := Option.map_eq_some_iff.mp found
    rw [Partition.live, Keyspace.getElem?_unexpired, getElem?_visible,
      Option.filter_eq_some_iff] at live
    exact carried entry.datum (alike.soundLeft.storable key entry live.1).datum

end Uniform
end Partition
end ReplicaStore
