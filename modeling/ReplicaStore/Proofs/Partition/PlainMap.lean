import ReplicaStore.Proofs.Partition.Edits

/-!
# A partition is one plain map

A client of a partition cannot tell it from a plain keyspace.  `Operation` lists what
can be done to a partition, with every clock reading, every change of a value and
every batch of keys to merge; `Partition.perform` does it to a partition and
`Keyspace.perform` to a plain keyspace, where freezing and merging do nothing.  The
simulation relation is that the plain keyspace is what clients see of the partition.
-/

namespace ReplicaStore

/-- What can be done to a partition. -/
inductive Operation where
  | put (key : String) (entry : Entry)
  | delete (key : String)
  | get (key : String) (now : Int)
  | contains (key : String) (now : Int)
  /-- A change of the value under a key, in place. -/
  | modify (key : String) (now : Int) (change : Datum → Datum)
  | expiry (key : String)
  | keys
  | freeze
  | stop
  | finishWrite
  | mergeAll
  /-- A batch of merging, whatever keys were picked for it. -/
  | drain (picked : List String)
  | flush

/-- Whether an operation works on single keys, as those of commands do. -/
def Operation.onKey : Operation → Bool
  | .put .. | .delete .. | .get .. | .contains .. | .modify .. => true
  | _ => false

/-- Whether an operation at most reaps a key whose time has come at a moment. -/
def Operation.reads (moment : Int) : Operation → Bool
  | .get _ now | .contains _ now => now == moment
  | _ => false

/-- What an operation gives back. -/
inductive Answer where
  | nothing
  | value (found : Option Datum)
  | existed (found : Bool)
  | moment (expiry : Option Int)
  | keys (keys : List String)
  deriving DecidableEq, Repr

namespace Partition

/-- Does something to a partition. -/
def perform (partition : Partition) : Operation → Answer × Partition
  | .put key entry => (.nothing, partition.put key entry)
  | .delete key => (partition.remove key).map .existed id
  | .get key now => (partition.get key now).map .value id
  | .contains key now => (partition.contains key now).map .existed id
  | .modify key now change => (partition.modify key now change).map .value id
  | .expiry key => (.moment (partition.expiry key), partition)
  | .keys => (.keys partition.keys, partition)
  | .freeze => (.nothing, partition.freeze)
  | .stop => (.nothing, partition.stop)
  | .finishWrite => (.nothing, partition.finishWrite)
  | .mergeAll => (.nothing, partition.mergeAll)
  | .drain picked => (.nothing, partition.drain picked)
  | .flush => (.nothing, partition.flush)

end Partition

namespace Keyspace

/-- Removes a key if its time has come. -/
def touch (keyspace : Keyspace) (key : String) (now : Int) : Keyspace :=
  if keyspace[key]?.any (·.expired now) then keyspace.erase key else keyspace

/-- Reads a key that has been touched. -/
def get (keyspace : Keyspace) (key : String) (now : Int) : Option Datum × Keyspace :=
  let touched := keyspace.touch key now
  (touched[key]?.map (·.datum), touched)

/-- Changes the value of a key that has been touched, and keeps its expiry. -/
def modify (keyspace : Keyspace) (key : String) (now : Int) (change : Datum → Datum) :
    Option Datum × Keyspace :=
  let touched := keyspace.touch key now
  match touched[key]? with
  | none => (none, touched)
  | some entry => (some entry.datum, touched.insert key { entry with datum := change entry.datum })

/-- Does something to a plain keyspace.  What is about snapshots does nothing. -/
def perform (keyspace : Keyspace) : Operation → Answer × Keyspace
  | .put key entry => (.nothing, keyspace.insert key entry)
  | .delete key => (.existed keyspace[key]?.isSome, keyspace.erase key)
  | .get key now => (keyspace.get key now).map .value id
  | .contains key now => (keyspace.get key now).map (.existed ·.isSome) id
  | .modify key now change => (keyspace.modify key now change).map .value id
  | .expiry key => (.moment (keyspace[key]?.bind (·.expiry)), keyspace)
  | .keys => (.keys keyspace.keys, keyspace)
  | .flush => (.nothing, ∅)
  | .freeze | .stop | .finishWrite | .mergeAll | .drain _ => (.nothing, keyspace)

theorem getElem?_touch (keyspace : Keyspace) (key : String) (now : Int) :
    (keyspace.touch key now)[key]? = keyspace[key]?.filter (!·.expired now) := by
  unfold touch
  cases found : keyspace[key]? with
  | none => simp [found]
  | some entry =>
      by_cases gone : entry.expired now
      · simp [gone, Option.filter]
      · simp [gone, found, Option.filter]

end Keyspace

/-- What a sequence of operations gives back, one answer after the other. -/
def answers {σ : Type} (perform : σ → Operation → Answer × σ) : List Operation → σ → List Answer
  | [], _ => []
  | operation :: later, state =>
      let (answer, next) := perform state operation
      answer :: answers perform later next

namespace Partition

variable {partition : Partition}

/-- An operation on a key edits that key and no other. -/
theorem edits_perform {operation : Operation} (onKey : operation.onKey) (partition : Partition) :
    ∃ key, Edits key partition (partition.perform operation).2 := by
  cases operation with
  | put key entry => exact ⟨key, edits_put partition key entry⟩
  | delete key => exact ⟨key, edits_delete partition key⟩
  | get key now => exact ⟨key, edits_touch partition key now⟩
  | contains key now => exact ⟨key, edits_touch partition key now⟩
  | modify key now change => exact ⟨key, edits_modify partition key now change⟩
  | _ => cases onKey

/-! ## Touching, reading and changing -/

/-- Touching a key reaps it from what clients see if its time has come. -/
theorem visible_touch (settled : partition.Settled) (key : String) (now : Int) :
    (partition.touch key now).visible = partition.visible.touch key now := by
  have reaped : ∀ merged : Partition, merged.Settled → merged.visible = partition.visible →
      (if merged.expired key now then merged.delete key else merged).visible =
        partition.visible.touch key now := by
    intro merged settled same
    unfold Keyspace.touch expired
    rw [← same, getElem?_visible]
    split
    · exact visible_delete settled key
    · rfl
  unfold touch
  split
  · exact reaped _ (settled.promote key) (visible_promote partition key)
  · exact reaped _ settled rfl

theorem get_eq (settled : partition.Settled) (key : String) (now : Int) :
    (partition.get key now).map id visible = partition.visible.get key now := by
  simp only [get, Keyspace.get, Prod.map, id, ← getElem?_visible, visible_touch settled]

/-- Where a touched key lies in the primary, the primary can be changed under it. -/
theorem visible_insert_primary (merged : partition.shadow[key]? = none) (entry : Entry) :
    { partition with primary := partition.primary.insert key entry }.visible =
      partition.visible.insert key entry := by
  apply visible_eq
  intro other
  rw [Keyspace.getElem?_insert, getElem?_visible]
  by_cases same : key = other
  · subst same
    simp [lookup, merged]
  · simp [lookup, same]

/-- A slot of its own shows the entry in it. -/
theorem visible_insert_shadow (partition : Partition) (key : String) (entry : Entry) :
    { partition with shadow := partition.shadow.insert key (.present entry) }.visible =
      partition.visible.insert key entry := by
  apply visible_eq
  intro other
  rw [Keyspace.getElem?_insert, getElem?_visible]
  by_cases same : key = other
  · simp [lookup, same, Slot.entry?]
  · simp [lookup, same]

/-- Changing a value in place changes it in what clients see. -/
theorem modify_eq (settled : partition.Settled) (key : String) (now : Int)
    (change : Datum → Datum) :
    (partition.modify key now change).map id visible =
      partition.visible.modify key now change := by
  have touched := visible_touch settled key now
  unfold modify Keyspace.modify
  simp only [← touched, getElem?_visible]
  cases found : (partition.touch key now).lookup key with
  | none => rfl
  | some entry =>
      simp only [phase_touch, Prod.map, id, Prod.mk.injEq, true_and]
      cases phase : partition.phase with
      | normal =>
          apply visible_insert_primary
          simp [settled.touch key now (by simpa using phase)]
      | moving => exact visible_insert_primary (shadow_touch_of_moving phase key now) _
      | frozen => exact visible_insert_shadow _ key _
      | stopped => exact visible_insert_shadow _ key _

/-! ## The simulation -/

/-- Every operation leaves a partition settled. -/
theorem Settled.perform (settled : partition.Settled) (operation : Operation) :
    (partition.perform operation).2.Settled := by
  by_cases onKey : operation.onKey
  · obtain ⟨key, edits⟩ := edits_perform onKey partition
    exact settled.edits edits
  · cases operation with
    | put | delete | get | contains | modify => exact absurd rfl onKey
    | expiry key => exact settled
    | keys => exact settled
    | freeze => exact of_phase_ne (by simp [Partition.perform, Partition.freeze])
    | stop => exact of_phase_ne (by simp [Partition.perform, Partition.stop])
    | finishWrite => exact settled.finishWrite
    | mergeAll => exact Settled.mergeAll partition
    | drain picked => exact settled.drain picked
    | flush => exact Settled.new

/-- One operation on a partition is the same operation on what clients see of it. -/
theorem perform_eq (settled : partition.Settled) (operation : Operation) :
    (partition.perform operation).map id visible = partition.visible.perform operation := by
  cases operation with
  | put key entry => simp [perform, Keyspace.perform, visible_put settled]
  | delete key => simp [perform, Keyspace.perform, remove, visible_delete settled]
  | get key now =>
      simp only [Keyspace.perform, ← get_eq settled]
      rfl
  | contains key now =>
      simp only [Keyspace.perform, ← get_eq settled]
      rfl
  | modify key now change =>
      simp only [Keyspace.perform, ← modify_eq settled]
      rfl
  | expiry key => simp [perform, Keyspace.perform, expiry]
  | keys => rfl
  | freeze => exact congrArg _ (visible_congr rfl rfl)
  | stop => exact congrArg _ (visible_congr rfl rfl)
  | finishWrite => simp [perform, Keyspace.perform]
  | mergeAll => simp [perform, Keyspace.perform]
  | drain picked => simp [perform, Keyspace.perform]
  | flush => simp [perform, Keyspace.perform, flush, visible_of_shadow_empty]

/-- A settled partition answers like the keyspace that clients see. -/
theorem answers_eq_of_settled (settled : partition.Settled) (operations : List Operation) :
    answers perform operations partition =
      answers Keyspace.perform operations partition.visible := by
  induction operations generalizing partition with
  | nil => rfl
  | cons operation later ih =>
      have step := perform_eq settled operation
      simp only [answers, ← step, Prod.map, id]
      rw [ih (settled.perform operation)]

/-- Whatever is done to a new partition, all that is given back on the way is what a
plain keyspace would give. -/
theorem answers_eq_plain (operations : List Operation) :
    answers perform operations {} = answers Keyspace.perform operations ∅ := by
  rw [answers_eq_of_settled Settled.new]
  rw [visible_of_shadow_empty rfl]

end Partition
end ReplicaStore
