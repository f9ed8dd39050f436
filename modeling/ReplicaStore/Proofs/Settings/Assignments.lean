import ReplicaStore.Settings.Basic

/-!
# Assignments

A setting is assigned a text, which it takes for a value or does not accept (`Name.read?`).  Of
several assignments in order the last one of each setting counts, and a setting without any stays
as it was (`Gives`).
-/

namespace ReplicaStore.Settings

/-! ### Settings one by one -/

/-- What one setting is set to. -/
inductive Value where
  | text (content : String)
  | number (value : Nat)
  /-- A text that may be missing. -/
  | written (content : Option String)
  deriving DecidableEq, Repr

/-- What a setting is set to. -/
def get (settings : Settings) : Name → Value
  | .bind => .text settings.bind
  | .port => .number settings.port
  | .databases => .number settings.databases
  | .directory => .text settings.directory
  | .snapshotName => .text settings.snapshotName
  | .backlogSize => .number settings.backlogSize
  | .backlogTtl => .number settings.backlogTtl
  | .timeout => .number settings.timeout
  | .pingPeriod => .number settings.pingPeriod
  | .replicaOf => .written settings.replicaOf
  | .maxClients => .number settings.maxClients
  | .drainBatch => .number settings.drainBatch
  | .drainInterval => .number settings.drainInterval
  | .logLevel => .text settings.logLevel

/-- What a setting takes a text for, if it accepts it. -/
def Name.read? (name : Name) (text : String) : Option Value :=
  match name with
  | .bind | .snapshotName | .logLevel => some (.text text)
  | .directory => if text = "" then none else some (.text text)
  | .replicaOf => some (.written (some text))
  | .port => (Text.readBetween 0 65535 text).map fun read => .number read.toNat
  | .backlogSize => (readMemory text).toOption.map .number
  | .databases | .backlogTtl | .timeout | .pingPeriod | .maxClients | .drainBatch
  | .drainInterval => (Text.readUnsigned64 text).map .number

variable {settings later : Settings} {name : Name} {text : String}

theorem ok_of_map {α β ε : Type} {read : Except ε α} {use : α → β} {result : β}
    (given : read.map use = .ok result) : ∃ value, read = .ok value ∧ use value = result := by
  cases read with
  | error error => cases given
  | ok value => exact ⟨value, rfl, Except.ok.inj given⟩

theorem ok_of_bind {α β ε : Type} {read : Except ε α} {use : α → Except ε β} {result : β}
    (given : read.bind use = .ok result) : ∃ value, read = .ok value ∧ use value = .ok result := by
  cases read with
  | error error => cases given
  | ok value => exact ⟨value, rfl, given⟩

theorem some_of_orInvalid {α : Type} {read : Option α} {value : α}
    (given : orInvalid read = .ok value) : read = some value := by
  cases read with
  | none => cases given
  | some other => exact congrArg some (Except.ok.inj given)

/-- A setting takes what it reads in a text, and nothing else changes. -/
theorem set_inv (given : settings.set name text = .ok later) :
    name.read? text = some (later.get name) ∧
      (∀ other, other ≠ name → later.get other = settings.get other) ∧
      later.file = settings.file := by
  cases name with
  | bind | snapshotName | replicaOf | logLevel =>
      cases given
      refine ⟨rfl, fun other apart => ?_, rfl⟩
      cases other <;> simp_all [get]
  | directory =>
      simp only [set] at given
      split at given
      · cases given
      · next some =>
          cases given
          refine ⟨if_neg some, fun other apart => ?_, rfl⟩
          cases other <;> simp_all [get]
  | backlogSize =>
      simp only [set] at given
      obtain ⟨value, read, rfl⟩ := ok_of_map given
      refine ⟨?_, fun other apart => ?_, rfl⟩
      · simp only [Name.read?, read, Except.toOption, Option.map_some, get]
      · cases other <;> simp_all [get]
  | port | databases | backlogTtl | timeout | pingPeriod | maxClients | drainBatch
  | drainInterval =>
      simp only [set, set.number] at given
      obtain ⟨value, read, rfl⟩ := ok_of_map given
      refine ⟨?_, fun other apart => ?_, rfl⟩
      · simp only [Name.read?, some_of_orInvalid read, Option.map_some, get]
      · cases other <;> simp_all [get]

/-- A text that a setting accepts can be given to it in any settings. -/
theorem set_of_read (accepted : (name.read? text).isSome = true) (settings : Settings) :
    ∃ later, settings.set name text = .ok later := by
  cases name with
  | bind | snapshotName | replicaOf | logLevel => exact ⟨_, rfl⟩
  | directory =>
      simp only [set]
      split
      · next empty => simp [Name.read?, empty] at accepted
      · exact ⟨_, rfl⟩
  | backlogSize =>
      simp only [Name.read?, Option.isSome_map] at accepted
      cases read : readMemory text with
      | error error =>
          rw [read] at accepted
          cases accepted
      | ok size =>
          simp only [set, read]
          exact ⟨_, rfl⟩
  | port | databases | backlogTtl | timeout | pingPeriod | maxClients | drainBatch
  | drainInterval =>
      simp only [Name.read?, Option.isSome_map] at accepted
      obtain ⟨value, read⟩ := Option.isSome_iff_exists.mp accepted
      simp only [set, set.number, read]
      exact ⟨_, rfl⟩

/-- Whether a text is accepted does not depend on what is set already. -/
theorem set_settings (given : settings.set name text = .ok later) (others : Settings) :
    ∃ changed, others.set name text = .ok changed :=
  set_of_read (Option.isSome_iff_exists.mpr ⟨_, (set_inv given).1⟩) others

/-! ### Assignments in order -/

/-- The text that the last of some assignments to a setting gives it. -/
def lastOf (name : Name) (assignments : List (Name × String)) : Option String :=
  assignments.reverse.lookup name

theorem lastOf_append (name : Name) (first second : List (Name × String)) :
    lastOf name (first ++ second) = (lastOf name second).or (lastOf name first) := by
  rw [lastOf, List.reverse_append, List.lookup_append, lastOf, lastOf]

@[simp] theorem get_setFile {path : String} (given : settings.setFile path = .ok later)
    (name : Name) : later.get name = settings.get name := by
  simp only [setFile] at given
  split at given
  · cases given
  · cases given
    cases name <;> rfl

theorem lastOf_singleton (name other : Name) (text : String) :
    lastOf name [(other, text)] = if name = other then some text else none := by
  rw [lastOf, List.reverse_singleton, List.lookup_cons, List.lookup_nil]
  by_cases same : name = other
  · rw [if_pos same, beq_iff_eq.mpr same]
  · rw [if_neg same, beq_eq_false_iff_ne.mpr same]

/-- Each setting has what the last assignment to it says, or what it had before if there is
none. -/
def Gives (before : Settings) (assignments : List (Name × String)) (after : Settings) : Prop :=
  ∀ name, (lastOf name assignments).elim (some (before.get name)) name.read? =
    some (after.get name)

namespace Gives

variable {before between after : Settings} {first second : List (Name × String)}

theorem refl (settings : Settings) : Gives settings [] settings := fun _ => rfl

theorem trans (one : Gives before first between) (two : Gives between second after) :
    Gives before (first ++ second) after := by
  intro name
  have here := one name
  have there := two name
  rw [lastOf_append]
  cases last : lastOf name second with
  | none =>
      rw [last, Option.elim_none, Option.some.injEq] at there
      rw [Option.none_or, here, there]
  | some text =>
      rw [last] at there
      rw [Option.some_or]
      exact there

theorem of_set (given : before.set name text = .ok after) : Gives before [(name, text)] after := by
  obtain ⟨read, others, _⟩ := set_inv given
  intro other
  rw [lastOf_singleton]
  by_cases same : other = name
  · rw [if_pos same, same]
    exact read
  · rw [if_neg same, Option.elim_none, others other same]

end Gives

end ReplicaStore.Settings
