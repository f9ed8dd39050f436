import ReplicaStore.Proofs.Snapshot.RoundTrip

/-!
# What is written can be read

A writer is used step by step: databases are begun, entries are written, and what has been
written is taken now and then.  When it is taken does not matter.  However the steps follow one
another, what has been taken in their course reads as the commands that the steps stand for.
-/

namespace ReplicaStore.Snapshot

/-- An entry as it is written.  There is no moment before the epoch. -/
def sinceEpoch (stored : Entry) : Entry :=
  { stored with expiry := stored.expiry.map (max · 0) }

theorem toBytes_sinceEpoch (key : String) (stored : Entry) :
    (Record.entry key (sinceEpoch stored)).toBytes = (Record.entry key stored).toBytes := by
  obtain ⟨datum, expiry⟩ := stored
  cases expiry with
  | none => rfl
  | some moment =>
      have same : (max moment 0).toNat = moment.toNat := by omega
      simp only [Record.toBytes, sinceEpoch, Option.map_some, expiryBytes, same]

namespace Writer

/-- One use of a writer. -/
inductive Step where
  | partition (index keys expiring : Nat)
  | entry (key : String) (stored : Entry)
  | take
  deriving DecidableEq, Repr

namespace Step

/-- The commands that are to recreate what a step writes.  Taking writes nothing, and an empty
list is no key. -/
def commands : Step → List (List String)
  | partition index _ _ => [["SELECT", toString index]]
  | entry key { datum := .text content, expiry := none } => [["SET", key, content]]
  | entry key { datum := .text content, expiry := some moment } =>
      [["SET", key, content, "PXAT", toString (max moment 0)]]
  | entry _ { datum := .list [], .. } => []
  | entry key { datum := .list (first :: others), expiry := none } =>
      ["RPUSH" :: key :: first :: others]
  | entry key { datum := .list (first :: others), expiry := some moment } =>
      ["RPUSH" :: key :: first :: others, ["PEXPIREAT", key, toString (max moment 0)]]
  | take => []

/-- A step whose numbers and lengths are words of 64 bits. -/
def Fits : Step → Prop
  | partition index _ _ => index ≤ Text.maxUnsigned64
  | entry key stored =>
      (key.utf8ByteSize : Int) ≤ Text.maxSigned64 ∧ FitsDatum stored.datum ∧
        ∀ moment, stored.expiry = some moment → moment ≤ Text.maxSigned64
  | take => True

/-- The records that a step writes. -/
def records : Step → List Record
  | partition index keys expiring => [.database index, .sizes keys expiring]
  | entry key stored => [.entry key (sinceEpoch stored)]
  | take => []

theorem commands_records (step : Step) : step.records.flatMap Record.commands = step.commands := by
  match step with
  | partition _ _ _ => rfl
  | entry _ { datum := .text _, expiry := none } => rfl
  | entry _ { datum := .text _, expiry := some _ } => rfl
  | entry _ { datum := .list [], expiry := none } => rfl
  | entry _ { datum := .list [], expiry := some _ } => rfl
  | entry _ { datum := .list (_ :: _), expiry := none } => rfl
  | entry _ { datum := .list (_ :: _), expiry := some _ } => rfl
  | take => rfl

theorem Fits.carried {step : Step} (fits : step.Fits) : ∀ written ∈ step.records, Carried written := by
  cases step with
  | partition index keys expiring =>
      simp only [records, List.mem_cons, List.not_mem_nil, or_false]
      rintro written (rfl | rfl)
      · exact carried_database fits
      · exact carried_sizes keys expiring
  | entry key stored =>
      obtain ⟨size, datum, moment⟩ := fits
      simp only [records, List.mem_singleton]
      rintro written rfl
      apply carried_entry
      refine ⟨size, datum, fun expiry found => ?_⟩
      obtain ⟨given, expires, rfl⟩ := Option.map_eq_some_iff.mp found
      have most := moment given expires
      have epoch : (0 : Int) ≤ Text.maxSigned64 := by decide
      omega
  | take => simp [records]

end Step

/-- Uses a writer once; gives what is taken and the writer behind that. -/
def perform (writer : Writer) : Step → Bytes × Writer
  | .partition index keys expiring => ([], writer.beginPartition index keys expiring)
  | .entry key stored => ([], writer.entry key stored)
  | .take => writer.take

/-- Uses a writer step by step; gives all that is taken, in its order. -/
def run (writer : Writer) : List Step → Bytes × Writer
  | [] => ([], writer)
  | step :: steps =>
      let (taken, next) := writer.perform step
      let (later, last) := next.run steps
      (taken ++ later, last)

/-- What has been taken and what is still to be taken is what has been written. -/
theorem perform_eq (writer : Writer) (step : Step) :
    (writer.perform step).1 ++ (writer.perform step).2.pending =
      writer.pending ++ step.records.flatMap Record.toBytes := by
  cases step with
  | partition index keys expiring => simp [perform, beginPartition, append, Step.records]
  | entry key stored => simp [perform, entry, append, Step.records, toBytes_sinceEpoch]
  | take => simp [perform, take, Step.records]

theorem run_eq (writer : Writer) (steps : List Step) :
    (writer.run steps).1 ++ (writer.run steps).2.pending =
      writer.pending ++ (steps.flatMap Step.records).flatMap Record.toBytes := by
  induction steps generalizing writer with
  | nil => simp [run]
  | cons step steps ih =>
      have first := perform_eq writer step
      have later := ih (writer.perform step).2
      rw [run]
      dsimp only
      rw [List.append_assoc, later, ← List.append_assoc, first, List.flatMap_cons,
        List.flatMap_append, List.append_assoc]

/-- All that is taken from a new writer in the course of some steps, and at last when the
snapshot has been finished. -/
def written (second : Int) (steps : List Step) : Bytes :=
  let (taken, writer) := (new second).run steps
  taken ++ writer.finish.take.1

theorem written_eq (second : Int) (steps : List Step) :
    written second steps = Bytes.ofText magic ++ (Bytes.ofText "0009" ++
      ((originRecords second ++ steps.flatMap Step.records).flatMap Record.toBytes ++ trailer)) := by
  have whole := run_eq (new second) steps
  rw [written]
  dsimp only [finish, append, take]
  rw [← List.append_assoc, whole, new, preamble_eq]
  simp

/-- What is taken from a writer reads as just the commands of the steps, in their order. -/
theorem commandsOf_written {second : Int} (least : Text.minSigned64 ≤ second)
    (most : second ≤ Text.maxSigned64) {steps : List Step} (fits : ∀ step ∈ steps, step.Fits) :
    commandsOf (written second steps) = .ok (steps.flatMap Step.commands) := by
  have carried : ∀ record ∈ originRecords second ++ steps.flatMap Step.records, Carried record := by
    intro record member
    rcases List.mem_append.mp member with origin | step
    · exact carried_origin least most record origin
    · obtain ⟨step, among, inside⟩ := List.mem_flatMap.mp step
      exact (fits step among).carried record inside
  rw [written_eq, commandsOf_records carried, List.flatMap_append, List.flatMap_assoc]
  simp only [Step.commands_records]
  rfl

/-- Entries of both kinds in two databases, taken in three parts.  A moment before the epoch is
written as the epoch, and an empty list leaves no trace. -/
theorem commandsOf_written_in_parts :
    commandsOf (written 1767225600
      [.partition 0 2 1, .entry "a" { datum := .text "100", expiry := none }, .take,
        .entry "b" { datum := .text "\xFF\r\n", expiry := some (-5) },
        .partition 300 2 2, .entry "l" { datum := .list ["1", ""], expiry := some 42 }, .take,
        .entry "e" { datum := .list [], expiry := some 7 }]) =
      .ok [["SELECT", "0"], ["SET", "a", "100"], ["SET", "b", "\xFF\r\n", "PXAT", "0"],
        ["SELECT", "300"], ["RPUSH", "l", "1", ""], ["PEXPIREAT", "l", "42"]] := by
  refine (commandsOf_written (by decide) (by decide) ?_).trans rfl
  simp only [List.mem_cons, List.not_mem_nil, or_false, forall_eq_or_imp, forall_eq, Step.Fits,
    Option.some.injEq, forall_eq']
  decide

end Writer
end ReplicaStore.Snapshot
