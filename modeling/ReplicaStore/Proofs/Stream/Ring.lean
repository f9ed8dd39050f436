import Mathlib.Data.List.Infix
import ReplicaStore.Proofs.Stream.Chronicle

/-!
# The ring as a record of the stream

A backlog is used by writing to it, by turning it on and off, and by starting over at another
offset.  A log of these uses keeps all that is written; the ring keeps its end.  Whatever the
size of the ring and however it is used, each offset is answered from the log: with the bytes
from there on, as long as the ring holds them, and else with what is wrong with it
(`Backlog.ring_exact`).
-/

namespace ReplicaStore.Stream

open Backlog (endOfOffsets)

/-! ### Uses of a backlog -/

/-- What a backlog is used for. -/
inductive Use where
  | write (data : Bytes)
  | activate
  | deactivate
  | reset (offset : Int)

namespace Use

def apply (backlog : Backlog) : Use → Backlog
  | write data => (backlog.write data).2
  | activate => backlog.activate
  | deactivate => backlog.deactivate
  | reset offset => backlog.reset offset

@[simp] theorem capacity_apply (backlog : Backlog) (use : Use) :
    (use.apply backlog).capacity = backlog.capacity := by
  cases use with
  | write data =>
      simp only [apply, Backlog.write]
      split <;> rfl
  | activate | deactivate | reset => rfl

@[simp] theorem capacity_foldl (backlog : Backlog) (uses : List Use) :
    (uses.foldl apply backlog).capacity = backlog.capacity := by
  induction uses generalizing backlog with
  | nil => rfl
  | cons use uses ih => rw [List.foldl_cons, ih, capacity_apply]

end Use

/-- What the uses of a backlog come to, without a bound on what is kept: whether it is turned
on, and the stream since it was started over. -/
structure Log where
  recording : Bool := false
  chronicle : Chronicle := {}

namespace Log

def note (log : Log) : Use → Log
  | .write data => if log.recording then { log with chronicle := log.chronicle.extend data } else log
  | .activate => { log with recording := true }
  | .deactivate => { log with recording := false }
  | .reset offset => { log with chronicle := { start := offset } }

/-- The log of a new backlog and of what it is used for. -/
def of (uses : List Use) : Log :=
  uses.foldl note {}

end Log

/-! ### What the ring has of the log -/

namespace Backlog

/-- The ring stands where the log ends and has what fits of its bytes. -/
structure Keeps (backlog : Backlog) (log : Log) : Prop where
  active : backlog.active = log.recording
  start : backlog.startOffset = log.chronicle.start
  held : backlog.held = min log.chronicle.bytes.length backlog.capacity
  -- Reading does not depend on whether more is recorded.
  since : backlog.activate.Since log.chronicle.start log.chronicle.bytes

namespace Keeps

variable {backlog : Backlog} {log : Log}

theorem new (capacity : Nat) : (Backlog.new capacity).Keeps {} where
  active := rfl
  start := rfl
  held := (Nat.zero_min _).symm
  since := .nil rfl (Int.le_refl 0) (Nat.zero_le _)

theorem ends (keeps : backlog.Keeps log) : backlog.writeOffset = log.chronicle.ends :=
  keeps.since.span

theorem write (keeps : backlog.Keeps log) {data : Bytes}
    (range : (log.note (.write data)).chronicle.InRange) :
    (backlog.write data).2.Keeps (log.note (.write data)) := by
  cases recording : backlog.active with
  | false =>
      have log_off : log.recording = false := keeps.active.symm.trans recording
      have unwritten : (backlog.write data).2 = backlog := by simp [Backlog.write, recording]
      have unnoted : log.note (.write data) = log := by simp [Log.note, log_off]
      rw [unwritten, unnoted]
      exact keeps
  | true =>
      have log_on : log.recording = true := keeps.active.symm.trans recording
      have noted : log.note (.write data) = { log with chronicle := log.chronicle.extend data } := by
        simp [Log.note, log_on]
      have span := keeps.ends
      have least := keeps.since.least
      have held := keeps.held
      have on : backlog.activate = backlog := by
        cases backlog
        simpa [activate] using recording.symm
      rw [noted] at range ⊢
      have most := range.most
      rw [Chronicle.ends_extend] at most
      simp only [Text.maxSigned64] at most
      have within : backlog.writeOffset + data.length < endOfOffsets := by
        simp only [endOfOffsets]
        omega
      have nonnegative : 0 ≤ backlog.writeOffset := by
        rw [span, Chronicle.ends]
        omega
      have taken : (backlog.write data).2.Since log.chronicle.start (log.chronicle.bytes ++ data) :=
        Since.write (on ▸ keeps.since) data within
      have started := taken.active
      have equation := write_eq recording nonnegative within
      refine ⟨?_, ?_, ?_, ?_⟩
      · rw [started, ← keeps.active, recording]
      · rw [equation]
        exact keeps.start
      · rw [equation]
        have skip : backlog.skipped data = data.length - backlog.capacity := rfl
        simp only [Chronicle.extend, List.length_append]
        omega
      · have same : (backlog.write data).2.activate = (backlog.write data).2 := by
          generalize (backlog.write data).2 = later at started
          cases later
          simpa [activate] using started.symm
        rw [same]
        exact taken

theorem apply (keeps : backlog.Keeps log) {use : Use} (range : (log.note use).chronicle.InRange) :
    (use.apply backlog).Keeps (log.note use) := by
  cases use with
  | write data => exact keeps.write range
  | activate => exact ⟨rfl, keeps.start, keeps.held, keeps.since⟩
  | deactivate => exact ⟨rfl, keeps.start, keeps.held, keeps.since⟩
  | reset offset =>
      exact ⟨keeps.active, rfl, (Nat.zero_min _).symm, .nil rfl range.least (Nat.zero_le _)⟩

theorem applyAll (keeps : backlog.Keeps log) {uses : List Use}
    (range : ∀ early ∈ uses.inits, (early.foldl Log.note log).chronicle.InRange) :
    (uses.foldl Use.apply backlog).Keeps (uses.foldl Log.note log) := by
  induction uses generalizing backlog log with
  | nil => exact keeps
  | cons use uses ih =>
      have first : (log.note use).chronicle.InRange := range [use] (by simp [List.mem_inits])
      apply ih (keeps.apply first)
      intro early member
      exact range (use :: early) (by simpa using member)

end Keeps

/-- Every offset is answered from the log, and the ring answers for as many bytes as it has
cells. -/
structure Answers (backlog : Backlog) (log : Log) : Prop where
  active : backlog.active = log.recording
  writeOffset : backlog.writeOffset = log.chronicle.start + log.chronicle.bytes.length
  startOffset : backlog.startOffset = log.chronicle.start
  held : backlog.held = min log.chronicle.bytes.length backlog.capacity
  firstOffset : backlog.firstOffset = backlog.writeOffset - backlog.held
  read_held : ∀ offset, backlog.firstOffset ≤ offset → offset ≤ backlog.writeOffset →
    backlog.readable offset = .ok () ∧
      backlog.read offset = .ok (log.chronicle.bytes.drop (offset - log.chronicle.start).toNat)
  read_unwritten : ∀ offset, backlog.writeOffset < offset →
    backlog.readable offset = .error (.outOfRange offset) ∧
      backlog.read offset = .error (.outOfRange offset)
  read_lost : ∀ offset, offset < backlog.firstOffset →
    backlog.readable offset = .error (.dataLoss offset) ∧
      backlog.read offset = .error (.dataLoss offset)

theorem Keeps.answers {backlog : Backlog} {log : Log} (keeps : backlog.Keeps log)
    (range : log.chronicle.InRange) : backlog.Answers log := by
  have span := keeps.ends
  have held := keeps.held
  have least := range.least
  have most := range.most
  simp only [Chronicle.ends, Text.maxSigned64] at span most
  have first : backlog.firstOffset = backlog.writeOffset - backlog.held :=
    word_eq_self (by omega) (by omega)
  refine ⟨keeps.active, span, keeps.start, held, first, ?_, ?_, ?_⟩
  · intro offset low high
    have readable : backlog.readable offset = .ok () := by
      rw [Backlog.readable, if_neg (by omega), if_neg (by omega)]
    refine ⟨readable, ?_⟩
    have given : backlog.read offset =
        .ok (backlog.copy (backlog.position offset) (backlog.writeOffset - offset).toNat) := by
      rw [Backlog.read, readable]
      rfl
    have bounded : backlog.held ≤ log.chronicle.bytes.length := by omega
    have exact_tail := (Chronicle.of_read keeps.since bounded range given).2
    rw [given, exact_tail]
    rfl
  · intro offset ahead
    have readable : backlog.readable offset = .error (.outOfRange offset) := by
      rw [Backlog.readable, if_pos ahead]
    exact ⟨readable, by rw [Backlog.read, readable]; rfl⟩
  · intro offset behind
    have readable : backlog.readable offset = .error (.dataLoss offset) := by
      rw [Backlog.readable, if_neg (by omega), if_pos (by omega)]
    exact ⟨readable, by rw [Backlog.read, readable]; rfl⟩

/-- A ring of any size that is used in any way is as good as a log of all that was written, for
the offsets that it still holds.  A write may be longer than the ring.  The offsets are to stay
within 63 bits all the time. -/
theorem ring_exact (capacity : Nat) (uses : List Use)
    (range : ∀ early ∈ uses.inits, (Log.of early).chronicle.InRange) :
    (uses.foldl Use.apply (new capacity)).capacity = max 1 capacity ∧
      (uses.foldl Use.apply (new capacity)).Answers (Log.of uses) := by
  refine ⟨Use.capacity_foldl .., ?_⟩
  exact ((Keeps.new capacity).applyAll range).answers (range uses ((List.mem_inits ..).mpr List.prefix_rfl))

end Backlog

/-- A ring of four cells is written around once, is started over at 100 and gets a write that is
longer than it is; what comes once it is turned off is not recorded. -/
def Use.rounds : List Use :=
  [.activate, .write [1, 2, 3], .write [4, 5, 6], .reset 100, .write [7, 8, 9, 10, 11, 12],
    .deactivate, .write [13]]

namespace Backlog

theorem ring_exact_rounds :
    (Use.rounds.foldl Use.apply (new 4)).read 102 = .ok [9, 10, 11, 12] ∧
      (Use.rounds.foldl Use.apply (new 4)).read 104 = .ok [11, 12] ∧
      (Use.rounds.foldl Use.apply (new 4)).read 101 = .error (.dataLoss 101) ∧
      (Use.rounds.foldl Use.apply (new 4)).read 107 = .error (.outOfRange 107) := by
  have answers := (ring_exact 4 Use.rounds (by decide)).2
  refine ⟨?_, ?_, ?_, ?_⟩
  · exact (answers.read_held 102 (by decide) (by decide)).2
  · exact (answers.read_held 104 (by decide) (by decide)).2
  · exact (answers.read_lost 101 (by decide)).2
  · exact (answers.read_unwritten 107 (by decide)).2

end Backlog
end ReplicaStore.Stream
