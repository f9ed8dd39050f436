import ReplicaStore.Proofs.Node.Chronicle
import ReplicaStore.Proofs.Stream.Waiting

/-!
# Streams that begin at any offset

Where a stream begins is said by others: a replica by the offset it asks for, a leader by the
offset of its snapshot.  As long as the stream stays between zero and the greatest offset, its
end moves forward only, and what is read of it is what was written
(`Node.Chronicled.stream_exact`).  Outside, neither is so.

A stream that comes to the greatest offset goes on at the least one, unless a check of the sum ends
the program there (`writeOffset_lt_iff` says where that is).  A stream that begins below zero can be
read from zero on, but the cells on both sides of zero do not follow each other unless the size of
the ring divides 2^64 (`position_across_zero_iff`), so what was written across zero is looked for in
the wrong cells (`read_across_zero`).
-/

namespace ReplicaStore

namespace Stream

/-- A number that is too great for a word by less than its size. -/
theorem word_above {value : Int} (low : 9223372036854775808 ≤ value)
    (high : value < 27670116110564327424) : word value = value - 18446744073709551616 := by
  simp only [word, Int.bmod_def]
  omega

namespace Backlog

variable {backlog : Backlog} {data : Bytes}

/-! ### The end of the stream -/

/-- The end of the stream moves by the number of bytes that are written, as far as words go. -/
theorem writeOffset_write (active : backlog.active = true) (data : Bytes) :
    (backlog.write data).2.writeOffset = word (backlog.writeOffset + data.length) := by
  have whole : ((data.length - backlog.capacity : Nat) : Int) +
      ((data.drop (data.length - backlog.capacity)).length : Int) = data.length := by
    rw [List.length_drop]
    omega
  rw [write, if_pos active]
  simp only [word, Int.bmod_add_bmod]
  rw [Int.add_assoc, whole]

/-- The end of the stream moves back where it would leave the words, and only there. -/
theorem writeOffset_lt_iff (active : backlog.active = true)
    (least : Text.minSigned64 ≤ backlog.writeOffset)
    (most : backlog.writeOffset ≤ Text.maxSigned64) (size : data.length ≤ Text.maxSigned64) :
    (backlog.write data).2.writeOffset < backlog.writeOffset ↔
      Text.maxSigned64 < backlog.writeOffset + data.length := by
  rw [writeOffset_write active]
  simp only [Text.minSigned64, Text.maxSigned64] at least most size ⊢
  by_cases fits : backlog.writeOffset + data.length < 9223372036854775808
  · rw [word_eq_self (by omega) fits]
    omega
  · rw [word_above (by omega) (by omega)]
    omega

/-! ### Cells on both sides of zero -/

/-- Offsets below zero are taken for words without a sign, so the cells in front of zero are
those in front of the cell of 2^64. -/
theorem position_across_zero {offset : Int} (least : Text.minSigned64 ≤ offset) (below : offset < 0)
    {count : Nat} (across : 0 ≤ offset + count) (most : offset + count ≤ Text.maxSigned64) :
    (backlog.position offset + count) % backlog.capacity =
      (backlog.position (offset + count) + 18446744073709551616) % backlog.capacity := by
  simp only [Text.minSigned64, Text.maxSigned64] at least most
  have sum : (offset % 18446744073709551616).toNat + count =
      ((offset + count) % 18446744073709551616).toNat + 18446744073709551616 := by
    omega
  rw [position, position, Nat.mod_add_mod, Nat.mod_add_mod, sum]

/-- The cells follow each other across zero if the size of the ring divides 2^64, and only then. -/
theorem position_across_zero_iff {offset : Int} (least : Text.minSigned64 ≤ offset)
    (below : offset < 0) {count : Nat} (across : 0 ≤ offset + count)
    (most : offset + count ≤ Text.maxSigned64) :
    (backlog.position offset + count) % backlog.capacity = backlog.position (offset + count) ↔
      backlog.capacity ∣ 18446744073709551616 := by
  have own : backlog.position (offset + count) % backlog.capacity = backlog.position (offset + count) :=
    Nat.mod_eq_of_lt (Nat.mod_lt _ backlog.capacity_pos)
  rw [position_across_zero least below across most]
  constructor
  · intro same
    have around := Nat.sub_mod_eq_zero_of_mod_eq (same.trans own.symm)
    rw [Nat.add_sub_cancel_left] at around
    exact Nat.dvd_of_mod_eq_zero around
  · rintro ⟨rounds, whole⟩
    rw [whole, Nat.add_mul_mod_self_left, own]

/-- What is written across zero by one write that the ring has room for can be read from zero
on.  What is read are the bytes of the cells behind the first one; what was written stands as
many cells further on as 2^64 has left over when it is divided by the size of the ring. -/
theorem read_across_zero (active : backlog.active = true)
    (least : Text.minSigned64 ≤ backlog.writeOffset) (below : backlog.writeOffset < 0)
    (room : data.length ≤ backlog.capacity) (across : 0 ≤ backlog.writeOffset + data.length)
    (most : backlog.writeOffset + data.length ≤ Text.maxSigned64) :
    ∃ tail, (backlog.write data).2.read 0 = .ok tail ∧
      tail.length = (backlog.writeOffset + data.length).toNat ∧
      (∀ step (inside : step < tail.length),
        tail[step] = (backlog.write data).2.cells.get (step % backlog.capacity)) ∧
      ∀ step (inside : step < (data.drop (-backlog.writeOffset).toNat).length),
        (data.drop (-backlog.writeOffset).toNat)[step] =
          (backlog.write data).2.cells.get ((step + 18446744073709551616) % backlog.capacity) := by
  have skip : data.length - backlog.capacity = 0 := Nat.sub_eq_zero_of_le room
  simp only [Text.minSigned64, Text.maxSigned64] at least most
  have start : word backlog.writeOffset = backlog.writeOffset :=
    word_eq_self (by omega) (by omega)
  have ends : word (backlog.writeOffset + data.length) = backlog.writeOffset + data.length :=
    word_eq_self (by omega) (by omega)
  have written : (backlog.write data).2 =
      { backlog with
        cells := fill backlog.capacity backlog.cells (backlog.position backlog.writeOffset) data
        writeOffset := backlog.writeOffset + data.length
        held := min (backlog.held + data.length) backlog.capacity } := by
    rw [write, if_pos active]
    simp only [skip, List.drop_zero, Int.natCast_zero, Int.add_zero, start, ends]
  have readable : (backlog.write data).2.readable 0 = .ok () := by
    rw [written, Backlog.readable, if_neg (by dsimp only; omega), if_neg (by dsimp only; omega)]
  refine ⟨_, by rw [Backlog.read, readable]; rfl, ?_, ?_, ?_⟩
  · rw [written]
    simp only [copy, List.length_map, List.length_range, Int.sub_zero]
  · intro step inside
    have zero : (backlog.write data).2.position 0 = 0 := Nat.zero_mod _
    simp only [copy, List.getElem_map, List.getElem_range, zero, Nat.zero_add,
      (backlog.write_frame data).2]
  · intro step inside
    rw [List.length_drop] at inside
    have stored := get_fill backlog.cells (backlog.position backlog.writeOffset) room
      ((-backlog.writeOffset).toNat + step) (by omega)
    have place : backlog.writeOffset + (((-backlog.writeOffset).toNat + step : Nat) : Int) = step := by
      omega
    have cell := @position_across_zero backlog backlog.writeOffset
      (by simp only [Text.minSigned64]; omega) below ((-backlog.writeOffset).toNat + step)
      (by omega) (by simp only [Text.maxSigned64]; omega)
    have near : backlog.position (step : Int) = step % backlog.capacity := by
      have small : (step : Int) % 18446744073709551616 = step := Int.emod_eq_of_lt (by omega) (by omega)
      rw [position, small, Int.toNat_natCast]
    rw [place, near, Nat.mod_add_mod] at cell
    rw [written, List.getElem_drop]
    dsimp only
    rw [← cell]
    exact stored.symm

/-- In a ring whose size divides 2^64, what is written across zero is read as it was written. -/
theorem read_across_zero_of_dvd (active : backlog.active = true)
    (least : Text.minSigned64 ≤ backlog.writeOffset) (below : backlog.writeOffset < 0)
    (room : data.length ≤ backlog.capacity) (across : 0 ≤ backlog.writeOffset + data.length)
    (most : backlog.writeOffset + data.length ≤ Text.maxSigned64)
    (even : backlog.capacity ∣ 18446744073709551616) :
    (backlog.write data).2.read 0 = .ok (data.drop (-backlog.writeOffset).toNat) := by
  obtain ⟨tail, given, size, cells, stored⟩ :=
    read_across_zero active least below room across most
  rw [given]
  congr 1
  apply List.ext_getElem
  · rw [size, List.length_drop]
    omega
  · intro step inside within
    obtain ⟨rounds, whole⟩ := even
    rw [cells step inside, stored step within, whole, Nat.add_mul_mod_self_left]

/-- A stream that begins at -5 with ten bytes, in a ring of ten cells.  Of the five that can be
read, only the last comes out, and not in its place. -/
theorem misread_across_zero :
    ((((new 10).reset (-5)).activate.write [1, 2, 3, 4, 5, 6, 7, 8, 9, 10]).2.read 0).toOption =
      some [10, 1, 2, 3, 4] := by
  decide +kernel

/-- A stream that begins at the greatest offset, with one byte. -/
theorem runs_back :
    (((new 10).reset Text.maxSigned64).activate.write [1]).2.writeOffset = Text.minSigned64 := by
  decide +kernel

end Backlog

namespace Coordinator

variable {coordinator : Coordinator} {clients : Clients} {now : Nat} {client : ClientId}

/-- Whoever asks first decides where the stream begins. -/
theorem offset_beginFullResync (unrecorded : coordinator.backlog = none) (offset : Int) :
    (coordinator.beginFullResync clients now client offset).offset = max offset 0 := by
  simp only [beginFullResync, unrecorded]
  rfl

/-- A replica that asks first, and asks for an offset so great that the next command does not
fit in front of the greatest one, has the stream run back with this command, where sums are not
checked. -/
theorem offset_feed_lt (unrecorded : coordinator.backlog = none) {offset : Int}
    (most : offset ≤ Text.maxSigned64) {data : Bytes} (size : data.length ≤ Text.maxSigned64)
    (beyond : Text.maxSigned64 < offset + data.length) :
    ((coordinator.beginFullResync clients now client offset).feed clients data none).1.offset <
      (coordinator.beginFullResync clients now client offset).offset := by
  have positive : 0 ≤ offset := by omega
  have begun : (coordinator.beginFullResync clients now client offset).backlog =
      some ((Backlog.new coordinator.backlogSize).reset (max offset 0)).activate := by
    simp only [beginFullResync, unrecorded]
    rfl
  simp only [Coordinator.offset, feed, begun, streamBytes, Option.map_some, Option.getD_some]
  refine (Backlog.writeOffset_lt_iff rfl ?_ ?_ size).mpr ?_
  all_goals
    simp only [Backlog.activate, Backlog.reset, Text.minSigned64, Text.maxSigned64] at *
    omega

end Coordinator
end Stream

/-! ### The stream of a node -/

namespace Node

open ReplicaStore.Stream (Backlog Chronicle Coordinator)

variable {node : Node} {chronicle : Chronicle}

/-- A leader's snapshot puts the stream at any offset that the leader names. -/
theorem offset_applyFullSync {history : String} {offset : Int} {payload : Bytes}
    (readable : (Snapshot.commandsOf payload).toOption.isSome = true) :
    (node.applyFullSync history offset payload).coordinator.offset = offset := by
  have reached : (node.applyFullSync history offset payload).coordinator = _ :=
    congrArg Prod.fst (applyFullSync_desk readable)
  rw [reached]
  rfl

/-- As long as the offsets of the stream are in range, what can be read of it from an offset is
all that was added to it from there on, and its end moves on by just the bytes that are added,
unless a snapshot of a leader puts it elsewhere. -/
theorem Chronicled.stream_exact (chronicled : node.Chronicled chronicle) :
    (∀ (backlog : Backlog) (place : Int) (tail : Bytes), node.coordinator.backlog = some backlog →
        backlog.read place = .ok tail →
        chronicle.Reaches place ∧ tail = chronicle.since place) ∧
      ∀ (happening : Happening) (later : Node), node.next? happening = some later →
        (chronicle.next node happening later).InRange → node.loads happening = false →
        node.coordinator.backlog.isSome = true → later.coordinator.backlog.isSome = true →
        later.coordinator.offset =
          node.coordinator.offset + (Stream.Piece.bytes (node.added happening)).length := by
  constructor
  · intro backlog place tail recorded given
    exact chronicled.kept.read chronicled.inRange recorded given
  · intro happening later happened range same recorded still
    have kept := (chronicled.next happening happened range).kept
    rw [Chronicle.next_of_recorded recorded same] at kept
    rw [kept.offset_eq still, Chronicle.ends_extend, chronicled.kept.offset_eq recorded]

end Node
end ReplicaStore
