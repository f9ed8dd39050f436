import ReplicaStore.Stream.Backlog

/-!
# The stream since an offset

A backlog that has taken up some bytes since an offset holds as many of them as its
ring can, and gives them back as a whole as long as they are all there.

The cells are filled and copied one by one around the ring.  This is the same as to go up to the
last cell in one piece and on from the first one in another (`Backlog.write_two_pieces`,
`Backlog.read_two_pieces`).
-/

namespace ReplicaStore.Stream.Backlog

/-! ### Filling the ring -/

/-- Steps that do not go once around lead to another cell. -/
theorem add_mod_ne {capacity index step : Nat} (some : 0 < step) (short : step < capacity) :
    (index + step) % capacity ≠ index % capacity := by
  intro same
  have around := Nat.sub_mod_eq_zero_of_mod_eq same
  rw [Nat.add_sub_cancel_left, Nat.mod_eq_of_lt short] at around
  omega

theorem get_fill_of_ne {capacity : Nat} {data : Bytes} {cell : Nat} (cells : Cells) (index : Nat)
    (apart : ∀ step < data.length, (index + step) % capacity ≠ cell) :
    (fill capacity cells index data).get cell = cells.get cell := by
  induction data generalizing cells index with
  | nil => rfl
  | cons byte data ih =>
      rw [fill, ih]
      · have first : index % capacity ≠ cell := apart 0 (by simp)
        rw [Cells.get_set, if_neg (Ne.symm first)]
      · intro step inside
        have later := apart (step + 1) (by simpa using inside)
        rwa [Nat.add_assoc, Nat.add_comm 1 step]

theorem get_fill {capacity : Nat} {data : Bytes} (cells : Cells) (index : Nat)
    (short : data.length ≤ capacity) (step : Nat) (inside : step < data.length) :
    (fill capacity cells index data).get ((index + step) % capacity) = data[step] := by
  induction data generalizing cells index step with
  | nil => exact absurd inside (Nat.not_lt_zero step)
  | cons byte data ih =>
      rw [List.length_cons] at short inside
      rw [fill]
      cases step with
      | zero =>
          rw [get_fill_of_ne]
          · simp
          · intro later within
            rw [Nat.add_assoc]
            exact add_mod_ne (by omega) (by omega)
      | succ step =>
          have later := ih (cells.set (index % capacity) byte) (index + 1) (by omega) step
            (by omega)
          rw [Nat.add_assoc, Nat.add_comm 1 step] at later
          simpa using later

/-! ### The ring in two pieces -/

/-- Stores bytes in consecutive cells, in one piece. -/
def store (cells : Cells) (index : Nat) : Bytes → Cells
  | [] => cells
  | byte :: rest => store (cells.set index byte) (index + 1) rest

/-- The bytes of consecutive cells, in one piece. -/
def slice (cells : Cells) (index count : Nat) : Bytes :=
  (List.range count).map fun step => cells.get (index + step)

theorem fill_append (capacity : Nat) (cells : Cells) (index : Nat) (first second : Bytes) :
    fill capacity cells index (first ++ second) =
      fill capacity (fill capacity cells index first) (index + first.length) second := by
  induction first generalizing cells index with
  | nil => rfl
  | cons byte first ih =>
      rw [List.cons_append, fill, ih, fill, List.length_cons, Nat.add_assoc, Nat.add_comm 1]

/-- In front of the last cell the ring is a row. -/
theorem fill_eq_store {capacity : Nat} {data : Bytes} (cells : Cells) {index : Nat}
    (within : index + data.length ≤ capacity) : fill capacity cells index data = store cells index data := by
  induction data generalizing cells index with
  | nil => rfl
  | cons byte data ih =>
      rw [List.length_cons] at within
      rw [fill, store, Nat.mod_eq_of_lt (by omega), ih _ (by omega)]

/-- Behind the last cell comes the first one. -/
theorem fill_around (capacity : Nat) (cells : Cells) (index : Nat) (data : Bytes) :
    fill capacity cells (capacity + index) data = fill capacity cells index data := by
  induction data generalizing cells index with
  | nil => rfl
  | cons byte data ih => rw [fill, fill, Nat.add_mod_left, Nat.add_assoc, ih]

theorem fill_two_pieces {capacity index : Nat} {data : Bytes} (cells : Cells)
    (inside : index < capacity) (short : data.length ≤ capacity) :
    fill capacity cells index data =
      store (store cells index (data.take (capacity - index))) 0 (data.drop (capacity - index)) := by
  have front : index + (data.take (capacity - index)).length ≤ capacity := by
    rw [List.length_take]
    omega
  conv => lhs; rw [← List.take_append_drop (capacity - index) data]
  rw [fill_append, fill_eq_store cells front]
  by_cases fits : data.length ≤ capacity - index
  · rw [List.drop_eq_nil_of_le fits, fill, store]
  · have full : index + (data.take (capacity - index)).length = capacity + 0 := by
      rw [List.length_take]
      omega
    have back : 0 + (data.drop (capacity - index)).length ≤ capacity := by
      rw [List.length_drop]
      omega
    rw [full, fill_around, fill_eq_store _ back]

theorem copy_two_pieces {backlog : Backlog} {index count : Nat} (inside : index < backlog.capacity)
    (short : count ≤ backlog.capacity) :
    backlog.copy index count =
      slice backlog.cells index (min count (backlog.capacity - index)) ++
        slice backlog.cells 0 (count - min count (backlog.capacity - index)) := by
  generalize cut : min count (backlog.capacity - index) = first
  have whole : count = first + (count - first) := by omega
  rw [copy, whole, List.range_add, List.map_append, List.map_map, ← whole]
  congr 1
  · refine List.map_congr_left fun step member => ?_
    have near := List.mem_range.mp member
    rw [Nat.mod_eq_of_lt (by omega)]
  · refine List.map_congr_left fun step member => ?_
    have near := List.mem_range.mp member
    have around : index + (first + step) = backlog.capacity + step := by omega
    rw [Function.comp_apply, around, Nat.add_mod_left, Nat.mod_eq_of_lt (by omega), Nat.zero_add]

theorem position_lt (backlog : Backlog) (offset : Int) : backlog.position offset < backlog.capacity :=
  Nat.mod_lt _ backlog.capacity_pos

/-- What a write keeps goes into the ring up to its last cell, and the rest from the first one on. -/
theorem write_two_pieces {backlog : Backlog} (active : backlog.active = true) (data : Bytes) :
    let skipped := data.length - backlog.capacity
    let kept := data.drop skipped
    let position := backlog.position (word (backlog.writeOffset + skipped))
    (backlog.write data).2.cells =
      store (store backlog.cells position (kept.take (backlog.capacity - position))) 0
        (kept.drop (backlog.capacity - position)) := by
  have short : (data.drop (data.length - backlog.capacity)).length ≤ backlog.capacity := by
    rw [List.length_drop]
    omega
  simp only [write, if_pos active]
  exact fill_two_pieces backlog.cells (backlog.position_lt _) short

/-- What is read comes from the ring up to its last cell, and the rest from the first one on. -/
theorem read_two_pieces {backlog : Backlog} {offset : Int}
    (bounded : backlog.held ≤ backlog.capacity) (readable : backlog.readable offset = .ok ()) :
    let length := (backlog.writeOffset - offset).toNat
    let position := backlog.position offset
    let first := min length (backlog.capacity - position)
    backlog.read offset =
      .ok (slice backlog.cells position first ++ slice backlog.cells 0 (length - first)) := by
  have short : (backlog.writeOffset - offset).toNat ≤ backlog.capacity := by
    simp only [Backlog.readable] at readable
    split at readable
    · cases readable
    · split at readable
      · cases readable
      · next held => omega
  rw [read, readable]
  exact congrArg Except.ok (copy_two_pieces (backlog.position_lt offset) short)

/-! ### Writing and reading -/

/-- The least number that is no offset any more. -/
def endOfOffsets : Int := 9223372036854775808

theorem position_add (backlog : Backlog) {offset : Int} (least : 0 ≤ offset) (count : Nat)
    (most : offset + count < endOfOffsets) :
    backlog.position (offset + count) = (backlog.position offset + count) % backlog.capacity := by
  simp only [endOfOffsets] at most
  have start : offset % 18446744073709551616 = offset := Int.emod_eq_of_lt least (by omega)
  have behind : (offset + count) % 18446744073709551616 = offset + count :=
    Int.emod_eq_of_lt (by omega) (by omega)
  have sum : (offset + count).toNat = offset.toNat + count := by omega
  rw [position, position, start, behind, sum, Nat.mod_add_mod]

/-- The bytes that an active backlog has taken up since an offset.  Of these the ring holds
the last ones. -/
structure Since (backlog : Backlog) (offset : Int) (bytes : Bytes) : Prop where
  active : backlog.active = true
  least : 0 ≤ offset
  span : backlog.writeOffset = offset + bytes.length
  bounded : backlog.held ≤ backlog.capacity
  cells : ∀ (index : Nat) (inside : index < bytes.length), bytes.length - index ≤ backlog.held →
    backlog.cells.get (backlog.position (offset + index)) = bytes[index]

namespace Since

variable {backlog : Backlog} {offset : Int} {bytes : Bytes}

/-- Nothing has been taken up since the end of the stream. -/
theorem nil (active : backlog.active = true) (least : 0 ≤ backlog.writeOffset)
    (bounded : backlog.held ≤ backlog.capacity) : backlog.Since backlog.writeOffset [] where
  active := active
  least := least
  span := by simp
  bounded := bounded
  cells := by
    intro index inside
    exact absurd inside (Nat.not_lt_zero index)

theorem read (since : backlog.Since offset bytes) (range : backlog.writeOffset < endOfOffsets)
    {tail : Bytes} (given : backlog.read offset = .ok tail) : tail = bytes := by
  have span := since.span
  have count : (backlog.writeOffset - offset).toNat = bytes.length := by omega
  simp only [Backlog.read, readable] at given
  split at given
  · cases given
  · split at given
    · cases given
    · next held =>
        cases given
        rw [count]
        apply List.ext_getElem
        · simp [copy]
        · intro index _ inside
          have there := since.cells index inside (by omega)
          rw [position_add backlog since.least index (by omega)] at there
          simpa [copy] using there

end Since

/-- The number of bytes of a write that the ring has no room for. -/
def skipped (backlog : Backlog) (data : Bytes) : Nat :=
  data.length - backlog.capacity

/-- A write within the range of offsets. -/
theorem write_eq {backlog : Backlog} (active : backlog.active = true) {data : Bytes}
    (least : 0 ≤ backlog.writeOffset) (range : backlog.writeOffset + data.length < endOfOffsets) :
    (backlog.write data).2 =
      { backlog with
        cells := fill backlog.capacity backlog.cells
          (backlog.position (backlog.writeOffset + backlog.skipped data))
          (data.drop (backlog.skipped data))
        writeOffset := backlog.writeOffset + data.length
        held := min (backlog.held + (data.length - backlog.skipped data)) backlog.capacity } := by
  simp only [endOfOffsets] at range
  have start : word (backlog.writeOffset + backlog.skipped data) =
      backlog.writeOffset + backlog.skipped data := by
    have within : backlog.skipped data ≤ data.length := Nat.sub_le ..
    exact word_eq_self (by omega) (by omega)
  have total : backlog.writeOffset + backlog.skipped data +
      ((data.length - backlog.skipped data : Nat) : Int) = backlog.writeOffset + data.length := by
    have within : backlog.skipped data ≤ data.length := Nat.sub_le ..
    omega
  have behind : word (backlog.writeOffset + data.length) = backlog.writeOffset + data.length :=
    word_eq_self (by omega) (by omega)
  rw [skipped] at start total
  rw [write, if_pos active]
  simp only [skipped, List.length_drop, start, total, behind]

/-- What is written is taken up. -/
theorem Since.write {backlog : Backlog} {offset : Int} {bytes : Bytes}
    (since : backlog.Since offset bytes) (data : Bytes)
    (range : backlog.writeOffset + data.length < endOfOffsets) :
    (backlog.write data).2.Since offset (bytes ++ data) := by
  have span := since.span
  have least := since.least
  have capacity := backlog.capacity_pos
  have skip : backlog.skipped data = data.length - backlog.capacity := rfl
  rw [write_eq since.active (by omega) range]
  refine ⟨since.active, least, ?_, Nat.min_le_right .., ?_⟩
  · simp only [List.length_append]
    omega
  · intro index inside held
    rw [List.length_append] at inside held
    dsimp only at held ⊢
    have kept : (data.drop (backlog.skipped data)).length ≤ backlog.capacity := by
      rw [List.length_drop]
      omega
    by_cases old : index < bytes.length
    · -- An old byte that is still held stands in front of everything that is written.
      have begin : backlog.position (backlog.writeOffset + backlog.skipped data) =
          (backlog.position (offset + index) + (bytes.length - index)) % backlog.capacity := by
        rw [← position_add backlog (by omega) (bytes.length - index) (by omega)]
        congr 1
        omega
      have own : backlog.position (offset + index) % backlog.capacity =
          backlog.position (offset + index) := Nat.mod_eq_of_lt (Nat.mod_lt _ capacity)
      rw [List.getElem_append_left old, ← since.cells index old (by omega)]
      apply get_fill_of_ne
      intro step within same
      rw [List.length_drop] at within
      rw [begin, Nat.mod_add_mod, Nat.add_assoc] at same
      exact add_mod_ne (by omega) (by omega) (same.trans own.symm)
    · -- A new byte that is held is one of those that were not skipped.
      have place : backlog.position (offset + index) =
          (backlog.position (backlog.writeOffset + backlog.skipped data) +
            (index - bytes.length - backlog.skipped data)) % backlog.capacity := by
        rw [← position_add backlog (by omega) _ (by omega)]
        congr 1
        omega
      have taken := get_fill backlog.cells
        (backlog.position (backlog.writeOffset + backlog.skipped data)) kept
        (index - bytes.length - backlog.skipped data) (by rw [List.length_drop]; omega)
      rw [← place] at taken
      rw [List.getElem_append_right (by omega)]
      refine taken.trans ?_
      rw [List.getElem_drop]
      congr 1
      omega

end ReplicaStore.Stream.Backlog
