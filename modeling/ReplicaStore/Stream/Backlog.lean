import ReplicaStore.Bytes
import ReplicaStore.Stream.Cells

/-!
# The backlog

The replication stream is addressed by absolute offsets.  A backlog keeps its most
recent bytes in a ring of fixed capacity: the byte at an offset lives in the cell
`offset mod capacity`, so a write overwrites exactly the bytes that have become
too old.

Offsets are words of 64 signed bits, and a sum that leaves these bits wraps.  Whether
a program that comes there goes on at all is up to how its arithmetic is checked;
what is said of streams asks that their offsets fit.
-/

namespace ReplicaStore.Stream

/-- The word of 64 signed bits with the residue of a number. -/
def word (value : Int) : Int :=
  value.bmod 18446744073709551616

theorem word_eq_self {value : Int} (low : -9223372036854775808 ≤ value)
    (high : value < 9223372036854775808) :
    word value = value := by
  simp only [word]
  exact Int.bmod_eq_of_le (by omega) (by omega)

/-- Why stream bytes cannot be read. -/
inductive BacklogError where
  | outOfRange (offset : Int)
  | dataLoss (offset : Int)
  deriving DecidableEq, Repr

def BacklogError.message : BacklogError → String
  | outOfRange offset => s!"offset {offset} has not been written yet"
  | dataLoss offset => s!"offset {offset} has been overwritten"

/-- A ring of the most recent stream bytes. -/
structure Backlog where
  capacity : Nat
  cells : Cells := {}
  writeOffset : Int := 0
  startOffset : Int := 0
  held : Nat := 0
  active : Bool := false
  capacity_pos : 0 < capacity
  deriving Repr

namespace Backlog

/-- An inactive backlog at offset zero.  A ring has at least one cell. -/
def new (capacity : Nat) : Backlog where
  capacity := max 1 capacity
  capacity_pos := by omega

/-- The cell in which the byte at an offset lives. -/
def position (backlog : Backlog) (offset : Int) : Nat :=
  (offset % 18446744073709551616).toNat % backlog.capacity

/-- Stores bytes in consecutive cells, continuing at cell zero after the last one. -/
def fill (capacity : Nat) (cells : Cells) (index : Nat) : Bytes → Cells
  | [] => cells
  | byte :: rest => fill capacity (cells.set (index % capacity) byte) (index + 1) rest

/-- The bytes of a number of consecutive cells. -/
def copy (backlog : Backlog) (index count : Nat) : Bytes :=
  (List.range count).map fun step => backlog.cells.get ((index + step) % backlog.capacity)

/-- Appends bytes to the stream and tells how many of them the ring took up.  Of a
write longer than the ring only the end is kept.  Nothing is recorded while the
backlog is inactive. -/
def write (backlog : Backlog) (data : Bytes) : Nat × Backlog :=
  if backlog.active then
    let skipped := data.length - backlog.capacity
    let kept := data.drop skipped
    let offset := word (backlog.writeOffset + skipped)
    (kept.length,
      { backlog with
        cells := fill backlog.capacity backlog.cells (backlog.position offset) kept
        writeOffset := word (offset + kept.length)
        held := min (backlog.held + kept.length) backlog.capacity })
  else (0, backlog)

/-- The oldest offset that can still be read. -/
def firstOffset (backlog : Backlog) : Int :=
  word (backlog.writeOffset - backlog.held)

/-- Checks that every byte from an offset up to the end of the stream is still held. -/
def readable (backlog : Backlog) (offset : Int) : Except BacklogError Unit :=
  if backlog.writeOffset < offset then .error (.outOfRange offset)
  else if offset < 0 ∨ (backlog.held : Int) < backlog.writeOffset - offset then
    .error (.dataLoss offset)
  else .ok ()

/-- The bytes from an offset up to the end of the stream. -/
def read (backlog : Backlog) (offset : Int) : Except BacklogError Bytes :=
  (backlog.readable offset).map fun _ =>
    backlog.copy (backlog.position offset) (backlog.writeOffset - offset).toNat

/-- Restarts the stream at an offset with nothing recorded. -/
def reset (backlog : Backlog) (offset : Int) : Backlog :=
  { backlog with writeOffset := offset, startOffset := offset, held := 0 }

def activate (backlog : Backlog) : Backlog :=
  { backlog with active := true }

def deactivate (backlog : Backlog) : Backlog :=
  { backlog with active := false }

end Backlog
end ReplicaStore.Stream
