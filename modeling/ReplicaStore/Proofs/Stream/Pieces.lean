import ReplicaStore.Link.Dialogue
import ReplicaStore.Proofs.Stream.Since
import ReplicaStore.Proofs.Stream.Steady
import ReplicaStore.Proofs.Wire.RoundTrip

/-!
# The pieces of a stream

What a leader adds to its stream is a sequence of commands, each in the bytes in which it
is sent.  Whoever cuts the stream into frames again gets back just these commands.
-/

namespace ReplicaStore.Stream

/-- One command of a stream, and exactly the bytes that it comes in. -/
structure Piece where
  arguments : List String
  raw : Bytes

namespace Piece

/-- A command in the form in which leaders send it. -/
def ofCommand (arguments : List String) : Piece where
  arguments := arguments
  raw := Wire.commandBytes arguments

/-- The bytes of several pieces, one behind the other. -/
def bytes (pieces : List Piece) : Bytes :=
  pieces.flatMap (·.raw)

@[simp] theorem bytes_nil : bytes [] = [] := rfl

@[simp] theorem bytes_cons (piece : Piece) (pieces : List Piece) :
    bytes (piece :: pieces) = piece.raw ++ bytes pieces :=
  List.flatMap_cons ..

@[simp] theorem bytes_append (first second : List Piece) :
    bytes (first ++ second) = bytes first ++ bytes second :=
  List.flatMap_append ..

/-- The bytes of a piece are read as just its command, whatever follows. -/
def Framed (piece : Piece) : Prop :=
  ∃ value : Wire.Value, value.arguments? = some piece.arguments ∧
    Wire.IsFrame (.value value) piece.raw

theorem framed_ofCommand {arguments : List String} (given : arguments ≠ [])
    (short : ((Wire.commandBytes arguments).length : Int) ≤ Text.maxSigned64) :
    (ofCommand arguments).Framed :=
  ⟨.command arguments, Wire.Value.arguments?_command arguments, fun rest =>
    Wire.readFrame_command (.of_length given short) rest⟩

theorem length_le_bytes {piece : Piece} {pieces : List Piece} (member : piece ∈ pieces) :
    piece.raw.length ≤ (bytes pieces).length := by
  induction pieces with
  | nil => cases member
  | cons first pieces ih =>
      rw [bytes_cons, List.length_append]
      rcases List.mem_cons.mp member with rfl | later
      · exact Nat.le_add_right ..
      · exact Nat.le_add_left_of_le (ih later)

/-- The actions that the frames of a stream call for. -/
def actions (bytes : Bytes) : List Link.Action :=
  (Wire.readFrames bytes).frames.flatMap fun (frame, raw) => Link.Dialogue.streamActions raw frame

/-- A stream calls for its commands to be reported, one after the other. -/
theorem actions_bytes {pieces : List Piece} (framed : ∀ piece ∈ pieces, piece.Framed) :
    actions (bytes pieces) = pieces.map fun piece => .report (.command piece.arguments piece.raw) := by
  have frames : ∃ frames : List (Wire.Frame × Bytes),
      (∀ frame ∈ frames, Wire.IsFrame frame.1 frame.2) ∧
      frames.flatMap (·.2) = bytes pieces ∧
      frames.flatMap (fun (frame, raw) => Link.Dialogue.streamActions raw frame) =
        pieces.map fun piece => .report (.command piece.arguments piece.raw) := by
    induction pieces with
    | nil => exact ⟨[], by simp, rfl, rfl⟩
    | cons piece pieces ih =>
        obtain ⟨frames, all, whole, calls⟩ := ih fun other member =>
          framed other (List.mem_cons_of_mem _ member)
        obtain ⟨value, arguments, isFrame⟩ := framed piece List.mem_cons_self
        refine ⟨(.value value, piece.raw) :: frames, ?_, ?_, ?_⟩
        · intro frame member
          rcases List.mem_cons.mp member with rfl | later
          · exact isFrame
          · exact all frame later
        · rw [List.flatMap_cons, whole, bytes_cons]
        · rw [List.flatMap_cons, calls]
          simp only [Link.Dialogue.streamActions, arguments]
          rfl
  obtain ⟨frames, all, whole, calls⟩ := frames
  rw [actions, ← whole, Wire.readFrames_flatMap all]
  exact calls

end Piece

namespace Coordinator

/-- The pieces by which the stream selects a database, if it has not selected it already. -/
def selection (coordinator : Coordinator) : Option Nat → List Piece
  | none => []
  | some index =>
      if coordinator.streamDatabase = some index then []
      else [.ofCommand ["SELECT", toString index]]

/-- The pieces that a command of a database adds to the stream. -/
def pieces (coordinator : Coordinator) (form : List String) (database : Option Nat) : List Piece :=
  coordinator.selection database ++ [.ofCommand form]

theorem bytes_pieces (coordinator : Coordinator) (form : List String) (database : Option Nat) :
    Piece.bytes (coordinator.pieces form database) =
      coordinator.streamBytes (Wire.commandBytes form) database := by
  cases database with
  | none => simp [pieces, selection, streamBytes, Piece.ofCommand]
  | some index =>
      simp only [pieces, selection, streamBytes]
      split <;> simp [Piece.ofCommand]

theorem framed_pieces {coordinator : Coordinator} {form : List String} (given : form ≠ [])
    {database : Option Nat}
    (short : ((Piece.bytes (coordinator.pieces form database)).length : Int) ≤ Text.maxSigned64) :
    ∀ piece ∈ coordinator.pieces form database, piece.Framed := by
  intro piece member
  have size := Piece.length_le_bytes member
  have command : ∃ arguments, arguments ≠ [] ∧ piece = .ofCommand arguments := by
    rcases List.mem_append.mp member with selects | issued
    · cases database with
      | none => cases selects
      | some index =>
          rw [selection] at selects
          split at selects
          · cases selects
          · exact ⟨_, List.cons_ne_nil _ _, List.mem_singleton.mp selects⟩
    · exact ⟨form, given, List.mem_singleton.mp issued⟩
  obtain ⟨arguments, some, rfl⟩ := command
  exact Piece.framed_ofCommand some (by rw [Piece.ofCommand] at size; dsimp only at size; omega)

end Coordinator
end ReplicaStore.Stream
