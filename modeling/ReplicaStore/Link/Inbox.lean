import ReplicaStore.Text.Integer
import ReplicaStore.Wire.Frame

/-!
# Reading from a leader

The dialogue with a leader is made of lines, one block of bytes whose length was
announced, and the command stream behind it.  All of them are read through one
buffer, so nothing that was read ahead is lost.
-/

namespace ReplicaStore.Link

/-- Why a link to a leader ended. -/
inductive LinkError where
  | failed (reason : String)
  | closed
  | invalidText
  | malformed (error : Wire.WireError)
  | unexpectedReply (line : String)
  | timedOut
  deriving DecidableEq, Repr

def LinkError.message : LinkError → String
  | failed reason => s!"I/O error: {reason}"
  | closed => "connection closed"
  | invalidText => "invalid UTF-8 sequence"
  | malformed error => s!"RESP parse error: {error.message}"
  | unexpectedReply line => s!"invalid response from master: {line}"
  | timedOut => "timed out"

/-- Bytes read but not consumed, and the reads still to come.  An empty read, like
the end of the list, is the end of the stream. -/
structure Inbox where
  buffer : Bytes := []
  unread : List Bytes := []
  deriving DecidableEq, Repr

/-- Looks for a line in what has been read. -/
inductive LineScan where
  | more (buffer : Bytes)
  | found (line : Bytes) (rest : Bytes)
  deriving Repr

/-- Drops the newlines in front of a line and counts them, then looks for its end. -/
def scanLine (buffer : Bytes) : Nat × LineScan :=
  let count := (buffer.takeWhile (· == 10)).length
  let behind := buffer.dropWhile (· == 10)
  match Bytes.splitLine behind with
  | some (line, rest) => (count, .found line rest)
  | none => (count, .more behind)

/-- The text of a line. -/
def lineText (line : Bytes) : Except LinkError String :=
  match Bytes.text? line with
  | some text => .ok text
  | none => .error .invalidText

/-- What a request for a line or a block of bytes came to. -/
structure Received (α : Type) where
  result : Except LinkError α
  /-- The newlines that stood in front of the line, each one a sign of life. -/
  heartbeats : Nat
  inbox : Inbox

namespace Inbox

/-- Reads a line, counting on from the newlines already seen. -/
def readLineFrom (seen : Nat) (buffer : Bytes) (unread : List Bytes) : Received String :=
  match scanLine buffer with
  | (count, .found line rest) => ⟨lineText line, seen + count, ⟨rest, unread⟩⟩
  | (count, .more behind) =>
      match unread with
      | [] => ⟨.error .closed, seen + count, ⟨behind, []⟩⟩
      | [] :: later => ⟨.error .closed, seen + count, ⟨behind, later⟩⟩
      | (byte :: chunk) :: later => readLineFrom (seen + count) (behind ++ byte :: chunk) later
termination_by unread.length

/-- Reads one line without its terminator.  Newlines in front of it are not part of
it. -/
def readLine (inbox : Inbox) : Received String :=
  readLineFrom 0 inbox.buffer inbox.unread

/-- Reads a block of the given length, given what has been read so far. -/
def readBlockFrom (length : Nat) (buffer : Bytes) (unread : List Bytes) : Received Bytes :=
  if buffer.length < length then
    match unread with
    | [] => ⟨.error .closed, 0, ⟨buffer, []⟩⟩
    | [] :: later => ⟨.error .closed, 0, ⟨buffer, later⟩⟩
    | (byte :: chunk) :: later => readBlockFrom length (buffer ++ byte :: chunk) later
  else ⟨.ok (buffer.take length), 0, ⟨buffer.drop length, unread⟩⟩
termination_by unread.length

/-- Reads exactly `length` bytes. -/
def readBlock (inbox : Inbox) (length : Nat) : Received Bytes :=
  readBlockFrom length inbox.buffer inbox.unread

end Inbox

/-- The length announced in front of a block of bytes. -/
def blockLength (line : String) : Except LinkError Nat :=
  match line.toList with
  | '$' :: digits =>
      match Text.readUnsigned64 (String.ofList digits) with
      | some length => .ok length
      | none => .error (.unexpectedReply line)
  | _ => .error (.unexpectedReply line)

end ReplicaStore.Link
