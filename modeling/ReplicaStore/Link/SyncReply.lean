import ReplicaStore.Link.Inbox
import ReplicaStore.Stream.Identity
import ReplicaStore.Text.Blank

/-!
# Answers to a request to synchronise

A leader answers `+FULLRESYNC id offset`, behind which a snapshot follows, or
`+CONTINUE`, behind which the stream goes on where it was left.  With the second
answer the history may have got another id meanwhile, which then follows the word.
-/

namespace ReplicaStore.Link

/-- What a leader answers to a request to synchronise. -/
inductive SyncReply where
  /-- A snapshot comes first; the stream begins at the offset. -/
  | fullSync (id : String) (offset : Int)
  | continued (id : Option String)
  deriving DecidableEq, Repr

/-- The answer that the words of a line are, if they are one. -/
def SyncReply.ofWords? : List String → Option SyncReply
  | ["FULLRESYNC", id, offset] =>
      if Stream.isValidId id then (Text.readSigned64 offset).map (.fullSync id) else none
  | ["CONTINUE"] => some (.continued none)
  | ["CONTINUE", id] => if Stream.isValidId id then some (.continued (some id)) else none
  | _ => none

/-- Reads the line of an answer.  Anything but an answer ends the link. -/
def SyncReply.ofLine (line : String) : Except LinkError SyncReply :=
  let reply := match line.toList with
    | '+' :: text => ofWords? (Text.words (String.ofList text))
    | _ => none
  match reply with
  | some reply => .ok reply
  | none => .error (.unexpectedReply line)

end ReplicaStore.Link
