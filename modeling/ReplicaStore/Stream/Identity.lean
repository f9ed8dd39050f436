/-!
# Replication identity

A replication id names one history of the stream.  A node keeps the id of its own
history and that of the history it continued, together with the offset at which
the latter ended: whoever followed the earlier history no further than that shares
all of its bytes with this node.

Ids are drawn from a supply.  A node must never draw the same id twice, and a count
written out in the width of an id guarantees just that.
-/

namespace ReplicaStore.Stream

/-- The length of a replication id. -/
def idLength : Nat := 40

/-- The id that stands for no history. -/
def emptyId : String :=
  String.ofList (List.replicate idLength '0')

/-- The id drawn as the `count`-th one. -/
def drawnId (count : Nat) : String :=
  let digits := (toString count).toList
  String.ofList ('R' :: (List.replicate (idLength - 1 - digits.length) '0' ++ digits))

/-- Forty ASCII letters or digits. -/
def isValidId (id : String) : Bool :=
  id.toList.length == idLength && id.toList.all fun character => character.isAlphanum

/-- The id of a node's history, and the history before it. -/
structure Identity where
  current : String
  previous : String := emptyId
  /-- The offset at which the previous history ended, -1 when there was none. -/
  previousEnd : Int := -1
  deriving DecidableEq, Repr

namespace Identity

/-- Forgets the previous history. -/
def clearPrevious (identity : Identity) : Identity :=
  { identity with previous := emptyId, previousEnd := -1 }

/-- Takes over the history of another node. -/
def adopt (_identity : Identity) (id : String) : Identity :=
  { current := id }

/-- Ends the current history at an offset and continues it under another id. -/
def shift (identity : Identity) (id : String) (offset : Int) : Identity :=
  { current := id, previous := identity.current, previousEnd := offset }

/-- Whether a node that followed the history `id` up to `offset` shares this history. -/
def sharesHistory (identity : Identity) (id : String) (offset : Int) : Bool :=
  id == identity.current || (id == identity.previous && offset ≤ identity.previousEnd)

@[simp] theorem sharesHistory_current (identity : Identity) (offset : Int) :
    identity.sharesHistory identity.current offset = true := by
  simp [sharesHistory]

end Identity
end ReplicaStore.Stream
