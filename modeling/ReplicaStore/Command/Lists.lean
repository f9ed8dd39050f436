import ReplicaStore.Command.Keys

/-!
# Commands on lists
-/

namespace ReplicaStore.Command

open CommandM

/-- The items of a list under a key, if there is one. -/
def items? : Option Datum → CommandM (Option (List String))
  | some (.list items) => return some items
  | some (.text _) => throw .wrongType
  | none => return none

/-- Reads a list. -/
def readList (key : String) : CommandM (Option (List String)) := do
  let now ← now
  items? (← onPartition fun partition => partition.get key now)

/-- Changes the items of a list and leaves any other value alone. -/
def onItems (change : List String → List String) : Datum → Datum
  | .list items => .list (change items)
  | other => other

/-- Changes a list in place, its expiry kept, and gives the items it had. -/
def changeList (key : String) (change : List String → List String) :
    CommandM (Option (List String)) := do
  let now ← now
  items? (← onPartition fun partition => partition.modify key now (onItems change))

/-- The end of a list at which values are pushed. -/
inductive Side where
  | head
  | tail
  deriving DecidableEq, Repr

/-- Pushes values one after the other. -/
def Side.push (side : Side) (values items : List String) : List String :=
  match side with
  | head => values.reverse ++ items
  | tail => items ++ values

/-- Pushes values to a list and gives its new length.  A list that does not exist is
created unless `onlyExisting`. -/
def push (name : String) (side : Side) (onlyExisting : Bool) : Handler
  | key :: value :: more => do
      let values := value :: more
      match ← changeList key (side.push values) with
      | some items => count (items.length + values.length)
      | none =>
          if onlyExisting then count 0
          else
            let items := side.push values []
            onPartition fun partition => ((), partition.put key { datum := .list items })
            count items.length
  | _ => throw (.wrongArity name)

def rpush : Handler := push "rpush" .tail false

def lpush : Handler := push "lpush" .head false

def rpushx : Handler := push "rpushx" .tail true

def lpushx : Handler := push "lpushx" .head true

/-- Removes items from the head of a list.  A list left empty is removed. -/
def pop (key : String) (count : Nat) : CommandM (Option (List String)) := do
  match ← changeList key (·.drop count) with
  | none => return none
  | some items =>
      if (items.drop count).isEmpty then
        onPartition fun partition => ((), partition.delete key)
      return some (items.take count)

/-- `LPOP key [count]`: one item, or with a count an array of them. -/
def lpop : Handler
  | [key] => do
      match ← pop key 1 with
      | some (item :: _) => return [.bulk item]
      | _ => return [.null]
  | [key, count] => do
      let count ← integer count
      if count < 0 then throw (.custom "ERR value is out of range, must be positive")
      match ← pop key count.toNat with
      | some items => return [.strings items]
      | none => return [.null]
  | _ => throw (.wrongArity "lpop")

/-- The items from one index to another, both included.  A negative index counts from
the end, and the part of the range outside the list is left out. -/
def range (items : List String) (start stop : Int) : List String :=
  let length : Int := items.length
  let fromHead (index : Int) : Int := if index < 0 then length + index else index
  let first := max 0 (fromHead start)
  let last := min (fromHead stop) (length - 1)
  (items.drop first.toNat).take (last - first + 1).toNat

/-- `LRANGE key start stop`. -/
def lrange : Handler
  | [key, start, stop] => do
      let start ← integer start
      let stop ← integer stop
      let items ← readList key
      return [.strings (range (items.getD []) start stop)]
  | _ => throw (.wrongArity "lrange")

/-- `LLEN key`. -/
def llen : Handler
  | [key] => do
      let items ← readList key
      count (items.getD []).length
  | _ => throw (.wrongArity "llen")

end ReplicaStore.Command
