import ReplicaStore.Command.Basic

/-!
# Commands on keys of any kind
-/

namespace ReplicaStore.Command

open CommandM

/-- Runs a step on a partition for each of several keys and collects the results. -/
def forEach {α : Type} (step : Partition → String → α × Partition) (keys : List String)
    (partition : Partition) : List α × Partition :=
  let (results, partition) := keys.foldl
    (fun (results, partition) key =>
      let (result, partition) := step partition key
      (result :: results, partition))
    ([], partition)
  (results.reverse, partition)

/-- Removes a key and tells whether it was there.  A key whose time had come is reaped
and does not count. -/
def removeLive (now : Int) (partition : Partition) (key : String) : Bool × Partition :=
  let (found, partition) := partition.contains key now
  if found then partition.remove key else (false, partition)

/-- `DEL key...`: the number of keys that were removed. -/
def del : Handler := fun keys => do
  let now ← now
  let removed ← onPartition (forEach (removeLive now) keys)
  count (removed.countP id)

/-- `EXISTS key...`: the number of keys that exist; a key given twice counts twice. -/
def countExisting : Handler := fun keys => do
  let now ← now
  let found ← onPartition (forEach (fun partition key => partition.contains key now) keys)
  count (found.countP id)

/-- `DBSIZE`: the number of keys in the database. -/
def dbsize : Handler := fun _ => do
  let size ← onPartition fun partition => (partition.size, partition)
  count size

/-- Gives a key an expiry and tells whether it was there.  A key whose time would have
come is removed at once. -/
def expireAt (now : Int) (key : String) (moment : Int) (partition : Partition) :
    Bool × Partition :=
  match partition.get key now with
  | (none, partition) => (false, partition)
  | (some datum, partition) =>
      (true,
        if moment ≤ now then partition.delete key
        else partition.put key { datum, expiry := some moment })

/-- `PEXPIREAT key milliseconds`: whether the key exists. -/
def pexpireat : Handler
  | [key, moment] => do
      let moment ← integer moment
      let now ← now
      let found ← onPartition (expireAt now key moment)
      count (if found then 1 else 0)
  | _ => throw (.wrongArity "pexpireat")

/-- `FLUSHALL [ASYNC|SYNC]`: empties all databases. -/
def flushall : Handler := fun arguments => do
  match arguments with
  | [] => pure ()
  | [mode] =>
      if Text.sameIgnoringCase mode "async" || Text.sameIgnoringCase mode "sync" then pure ()
      else throw .badSyntax
  | _ => throw .badSyntax
  changeNode fun node => { node with partitions := node.partitions.flush }
  ok

end ReplicaStore.Command
