import ReplicaStore.Command.Keys

/-!
# Commands on strings
-/

namespace ReplicaStore.Command

open CommandM

/-- `GET key`. -/
def get : Handler
  | [key] => do
      let now ← now
      match ← onPartition fun partition => partition.get key now with
      | some (.text content) => return [.bulk content]
      | some (.list _) => throw .wrongType
      | none => return [.null]
  | _ => throw (.wrongArity "get")

/-- What MGET shows of a key: only strings. -/
def shown : Option Datum → Wire.Value
  | some (.text content) => .bulk content
  | _ => .null

/-- `MGET key...`. -/
def mget : Handler := fun keys => do
  let now ← now
  let found ← onPartition (forEach (fun partition key => partition.get key now) keys)
  return [.array (found.map shown)]

/-- An expiry that SET was asked for. -/
structure SetExpiry where
  moment : Int
  /-- Whether it was given as a time from now. -/
  relative : Bool
  deriving DecidableEq, Repr

/-- Reads `[PX milliseconds | PXAT moment]`.  A time from now becomes a moment at once,
so that replicas can be told the same one. -/
def setExpiry? (now : Int) (found : Option SetExpiry) :
    List String → Except CommandError (Option SetExpiry)
  | [] => .ok found
  | [_] => .error .badSyntax
  | option :: amount :: rest =>
      if found.isSome then .error .badSyntax
      else
        match Text.readSigned64 amount with
        | none => .error .notAnInteger
        | some amount =>
            if amount ≤ 0 then .error (.invalidExpireTime "set")
            else
              match Text.upper option with
              | "PX" =>
                  setExpiry? now (some ⟨min (now + amount) Text.maxSigned64, true⟩) rest
              | "PXAT" => setExpiry? now (some ⟨amount, false⟩) rest
              | _ => .error .badSyntax

/-- `SET key value [PX milliseconds | PXAT moment]`.  An expiry given as a time from now
is replicated as the moment that it means. -/
def set : Handler
  | key :: value :: options => do
      let expiry ← liftM (m := Except CommandError) (setExpiry? (← now) none options)
      let moment := expiry.map (·.moment)
      if let some ⟨moment, true⟩ := expiry then
        changeSession fun session =>
          { session with propagateAs := some ["SET", key, value, "PXAT", toString moment] }
      onPartition fun partition => ((), partition.put key { datum := .text value, expiry := moment })
      ok
  | _ => throw (.wrongArity "set")

/-- Stores keys and values given in turn. -/
def putPairs (partition : Partition) : List String → Partition
  | key :: value :: rest => putPairs (partition.put key { datum := .text value }) rest
  | _ => partition

/-- `MSET key value...`: every key loses its expiry. -/
def mset : Handler := fun arguments => do
  if arguments.isEmpty || arguments.length % 2 != 0 then throw (.wrongArity "mset")
  onPartition fun partition => ((), putPairs partition arguments)
  ok

end ReplicaStore.Command
