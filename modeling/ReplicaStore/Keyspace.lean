import Std.Data.ExtTreeMap

/-!
# Keyspaces

A keyspace maps keys to what is stored under them: a value and, for some, the
moment at which it expires, in milliseconds of Unix time.  Keeping both in one
entry means that no expiry can outlive its value.
-/

namespace ReplicaStore

/-- A stored value. -/
inductive Datum where
  | text (content : String)
  | list (items : List String)
  deriving DecidableEq, Repr, Inhabited

namespace Datum

/-- The name by which a kind of value is reported. -/
def kind : Datum → String
  | text _ => "string"
  | list _ => "list"

end Datum

/-- What a key holds. -/
structure Entry where
  datum : Datum
  expiry : Option Int := none
  deriving DecidableEq, Repr, Inhabited

/-- Whether an entry's time has come. -/
def Entry.expired (entry : Entry) (now : Int) : Bool :=
  entry.expiry.any (· ≤ now)

/-- Keys with their entries, in the order of the keys' code points. -/
abbrev Keyspace := Std.ExtTreeMap String Entry

namespace Keyspace

/-- The number of entries with an expiry. -/
def expiryCount (keyspace : Keyspace) : Nat :=
  keyspace.values.countP (·.expiry.isSome)

/-- The entries whose time has not come. -/
def unexpired (keyspace : Keyspace) (now : Int) : Keyspace :=
  keyspace.filter fun _ entry => !entry.expired now

theorem getElem?_unexpired (keyspace : Keyspace) (now : Int) (key : String) :
    (keyspace.unexpired now)[key]? = keyspace[key]?.filter fun entry => !entry.expired now := by
  simp [unexpired]

end Keyspace
end ReplicaStore
