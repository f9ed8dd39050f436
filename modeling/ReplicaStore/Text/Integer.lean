/-!
# Decimal integers

The readers for numbers in commands, frames and settings.  A numeral is one or
more ASCII digits; a reader for signed numbers takes one leading `+` or `-`, a
reader for unsigned ones only `+`.  A value outside the stated range is refused,
never clipped.
-/

namespace ReplicaStore.Text

/-- The value that `digits` continue from `value`, or nothing if one is no digit. -/
def continueNumeral (value : Nat) : List Char → Option Nat
  | [] => some value
  | digit :: rest =>
      if digit.isDigit then continueNumeral (10 * value + (digit.toNat - '0'.toNat)) rest
      else none

/-- The value of a numeral of at least one digit. -/
def numeral? : List Char → Option Nat
  | [] => none
  | digits => continueNumeral 0 digits

/-- Keeps a number that lies between two bounds. -/
def within (low high : Int) (value : Int) : Option Int :=
  if low ≤ value ∧ value ≤ high then some value else none

/-- Reads a signed number between `low` and `high`. -/
def readBetween (low high : Int) (text : String) : Option Int :=
  match text.toList with
  | '-' :: digits => (numeral? digits).bind fun value => within low high (-(value : Int))
  | '+' :: digits => (numeral? digits).bind fun value => within low high value
  | digits => (numeral? digits).bind fun value => within low high value

/-- Reads an unsigned number up to `high`. -/
def readUpTo (high : Nat) (text : String) : Option Nat :=
  let digits := match text.toList with
    | '+' :: digits => digits
    | digits => digits
  (numeral? digits).bind fun value => if value ≤ high then some value else none

/-- The least number of 64 signed bits. -/
def minSigned64 : Int := -9223372036854775808

/-- The greatest number of 64 signed bits. -/
def maxSigned64 : Int := 9223372036854775807

/-- The greatest number of 64 unsigned bits. -/
def maxUnsigned64 : Nat := 18446744073709551615

/-- Reads a number of 64 signed bits. -/
def readSigned64 (text : String) : Option Int :=
  readBetween minSigned64 maxSigned64 text

/-- Reads a number of 64 unsigned bits. -/
def readUnsigned64 (text : String) : Option Nat :=
  readUpTo maxUnsigned64 text

/-- Reads a number of 16 unsigned bits, such as a port. -/
def readUnsigned16 (text : String) : Option Nat :=
  readUpTo 65535 text

theorem le_of_readUpTo {high value : Nat} {text : String} (read : readUpTo high text = some value) :
    value ≤ high := by
  simp only [readUpTo, Option.bind_eq_some_iff] at read
  obtain ⟨_, _, kept⟩ := read
  split at kept <;> simp_all

end ReplicaStore.Text
