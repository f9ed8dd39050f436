import ReplicaStore.Bytes

/-!
# Printable form of bytes

Bytes shown as ASCII text: printable characters stand for themselves, quotes and
backslashes follow a backslash, and everything else is written by its code.
-/

namespace ReplicaStore.Text

/-- A byte in two lower-case hexadecimal digits. -/
def lowerHex (byte : UInt8) : List Char :=
  [Nat.digitChar (byte.toNat / 16), Nat.digitChar (byte.toNat % 16)]

/-- The printable form of one byte. -/
def escapeByte (byte : UInt8) : List Char :=
  if byte = 9 then ['\\', 't']
  else if byte = 13 then ['\\', 'r']
  else if byte = 10 then ['\\', 'n']
  else if byte = 34 || byte = 39 || byte = 92 then ['\\', Char.ofNat byte.toNat]
  else if 32 ≤ byte && byte < 127 then [Char.ofNat byte.toNat]
  else '\\' :: 'x' :: lowerHex byte

/-- The printable form of bytes. -/
def escape (bytes : Bytes) : String :=
  String.ofList (bytes.flatMap escapeByte)

end ReplicaStore.Text
