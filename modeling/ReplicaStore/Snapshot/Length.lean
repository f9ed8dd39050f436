import ReplicaStore.Scan

/-!
# Lengths and strings in a snapshot

A length takes one, two, five or nine bytes; the top two bits of the first one tell
which.  A string is a length and that many bytes of UTF-8, or one of three small
integers in binary, which stand for their decimal text.
-/

namespace ReplicaStore.Snapshot

/-- Why bytes are no snapshot, or why one could not be stored. -/
inductive SnapshotError where
  | storage
  | truncated
  | invalidMagic
  | unsupportedVersion (version : String)
  | unknownOpcode (opcode : UInt8)
  | invalidLength
  | unsupportedEncoding
  | invalidText
  | invalidExpiry
  deriving DecidableEq, Repr

/-- A byte in two upper-case hexadecimal digits. -/
def upperHex (byte : UInt8) : String :=
  let digit (value : Nat) := (Nat.digitChar value).toUpper
  String.ofList [digit (byte.toNat / 16), digit (byte.toNat % 16)]

def SnapshotError.message : SnapshotError → String
  | storage => "I/O error"
  | truncated => "snapshot is truncated"
  | invalidMagic => "invalid magic string"
  | unsupportedVersion version => s!"unsupported snapshot version {version}"
  | unknownOpcode opcode => s!"unknown opcode 0x{upperHex opcode}"
  | invalidLength => "invalid length encoding"
  | unsupportedEncoding => "unsupported value encoding"
  | invalidText => "invalid UTF-8 in snapshot"
  | invalidExpiry => "invalid expiration timestamp"

/-- Reads one part of a snapshot. -/
abbrev Reads (α : Type) := Decoder SnapshotError α

/-- The number whose digits to base 256 are given, the most significant one first. -/
def bigEndian (bytes : Bytes) : Nat :=
  bytes.foldl (fun value byte => 256 * value + byte.toNat) 0

/-- The number whose digits to base 256 are given, the least significant one first. -/
def littleEndian (bytes : Bytes) : Nat :=
  bigEndian bytes.reverse

/-- The lowest digits of a number to base 256, the least significant one first. -/
def toLittleEndian (width : Nat) (value : Nat) : Bytes :=
  match width with
  | 0 => []
  | width + 1 => UInt8.ofNat value :: toLittleEndian width (value / 256)

/-- The lowest digits of a number to base 256, the most significant one first. -/
def toBigEndian (width : Nat) (value : Nat) : Bytes :=
  (toLittleEndian width value).reverse

/-- What the first byte of a string or length announces. -/
inductive Announced where
  | length (value : Nat)
  /-- A signed number of so many bytes, the least significant one first. -/
  | integer (width : Nat)
  | compressed
  deriving DecidableEq, Repr

/-- Reads a length or the mark of another form of string. -/
def announced : Reads Announced := do
  let first ← Decoder.byte
  let low := first.toNat % 64
  match first.toNat / 64 with
  | 0 => return .length low
  | 1 =>
      let second ← Decoder.byte
      return .length (256 * low + second.toNat)
  | 2 =>
      match low with
      | 0 => return .length (bigEndian (← Decoder.take 4))
      | 1 => return .length (bigEndian (← Decoder.take 8))
      | _ => Decoder.fail .invalidLength
  | _ =>
      match low with
      | 0 => return .integer 1
      | 1 => return .integer 2
      | 2 => return .integer 4
      | 3 => return .compressed
      | _ => Decoder.fail .invalidLength

/-- Reads a plain length. -/
def length : Reads Nat := do
  match ← announced with
  | .length value => return value
  | _ => Decoder.fail .invalidLength

/-- Reads a string in any of its forms. -/
def string : Reads String := do
  match ← announced with
  | .length value => Decoder.ofOption .invalidText (Bytes.text? (← Decoder.take value))
  | .integer width =>
      let digits ← Decoder.take width
      return toString ((littleEndian digits : Int).bmod (Nat.pow 256 width))
  | .compressed => Decoder.fail .unsupportedEncoding

/-- The written form of a length: the shortest that holds it. -/
def lengthBytes (value : Nat) : Bytes :=
  if value < 64 then [UInt8.ofNat value]
  else if value < 16384 then [UInt8.ofNat (0x40 + value / 256), UInt8.ofNat value]
  else if value < 4294967296 then 0x80 :: toBigEndian 4 value
  else 0x81 :: toBigEndian 8 value

/-- The written form of a string. -/
def stringBytes (text : String) : Bytes :=
  lengthBytes text.utf8ByteSize ++ Bytes.ofText text

end ReplicaStore.Snapshot
