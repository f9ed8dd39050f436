import ReplicaStore.Keyspace
import ReplicaStore.Snapshot.Length
import ReplicaStore.Text.Integer

/-!
# Records of a snapshot

A snapshot is a header and a sequence of records, the last of which ends it.  Each
record has one written form (`Record.toBytes`), and `record` reads it back; it also
reads expiries in seconds, which are never written.  A record stands for the
commands that recreate what it describes.  Bytes to come change no record that has
been read.
-/

namespace ReplicaStore.Snapshot

/-- One record. -/
inductive Record where
  | metadata (name value : String)
  /-- The number of keys to come, and of those that expire. -/
  | sizes (keys expiring : Nat)
  /-- The entries that follow belong to this database. -/
  | database (index : Nat)
  | entry (key : String) (stored : Entry)
  | finish (checksum : Bytes)
  deriving DecidableEq, Repr

/-- Reads the value of an entry, given the byte that tells its type. -/
def datum (type : UInt8) : Reads Datum :=
  if type = 0 then return .text (← string)
  else if type = 1 then do
    let count ← length
    return .list (← Decoder.repeated string count)
  else Decoder.fail (.unknownOpcode type)

/-- Reads the key and the value of an entry. -/
def typedEntry (type : UInt8) (expiry : Option Int) : Reads Record := do
  let key ← string
  return .entry key { datum := ← datum type, expiry }

/-- Reads an entry behind its expiry. -/
def expiringEntry (expiry : Int) : Reads Record := do
  typedEntry (← Decoder.byte) (some expiry)

/-- Reads one record. -/
def record : Reads Record := do
  let opcode ← Decoder.byte
  if opcode = 0xFA then
    let name ← string
    return .metadata name (← string)
  else if opcode = 0xFB then
    let keys ← length
    return .sizes keys (← length)
  else if opcode = 0xFE then return .database (← length)
  else if opcode = 0xFD then
    let seconds := littleEndian (← Decoder.take 4)
    expiringEntry (seconds * 1000)
  else if opcode = 0xFC then
    let milliseconds := littleEndian (← Decoder.take 8)
    if (milliseconds : Int) ≤ Text.maxSigned64 then expiringEntry milliseconds
    else Decoder.fail .invalidExpiry
  else if opcode = 0xFF then return .finish (← Decoder.take 8)
  else typedEntry opcode none

/-- The written form of a key and its value, type first. -/
def entryBytes (key : String) : Datum → Bytes
  | .text content => 0 :: stringBytes key ++ stringBytes content
  | .list items =>
      1 :: stringBytes key ++ lengthBytes items.length ++ items.flatMap stringBytes

/-- The written form of an expiry.  There is none before the epoch. -/
def expiryBytes : Option Int → Bytes
  | some moment => 0xFC :: toLittleEndian 8 moment.toNat
  | none => []

namespace Record

/-- The written form of a record. -/
def toBytes : Record → Bytes
  | metadata name value => 0xFA :: stringBytes name ++ stringBytes value
  | sizes keys expiring => 0xFB :: lengthBytes keys ++ lengthBytes expiring
  | database index => 0xFE :: lengthBytes index
  | entry key stored => expiryBytes stored.expiry ++ entryBytes key stored.datum
  | finish checksum => 0xFF :: checksum

/-- The commands that recreate an entry.  An empty list is no key at all. -/
def entryCommands (key : String) (entry : Entry) : List (List String) :=
  match entry.datum, entry.expiry with
  | .text content, none => [["SET", key, content]]
  | .text content, some moment => [["SET", key, content, "PXAT", toString moment]]
  | .list [], _ => []
  | .list items, none => ["RPUSH" :: key :: items]
  | .list items, some moment => ["RPUSH" :: key :: items, ["PEXPIREAT", key, toString moment]]

/-- The commands that a record stands for. -/
def commands : Record → List (List String)
  | database index => [["SELECT", toString index]]
  | entry key stored => entryCommands key stored
  | _ => []

end Record

/-- The bytes every snapshot begins with. -/
def magic : String := "REDIS"

/-- Reads the header and gives the version, which must be known. -/
def header : Reads String := do
  let found ← Decoder.take 5
  if found = Bytes.ofText magic then
    let version ← Decoder.ofOption .invalidText (Bytes.text? (← Decoder.take 4))
    match Text.readUpTo 4294967295 version with
    | some number =>
        if 1 ≤ number ∧ number ≤ 12 then return version
        else Decoder.fail (.unsupportedVersion version)
    | none => Decoder.fail (.unsupportedVersion version)
  else Decoder.fail .invalidMagic

/-! ### What has been read is not changed by bytes to come -/

theorem settled_announced : Decoder.Settled announced := by
  refine .bind .byte fun first => ?_
  dsimp only
  split
  · exact .pure _
  · exact .bind .byte fun second => .pure _
  · split
    · exact .bind (.take 4) fun digits => .pure _
    · exact .bind (.take 8) fun digits => .pure _
    · exact .fail _
  · split
    · exact .pure _
    · exact .pure _
    · exact .pure _
    · exact .pure _
    · exact .fail _

theorem settled_length : Decoder.Settled length := by
  refine .bind settled_announced fun form => ?_
  split
  · exact .pure _
  · exact .fail _

theorem settled_string : Decoder.Settled string := by
  refine .bind settled_announced fun form => ?_
  split
  · exact .bind (.take _) fun content => .ofOption _ _
  · exact .bind (.take _) fun digits => .pure _
  · exact .fail _

theorem settled_datum (type : UInt8) : Decoder.Settled (datum type) := by
  unfold datum
  split
  · exact .bind settled_string fun content => .pure _
  · split
    · exact .bind settled_length fun count =>
        .bind (settled_string.repeated count) fun items => .pure _
    · exact .fail _

theorem settled_typedEntry (type : UInt8) (expiry : Option Int) :
    Decoder.Settled (typedEntry type expiry) :=
  .bind settled_string fun _ => .bind (settled_datum type) fun _ => .pure _

theorem settled_expiringEntry (expiry : Int) : Decoder.Settled (expiringEntry expiry) :=
  .bind .byte fun type => settled_typedEntry type (some expiry)

theorem settled_record : Decoder.Settled record := by
  refine .bind .byte fun opcode => ?_
  dsimp only
  split
  · exact .bind settled_string fun name => .bind settled_string fun value => .pure _
  split
  · exact .bind settled_length fun keys => .bind settled_length fun expiring => .pure _
  split
  · exact .bind settled_length fun index => .pure _
  split
  · exact .bind (.take 4) fun seconds => settled_expiringEntry _
  split
  · refine .bind (.take 8) fun milliseconds => ?_
    split
    · exact settled_expiringEntry _
    · exact .fail _
  split
  · exact .bind (.take 8) fun checksum => .pure _
  · exact settled_typedEntry opcode none

theorem settled_header : Decoder.Settled header := by
  refine .bind (.take 5) fun found => ?_
  split
  · refine .bind (.take 4) fun digits => .bind (.ofOption _ _) fun version => ?_
    split
    · split
      · exact .pure _
      · exact .fail _
    · exact .fail _
  · exact .fail _

/-- A record takes at least one byte. -/
theorem record_length_lt {input rest : Bytes} {found : Record}
    (read : record input = .found found rest) : rest.length < input.length :=
  settled_record.length_lt rfl read

end ReplicaStore.Snapshot
