import ReplicaStore.Proofs.Wire.RoundTrip
import ReplicaStore.Snapshot.Reader
import ReplicaStore.Snapshot.Writer

/-!
# Snapshots are read back as they are written

Every length, string and record that a writer writes is read back, and so the commands
of a snapshot are those that stand for its entries.  Only the counts of keys may come
back as others, where they do not fit into eight bytes; nothing depends on them.
-/

namespace ReplicaStore.Snapshot

/-! ### Numbers -/

theorem length_toLittleEndian (width value : Nat) :
    (toLittleEndian width value).length = width := by
  induction width generalizing value with
  | zero => rfl
  | succ width ih => simp [toLittleEndian, ih]

theorem bigEndian_append (bytes : Bytes) (byte : UInt8) :
    bigEndian (bytes ++ [byte]) = 256 * bigEndian bytes + byte.toNat := by
  simp [bigEndian]

theorem littleEndian_toLittleEndian (width value : Nat) :
    littleEndian (toLittleEndian width value) = value % Nat.pow 256 width := by
  induction width generalizing value with
  | zero => simp [toLittleEndian, littleEndian, bigEndian, Nat.mod_one]
  | succ width ih =>
      have shorter := ih (value / 256)
      have digits : value % Nat.pow 256 (width + 1) =
          value % 256 + 256 * (value / 256 % Nat.pow 256 width) := by
        have more : Nat.pow 256 (width + 1) = 256 * Nat.pow 256 width := Nat.pow_succ'
        rw [more, Nat.mod_mul]
      rw [littleEndian] at shorter
      rw [toLittleEndian, littleEndian, List.reverse_cons, bigEndian_append, shorter,
        UInt8.toNat_ofNat', digits]
      omega

theorem bigEndian_toBigEndian (width value : Nat) :
    bigEndian (toBigEndian width value) = value % Nat.pow 256 width :=
  littleEndian_toLittleEndian width value

theorem take_toLittleEndian {ε : Type} (width value : Nat) (rest : Bytes) :
    (Decoder.take width : Decoder ε Bytes) (toLittleEndian width value ++ rest) =
      .found (toLittleEndian width value) rest :=
  Decoder.take_append (length_toLittleEndian width value) rest

theorem take_toBigEndian {ε : Type} (width value : Nat) (rest : Bytes) :
    (Decoder.take width : Decoder ε Bytes) (toBigEndian width value ++ rest) =
      .found (toBigEndian width value) rest :=
  Decoder.take_append (by rw [toBigEndian, List.length_reverse, length_toLittleEndian]) rest

/-! ### Lengths and strings -/

theorem announced_one {first : UInt8} (high : first.toNat / 64 = 0) (rest : Bytes) :
    announced (first :: rest) = .found (.length (first.toNat % 64)) rest := by
  simp [announced, Decoder.bind_run, Decoder.byte, high]

theorem announced_two {first : UInt8} (high : first.toNat / 64 = 1) (second : UInt8)
    (rest : Bytes) :
    announced (first :: second :: rest) =
      .found (.length (256 * (first.toNat % 64) + second.toNat)) rest := by
  simp [announced, Decoder.bind_run, Decoder.byte, high]

/-- Whatever number was written, a length comes back. -/
theorem announced_lengthBytes (value : Nat) (rest : Bytes) :
    announced (lengthBytes value ++ rest) = .found (.length (value % 18446744073709551616)) rest := by
  simp only [lengthBytes]
  split
  · next small =>
      have byte : (UInt8.ofNat value).toNat = value := by
        rw [UInt8.toNat_ofNat']
        omega
      have low : value % 64 = value % 18446744073709551616 := by omega
      rw [List.cons_append, announced_one (by omega), byte, low]
      rfl
  · split
    · next small =>
        have byte : (UInt8.ofNat (0x40 + value / 256)).toNat = 64 + value / 256 := by
          rw [UInt8.toNat_ofNat']
          omega
        have whole : 256 * ((64 + value / 256) % 64) + value % 256 =
            value % 18446744073709551616 := by omega
        rw [List.cons_append, List.cons_append, announced_two (by omega), byte,
          UInt8.toNat_ofNat', whole]
        rfl
    · split
      · next small =>
          have whole : value % 4294967296 = value % 18446744073709551616 := by omega
          simp [announced, Decoder.bind_run, Decoder.byte, take_toBigEndian,
            bigEndian_toBigEndian, whole]
      · simp [announced, Decoder.bind_run, Decoder.byte, take_toBigEndian, bigEndian_toBigEndian]

theorem length_lengthBytes (value : Nat) (rest : Bytes) :
    length (lengthBytes value ++ rest) = .found (value % 18446744073709551616) rest := by
  rw [length, Decoder.bind_run_found (announced_lengthBytes value rest)]
  rfl

theorem length_of_fits {value : Nat} (fits : value ≤ Text.maxUnsigned64) (rest : Bytes) :
    length (lengthBytes value ++ rest) = .found value rest := by
  have small : value % 18446744073709551616 = value := by
    simp only [Text.maxUnsigned64] at fits
    omega
  rw [length_lengthBytes, small]

theorem string_stringBytes {text : String} (fits : text.utf8ByteSize ≤ Text.maxSigned64) (rest : Bytes) :
    string (stringBytes text ++ rest) = .found text rest := by
  have small : text.utf8ByteSize % 18446744073709551616 = text.utf8ByteSize := by
    simp only [Text.maxSigned64] at fits
    omega
  have content : (Decoder.take text.utf8ByteSize : Reads Bytes) (Bytes.ofText text ++ rest) =
      .found (Bytes.ofText text) rest := Decoder.take_append (Bytes.length_ofText text) rest
  rw [stringBytes, List.append_assoc, string,
    Decoder.bind_run_found (announced_lengthBytes text.utf8ByteSize _)]
  dsimp only
  rw [small, Decoder.bind_run_found content, Bytes.text?_ofText]
  rfl

theorem repeated_string {items : List String} (fits : ∀ item ∈ items, (item.utf8ByteSize : Int) ≤ Text.maxSigned64)
    (rest : Bytes) :
    Decoder.repeated string items.length (items.flatMap stringBytes ++ rest) =
      .found items rest := by
  induction items with
  | nil => rfl
  | cons first items ih =>
      have later := ih fun item member => fits item (List.mem_cons_of_mem _ member)
      rw [List.flatMap_cons, List.append_assoc, List.length_cons, Decoder.repeated,
        Decoder.bind_run_found (string_stringBytes (fits first List.mem_cons_self) _),
        Decoder.bind_run_found later]
      rfl

/-! ### Records -/

/-- A value that can be written: no length in it takes more than a word of 64 bits. -/
def FitsDatum : Datum → Prop
  | .text content => (content.utf8ByteSize : Int) ≤ Text.maxSigned64
  | .list items =>
      (items.length : Int) ≤ Text.maxSigned64 ∧
        ∀ item ∈ items, (item.utf8ByteSize : Int) ≤ Text.maxSigned64

instance : DecidablePred FitsDatum := fun datum =>
  match datum with
  | .text _ => inferInstanceAs (Decidable (_ ≤ _))
  | .list _ => inferInstanceAs (Decidable (_ ∧ _))

/-- An entry that can be written: its lengths fit, and so does the moment at which it
expires, which is not before the epoch. -/
structure FitsEntry (key : String) (entry : Entry) : Prop where
  key : (key.utf8ByteSize : Int) ≤ Text.maxSigned64
  datum : FitsDatum entry.datum
  expiry : ∀ moment, entry.expiry = some moment → 0 ≤ moment ∧ moment ≤ Text.maxSigned64

theorem typedEntry_entryBytes {key : String} {value : Datum}
    (fitsKey : (key.utf8ByteSize : Int) ≤ Text.maxSigned64) (fits : FitsDatum value)
    (expiry : Option Int) (rest : Bytes) :
    (Decoder.byte >>= fun type => typedEntry type expiry) (entryBytes key value ++ rest) =
      .found (.entry key { datum := value, expiry }) rest := by
  cases value with
  | text content =>
      have first : (Decoder.byte : Reads UInt8) (entryBytes key (.text content) ++ rest) =
          .found 0 (stringBytes key ++ (stringBytes content ++ rest)) := by
        simp [entryBytes, Decoder.byte]
      have value : datum 0 (stringBytes content ++ rest) = .found (.text content) rest := by
        rw [datum, if_pos rfl, Decoder.bind_run_found (string_stringBytes fits rest)]
        rfl
      rw [Decoder.bind_run_found first, typedEntry,
        Decoder.bind_run_found (string_stringBytes fitsKey _), Decoder.bind_run_found value]
      rfl
  | list items =>
      have count : items.length ≤ Text.maxUnsigned64 := by
        have most := fits.1
        simp only [Text.maxSigned64, Text.maxUnsigned64] at most ⊢
        omega
      have first : (Decoder.byte : Reads UInt8) (entryBytes key (.list items) ++ rest) =
          .found 1 (stringBytes key ++ (lengthBytes items.length ++
            (items.flatMap stringBytes ++ rest))) := by
        simp [entryBytes, Decoder.byte]
      have value : datum 1 (lengthBytes items.length ++ (items.flatMap stringBytes ++ rest)) =
          .found (.list items) rest := by
        rw [datum, if_neg (by decide), if_pos rfl, Decoder.bind_run_found (length_of_fits count _),
          Decoder.bind_run_found (repeated_string fits.2 rest)]
        rfl
      rw [Decoder.bind_run_found first, typedEntry,
        Decoder.bind_run_found (string_stringBytes fitsKey _), Decoder.bind_run_found value]
      rfl

theorem record_entry {key : String} {entry : Entry} (fits : FitsEntry key entry) (rest : Bytes) :
    record ((Record.entry key entry).toBytes ++ rest) = .found (.entry key entry) rest := by
  obtain ⟨value, expiry⟩ := entry
  cases expiry with
  | none =>
      have typed := typedEntry_entryBytes fits.key fits.datum none rest
      cases value with
      | text content => exact typed
      | list items => exact typed
  | some moment =>
      obtain ⟨least, most⟩ := fits.expiry moment rfl
      have typed := typedEntry_entryBytes fits.key fits.datum (some moment) rest
      have back : (littleEndian (toLittleEndian 8 moment.toNat) : Int) = moment := by
        have words : Nat.pow 256 8 = 18446744073709551616 := rfl
        rw [littleEndian_toLittleEndian, words]
        simp only [Text.maxSigned64] at most
        omega
      have opened : record ((Record.entry key ⟨value, some moment⟩).toBytes ++ rest) =
          (do
            let milliseconds := littleEndian (← Decoder.take 8)
            if (milliseconds : Int) ≤ Text.maxSigned64 then expiringEntry milliseconds
            else Decoder.fail .invalidExpiry)
            (toLittleEndian 8 moment.toNat ++ (entryBytes key value ++ rest)) := by
        rw [Record.toBytes, expiryBytes, List.append_assoc]
        rfl
      have behind : (if (littleEndian (toLittleEndian 8 moment.toNat) : Int) ≤ Text.maxSigned64
          then expiringEntry (littleEndian (toLittleEndian 8 moment.toNat))
          else Decoder.fail .invalidExpiry) = expiringEntry moment := by
        rw [back, if_pos most]
      rw [opened, Decoder.bind_run_found (take_toLittleEndian 8 moment.toNat _)]
      exact (congrFun behind _).trans typed

theorem record_metadata {name value : String}
    (fitsName : (name.utf8ByteSize : Int) ≤ Text.maxSigned64)
    (fitsValue : (value.utf8ByteSize : Int) ≤ Text.maxSigned64) (rest : Bytes) :
    record ((Record.metadata name value).toBytes ++ rest) = .found (.metadata name value) rest := by
  have opened : record ((Record.metadata name value).toBytes ++ rest) =
      (do
        let name ← string
        return .metadata name (← string) : Reads Record)
        (stringBytes name ++ (stringBytes value ++ rest)) := by
    rw [Record.toBytes, List.append_assoc]
    rfl
  rw [opened, Decoder.bind_run_found (string_stringBytes fitsName _),
    Decoder.bind_run_found (string_stringBytes fitsValue _)]
  rfl

theorem record_sizes (keys expiring : Nat) (rest : Bytes) :
    record ((Record.sizes keys expiring).toBytes ++ rest) =
      .found (.sizes (keys % 18446744073709551616) (expiring % 18446744073709551616)) rest := by
  have opened : record ((Record.sizes keys expiring).toBytes ++ rest) =
      (do
        let keys ← length
        return .sizes keys (← length) : Reads Record)
        (lengthBytes keys ++ (lengthBytes expiring ++ rest)) := by
    rw [Record.toBytes, List.append_assoc]
    rfl
  rw [opened, Decoder.bind_run_found (length_lengthBytes keys _),
    Decoder.bind_run_found (length_lengthBytes expiring _)]
  rfl

theorem record_database {index : Nat} (fits : index ≤ Text.maxUnsigned64) (rest : Bytes) :
    record ((Record.database index).toBytes ++ rest) = .found (.database index) rest := by
  have opened : record ((Record.database index).toBytes ++ rest) =
      (do return .database (← length) : Reads Record) (lengthBytes index ++ rest) := rfl
  rw [opened, Decoder.bind_run_found (length_of_fits fits _)]
  rfl

theorem record_trailer : record trailer = .found (.finish (List.replicate 8 0)) [] := rfl

/-- A record that is read back as one of the same commands, and that is not the last. -/
def Carried (written : Record) : Prop :=
  ∀ rest, ∃ read : Record, record (written.toBytes ++ rest) = .found read rest ∧
    read.commands = written.commands ∧ ∀ checksum, read ≠ .finish checksum

theorem carried_entry {key : String} {entry : Entry} (fits : FitsEntry key entry) :
    Carried (.entry key entry) :=
  fun rest => ⟨_, record_entry fits rest, rfl, by simp⟩

theorem carried_metadata {name value : String}
    (fitsName : (name.utf8ByteSize : Int) ≤ Text.maxSigned64)
    (fitsValue : (value.utf8ByteSize : Int) ≤ Text.maxSigned64) :
    Carried (.metadata name value) :=
  fun rest => ⟨_, record_metadata fitsName fitsValue rest, rfl, by simp⟩

theorem carried_sizes (keys expiring : Nat) : Carried (.sizes keys expiring) :=
  fun rest => ⟨_, record_sizes keys expiring rest, rfl, by simp⟩

theorem carried_database {index : Nat} (fits : index ≤ Text.maxUnsigned64) :
    Carried (.database index) :=
  fun rest => ⟨_, record_database fits rest, rfl, by simp⟩

/-! ### Whole snapshots -/

namespace Reader

theorem commands_apply {reader : Reader} {read : Record} (goes : ∀ checksum, read ≠ .finish checksum) :
    (reader.apply read).commands.toList = reader.commands.toList ++ read.commands ∧
      (reader.apply read).finished = reader.finished := by
  cases read with
  | finish checksum => exact absurd rfl (goes checksum)
  | metadata => simp [apply, Record.commands, finished]
  | sizes => simp [apply, Record.commands, finished]
  | database => simp [apply, finished]
  | entry => simp [apply, finished]

/-- The records in front of the end are read one after the other. -/
theorem readRecords_carried {records : List Record} (carried : ∀ written ∈ records, Carried written)
    {reader : Reader} (open? : reader.finished = false)
    (pending : reader.pending = records.flatMap Record.toBytes ++ trailer) :
    ∃ later : Reader, reader.readRecords = (.ok (), later) ∧
      later.result = .ok (reader.commands.toList ++ records.flatMap Record.commands) := by
  induction records generalizing reader with
  | nil =>
      have last : record reader.pending = .found (.finish (List.replicate 8 0)) [] := by
        rw [pending]
        exact record_trailer
      rw [readRecords_unfinished open?, last]
      dsimp only
      rw [readRecords_finished rfl]
      exact ⟨_, rfl, by simp [result, finished, apply]⟩
  | cons first records ih =>
      obtain ⟨read, found, same, goes⟩ :=
        carried first List.mem_cons_self (records.flatMap Record.toBytes ++ trailer)
      rw [← List.append_assoc, ← List.flatMap_cons, ← pending] at found
      obtain ⟨commands, stillOpen⟩ := @commands_apply reader _ goes
      obtain ⟨later, reached, result⟩ :=
        @ih (fun written member => carried written (List.mem_cons_of_mem _ member))
          { reader.apply read with pending := records.flatMap Record.toBytes ++ trailer }
          (stillOpen.trans open?) rfl
      refine ⟨later, ?_, ?_⟩
      · rw [readRecords_unfinished open?, found]
        exact reached
      rw [result]
      dsimp only
      rw [commands, same, List.flatMap_cons, List.append_assoc]

end Reader

theorem header_preamble (rest : Bytes) :
    header (Bytes.ofText magic ++ (Bytes.ofText "0009" ++ rest)) = .found "0009" rest := by
  have magicSize : (Bytes.ofText magic).length = 5 := rfl
  have versionSize : (Bytes.ofText "0009").length = 4 := rfl
  rw [header, Decoder.bind_run_found (Decoder.take_append magicSize _)]
  rw [if_pos rfl, Decoder.bind_run_found (Decoder.take_append versionSize _), Bytes.text?_ofText]
  rfl

/-- A snapshot of records is read as their commands. -/
theorem commandsOf_records {records : List Record} (carried : ∀ written ∈ records, Carried written) :
    commandsOf (Bytes.ofText magic ++ (Bytes.ofText "0009" ++
      (records.flatMap Record.toBytes ++ trailer))) = .ok (records.flatMap Record.commands) := by
  have header := header_preamble (records.flatMap Record.toBytes ++ trailer)
  obtain ⟨later, reached, result⟩ := @Reader.readRecords_carried _ carried
    { pending := records.flatMap Record.toBytes ++ trailer
      version := some "0009" }
    rfl rfl
  have fed : ({} : Reader).feed (Bytes.ofText magic ++ (Bytes.ofText "0009" ++
      (records.flatMap Record.toBytes ++ trailer))) = (.ok (), later) := by
    rw [Reader.feed, if_neg (by simp [Reader.finished])]
    simp only [List.nil_append, Reader.readPending, header]
    exact reached
  rw [commandsOf, fed]
  exact result

/-- A number of 64 bits is written in few digits. -/
theorem utf8ByteSize_repr_le {value : Nat} (most : value ≤ Text.maxUnsigned64) :
    value.repr.utf8ByteSize ≤ 80 := by
  have digits : (Nat.toDigits 10 value).length ≤ 20 := by
    rw [Nat.length_toDigits_le_iff (by decide) (by decide)]
    simp only [Text.maxUnsigned64] at most
    omega
  have size : (Bytes.ofText value.repr).length ≤ 4 * (Nat.toDigits 10 value).length := by
    rw [Bytes.ofText_eq, Nat.toList_repr]
    induction Nat.toDigits 10 value with
    | nil => exact Nat.le_refl 0
    | cons first rest ih =>
        have short := Char.utf8Size_le_four first
        rw [List.flatMap_cons, List.length_append, String.length_utf8EncodeChar, List.length_cons]
        omega
  rw [Bytes.length_ofText] at size
  omega

theorem utf8ByteSize_toString_le {value : Int} (least : Text.minSigned64 ≤ value)
    (most : value ≤ Text.maxSigned64) :
    ((toString value).utf8ByteSize : Int) ≤ Text.maxSigned64 := by
  simp only [Text.minSigned64, Text.maxSigned64] at least most ⊢
  cases value with
  | ofNat amount =>
      have text : toString (Int.ofNat amount) = amount.repr := rfl
      have short : amount.repr.utf8ByteSize ≤ 80 := by
        apply utf8ByteSize_repr_le
        rw [Int.ofNat_eq_natCast] at most
        simp only [Text.maxUnsigned64]
        omega
      rw [text]
      omega
  | negSucc amount =>
      have text : toString (Int.negSucc amount) = "-" ++ (amount + 1).repr := rfl
      have sign : "-".utf8ByteSize = 1 := rfl
      have short : (amount + 1).repr.utf8ByteSize ≤ 80 := by
        apply utf8ByteSize_repr_le
        simp only [Text.maxUnsigned64]
        omega
      rw [text, String.utf8ByteSize_append, sign]
      omega

/-- What is known about the origin of a snapshot. -/
def originRecords (second : Int) : List Record :=
  [.metadata "redis-ver" "7.0.0", .metadata "redis-bits" "64",
    .metadata "ctime" (toString second)]

theorem preamble_eq (second : Int) :
    preamble second = Bytes.ofText magic ++ (Bytes.ofText "0009" ++
      (originRecords second).flatMap Record.toBytes) := by
  simp [preamble, originRecords]

theorem carried_origin {second : Int} (least : Text.minSigned64 ≤ second)
    (most : second ≤ Text.maxSigned64) :
    ∀ written ∈ originRecords second, Carried written := by
  simp only [originRecords, List.mem_cons, List.not_mem_nil, or_false]
  rintro written (rfl | rfl | rfl)
  · exact carried_metadata (by decide) (by decide)
  · exact carried_metadata (by decide) (by decide)
  · exact carried_metadata (by decide) (utf8ByteSize_toString_le least most)

/-- For each database, by its number, entries in some order. -/
abbrev Orders : Type := Nat → List (String × Entry)

namespace Orders

/-- The entries of each database that have not expired, each once and in any order. -/
def Of (orders : Orders) (views : List Keyspace) (now : Int) : Prop :=
  ∀ (index : Nat) (view : Keyspace), views[index]? = some view →
    (orders index).Perm (view.unexpired now).toList

/-- The order of the keys. -/
def sorted (views : List Keyspace) (now : Int) : Orders :=
  fun index => ((views[index]?.getD ∅).unexpired now).toList

theorem sorted_of (views : List Keyspace) (now : Int) : (sorted views now).Of views now := by
  intro index view found
  rw [sorted, found]
  exact .refl _

variable {orders : Orders} {views : List Keyspace} {now : Int}

/-- What stands in the orders are entries of the databases that have not expired. -/
theorem Of.mem (of : orders.Of views now) {index : Nat} {view : Keyspace}
    (found : views[index]? = some view) {key : String} {entry : Entry} :
    (key, entry) ∈ orders index ↔ view[key]? = some entry ∧ entry.expired now = false := by
  rw [(of index view found).mem_iff, Std.ExtTreeMap.mem_toList_iff_getElem?_eq_some,
    Keyspace.getElem?_unexpired, Option.filter_eq_some_iff]
  simp

end Orders

/-- A database in a list of databases with their numbers. -/
theorem getElem?_of_mem_zipIdx {views : List Keyspace} {view : Keyspace} {index : Nat}
    (member : (view, index) ∈ views.zipIdx) : views[index]? = some view :=
  List.mk_mem_zipIdx_iff_getElem?.mp member

/-- The records of one database, with its entries in a given order. -/
def recordsIn (order : List (String × Entry)) (index : Nat) (view : Keyspace) : List Record :=
  if view.isEmpty then []
  else
    .database index :: .sizes view.size view.expiryCount ::
      order.map fun (key, stored) => .entry key stored

/-- The snapshot of the given keyspaces with the entries in given orders. -/
def imageIn (orders : Orders) (views : List Keyspace) (now : Int) : Bytes :=
  preamble (now / 1000) ++
    (views.zipIdx.flatMap fun (view, index) =>
      (recordsIn (orders index) index view).flatMap Record.toBytes) ++ trailer

/-- What is written is one of the snapshots with entries in any order. -/
theorem image_eq_imageIn (views : List Keyspace) (now : Int) :
    image views now = imageIn (.sorted views now) views now := by
  have databases : (views.zipIdx.flatMap fun (view, index) => partitionBytes index view now) =
      views.zipIdx.flatMap fun (view, index) =>
        (recordsIn (Orders.sorted views now index) index view).flatMap Record.toBytes := by
    simp only [List.flatMap_def]
    congr 1
    apply List.map_congr_left
    rintro ⟨view, index⟩ member
    rw [Orders.sorted, getElem?_of_mem_zipIdx member]
    rfl
  rw [image, databases]
  rfl

/-- The records of a snapshot in front of the end. -/
def imageRecords (orders : Orders) (views : List Keyspace) (now : Int) : List Record :=
  .metadata "redis-ver" "7.0.0" :: .metadata "redis-bits" "64" ::
    .metadata "ctime" (toString (now / 1000)) ::
    views.zipIdx.flatMap fun (view, index) => recordsIn (orders index) index view

theorem imageIn_eq (orders : Orders) (views : List Keyspace) (now : Int) :
    imageIn orders views now =
      Bytes.ofText magic ++ (Bytes.ofText "0009" ++
        ((imageRecords orders views now).flatMap Record.toBytes ++ trailer)) := by
  rw [imageIn, preamble]
  simp [imageRecords, List.flatMap_assoc]

/-- The commands that recreate one database, entry by entry in a given order. -/
def restoring (order : List (String × Entry)) (index : Nat) (view : Keyspace) :
    List (List String) :=
  if view.isEmpty then []
  else
    ["SELECT", toString index] ::
      order.flatMap fun (key, stored) => Record.entryCommands key stored

theorem commands_recordsIn (order : List (String × Entry)) (index : Nat) (view : Keyspace) :
    (recordsIn order index view).flatMap Record.commands = restoring order index view := by
  simp only [recordsIn, restoring]
  split
  · rfl
  · simp only [List.flatMap_cons, Record.commands, List.flatMap_map]
    rfl

theorem commands_imageRecords (orders : Orders) (views : List Keyspace) (now : Int) :
    (imageRecords orders views now).flatMap Record.commands =
      views.zipIdx.flatMap fun (view, index) => restoring (orders index) index view := by
  simp only [imageRecords, List.flatMap_cons, Record.commands, List.nil_append, List.flatMap_assoc]
  congr
  funext (view, index)
  exact commands_recordsIn (orders index) index view

theorem carried_image {orders : Orders} {views : List Keyspace} {now : Int}
    (of : orders.Of views now) (least : 0 ≤ now) (most : now ≤ Text.maxSigned64)
    (count : (views.length : Int) ≤ Text.maxSigned64)
    (fits : ∀ view ∈ views, ∀ key entry, view[key]? = some entry → entry.expired now = false →
      FitsEntry key entry) :
    ∀ written ∈ imageRecords orders views now, Carried written := by
  have parts : imageRecords orders views now = originRecords (now / 1000) ++
      views.zipIdx.flatMap fun (view, index) => recordsIn (orders index) index view := rfl
  intro written member
  rw [parts] at member
  rcases List.mem_append.mp member with origin | member
  · apply carried_origin _ _ written origin
    · simp only [Text.minSigned64]
      omega
    · simp only [Text.maxSigned64] at most ⊢
      omega
  · obtain ⟨⟨view, index⟩, numbered, among⟩ := List.mem_flatMap.mp member
    have here := getElem?_of_mem_zipIdx numbered
    have inside := (List.getElem?_eq_some_iff.mp here).1
    simp only [recordsIn] at among
    split at among
    · cases among
    · simp only [List.mem_cons, List.mem_map] at among
      rcases among with rfl | rfl | ⟨⟨key, entry⟩, stored, rfl⟩
      · apply carried_database
        simp only [Text.maxSigned64, Text.maxUnsigned64] at count ⊢
        omega
      · exact carried_sizes _ _
      · obtain ⟨found, unexpired⟩ := (of.mem here).mp stored
        exact carried_entry (fits view (List.mem_of_getElem? here) key entry found unexpired)

/-- A snapshot is read as the commands that recreate its databases. -/
theorem commandsOf_imageIn {orders : Orders} {views : List Keyspace} {now : Int}
    (of : orders.Of views now) (least : 0 ≤ now) (most : now ≤ Text.maxSigned64)
    (count : (views.length : Int) ≤ Text.maxSigned64)
    (fits : ∀ view ∈ views, ∀ key entry, view[key]? = some entry → entry.expired now = false →
      FitsEntry key entry) :
    commandsOf (imageIn orders views now) =
      .ok (views.zipIdx.flatMap fun (view, index) => restoring (orders index) index view) := by
  have carried := carried_image of least most count fits
  rw [imageIn_eq, commandsOf_records carried, commands_imageRecords]

/-! ### What a snapshot can command -/

/-- A command that stands for a record. -/
def Restoring (arguments : List String) : Prop :=
  ∃ record : Record, arguments ∈ record.commands

theorem Reader.apply_restoring {reader : Reader}
    (restoring : ∀ arguments ∈ reader.commands.toList, Restoring arguments) (read : Record) :
    ∀ arguments ∈ (reader.apply read).commands.toList, Restoring arguments := by
  intro arguments member
  cases read with
  | metadata | finish => exact restoring arguments member
  | sizes keys expiring =>
      simp only [apply, Array.toList_append, List.mem_append] at member
      rcases member with early | late
      · exact restoring arguments early
      · exact ⟨.sizes keys expiring, late⟩
  | database index =>
      simp only [apply, Array.toList_append, List.mem_append] at member
      rcases member with early | late
      · exact restoring arguments early
      · exact ⟨.database index, late⟩
  | entry key stored =>
      simp only [apply, Array.toList_append, List.mem_append] at member
      rcases member with early | late
      · exact restoring arguments early
      · exact ⟨.entry key stored, late⟩

theorem Reader.readRecords_restoring {reader : Reader}
    (restoring : ∀ arguments ∈ reader.commands.toList, Restoring arguments) :
    ∀ arguments ∈ reader.readRecords.2.commands.toList, Restoring arguments := by
  fun_induction readRecords reader with
  | case1 => exact restoring
  | case2 => exact restoring
  | case3 => exact restoring
  | case4 reader _ found rest _ _ ih => exact ih (apply_restoring restoring found)

/-- Whatever a snapshot is, its commands are those of records. -/
theorem commandsOf_restoring {bytes : Bytes} {commands : List (List String)}
    (read : commandsOf bytes = .ok commands) : ∀ arguments ∈ commands, Restoring arguments := by
  have fed : ∀ arguments ∈ (({} : Reader).feed bytes).2.commands.toList, Restoring arguments := by
    rw [Reader.feed, if_neg (by simp [Reader.finished]), Reader.readPending]
    dsimp only
    split
    · simp
    · simp
    · apply Reader.readRecords_restoring
      simp
  rw [commandsOf] at read
  split at read
  · next reader given =>
      rw [given] at fed
      rw [Reader.result] at read
      split at read
      · cases read
        exact fed
      · cases read
  · cases read

/-- A record stands for commands of four names. -/
theorem Restoring.cases {arguments : List String} (restoring : Restoring arguments) :
    ∃ name rest, arguments = name :: rest ∧
      (name = "SELECT" ∨ name = "SET" ∨ name = "RPUSH" ∨ name = "PEXPIREAT") := by
  obtain ⟨record, member⟩ := restoring
  cases record with
  | metadata | sizes | finish => cases member
  | database index =>
      rw [Record.commands, List.mem_singleton] at member
      exact ⟨_, _, member, .inl rfl⟩
  | entry key stored =>
      obtain ⟨datum, expiry⟩ := stored
      match datum, expiry with
      | .text content, none =>
          rw [Record.commands, Record.entryCommands, List.mem_singleton] at member
          exact ⟨_, _, member, .inr (.inl rfl)⟩
      | .text content, some moment =>
          rw [Record.commands, Record.entryCommands, List.mem_singleton] at member
          exact ⟨_, _, member, .inr (.inl rfl)⟩
      | .list [], expiry => cases member
      | .list (first :: others), none =>
          rw [Record.commands, Record.entryCommands, List.mem_singleton] at member
          exact ⟨_, _, member, .inr (.inr (.inl rfl))⟩
      | .list (first :: others), some moment =>
          rw [Record.commands, Record.entryCommands, List.mem_cons, List.mem_singleton] at member
          rcases member with pushes | expires
          · exact ⟨_, _, pushes, .inr (.inr (.inl rfl))⟩
          · exact ⟨_, _, expires, .inr (.inr (.inr rfl))⟩

end ReplicaStore.Snapshot
