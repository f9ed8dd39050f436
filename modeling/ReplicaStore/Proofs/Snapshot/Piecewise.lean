import ReplicaStore.Snapshot.Reader

/-!
# It does not matter how a snapshot is cut into pieces

A reader that has read what it could of some bytes stands, for every piece to come, where it
would have stood without having looked at them.  So feeding pieces one after the other comes to
the same as feeding their bytes at once, for snapshots as for bytes that are none: what is read
is the same, and one of the pieces meets an error if and only if the whole does.
-/

namespace ReplicaStore.Snapshot.Reader

/-- A reader with more bytes behind its pending ones. -/
def extend (reader : Reader) (piece : Bytes) : Reader :=
  { reader with pending := reader.pending ++ piece }

@[simp] theorem extend_extend (reader : Reader) (first second : Bytes) :
    (reader.extend first).extend second = reader.extend (first ++ second) := by
  simp only [extend, List.append_assoc]

@[simp] theorem finished_extend (reader : Reader) (piece : Bytes) :
    (reader.extend piece).finished = reader.finished := rfl

/-- Readers that differ in no more than the bytes that they have not used up. -/
structure Alike (left right : Reader) : Prop where
  version : left.version = right.version
  metadata : left.metadata = right.metadata
  commands : left.commands = right.commands
  checksum : left.checksum = right.checksum

theorem Alike.refl (reader : Reader) : Alike reader reader :=
  ⟨rfl, rfl, rfl, rfl⟩

theorem Alike.trans {first second third : Reader} (left : Alike first second)
    (right : Alike second third) : Alike first third :=
  ⟨left.version.trans right.version, left.metadata.trans right.metadata,
    left.commands.trans right.commands, left.checksum.trans right.checksum⟩

theorem Alike.symm {left right : Reader} (alike : Alike left right) : Alike right left :=
  ⟨alike.version.symm, alike.metadata.symm, alike.commands.symm, alike.checksum.symm⟩

/-! ### Bytes that have been looked at -/

/-- Records that are read before a piece comes are those that are read after it has come.
The induction is on the records that the pending bytes hold. -/
theorem readRecords_extend (reader : Reader) (piece : Bytes) :
    (reader.extend piece).readRecords = (reader.readRecords.2.extend piece).readRecords := by
  fun_induction readRecords reader with
  | case1 reader closed => rfl
  | case2 reader unfinished more => rfl
  | case3 reader unfinished error bad => rfl
  | case4 reader unfinished read rest found shorter ih =>
      have later : record (reader.extend piece).pending = .found read (rest ++ piece) :=
        settled_record.append found piece
      have same : { (reader.extend piece).apply read with pending := rest ++ piece } =
          { reader.apply read with pending := rest }.extend piece := by
        cases read with
        | metadata | sizes | database | entry | finish => rfl
      rw [← ih, readRecords_unfinished (by simpa using unfinished), later]
      exact congrArg readRecords same

/-- A reader that has its version keeps it. -/
theorem version_readRecords (reader : Reader) :
    reader.readRecords.2.version = reader.version := by
  fun_induction readRecords reader with
  | case1 reader closed => rfl
  | case2 reader unfinished more => rfl
  | case3 reader unfinished error bad => rfl
  | case4 reader unfinished read rest found shorter ih =>
      rw [ih]
      cases read with
      | metadata | sizes | database | entry | finish => rfl

theorem readPending_some {reader : Reader} {version : String} (known : reader.version = some version) :
    reader.readPending = reader.readRecords := by
  rw [readPending, known]

theorem readPending_none {reader : Reader} (unknown : reader.version = none) :
    reader.readPending =
      match header reader.pending with
      | .more => (.ok (), reader)
      | .bad error => (.error error, reader)
      | .found version rest =>
          { reader with version := some version, pending := rest }.readRecords := by
  obtain ⟨pending, version, metadata, commands, checksum⟩ := reader
  cases unknown
  rfl

/-- What is read before a piece comes is what is read after it has come. -/
theorem readPending_extend (reader : Reader) (piece : Bytes) :
    (reader.extend piece).readPending = (reader.readPending.2.extend piece).readPending := by
  cases known : reader.version with
  | some version =>
      have before : (reader.extend piece).version = some version := known
      have behind : (reader.readRecords.2.extend piece).version = some version :=
        (version_readRecords reader).trans known
      rw [readPending_some known, readPending_some before, readPending_some behind]
      exact readRecords_extend reader piece
  | none =>
      cases run : header reader.pending with
      | more => rw [readPending_none known, run]
      | bad error => rw [readPending_none known, run]
      | found version rest =>
          have before : (reader.extend piece).version = none := known
          have later : header (reader.extend piece).pending = .found version (rest ++ piece) :=
            settled_header.append run piece
          let begun : Reader := { reader with version := some version, pending := rest }
          have behind : (begun.readRecords.2.extend piece).version = some version :=
            version_readRecords begun
          rw [readPending_none known, run, readPending_none before, later]
          dsimp only
          rw [readPending_some behind, ← readRecords_extend begun piece]
          rfl

/-! ### Errors -/

/-- The error that stops a reader at the bytes in front of it. -/
structure Stuck (reader : Reader) (error : SnapshotError) : Prop where
  unfinished : reader.finished = false
  meets : match reader.version with
    | none => header reader.pending = .bad error
    | some _ => record reader.pending = .bad error

/-- More bytes do not help. -/
theorem Stuck.extend {reader : Reader} {error : SnapshotError} (stuck : Stuck reader error)
    (piece : Bytes) : Stuck (reader.extend piece) error where
  unfinished := stuck.unfinished
  meets := by
    have meets := stuck.meets
    cases known : reader.version with
    | none =>
        rw [known] at meets
        rw [Reader.extend, known]
        exact settled_header.bad meets piece
    | some version =>
        rw [known] at meets
        rw [Reader.extend, known]
        exact settled_record.bad meets piece

theorem Stuck.readPending {reader : Reader} {error : SnapshotError} (stuck : Stuck reader error) :
    reader.readPending = (.error error, reader) := by
  have meets := stuck.meets
  cases known : reader.version with
  | none =>
      rw [known] at meets
      rw [readPending_none known, meets]
  | some version =>
      rw [known] at meets
      rw [readPending_some known, readRecords_unfinished stuck.unfinished, meets]

theorem stuck_readRecords {reader : Reader} {version : String}
    (known : reader.version = some version) {error : SnapshotError}
    (broken : reader.readRecords.1 = .error error) : Stuck reader.readRecords.2 error := by
  fun_induction readRecords reader with
  | case1 reader closed => cases broken
  | case2 reader unfinished more => cases broken
  | case3 reader unfinished other bad =>
      cases broken
      refine ⟨by simpa using unfinished, ?_⟩
      rw [known]
      exact bad
  | case4 reader unfinished read rest found shorter ih =>
      apply ih
      · cases read with
        | metadata | sizes | database | entry | finish => exact known
      · exact broken

/-- A reader that has met an error stands in front of it. -/
theorem stuck_readPending {reader : Reader} (unfinished : reader.finished = false)
    {error : SnapshotError} (broken : reader.readPending.1 = .error error) :
    Stuck reader.readPending.2 error := by
  cases known : reader.version with
  | some version =>
      rw [readPending_some known] at broken ⊢
      exact stuck_readRecords known broken
  | none =>
      rw [readPending_none known] at broken ⊢
      cases run : header reader.pending with
      | more =>
          rw [run] at broken
          cases broken
      | bad other =>
          rw [run] at broken
          cases broken
          refine ⟨unfinished, ?_⟩
          rw [known]
          exact run
      | found version rest =>
          rw [run] at broken
          exact stuck_readRecords rfl broken

/-! ### Pieces -/

/-- A reader that has read to the end has a version. -/
theorem version_of_finished {reader : Reader} (unfinished : reader.finished = false)
    (closed : reader.readPending.2.finished = true) :
    ∃ version, reader.readPending.2.version = some version := by
  cases known : reader.version with
  | some version =>
      rw [readPending_some known]
      exact ⟨version, (version_readRecords reader).trans known⟩
  | none =>
      rw [readPending_none known] at closed ⊢
      cases run : header reader.pending with
      | more =>
          rw [run] at closed
          exact absurd closed (by simp [unfinished])
      | bad error =>
          rw [run] at closed
          exact absurd closed (by simp [unfinished])
      | found version rest => exact ⟨version, version_readRecords _⟩

theorem feed_finished {reader : Reader} (closed : reader.finished = true) (piece : Bytes) :
    reader.feed piece = (.ok (), reader) := by
  rw [feed, if_pos closed]

theorem feed_unfinished {reader : Reader} (unfinished : reader.finished = false) (piece : Bytes) :
    reader.feed piece = (reader.extend piece).readPending := by
  rw [feed, if_neg (by simp [unfinished])]
  rfl

/-- Two pieces are read like one. -/
theorem feed_append (reader : Reader) (first second : Bytes) :
    (reader.feed (first ++ second)).1 = ((reader.feed first).2.feed second).1 ∧
      Alike (reader.feed (first ++ second)).2 ((reader.feed first).2.feed second).2 := by
  cases closed : reader.finished with
  | true =>
      simp only [feed_finished closed, true_and]
      exact .refl reader
  | false =>
      have whole := readPending_extend (reader.extend first) second
      rw [extend_extend] at whole
      rw [feed_unfinished closed, feed_unfinished closed, whole]
      cases ended : (reader.extend first).readPending.2.finished with
      | false =>
          rw [feed_unfinished ended]
          exact ⟨rfl, .refl _⟩
      | true =>
          have unfinished : (reader.extend first).finished = false := closed
          obtain ⟨version, known⟩ := version_of_finished unfinished ended
          let last : Reader := (reader.extend first).readPending.2.extend second
          have versioned : last.version = some version := known
          have stillEnded : last.finished = true := ended
          rw [feed_finished ended, readPending_some versioned, readRecords_finished stillEnded]
          exact ⟨rfl, rfl, rfl, rfl, rfl⟩

/-- An error is met again with every piece to come. -/
theorem feed_error {reader : Reader} {first : Bytes} {error : SnapshotError}
    (broken : (reader.feed first).1 = .error error) (second : Bytes) :
    ((reader.feed first).2.feed second).1 = .error error := by
  cases closed : reader.finished with
  | true =>
      rw [feed_finished closed] at broken
      cases broken
  | false =>
      rw [feed_unfinished closed] at broken ⊢
      have unfinished : (reader.extend first).finished = false := closed
      have stuck := stuck_readPending unfinished broken
      rw [feed_unfinished stuck.unfinished, (stuck.extend second).readPending]

/-- Takes pieces one after the other, with what comes of each. -/
def feedAll (reader : Reader) : List Bytes → List (Except SnapshotError Unit) × Reader
  | [] => ([], reader)
  | piece :: pieces =>
      let (result, next) := reader.feed piece
      let (results, last) := next.feedAll pieces
      (result :: results, last)

@[simp] theorem feedAll_nil (reader : Reader) : reader.feedAll [] = ([], reader) := rfl

@[simp] theorem feedAll_cons (reader : Reader) (piece : Bytes) (pieces : List Bytes) :
    reader.feedAll (piece :: pieces) =
      ((reader.feed piece).1 :: ((reader.feed piece).2.feedAll pieces).1,
        ((reader.feed piece).2.feedAll pieces).2) := rfl

/-- Pieces bring a reader to where their bytes bring it at once. -/
theorem alike_feedAll (reader : Reader) (piece : Bytes) (pieces : List Bytes) :
    Alike (reader.feedAll (piece :: pieces)).2 (reader.feed (piece ++ pieces.flatten)).2 := by
  induction pieces generalizing reader piece with
  | nil =>
      rw [List.flatten_nil, List.append_nil]
      exact .refl _
  | cons second pieces ih =>
      have whole := (feed_append reader piece (second ++ pieces.flatten)).2
      have later := ih (reader.feed piece).2 second
      exact later.trans whole.symm

/-- One of the pieces meets an error exactly if their bytes at once meet it. -/
theorem mem_feedAll (reader : Reader) (piece : Bytes) (pieces : List Bytes)
    (error : SnapshotError) :
    .error error ∈ (reader.feedAll (piece :: pieces)).1 ↔
      (reader.feed (piece ++ pieces.flatten)).1 = .error error := by
  induction pieces generalizing reader piece with
  | nil =>
      rw [List.flatten_nil, List.append_nil, feedAll_cons, feedAll_nil, List.mem_singleton]
      exact eq_comm
  | cons second pieces ih =>
      have whole := (feed_append reader piece (second ++ pieces.flatten)).1
      rw [feedAll_cons, List.mem_cons, ih (reader.feed piece).2 second, List.flatten_cons, whole]
      constructor
      · rintro (broken | later)
        · exact feed_error broken.symm (second ++ pieces.flatten)
        · exact later
      · exact .inr

/-- Behind an error every piece meets it again. -/
theorem feedAll_of_error {reader : Reader} {first : Bytes} {error : SnapshotError}
    (broken : (reader.feed first).1 = .error error) (pieces : List Bytes) :
    ∀ result ∈ ((reader.feed first).2.feedAll pieces).1, result = .error error := by
  induction pieces generalizing reader first with
  | nil => simp
  | cons piece pieces ih =>
      have again := feed_error broken piece
      rw [feedAll_cons]
      intro result member
      rcases List.mem_cons.mp member with rfl | later
      · exact again
      · exact ih again result later

theorem feedAll_lasting (reader : Reader) (pieces : List Bytes) :
    (reader.feedAll pieces).1.Pairwise fun earlier later =>
      ∀ error, earlier = .error error → later = .error error := by
  induction pieces generalizing reader with
  | nil => exact .nil
  | cons piece pieces ih =>
      rw [feedAll_cons]
      refine .cons ?_ (ih (reader.feed piece).2)
      intro later member error broken
      exact feedAll_of_error broken pieces later member

/-- However the bytes of a snapshot, or bytes that are none, are cut into pieces: the reader
ends with the version, the metadata, the commands and the checksum that it has from all bytes at
once; a piece meets an error exactly if the whole meets it; and every later piece meets the same
error again. -/
theorem feedAll_flatten (pieces : List Bytes) :
    Alike (({} : Reader).feedAll pieces).2 (({} : Reader).feed pieces.flatten).2 ∧
      (∀ error, .error error ∈ (({} : Reader).feedAll pieces).1 ↔
        (({} : Reader).feed pieces.flatten).1 = .error error) ∧
      (({} : Reader).feedAll pieces).1.Pairwise fun earlier later =>
        ∀ error, earlier = .error error → later = .error error := by
  refine ⟨?_, fun error => ?_, feedAll_lasting {} pieces⟩
  · cases pieces with
    | nil => exact .refl {}
    | cons piece pieces => exact alike_feedAll {} piece pieces
  · cases pieces with
    | nil =>
        have nothing : (({} : Reader).feed []).1 = .ok () := rfl
        simp [nothing]
    | cons piece pieces => exact mem_feedAll {} piece pieces error

end ReplicaStore.Snapshot.Reader
