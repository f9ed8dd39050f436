import ReplicaStore.Link.Role
import ReplicaStore.Link.SyncReply
import ReplicaStore.Proofs.Wire.Line

/-!
# Reading however the bytes come

A connection hands its bytes over in reads of any size.  A line and a block of bytes are read
of all that is still to come (`Inbox.content`) as if it had come at once, as long as no read is
empty, which would be the end of the stream.
-/

namespace ReplicaStore.Link

/-! ### A line in a growing buffer -/

/-- What is looked for behind the newlines at the front of a buffer. -/
def lineAt (behind : Bytes) : LineScan :=
  match Bytes.splitLine behind with
  | some (line, rest) => .found line rest
  | none => .more behind

/-- Every buffer is a number of newlines and bytes that do not begin with one. -/
theorem exists_newlines (buffer : Bytes) :
    ∃ count behind, buffer = List.replicate count 10 ++ behind ∧ behind.head? ≠ some 10 := by
  induction buffer with
  | nil => exact ⟨0, [], rfl, by simp⟩
  | cons first buffer ih =>
      by_cases newline : first = 10
      · obtain ⟨count, behind, whole, solid⟩ := ih
        exact ⟨count + 1, behind, by rw [whole, newline, List.replicate_succ, List.cons_append], solid⟩
      · exact ⟨0, first :: buffer, rfl, by simpa using newline⟩

theorem scanLine_newlines (count : Nat) {behind : Bytes} (solid : behind.head? ≠ some 10) :
    scanLine (List.replicate count 10 ++ behind) = (count, lineAt behind) := by
  have newlines : ∀ byte ∈ List.replicate count (10 : UInt8), (byte == 10) = true := by
    intro byte member
    rw [List.eq_of_mem_replicate member]
    rfl
  have nothing : behind.takeWhile (· == 10) = [] ∧ behind.dropWhile (· == 10) = behind := by
    cases behind with
    | nil => exact ⟨rfl, rfl⟩
    | cons first behind =>
        have other : ¬ (first == 10) = true := by simpa using solid
        exact ⟨List.takeWhile_cons_of_neg other, List.dropWhile_cons_of_neg other⟩
  rw [scanLine, List.takeWhile_append_of_pos newlines, List.dropWhile_append_of_pos newlines,
    nothing.1, nothing.2, List.append_nil, List.length_replicate, lineAt]
  cases Bytes.splitLine behind <;> rfl

variable {buffer line rest behind : Bytes} {count : Nat}

/-- A line that has been found stays where it is when more bytes come. -/
theorem scanLine_found_append (found : scanLine buffer = (count, .found line rest))
    (later : Bytes) : scanLine (buffer ++ later) = (count, .found line (rest ++ later)) := by
  obtain ⟨newlines, behind, rfl, solid⟩ := exists_newlines buffer
  rw [scanLine_newlines newlines solid, lineAt] at found
  cases cut : Bytes.splitLine behind with
  | none =>
      rw [cut] at found
      cases found
  | some parts =>
      obtain ⟨first, last⟩ := parts
      rw [cut] at found
      cases found
      obtain ⟨taken, whole, cuts⟩ := Bytes.delimited_splitLine cut
      have more : (behind ++ later).head? ≠ some 10 := by
        cases behind with
        | nil => cases cut
        | cons first behind => exact solid
      rw [List.append_assoc, scanLine_newlines _ more, whole, List.append_assoc, lineAt,
        cuts (rest ++ later)]

/-- Where no line has been found yet, looking again goes on behind the newlines. -/
theorem scanLine_more_append (waits : scanLine buffer = (count, .more behind)) (later : Bytes) :
    scanLine (buffer ++ later) =
      (count + (scanLine (behind ++ later)).1, (scanLine (behind ++ later)).2) := by
  obtain ⟨newlines, left, rfl, solid⟩ := exists_newlines buffer
  rw [scanLine_newlines newlines solid, lineAt] at waits
  cases cut : Bytes.splitLine left with
  | some parts =>
      rw [cut] at waits
      cases waits
  | none =>
      rw [cut] at waits
      cases waits
      obtain ⟨more, last, whole, lastSolid⟩ := exists_newlines (behind ++ later)
      rw [List.append_assoc, whole, ← List.append_assoc, List.replicate_append_replicate,
        scanLine_newlines _ lastSolid, scanLine_newlines _ lastSolid]

/-! ### What is still to come -/

namespace Inbox

/-- All bytes that have not been consumed. -/
def content (inbox : Inbox) : Bytes :=
  inbox.buffer ++ inbox.unread.flatten

/-- Every read brings some bytes. -/
def Flowing (inbox : Inbox) : Prop :=
  ∀ read ∈ inbox.unread, read ≠ []

theorem Flowing.tail {buffer read : Bytes} {later : List Bytes}
    (flowing : Flowing ⟨buffer, read :: later⟩) (next : Bytes) : Flowing ⟨next, later⟩ :=
  fun other member => flowing other (List.mem_cons_of_mem _ member)

/-- The line at the front of what is still to come is read, whatever part of it has been read
so far.  The induction is on the reads. -/
theorem readLineFrom_found {unread : List Bytes} (flowing : Flowing ⟨buffer, unread⟩)
    (found : scanLine (buffer ++ unread.flatten) = (count, .found line rest)) (seen : Nat) :
    ∃ left : Inbox, readLineFrom seen buffer unread = ⟨lineText line, seen + count, left⟩ ∧
      left.content = rest ∧ left.Flowing := by
  induction unread generalizing seen buffer count with
  | nil =>
      rw [List.flatten_nil, List.append_nil] at found
      exact ⟨⟨rest, []⟩, by rw [readLineFrom, found], List.append_nil rest, flowing⟩
  | cons read unread ih =>
      cases scanned : scanLine buffer with
      | mk newlines scan =>
          cases scan with
          | found first between =>
              rw [scanLine_found_append scanned] at found
              cases found
              exact ⟨⟨between, read :: unread⟩, by rw [readLineFrom, scanned], rfl, flowing⟩
          | more behind =>
              rw [scanLine_more_append scanned] at found
              rw [List.flatten_cons, ← List.append_assoc] at found
              cases read with
              | nil => exact absurd rfl (flowing [] List.mem_cons_self)
              | cons byte chunk =>
                  cases next : scanLine (behind ++ byte :: chunk ++ unread.flatten) with
                  | mk more scan =>
                      rw [next] at found
                      cases found
                      obtain ⟨left, reads, kept⟩ :=
                        ih (flowing.tail (behind ++ byte :: chunk)) next (seen + newlines)
                      refine ⟨left, ?_, kept⟩
                      rw [readLineFrom, scanned, ← Nat.add_assoc]
                      exact reads

/-- The line at the front of what is still to come is read. -/
theorem readLine_found {inbox : Inbox} (flowing : inbox.Flowing)
    (found : scanLine inbox.content = (count, .found line rest)) :
    ∃ left : Inbox, inbox.readLine = ⟨lineText line, count, left⟩ ∧
      left.content = rest ∧ left.Flowing := by
  obtain ⟨left, reads, kept⟩ := readLineFrom_found flowing found 0
  exact ⟨left, by rw [readLine, reads, Nat.zero_add], kept⟩

theorem readBlockFrom_enough {unread : List Bytes} {length : Nat}
    (flowing : Flowing ⟨buffer, unread⟩) (enough : length ≤ (buffer ++ unread.flatten).length) :
    ∃ left : Inbox,
      readBlockFrom length buffer unread =
        ⟨.ok ((buffer ++ unread.flatten).take length), 0, left⟩ ∧
      left.content = (buffer ++ unread.flatten).drop length ∧ left.Flowing := by
  induction unread generalizing buffer with
  | nil =>
      rw [List.flatten_nil, List.append_nil] at enough ⊢
      refine ⟨⟨buffer.drop length, []⟩, ?_, List.append_nil _, flowing⟩
      rw [readBlockFrom, if_neg (Nat.not_lt.mpr enough)]
  | cons read unread ih =>
      by_cases missing : buffer.length < length
      · cases read with
        | nil => exact absurd rfl (flowing [] List.mem_cons_self)
        | cons byte chunk =>
            rw [List.flatten_cons, ← List.append_assoc] at enough ⊢
            obtain ⟨left, reads, kept⟩ := ih (flowing.tail (buffer ++ byte :: chunk)) enough
            refine ⟨left, ?_, kept⟩
            rw [readBlockFrom, if_pos missing]
            exact reads
      · have there : length ≤ buffer.length := Nat.not_lt.mp missing
        refine ⟨⟨buffer.drop length, read :: unread⟩, ?_, ?_, flowing⟩
        · rw [readBlockFrom.eq_def, if_neg missing, List.take_append_of_le_length there]
        · rw [content, List.drop_append_of_le_length there]

/-- As many bytes as are asked for are read of what is still to come. -/
theorem readBlock_enough {inbox : Inbox} {length : Nat} (flowing : inbox.Flowing)
    (enough : length ≤ inbox.content.length) :
    ∃ left : Inbox, inbox.readBlock length = ⟨.ok (inbox.content.take length), 0, left⟩ ∧
      left.content = inbox.content.drop length ∧ left.Flowing :=
  readBlockFrom_enough flowing enough

end Inbox

/-! ### The answer to a request to synchronise -/

/-- Goes on reading behind what was received, and counts the signs of life together. -/
def Received.andThen {α β : Type} (first : Received α) (next : α → Inbox → Received β) :
    Received β :=
  match first.result with
  | .error error => ⟨.error error, first.heartbeats, first.inbox⟩
  | .ok value =>
      let later := next value first.inbox
      ⟨later.result, first.heartbeats + later.heartbeats, later.inbox⟩

/-- What comes behind something that was received, if no sign of life stands in between. -/
theorem Received.andThen_ok {α β : Type} {value : α} {result : Except LinkError β}
    {next : α → Inbox → Received β} {beats : Nat} {between left : Inbox}
    (run : next value between = ⟨result, 0, left⟩) :
    Received.andThen ⟨.ok value, beats, between⟩ next = ⟨result, beats, left⟩ := by
  simp only [andThen, run, Nat.add_zero]

namespace Inbox

/-- Reads the answer to a request to synchronise: its line, and of an answer that announces a
snapshot the length of the snapshot and the snapshot itself. -/
def readAnswer (inbox : Inbox) : Received LinkEvent :=
  inbox.readLine.andThen fun line inbox =>
    match SyncReply.ofLine line with
    | .error error => ⟨.error error, 0, inbox⟩
    | .ok (.continued id) => ⟨.ok (.continued id), 0, inbox⟩
    | .ok (.fullSync id offset) =>
        inbox.readLine.andThen fun header inbox =>
          match blockLength header with
          | .error error => ⟨.error error, 0, inbox⟩
          | .ok length =>
              (inbox.readBlock length).andThen fun payload inbox =>
                ⟨.ok (.fullSync id offset payload), 0, inbox⟩

variable {inbox : Inbox} {text : String}

theorem readAnswer_continued {id : Option String} (flowing : inbox.Flowing)
    (scanned : scanLine inbox.content = (count, .found line rest))
    (written : lineText line = .ok text) (reply : SyncReply.ofLine text = .ok (.continued id)) :
    ∃ left : Inbox, inbox.readAnswer = ⟨.ok (.continued id), count, left⟩ ∧
      left.content = rest ∧ left.Flowing := by
  obtain ⟨left, reads, kept⟩ := readLine_found flowing scanned
  refine ⟨left, ?_, kept⟩
  rw [readAnswer, reads, written]
  apply Received.andThen_ok
  simp only [reply]

theorem readAnswer_fullSync {id : String} {offset : Int} {header payload tail : Bytes}
    {announced : String} (flowing : inbox.Flowing)
    (scanned : scanLine inbox.content = (count, .found line rest))
    (written : lineText line = .ok text)
    (reply : SyncReply.ofLine text = .ok (.fullSync id offset))
    (found : scanLine rest = (0, .found header (payload ++ tail)))
    (read : lineText header = .ok announced) (sized : blockLength announced = .ok payload.length) :
    ∃ left : Inbox, inbox.readAnswer = ⟨.ok (.fullSync id offset payload), count, left⟩ ∧
      left.content = tail ∧ left.Flowing := by
  obtain ⟨between, reads, content, flows⟩ := readLine_found flowing scanned
  obtain ⟨behind, readsNext, contentNext, flowsNext⟩ := readLine_found flows (content ▸ found)
  have enough : payload.length ≤ behind.content.length := by
    rw [contentNext, List.length_append]
    exact Nat.le_add_right _ _
  obtain ⟨left, readsLast, contentLast, flowsLast⟩ := readBlock_enough flowsNext enough
  rw [contentNext, List.take_left] at readsLast
  rw [contentNext, List.drop_left] at contentLast
  refine ⟨left, ?_, contentLast, flowsLast⟩
  rw [readAnswer, reads, written]
  apply Received.andThen_ok
  simp only [reply]
  rw [readsNext, read]
  apply Received.andThen_ok
  simp only [sized]
  rw [readsLast]
  exact Received.andThen_ok rfl

end Inbox
end ReplicaStore.Link
