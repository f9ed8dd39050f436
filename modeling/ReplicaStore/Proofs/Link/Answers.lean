import ReplicaStore.Proofs.Link.Dialogue
import ReplicaStore.Proofs.Stream.Attendance
import ReplicaStore.Proofs.Stream.Replies

/-!
# Answers to a request to synchronise are read back

What a leader queues for a replica is a line, for a snapshot also its length and its bytes,
and the stream behind them, without anything that would mark where one ends and the next
begins.  A follower takes it apart where it was put together, behind any number of heartbeats
and however it was cut on its way (`Coordinator.answers_read_back`).
-/

namespace ReplicaStore

theorem Stream.isWord_of_isValidId {id : String} (valid : isValidId id = true) : Text.IsWord id := by
  rw [isValidId, Bool.and_eq_true] at valid
  refine ⟨?_, fun character member => ?_⟩
  · rintro rfl
    exact absurd valid.1 (by decide)
  · exact Text.isPlain_of_isAlphanum (List.all_eq_true.mp valid.2 character member)

namespace Link

open ReplicaStore.Stream (Coordinator)

variable {id : String} {offset : Int}

/-! ### What a follower takes -/

/-- What a dialogue calls for where it has taken an answer. -/
def Dialogue.answered : LinkEvent → List Action
  | .fullSync id offset payload => [reached .transfer, .report (.fullSync id offset payload)]
  | event => [.report event]

/-- Bytes that carry an answer with the stream behind it.  Behind any number of heartbeats, and
in reads of any size, a follower that waits for an answer takes just this one and begins to
take the stream where it begins. -/
structure Carries (sent : Bytes) (event : LinkEvent) (stream : Bytes) : Prop where
  /-- Reading line by line and then the snapshot leaves the stream. -/
  read (beats : Nat) {inbox : Inbox} (flowing : inbox.Flowing)
    (coming : inbox.content = List.replicate beats 10 ++ sent) :
    ∃ left : Inbox, inbox.readAnswer = ⟨.ok event, beats, left⟩ ∧
      left.content = stream ∧ left.Flowing
  /-- The dialogue does with all of it what it does with the stream alone, after what the
  heartbeats and the answer call for. -/
  taken (beats : Nat) {dialogue : Dialogue} (staged : dialogue.stage = .line .syncReply)
    (rests : dialogue.Resting) {reads : List Bytes}
    (coming : dialogue.buffer ++ reads.flatten = List.replicate beats 10 ++ sent) :
    dialogue.receiveAll reads =
      (dialogue.streaming.receive stream).after
        (Dialogue.heartbeats beats ++ Dialogue.answered event)

theorem carries_continueReply (valid : Stream.isValidId id = true) (stream : Bytes) :
    Carries (Coordinator.continueReply id stream) (.continued (some id)) stream := by
  have word := Stream.isWord_of_isValidId valid
  have reply : SyncReply.ofLine ("+CONTINUE " ++ id) = .ok (.continued (some id)) := by
    rw [SyncReply.ofLine_continued word, if_pos valid]
  constructor
  · intro beats inbox flowing coming
    exact Inbox.readAnswer_continued flowing
      (by rw [coming]; exact scanLine_continueReply word beats stream) (lineText_ofText _) reply
  · intro beats dialogue staged rests reads coming
    rw [Dialogue.receiveAll_eq rests]
    exact Dialogue.receive_continued staged
      (by rw [coming]; exact scanLine_continueReply word beats stream) (lineText_ofText _) reply

theorem carries_fullReply (valid : Stream.isValidId id = true) (least : 0 ≤ offset)
    (most : offset ≤ Text.maxSigned64) {payload : Bytes}
    (fits : payload.length ≤ Text.maxUnsigned64) (stream : Bytes) :
    Carries (Coordinator.fullReply id offset payload stream) (.fullSync id offset payload)
      stream := by
  have word := Stream.isWord_of_isValidId valid
  have reply : SyncReply.ofLine ("+FULLRESYNC " ++ id ++ " " ++ toString offset) =
      .ok (.fullSync id offset) := by
    rw [SyncReply.ofLine_fullSync word least most, if_pos valid]
  have sized : blockLength ("$" ++ payload.length.repr) = .ok payload.length := by
    rw [blockLength_repr, if_pos fits]
  constructor
  · intro beats inbox flowing coming
    exact Inbox.readAnswer_fullSync flowing
      (by rw [coming]; exact scanLine_fullReply word least beats payload stream)
      (lineText_ofText _) reply (scanLine_length payload stream) (lineText_ofText _) sized
  · intro beats dialogue staged rests reads coming
    rw [Dialogue.receiveAll_eq rests]
    exact Dialogue.receive_fullSync staged
      (by rw [coming]; exact scanLine_fullReply word least beats payload stream)
      (lineText_ofText _) reply (scanLine_length payload stream) (lineText_ofText _) sized

end Link

/-! ### What a leader queues -/

namespace Stream

open Link (Carries)

/-- Only offsets at which the stream can be are read from. -/
theorem Backlog.nonneg_of_read {backlog : Backlog} {offset : Int} {bytes : Bytes}
    (read : backlog.read offset = .ok bytes) : 0 ≤ offset := by
  simp only [Backlog.read, readable] at read
  split at read
  · cases read
  · split at read
    · cases read
    · omega

namespace Coordinator

variable {coordinator later : Coordinator} {clients clients' : Clients} {client : ClientId}
  {now : Nat}

/-- What a finished snapshot puts into the queue of a replica that waits for it. -/
theorem pending_finishFullSync {backlog : Backlog} {tail : Bytes}
    (reaches : clients.reaches client = true) (recorded : coordinator.backlog = some backlog)
    (waits : coordinator.stateOf client = some .awaitingSnapshot)
    (read : backlog.read coordinator.snapshotOffset = .ok tail) (now : Nat) (payload : Bytes) :
    (coordinator.finishFullSync clients now payload).2.pending client =
      clients.pending client ++
        [.data (fullReply coordinator.identity.current coordinator.snapshotOffset payload tail)] := by
  have member := mem_replicasIn_iff.mpr waits
  have some : (coordinator.replicasIn .awaitingSnapshot).isEmpty = false := by
    rw [List.isEmpty_eq_false_iff_exists_mem]
    exact ⟨client, member⟩
  simp only [finishFullSync, some, Bool.false_eq_true, if_false, recorded, read]
  exact (@foldl_ship_among client now payload tail (coordinator, clients) _
    (coordinator.nodup_replicasIn .awaitingSnapshot) member reaches).2

theorem pending_partialResync? {name : String} {offset : Int}
    (reaches : clients.reaches client = true)
    (resumes : coordinator.partialResync? clients now client name offset = some (later, clients')) :
    ∃ tail, coordinator.missed? name offset = some tail ∧
      clients'.pending client = clients.pending client ++
        [.data (continueReply coordinator.identity.current tail)] := by
  simp only [partialResync?, Option.map_eq_some_iff] at resumes
  obtain ⟨tail, missed, same⟩ := resumes
  cases same
  refine ⟨tail, missed, ?_⟩
  have queued := Clients.pending_queue reaches client
    (.data (continueReply coordinator.identity.current tail))
  rwa [if_pos rfl] at queued

/-- Answers are read back.  The bytes that a finished snapshot queues for a replica carry the id
of the history, the offset of the snapshot and the snapshot itself, with the stream recorded
since; the bytes that let a replica continue carry the id with the stream that it has missed.
Neither the snapshot nor the stream is looked into: they may hold any bytes. -/
theorem answers_read_back (valid : isValidId coordinator.identity.current = true)
    (reaches : clients.reaches client = true) :
    (∀ (backlog : Backlog) (tail payload : Bytes), coordinator.backlog = some backlog →
        coordinator.stateOf client = some .awaitingSnapshot →
        backlog.read coordinator.snapshotOffset = .ok tail →
        coordinator.snapshotOffset ≤ Text.maxSigned64 → payload.length ≤ Text.maxUnsigned64 →
        ∃ sent,
          (coordinator.finishFullSync clients now payload).2.pending client =
            clients.pending client ++ [.data sent] ∧
          Carries sent
            (.fullSync coordinator.identity.current coordinator.snapshotOffset payload) tail) ∧
      ∀ (name : String) (offset : Int) (later : Coordinator) (clients' : Clients),
        coordinator.partialResync? clients now client name offset = some (later, clients') →
        ∃ tail sent, coordinator.missed? name offset = some tail ∧
          clients'.pending client = clients.pending client ++ [.data sent] ∧
          Carries sent (.continued (some coordinator.identity.current)) tail := by
  constructor
  · intro backlog tail payload recorded waits read most fits
    exact ⟨_, pending_finishFullSync reaches recorded waits read now payload,
      Link.carries_fullReply valid (Backlog.nonneg_of_read read) most fits tail⟩
  · intro name offset later clients' resumes
    obtain ⟨tail, missed, pending⟩ := pending_partialResync? reaches resumes
    exact ⟨tail, _, missed, pending, Link.carries_continueReply valid tail⟩

/-- A leader that has begun a snapshot at offset 7 for the replica with the number 5, and has
recorded five bytes since. -/
def underway : Coordinator :=
  { Coordinator.new {} 16 0 with
    backlog := some ((((Backlog.new 16).reset 7).activate).write [13, 10, 36, 49, 10]).2
    snapshotOffset := 7
    replicas := .insert ∅ 5 {
      state := .awaitingSnapshot
      acknowledged := 0
      lastHeard := 0
      needSince := 0
      host := "127.0.0.1"
      listeningPort := none } }

/-- The replica's connection, to which nothing has been sent. -/
def attached : Clients :=
  .insert ∅ 5 { address := "127.0.0.1:40001" }

/-- A snapshot that begins with a newline, and a stream that begins with CR LF.  The same replica
could go on with the third byte of the stream. -/
theorem answers_read_back_underway :
    isValidId underway.identity.current = true ∧
      (∃ sent, (underway.finishFullSync attached 0 [10, 13, 10]).2.pending 5 = [.data sent] ∧
        Carries sent (.fullSync underway.identity.current 7 [10, 13, 10]) [13, 10, 36, 49, 10]) ∧
      ∃ later clients sent,
        underway.partialResync? attached 0 5 underway.identity.current 9 = some (later, clients) ∧
        clients.pending 5 = [.data sent] ∧
        Carries sent (.continued (some underway.identity.current)) [36, 49, 10] := by
  have valid : isValidId underway.identity.current = true := by decide +kernel
  have answers := @answers_read_back underway attached 5 0 valid (by decide +kernel)
  refine ⟨valid, ?_, ?_⟩
  · exact answers.1 _ [13, 10, 36, 49, 10] [10, 13, 10] rfl (by decide +kernel) rfl (by decide)
      (by decide)
  · have resumes : (underway.partialResync? attached 0 5 underway.identity.current 9).isSome = true := by
      decide +kernel
    obtain ⟨⟨later, clients⟩, resumed⟩ := Option.isSome_iff_exists.mp resumes
    obtain ⟨tail, sent, missed, pending, carries⟩ := answers.2 _ 9 later clients resumed
    have rest : underway.missed? underway.identity.current 9 = some [36, 49, 10] := by decide +kernel
    cases missed.symm.trans rest
    exact ⟨later, clients, sent, resumed, pending, carries⟩

end Coordinator
end Stream
end ReplicaStore
