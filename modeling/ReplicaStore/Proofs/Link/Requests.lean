import ReplicaStore.Proofs.Link.Reading

/-!
# One request after the other

The dialogue with a leader asks for lines and blocks of bytes, in an order that depends on what
it has been told.  `Inbox.serveAll` is any such sequence of requests, and for each of them what
came of it: the line or the block or the reason why there is none, the heartbeats in front of it,
and all bytes that are not consumed yet, read ahead or not.

How a stream is cut into reads shows in none of this (`Inbox.serveAll_eq_of_content_eq`).  A line
that is never ended and a block that is longer than the stream are failures like others: the
stream is read to its end for them and nothing of it is lost, so later requests find it.
-/

namespace ReplicaStore.Link

/-- What can be asked of a connection. -/
inductive Request where
  | line
  | block (length : Nat)
  deriving DecidableEq, Repr

/-- What came of a request. -/
structure Receipt where
  result : Except LinkError (String ⊕ Bytes)
  heartbeats : Nat
  /-- The bytes that are not consumed yet. -/
  left : Bytes

/-- What was received, however much of the rest has been read ahead. -/
def Received.receipt {α : Type} (kind : α → String ⊕ Bytes) (received : Received α) : Receipt where
  result := received.result.map kind
  heartbeats := received.heartbeats
  left := received.inbox.content

/-- What comes of a request if the whole stream is there at once. -/
def Request.receipt (content : Bytes) : Request → Receipt
  | .line =>
      match scanLine content with
      | (count, .found written rest) => ⟨(lineText written).map .inl, count, rest⟩
      | (count, .more behind) => ⟨.error .closed, count, behind⟩
  | .block length =>
      if length ≤ content.length then ⟨.ok (.inr (content.take length)), 0, content.drop length⟩
      else ⟨.error .closed, 0, content⟩

/-- What comes of several requests if the whole stream is there at once. -/
def Request.receipts (content : Bytes) : List Request → List Receipt
  | [] => []
  | request :: requests =>
      request.receipt content :: receipts (request.receipt content).left requests

namespace Inbox

variable {buffer behind : Bytes} {unread : List Bytes} {count length : Nat}

/-- Serves one request. -/
def serve (inbox : Inbox) : Request → Receipt × Inbox
  | .line => (inbox.readLine.receipt .inl, inbox.readLine.inbox)
  | .block length => ((inbox.readBlock length).receipt .inr, (inbox.readBlock length).inbox)

/-- Serves several requests, one after the other. -/
def serveAll (inbox : Inbox) : List Request → List Receipt
  | [] => []
  | request :: requests => (inbox.serve request).1 :: (inbox.serve request).2.serveAll requests

/-! ### A stream that ends too early -/

/-- Where the line is never ended everything is read, and nothing but newlines is consumed. -/
theorem readLineFrom_more (flowing : Flowing ⟨buffer, unread⟩)
    (waits : scanLine (buffer ++ unread.flatten) = (count, .more behind)) (seen : Nat) :
    readLineFrom seen buffer unread = ⟨.error .closed, seen + count, ⟨behind, []⟩⟩ := by
  induction unread generalizing seen buffer count with
  | nil =>
      rw [List.flatten_nil, List.append_nil] at waits
      rw [readLineFrom, waits]
  | cons read unread ih =>
      cases scanned : scanLine buffer with
      | mk newlines scan =>
          cases scan with
          | found first between =>
              rw [scanLine_found_append scanned] at waits
              cases waits
          | more start =>
              rw [scanLine_more_append scanned, List.flatten_cons, ← List.append_assoc] at waits
              cases read with
              | nil => exact absurd rfl (flowing [] List.mem_cons_self)
              | cons byte chunk =>
                  cases next : scanLine (start ++ byte :: chunk ++ unread.flatten) with
                  | mk more scan =>
                      rw [next] at waits
                      cases waits
                      rw [readLineFrom, scanned, ← Nat.add_assoc]
                      exact ih (flowing.tail (start ++ byte :: chunk)) next (seen + newlines)

/-- Where the stream is shorter than the block everything is read, and nothing is consumed. -/
theorem readBlockFrom_short (flowing : Flowing ⟨buffer, unread⟩)
    (short : (buffer ++ unread.flatten).length < length) :
    readBlockFrom length buffer unread = ⟨.error .closed, 0, ⟨buffer ++ unread.flatten, []⟩⟩ := by
  induction unread generalizing buffer with
  | nil =>
      rw [List.flatten_nil, List.append_nil] at short ⊢
      rw [readBlockFrom, if_pos short]
  | cons read unread ih =>
      have missing : buffer.length < length := by
        rw [List.length_append] at short
        omega
      cases read with
      | nil => exact absurd rfl (flowing [] List.mem_cons_self)
      | cons byte chunk =>
          rw [List.flatten_cons, ← List.append_assoc] at short ⊢
          rw [readBlockFrom, if_pos missing]
          exact ih (flowing.tail (buffer ++ byte :: chunk)) short

/-! ### Every request -/

variable {inbox first second : Inbox}

theorem receipt_readLine (flowing : inbox.Flowing) :
    inbox.readLine.receipt .inl = Request.line.receipt inbox.content ∧
      inbox.readLine.inbox.Flowing := by
  rw [Request.receipt]
  cases scanned : scanLine inbox.content with
  | mk count scan =>
      cases scan with
      | found line rest =>
          obtain ⟨left, reads, content, flows⟩ := readLine_found flowing scanned
          rw [reads, Received.receipt, content]
          exact ⟨rfl, flows⟩
      | more behind =>
          rw [readLine, readLineFrom_more flowing scanned, Received.receipt, content, Nat.zero_add,
            List.flatten_nil, List.append_nil]
          exact ⟨rfl, by simp [Flowing]⟩

theorem receipt_readBlock (flowing : inbox.Flowing) (length : Nat) :
    (inbox.readBlock length).receipt .inr = (Request.block length).receipt inbox.content ∧
      (inbox.readBlock length).inbox.Flowing := by
  rw [Request.receipt]
  split
  · next enough =>
      obtain ⟨left, reads, content, flows⟩ := readBlock_enough flowing enough
      rw [reads, Received.receipt, content]
      exact ⟨rfl, flows⟩
  · next short =>
      rw [readBlock, readBlockFrom_short flowing (Nat.lt_of_not_le short), Received.receipt,
        content, List.flatten_nil, List.append_nil]
      exact ⟨rfl, by simp [Flowing]⟩

/-- A request is served as if the whole stream were there, and the reads behind it still bring
some bytes each. -/
theorem serve_eq (flowing : inbox.Flowing) (request : Request) :
    (inbox.serve request).1 = request.receipt inbox.content ∧
      (inbox.serve request).2.content = (request.receipt inbox.content).left ∧
      (inbox.serve request).2.Flowing := by
  cases request with
  | line =>
      obtain ⟨same, flows⟩ := receipt_readLine flowing
      exact ⟨same, congrArg Receipt.left same, flows⟩
  | block length =>
      obtain ⟨same, flows⟩ := receipt_readBlock flowing length
      exact ⟨same, congrArg Receipt.left same, flows⟩

theorem serveAll_eq (flowing : inbox.Flowing) (requests : List Request) :
    inbox.serveAll requests = Request.receipts inbox.content requests := by
  induction requests generalizing inbox with
  | nil => rfl
  | cons request requests ih =>
      obtain ⟨receipt, content, flows⟩ := serve_eq flowing request
      rw [serveAll, Request.receipts, ih flows, receipt, content]

/-- What comes of any requests depends on the bytes of the stream alone and not on how they are
cut into reads, none of which is empty: each gives the same line, block or failure, the same
number of heartbeats and the same bytes that are left, namely those that it gives if all bytes
are there from the start. -/
theorem serveAll_eq_of_content_eq (flowing : first.Flowing) (flowingToo : second.Flowing)
    (same : first.content = second.content) (requests : List Request) :
    first.serveAll requests = second.serveAll requests ∧
      first.serveAll requests = Request.receipts first.content requests := by
  have whole := serveAll_eq flowing requests
  refine ⟨?_, whole⟩
  rw [whole, same, serveAll_eq flowingToo requests]

/-- An answer with a snapshot, cut within the newlines at its front, within the ends of its lines
and within the snapshot, and the same in one piece.  The last two requests are for more than the
stream has. -/
theorem serveAll_answer_with_snapshot :
    let cut : Inbox := { unread :=
      ["\n", "\n+FULLRESYNC abc 0\r", "\n$3", "\r\nR", "DBre", "st"].map Bytes.ofText }
    let whole : Inbox := { unread := [Bytes.ofText "\n\n+FULLRESYNC abc 0\r\n$3\r\nRDBrest"] }
    let requests : List Request := [.line, .line, .block 3, .block 9, .line]
    cut.Flowing ∧ whole.Flowing ∧ cut.content = whole.content ∧
      cut.serveAll requests = whole.serveAll requests ∧
      cut.serveAll requests =
        [⟨.ok (.inl "+FULLRESYNC abc 0"), 2, .ofText "$3\r\nRDBrest"⟩,
          ⟨.ok (.inl "$3"), 0, .ofText "RDBrest"⟩,
          ⟨.ok (.inr (.ofText "RDB")), 0, .ofText "rest"⟩,
          ⟨.error .closed, 0, .ofText "rest"⟩,
          ⟨.error .closed, 0, .ofText "rest"⟩] := by
  intro cut whole requests
  have flowing : cut.Flowing := by
    rw [Flowing]
    decide +kernel
  have flowingToo : whole.Flowing := by
    rw [Flowing]
    decide +kernel
  have same : cut.content = whole.content := by decide +kernel
  obtain ⟨equal, receipts⟩ := serveAll_eq_of_content_eq flowing flowingToo same requests
  exact ⟨flowing, flowingToo, same, equal, receipts.trans rfl⟩

end Inbox
end ReplicaStore.Link
