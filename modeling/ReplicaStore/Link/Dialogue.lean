import ReplicaStore.Link.Role
import ReplicaStore.Link.SyncReply

/-!
# The dialogue with a leader

A follower greets its leader, says on which port it listens and what it understands,
asks to be synchronised, and then takes the answer and the stream behind it.  The
dialogue is a state machine over the bytes that arrive: `Dialogue.receive` takes the
next ones, however they were cut, and gives the actions that they call for, in order.
-/

namespace ReplicaStore.Link

/-- The lines that the follower waits for. -/
inductive Awaited where
  | pong
  | port
  | capabilities
  | syncReply
  /-- The length of a snapshot, after an answer that announced one. -/
  | length (id : String) (offset : Int)
  deriving DecidableEq, Repr

/-- How far a dialogue has come. -/
inductive Stage where
  | line (awaited : Awaited)
  /-- A snapshot of a known length comes in. -/
  | payload (id : String) (offset : Int) (length : Nat)
  /-- Commands come in, without end. -/
  | stream
  deriving DecidableEq, Repr

/-- What the dialogue calls for. -/
inductive Action where
  | report (event : LinkEvent)
  | send (bytes : Bytes)
  deriving DecidableEq, Repr

structure Dialogue where
  request : SyncRequest
  stage : Stage := .line .pong
  /-- The bytes that have arrived but mean nothing yet. -/
  buffer : Bytes := []
  deriving DecidableEq, Repr

/-- What comes of some bytes: the actions they call for, and how the dialogue goes on
or why it ended. -/
structure Turn where
  actions : List Action
  result : Except LinkError Dialogue

/-- The answer to one line: the actions it calls for, and the stage behind it. -/
abbrev Answer := Except LinkError (List Action × Stage)

namespace Dialogue

/-- Tells the node how far the link has come. -/
def reached (state : LinkState) : Action :=
  .report (.state state)

/-- Sends a command to the leader. -/
def command (arguments : List String) : Action :=
  .send (Wire.commandBytes arguments)

/-- The first actions on an open connection. -/
def greeting : List Action :=
  [reached .awaitPong, command ["PING"]]

/-- The request to be synchronised: from where the follower is, or from the start. -/
def syncCommand (request : SyncRequest) : Action :=
  match request.id with
  | some id => command ["PSYNC", id, toString request.offset]
  | none => command ["PSYNC", "?", "-1"]

/-- Reports a sign of life of the leader, so many times. -/
def heartbeats (count : Nat) : List Action :=
  List.replicate count (.report .heartbeat)

/-- Answers one line.  Only a refused greeting ends the dialogue: a leader that does not
want to know the port or what the follower understands may still synchronise it. -/
def answer (request : SyncRequest) (line : String) : Awaited → Answer
  | .pong =>
      if line.toList.head? = some '-' then .error (.unexpectedReply line)
      else
        .ok ([reached .sendPort,
          command ["REPLCONF", "listening-port", toString request.listeningPort],
          reached .awaitPort], .line .port)
  | .port =>
      .ok ([reached .sendCapabilities, command ["REPLCONF", "capa", "eof", "capa", "psync2"],
        reached .awaitCapabilities], .line .capabilities)
  | .capabilities =>
      .ok ([reached .sendSyncRequest, syncCommand request, reached .awaitSyncReply],
        .line .syncReply)
  | .syncReply =>
      match SyncReply.ofLine line with
      | .error error => .error error
      | .ok (.fullSync id offset) => .ok ([reached .transfer], .line (.length id offset))
      | .ok (.continued id) => .ok ([.report (.continued id)], .stream)
  | .length id offset =>
      match blockLength line with
      | .error error => .error error
      | .ok length => .ok ([], .payload id offset length)

/-- The action that a frame of the stream calls for.  What is no command is passed
over. -/
def streamActions (raw : Bytes) : Wire.Frame → List Action
  | .keepAlive => [.report .heartbeat]
  | .value value =>
      match value.arguments? with
      | some arguments => [.report (.command arguments raw)]
      | none => []

/-- What a dialogue does next. -/
inductive Step where
  /-- It rests until more bytes arrive. -/
  | rest (dialogue : Dialogue)
  | stop (error : LinkError)
  | next (dialogue : Dialogue)

/-- The next step of a dialogue, and the actions that it calls for. -/
def step (dialogue : Dialogue) : List Action × Step :=
  match dialogue.stage with
  | .line awaited =>
      match scanLine dialogue.buffer with
      | (count, .more buffer) => (heartbeats count, .rest { dialogue with buffer })
      | (count, .found line buffer) =>
          match (lineText line).bind fun text => answer dialogue.request text awaited with
          | .error error => (heartbeats count, .stop error)
          | .ok (actions, stage) =>
              (heartbeats count ++ actions, .next { dialogue with stage, buffer })
  | .payload id offset length =>
      if dialogue.buffer.length < length then ([], .rest dialogue)
      else
        ([.report (.fullSync id offset (dialogue.buffer.take length))],
          .next { dialogue with stage := .stream, buffer := dialogue.buffer.drop length })
  | .stream =>
      match Wire.readFrame dialogue.buffer with
      | .more => ([], .rest dialogue)
      | .bad error => ([], .stop (.malformed error))
      | .found frame buffer =>
          let raw := dialogue.buffer.take (dialogue.buffer.length - buffer.length)
          (streamActions raw frame, .next { dialogue with buffer })

/-- How much a dialogue has left to do before it must rest.  A snapshot may be empty,
so leaving it counts even if it takes no bytes. -/
def weight (dialogue : Dialogue) : Nat :=
  2 * dialogue.buffer.length +
    match dialogue.stage with
    | .payload .. => 1
    | _ => 0

theorem length_of_scanLine {buffer line rest : Bytes} {count : Nat}
    (found : scanLine buffer = (count, .found line rest)) : rest.length + 2 ≤ buffer.length := by
  have shorter : (buffer.dropWhile (· == 10)).length ≤ buffer.length :=
    (List.dropWhile_sublist _).length_le
  simp only [scanLine] at found
  split at found
  · next cut =>
      cases found
      have := Bytes.length_of_splitLine cut
      omega
  · cases found

/-- Every step that goes on leaves less to do. -/
theorem weight_lt_of_step {dialogue next : Dialogue} {actions : List Action}
    (stepped : dialogue.step = (actions, .next next)) : next.weight < dialogue.weight := by
  simp only [step] at stepped
  split at stepped
  · next staged =>
      split at stepped
      · cases stepped
      · next scanned =>
          have := length_of_scanLine scanned
          split at stepped
          · cases stepped
          · cases stepped
            simp only [weight, staged]
            split <;> omega
  · next staged =>
      split at stepped
      · cases stepped
      · cases stepped
        simp only [weight, staged, List.length_drop]
        omega
  · next staged =>
      split at stepped
      · cases stepped
      · cases stepped
      · next read =>
          have := Wire.readFrame_length_lt read
          cases stepped
          simp only [weight, staged]
          omega

/-- Goes on until the dialogue must rest or ends. -/
def run (dialogue : Dialogue) : Turn :=
  match stepped : dialogue.step with
  | (actions, .rest dialogue) => ⟨actions, .ok dialogue⟩
  | (actions, .stop error) => ⟨actions, .error error⟩
  | (actions, .next next) =>
      have := weight_lt_of_step stepped
      let later := next.run
      ⟨actions ++ later.actions, later.result⟩
termination_by dialogue.weight

/-- Takes the next bytes from the leader. -/
def receive (dialogue : Dialogue) (bytes : Bytes) : Turn :=
  { dialogue with buffer := dialogue.buffer ++ bytes }.run

end Dialogue
end ReplicaStore.Link
