import ReplicaStore.Link.Dialogue
import ReplicaStore.Proofs.Link.Reading
import ReplicaStore.Proofs.Wire.Framing

/-!
# A dialogue in pieces

A dialogue takes its bytes in reads of any size.  It calls for the same actions, and ends or
rests at the same place, as if all of them had come at once (`receiveAll_eq`).
-/

namespace ReplicaStore.Link

/-- A turn with some actions in front of it. -/
def Turn.after (earlier : List Action) (turn : Turn) : Turn :=
  ⟨earlier ++ turn.actions, turn.result⟩

/-- Goes on with the dialogue that a turn leaves, if it has not ended. -/
def Turn.andThen (turn : Turn) (next : Dialogue → Turn) : Turn :=
  match turn.result with
  | .error _ => turn
  | .ok dialogue => (next dialogue).after turn.actions

@[simp] theorem Turn.after_nil (turn : Turn) : turn.after [] = turn := rfl

@[simp] theorem Turn.after_after (first second : List Action) (turn : Turn) :
    (turn.after second).after first = turn.after (first ++ second) := by
  simp [Turn.after]

theorem Turn.after_andThen (earlier : List Action) (turn : Turn) (next : Dialogue → Turn) :
    (turn.after earlier).andThen next = (turn.andThen next).after earlier := by
  cases turn with
  | mk actions result =>
      cases result with
      | error error => rfl
      | ok dialogue => exact (Turn.after_after ..).symm

namespace Dialogue

variable {dialogue next rested : Dialogue} {actions : List Action} {error : LinkError}

/-! ### Runs -/

theorem run_of_rest (stepped : dialogue.step = (actions, .rest rested)) :
    dialogue.run = ⟨actions, .ok rested⟩ := by
  rw [run]
  split
  · next same =>
      cases stepped.symm.trans same
      rfl
  · next same => cases stepped.symm.trans same
  · next same => cases stepped.symm.trans same

theorem run_of_stop (stepped : dialogue.step = (actions, .stop error)) :
    dialogue.run = ⟨actions, .error error⟩ := by
  rw [run]
  split
  · next same => cases stepped.symm.trans same
  · next same =>
      cases stepped.symm.trans same
      rfl
  · next same => cases stepped.symm.trans same

theorem run_of_next (stepped : dialogue.step = (actions, .next next)) :
    dialogue.run = next.run.after actions := by
  rw [run]
  split
  · next same => cases stepped.symm.trans same
  · next same => cases stepped.symm.trans same
  · next same =>
      cases stepped.symm.trans same
      rfl

/-! ### More bytes -/

/-- A dialogue for which more bytes have come. -/
def extend (dialogue : Dialogue) (bytes : Bytes) : Dialogue :=
  { dialogue with buffer := dialogue.buffer ++ bytes }

theorem extend_extend (dialogue : Dialogue) (first second : Bytes) :
    (dialogue.extend first).extend second = dialogue.extend (first ++ second) := by
  simp [extend]

theorem extend_nil (dialogue : Dialogue) : dialogue.extend [] = dialogue := by
  simp [extend]

theorem receive_eq (dialogue : Dialogue) (bytes : Bytes) :
    dialogue.receive bytes = (dialogue.extend bytes).run := rfl

/-- What a step has done is not changed by the bytes that come later, and where it rests it
goes on with them. -/
theorem step_extend (dialogue : Dialogue) (later : Bytes) :
    (dialogue.extend later).step =
      match dialogue.step with
      | (actions, .rest rested) =>
          (actions ++ (rested.extend later).step.1, (rested.extend later).step.2)
      | (actions, .stop error) => (actions, .stop error)
      | (actions, .next next) => (actions, .next (next.extend later)) := by
  obtain ⟨request, stage, buffer⟩ := dialogue
  cases stage with
  | line awaited =>
      cases scanned : scanLine buffer with
      | mk count scan =>
          cases scan with
          | found line rest =>
              simp only [extend, step, scanned, scanLine_found_append scanned later]
              cases (lineText line).bind fun text => answer request text awaited <;> rfl
          | more behind =>
              have split (more : Nat) : heartbeats (count + more) = heartbeats count ++ heartbeats more :=
                List.replicate_append_replicate.symm
              simp only [extend, step, scanned, scanLine_more_append scanned later]
              cases scanLine (behind ++ later) with
              | mk more scan =>
                  cases scan with
                  | more behind => simp only [split]
                  | found line rest =>
                      dsimp only
                      cases (lineText line).bind fun text => answer request text awaited with
                      | error error => simp only [split]
                      | ok answered => simp only [split, List.append_assoc]
  | payload id offset length =>
      by_cases missing : buffer.length < length
      · have resting : step ⟨request, .payload id offset length, buffer⟩ =
            ([], .rest ⟨request, .payload id offset length, buffer⟩) := by
          simp only [step, if_pos missing]
        rw [resting]
        rfl
      · have there : length ≤ buffer.length := Nat.not_lt.mp missing
        have still : ¬ (buffer ++ later).length < length := by
          rw [List.length_append]
          omega
        simp only [extend, step, if_neg missing, if_neg still, List.take_append_of_le_length there,
          List.drop_append_of_le_length there]
  | stream =>
      cases read : Wire.readFrame buffer with
      | more =>
          have resting : step ⟨request, .stream, buffer⟩ = ([], .rest ⟨request, .stream, buffer⟩) := by
            simp only [step, read]
          rw [resting]
          rfl
      | bad error => simp only [extend, step, read, Wire.settled_readFrame.bad read later]
      | found frame rest =>
          have shorter := Wire.readFrame_length_lt read
          have raw : (buffer ++ later).take ((buffer ++ later).length - (rest ++ later).length) =
              buffer.take (buffer.length - rest.length) := by
            rw [List.length_append, List.length_append, Nat.add_sub_add_right,
              List.take_append_of_le_length (Nat.sub_le _ _)]
          simp only [extend, step, read, Wire.settled_readFrame.append read later, raw]

/-- A run goes on with the bytes that come later where it rests. -/
theorem run_extend (dialogue : Dialogue) (later : Bytes) :
    (dialogue.extend later).run = dialogue.run.andThen (·.receive later) := by
  induction size : dialogue.weight using Nat.strongRecOn generalizing dialogue with
  | ind size' ih =>
      have extended := step_extend dialogue later
      cases stepped : dialogue.step with
      | mk actions outcome =>
          rw [stepped] at extended
          cases outcome with
          | stop error =>
              rw [run_of_stop stepped, run_of_stop extended]
              rfl
          | next next =>
              have lighter := weight_lt_of_step stepped
              rw [run_of_next stepped, run_of_next extended, Turn.after_andThen,
                ih next.weight (size ▸ lighter) next rfl]
          | rest rested =>
              have goes : (dialogue.extend later).run = (rested.extend later).run.after actions := by
                cases again : (rested.extend later).step with
                | mk more outcome =>
                    simp only [again] at extended
                    cases outcome with
                    | stop error => rw [run_of_stop extended, run_of_stop again]; rfl
                    | next next => rw [run_of_next extended, run_of_next again, Turn.after_after]
                    | rest last => rw [run_of_rest extended, run_of_rest again]; rfl
              rw [goes, run_of_rest stepped]
              rfl

/-! ### Resting -/

/-- Nothing is left to do until more bytes come. -/
def Resting (dialogue : Dialogue) : Prop :=
  dialogue.run = ⟨[], .ok dialogue⟩

theorem resting_of_step (stepped : dialogue.step = (actions, .rest rested)) : rested.Resting := by
  apply run_of_rest
  obtain ⟨request, stage, buffer⟩ := dialogue
  cases stage with
  | line awaited =>
      simp only [step] at stepped
      split at stepped
      · next count behind scanned =>
          cases stepped
          have again := scanLine_more_append scanned []
          rw [List.append_nil, List.append_nil, scanned, Prod.mk.injEq, Nat.left_eq_add] at again
          have quiet : scanLine behind = (0, .more behind) := Prod.ext again.1 again.2.symm
          simp only [step, quiet]
          rfl
      · split at stepped <;> cases stepped
  | payload id offset length =>
      simp only [step] at stepped
      split at stepped
      · next missing =>
          cases stepped
          simp only [step, if_pos missing]
      · cases stepped
  | stream =>
      simp only [step] at stepped
      split at stepped
      · next read =>
          cases stepped
          simp only [step, read]
      · cases stepped
      · cases stepped

/-- What a run leaves rests. -/
theorem resting_of_run (ran : dialogue.run.result = .ok rested) : rested.Resting := by
  induction size : dialogue.weight using Nat.strongRecOn generalizing dialogue with
  | ind size' ih =>
      cases stepped : dialogue.step with
      | mk actions outcome =>
          cases outcome with
          | stop error =>
              rw [run_of_stop stepped] at ran
              cases ran
          | next next =>
              have lighter := weight_lt_of_step stepped
              rw [run_of_next stepped] at ran
              exact ih next.weight (size ▸ lighter) ran rfl
          | rest last =>
              rw [run_of_rest stepped] at ran
              cases ran
              exact resting_of_step stepped

/-! ### Reads -/

/-- Takes several reads, one after the other, as long as the dialogue has not ended. -/
def receiveAll (dialogue : Dialogue) : List Bytes → Turn
  | [] => ⟨[], .ok dialogue⟩
  | read :: reads => (dialogue.receive read).andThen (·.receiveAll reads)

/-- However its bytes are split into reads, a dialogue does what it does with all of them.  The
induction is on the reads; between them the dialogue rests. -/
theorem receiveAll_eq (rests : dialogue.Resting) (reads : List Bytes) :
    dialogue.receiveAll reads = dialogue.receive reads.flatten := by
  induction reads generalizing dialogue with
  | nil => rw [receiveAll, List.flatten_nil, receive_eq, extend_nil, rests]
  | cons read reads ih =>
      rw [receiveAll, List.flatten_cons, receive_eq dialogue (read ++ _), ← extend_extend,
        run_extend]
      cases ran : (dialogue.receive read).result with
      | error error => simp only [Turn.andThen, ran, ← receive_eq]
      | ok rested => simp only [Turn.andThen, ran, ← receive_eq, ih (resting_of_run ran)]

/-! ### The answer to a request to synchronise -/

/-- The dialogue behind an answer: it takes the commands of the stream. -/
def streaming (dialogue : Dialogue) : Dialogue :=
  { dialogue with stage := .stream, buffer := [] }

variable {bytes line rest : Bytes} {count : Nat} {text : String}

theorem receive_continued {id : Option String} (staged : dialogue.stage = .line .syncReply)
    (scanned : scanLine (dialogue.buffer ++ bytes) = (count, .found line rest))
    (written : lineText line = .ok text) (reply : SyncReply.ofLine text = .ok (.continued id)) :
    dialogue.receive bytes =
      (dialogue.streaming.receive rest).after (heartbeats count ++ [.report (.continued id)]) := by
  have answered : (dialogue.extend bytes).step =
      (heartbeats count ++ [.report (.continued id)], .next (dialogue.streaming.extend rest)) := by
    simp only [step, extend, staged, scanned, written, Except.bind, answer, reply, streaming,
      List.nil_append]
  exact run_of_next answered

theorem receive_fullSync {id : String} {offset : Int} {header payload tail : Bytes}
    {announced : String} (staged : dialogue.stage = .line .syncReply)
    (scanned : scanLine (dialogue.buffer ++ bytes) = (count, .found line rest))
    (written : lineText line = .ok text)
    (reply : SyncReply.ofLine text = .ok (.fullSync id offset))
    (found : scanLine rest = (0, .found header (payload ++ tail)))
    (read : lineText header = .ok announced) (sized : blockLength announced = .ok payload.length) :
    dialogue.receive bytes =
      (dialogue.streaming.receive tail).after
        (heartbeats count ++ [reached .transfer, .report (.fullSync id offset payload)]) := by
  have answered : (dialogue.extend bytes).step = (heartbeats count ++ [reached .transfer],
      .next { dialogue with stage := .line (.length id offset), buffer := rest }) := by
    simp only [step, extend, staged, scanned, written, Except.bind, answer, reply]
  have announces : step { dialogue with stage := .line (.length id offset), buffer := rest } =
      ([], .next { dialogue with
        stage := .payload id offset payload.length, buffer := payload ++ tail }) := by
    simp only [step, found, read, Except.bind, answer, sized]
    rfl
  have there : ¬ (payload ++ tail).length < payload.length := by
    rw [List.length_append]
    omega
  have ships : step { dialogue with
        stage := .payload id offset payload.length, buffer := payload ++ tail } =
      ([.report (.fullSync id offset payload)], .next (dialogue.streaming.extend tail)) := by
    simp only [step, if_neg there, List.take_left, List.drop_left, extend, streaming,
      List.nil_append]
  rw [receive_eq, run_of_next answered, run_of_next announces, run_of_next ships, Turn.after_after,
    Turn.after_after, List.append_nil, List.append_assoc]
  rfl

end Dialogue
end ReplicaStore.Link
