import ReplicaStore.Proofs.Wire.Framing

/-!
# Replies on the wire

A reply is sent as the written forms of its values, and whoever reads it finds out by himself
where each of them ends.  Values whose lines are lines are read as what they are
(`takeFrames_reply`).  A failure whose text has a line break in it ends for its reader there, and
what stands behind the line break is taken for the next reply (`failure_framed_iff`).
-/

namespace ReplicaStore.Wire

/-- The texts in a value that are sent as lines are lines. -/
inductive Value.Lined : Value → Prop where
  | simple {text : String} (oneLine : Text.OneLine text) : Lined (.simple text)
  | failure {text : String} (oneLine : Text.OneLine text) : Lined (.failure text)
  | integer (value : Int) : Lined (.integer value)
  | bulk (text : String) : Lined (.bulk text)
  | array {elements : List Value} (each : ∀ element ∈ elements, Lined element) :
      Lined (.array elements)
  | null : Lined .null

/-- No number and no length in a value takes more than a word of 64 bits. -/
inductive Value.Sized : Value → Prop where
  | simple (text : String) : Sized (.simple text)
  | failure (text : String) : Sized (.failure text)
  | integer {value : Int} (least : Text.minSigned64 ≤ value) (most : value ≤ Text.maxSigned64) :
      Sized (.integer value)
  | bulk {text : String} (size : text.utf8ByteSize ≤ Text.maxSigned64) : Sized (.bulk text)
  | array {elements : List Value} (count : elements.length ≤ Text.maxSigned64)
      (each : ∀ element ∈ elements, Sized element) : Sized (.array elements)
  | null : Sized .null

namespace Value

theorem Lined.sendable {value : Value} (lined : Lined value) (sized : Sized value) :
    Sendable value := by
  induction lined with
  | simple oneLine => exact .simple oneLine
  | failure oneLine => exact .failure oneLine
  | integer =>
      cases sized with
      | integer least most => exact .integer least most
  | bulk =>
      cases sized with
      | bulk size => exact .bulk size
  | array each ih =>
      cases sized with
      | array count sizes => exact .array count fun element member => ih element member (sizes element member)
  | null => exact .null

/-- The value as a frame with its own bytes. -/
def framed (value : Value) : Frame × Bytes :=
  (.value value, value.toBytes)

end Value

theorem takeFrames_reply {reply : List Value} (sendable : ∀ value ∈ reply, value.Sendable) :
    takeFrames (reply.flatMap Value.toBytes) = (.ok (reply.map Value.framed), []) := by
  have all : ∀ frame ∈ reply.map Value.framed, IsFrame frame.1 frame.2 := by
    intro frame member
    obtain ⟨value, among, rfl⟩ := List.mem_map.mp member
    exact readFrame_toBytes (sendable value among)
  have start : readFrame [] = .more := rfl
  have taken := takeFrames_more all start
  rw [List.append_nil, List.flatMap_map] at taken
  exact taken

/-- The first line of a text that has several. -/
theorem exists_line {text : String} (broken : ¬Text.OneLine text) :
    ∃ line rest, Text.OneLine line ∧ text = line ++ "\r\n" ++ rest := by
  have cut (characters : List Char) (found : ['\r', '\n'] <:+: characters) :
      ∃ line rest, ¬['\r', '\n'] <:+: line ∧ characters = line ++ '\r' :: '\n' :: rest := by
    induction characters with
    | nil => exact absurd found (by simp)
    | cons first characters ih =>
        by_cases here : ['\r', '\n'] <+: first :: characters
        · obtain ⟨rest, whole⟩ := here
          exact ⟨[], rest, by simp, whole.symm⟩
        · have later := (List.infix_cons_iff.mp found).resolve_left here
          obtain ⟨line, rest, oneLine, whole⟩ := ih later
          refine ⟨first :: line, rest, fun inside => ?_, by rw [whole, List.cons_append]⟩
          rcases List.infix_cons_iff.mp inside with front | behind
          · exact here (front.trans ⟨_, by rw [List.cons_append, ← whole]⟩)
          · exact oneLine behind
  obtain ⟨line, rest, oneLine, whole⟩ := cut text.toList (Classical.not_not.mp broken)
  refine ⟨String.ofList line, String.ofList rest, ?_, ?_⟩
  · rw [Text.OneLine, String.toList_ofList]
    exact oneLine
  · apply String.toList_inj.mp
    simp [String.toList_append, whole]

/-- A failure ends with the first line of its text. -/
theorem readFrame_failure {line : String} (oneLine : Text.OneLine line) (rest : String)
    (later : Bytes) :
    readFrame ((Value.failure (line ++ "\r\n" ++ rest)).toBytes ++ later) =
      .found (.value (.failure line)) (Bytes.ofText rest ++ 13 :: 10 :: later) := by
  have lineBreak : Bytes.ofText "\r\n" = [13, 10] := rfl
  have split : (Value.failure (line ++ "\r\n" ++ rest)).toBytes ++ later =
      (Value.failure line).toBytes ++ (Bytes.ofText rest ++ 13 :: 10 :: later) := by
    rw [Value.toBytes_failure, Value.toBytes_failure, Bytes.ofText_append, Bytes.ofText_append,
      lineBreak]
    simp
  rw [split]
  exact readFrame_toBytes (.failure oneLine) _

/-- A failure is read as what it is just if its text is one line.  Otherwise the rest of the
text is taken for what comes next. -/
theorem failure_framed_iff (text : String) :
    takeFrames (Value.failure text).toBytes = (.ok [(Value.failure text).framed], []) ↔
      Text.OneLine text := by
  constructor
  · intro taken
    apply Classical.byContradiction
    intro broken
    obtain ⟨line, rest, oneLine, rfl⟩ := exists_line broken
    obtain ⟨raw, whole, finds⟩ := settled_readFrame.found (readFrame_failure oneLine rest [])
    have isFrame : ∀ frame ∈ [(Frame.value (.failure line), raw)], IsFrame frame.1 frame.2 := by
      intro frame member
      rw [List.mem_singleton.mp member]
      exact finds
    have split := takeFrames_append isFrame (Bytes.ofText rest ++ [13, 10])
    rw [List.append_nil] at whole
    rw [List.flatMap_singleton, ← whole, taken] at split
    cases others : (takeFrames (Bytes.ofText rest ++ [13, 10])).1 with
    | error error =>
        rw [others] at split
        cases split
    | ok frames =>
        rw [others] at split
        simp only [Except.map, Value.framed, List.singleton_append, Prod.mk.injEq, Except.ok.injEq,
          List.cons.injEq, Frame.value.injEq, Value.failure.injEq] at split
        have size := congrArg String.length split.1.1.1
        simp only [String.length_append] at size
        have two : "\r\n".length = 2 := rfl
        omega
  · intro oneLine
    have taken := @takeFrames_reply [.failure text] fun value member => by
      rw [List.mem_singleton.mp member]
      exact .failure oneLine
    rwa [List.flatMap_singleton] at taken

end ReplicaStore.Wire
