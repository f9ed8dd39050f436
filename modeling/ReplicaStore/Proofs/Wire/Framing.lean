import ReplicaStore.Proofs.Wire.RoundTrip

/-!
# Frames delimit themselves

Whether a frame stands at the front of a buffer, and where it ends, depends on its own bytes
alone: what follows does not matter, and as long as one of its bytes is missing there is no
frame yet.  An error, too, stays whatever follows.  So a buffer is cut into frames in one way
only, and a stream comes to the same frames however it is split into reads.
-/

namespace ReplicaStore.Wire

open Decoder (Settled)

/-! ### Tokens -/

/-- Reads a line as text, given how it is cut off. -/
def textLine (cut : Bytes → Option (Bytes × Bytes)) : Decoder WireError String := fun input =>
  match cut input with
  | none => .more
  | some (line, rest) =>
      match Bytes.text? line with
      | none => .bad .invalidText
      | some text => .found text rest

theorem settled_textLine {cut : Bytes → Option (Bytes × Bytes)} (delimited : Bytes.Delimited cut) :
    Settled (textLine cut) where
  found := by
    intro input value rest read
    simp only [textLine] at read
    split at read
    · cases read
    · next line behind found =>
        obtain ⟨taken, whole, cuts⟩ := delimited found
        split at read
        · cases read
        · next text isText =>
            cases read
            refine ⟨taken, whole, fun later => ?_⟩
            simp only [textLine, cuts later, isText]
  bad := by
    intro input error read later
    simp only [textLine] at read
    split at read
    · cases read
    · next line behind found =>
        obtain ⟨taken, rfl, cuts⟩ := delimited found
        split at read
        · next noText =>
            cases read
            rw [List.append_assoc]
            simp only [textLine, cuts (behind ++ later), noText]
        · cases read

/-- What becomes of a line and the bytes behind it. -/
theorem textLine_bind {α : Type} (cut : Bytes → Option (Bytes × Bytes))
    (next : String → Decoder WireError α) (input : Bytes) :
    Decoder.bind (textLine cut) next input =
      match cut input with
      | none => .more
      | some (line, rest) =>
          match Bytes.text? line with
          | none => .bad .invalidText
          | some text => next text rest := by
  refine (Decoder.bind_run (textLine cut) next input).trans ?_
  rw [textLine]
  cases cut input with
  | none => rfl
  | some parts =>
      obtain ⟨line, rest⟩ := parts
      dsimp only
      cases Bytes.text? line with
      | none => rfl
      | some text => rfl

/-- A body is read from a buffer that holds all of it. -/
theorem exists_body {length : Nat} {input : Bytes} (complete : readBody length input ≠ .more) :
    ∃ body behind, input = body ++ behind ∧ body.length = length + 2 := by
  refine ⟨input.take (length + 2), input.drop (length + 2),
    (List.take_append_drop (length + 2) input).symm, ?_⟩
  simp only [readBody] at complete
  split at complete
  · exact absurd rfl complete
  · have most := List.length_take_le (length + 2) input
    omega

theorem settled_readBody (length : Nat) : Settled (readBody length) where
  found := by
    intro input token rest read
    obtain ⟨body, behind, rfl, size⟩ := exists_body (by rw [read]; simp)
    rw [readBody_append size] at read
    split at read
    · next ending =>
        split at read
        · next text isText =>
            cases read
            refine ⟨body, rfl, fun later => ?_⟩
            rw [readBody_append size, if_pos ending, isText]
        · cases read
    · cases read
  bad := by
    intro input error read later
    obtain ⟨body, behind, rfl, size⟩ := exists_body (by rw [read]; simp)
    rw [readBody_append size] at read
    rw [List.append_assoc, readBody_append size]
    split at read
    · next ending =>
        rw [if_pos ending]
        split at read
        · cases read
        · exact read
    · next noEnding =>
        rw [if_neg noEnding]
        exact read

/-- Decides between two readings without looking at the buffer. -/
theorem settled_ite {α : Type} {condition : Prop} [Decidable condition]
    {yes no : Decoder WireError α} (settledYes : Settled yes) (settledNo : Settled no) :
    Settled fun input => if condition then yes input else no input := by
  by_cases holds : condition
  · simp only [holds, if_true]
    exact settledYes
  · simp only [holds, if_false]
    exact settledNo

theorem settled_readMarked (marker : UInt8) (line : String) : Settled (readMarked marker line) := by
  refine settled_ite (.pure _) (settled_ite (.pure _) (settled_ite ?_ (settled_ite ?_
    (settled_ite ?_ (.fail _)))))
  · cases Text.readSigned64 line with
    | some value => exact .pure _
    | none => exact .fail _
  · cases Text.readSigned64 line with
    | some length => exact settled_ite (.pure _) (settled_readBody _)
    | none => exact .fail _
  · cases Text.readSigned64 line with
    | some length => exact settled_ite (.pure _) (settled_ite (.pure _) (.pure _))
    | none => exact .fail _

theorem settled_readToken : Settled readToken := by
  have whole : readToken =
      Decoder.bind Decoder.byte fun marker =>
        Decoder.bind (textLine Bytes.splitLine) (readMarked marker) := by
    funext input
    cases input with
    | nil => rfl
    | cons marker input => exact (textLine_bind Bytes.splitLine (readMarked marker) input).symm
  rw [whole]
  exact .bind .byte fun marker =>
    .bind (settled_textLine Bytes.delimited_splitLine) (settled_readMarked marker)

/-! ### Values -/

/-- A value that has been read depends on no byte behind it.  The induction is on its tokens. -/
theorem readValue_eq_found {opened : List Opened} {input rest : Bytes} {value : Value}
    (read : readValue opened input = .found value rest) :
    ∃ taken, input = taken ++ rest ∧
      ∀ later, readValue opened (taken ++ later) = .found value later := by
  fun_induction readValue opened input with
  | case1 => cases read
  | case2 => cases read
  | case3 opened input token behind token? shorter outermost placed =>
      cases read
      obtain ⟨taken, whole, finds⟩ := settled_readToken.found token?
      refine ⟨taken, whole, fun later => ?_⟩
      rw [readValue_eq, finds later]
      dsimp only
      rw [placed]
  | case4 opened input token behind token? shorter others placed ih =>
      obtain ⟨taken, whole, finds⟩ := settled_readToken.found token?
      obtain ⟨more, next, findsMore⟩ := ih read
      refine ⟨taken ++ more, by rw [whole, next, List.append_assoc], fun later => ?_⟩
      rw [readValue_eq, List.append_assoc, finds]
      dsimp only
      rw [placed]
      exact findsMore later

theorem readValue_eq_bad {opened : List Opened} {input : Bytes} {error : WireError}
    (read : readValue opened input = .bad error) (later : Bytes) :
    readValue opened (input ++ later) = .bad error := by
  fun_induction readValue opened input with
  | case1 => cases read
  | case2 opened input other token? =>
      cases read
      rw [readValue_eq, settled_readToken.bad token? later]
  | case3 => cases read
  | case4 opened input token behind token? shorter others placed ih =>
      rw [readValue_eq, settled_readToken.append token? later]
      dsimp only
      rw [placed]
      exact ih read

theorem settled_readValue (opened : List Opened) : Settled (readValue opened) :=
  ⟨readValue_eq_found, readValue_eq_bad⟩

/-! ### Frames -/

/-- The frame that the words of a line are. -/
def frameOfWords (words : List String) : Frame :=
  if words.isEmpty then .keepAlive else .value (.command words)

theorem settled_readWords : Settled readWords := by
  have whole : readWords =
      Decoder.bind (textLine Bytes.splitNewline) fun text =>
        Decoder.pure (frameOfWords (Text.words text)) := by
    funext input
    refine .trans ?_ (textLine_bind Bytes.splitNewline _ input).symm
    rw [readWords]
    cases Bytes.splitNewline input with
    | none => rfl
    | some parts =>
        obtain ⟨line, rest⟩ := parts
        dsimp only
        cases Bytes.text? line with
        | none => rfl
        | some text =>
            dsimp only
            cases Text.words text with
            | nil => rfl
            | cons first others => rfl
  rw [whole]
  exact .bind (settled_textLine Bytes.delimited_splitNewline) fun text => .pure _

/-- Reads a frame, given whether its first byte marks a value. -/
def frameOf : Bool → Decoder WireError Frame
  | true => Decoder.bind (readValue []) fun value => Decoder.pure (.value value)
  | false => readWords

theorem settled_frameOf (marked : Bool) : Settled (frameOf marked) := by
  cases marked with
  | true => exact .bind (settled_readValue []) fun value => .pure _
  | false => exact settled_readWords

theorem frameOf_nil (marked : Bool) : frameOf marked [] = .more := by
  cases marked with
  | true =>
      have nothing : readValue [] [] = .more := readValue_eq [] []
      rw [frameOf]
      refine (Decoder.bind_run (readValue []) _ []).trans ?_
      rw [nothing]
  | false => rfl

theorem readFrame_cons (first : UInt8) (others : Bytes) :
    readFrame (first :: others) = frameOf (isMarker first) (first :: others) := by
  rw [readFrame]
  cases isMarker first with
  | true =>
      rw [if_pos rfl, frameOf]
      refine .trans ?_ (Decoder.bind_run (readValue []) _ (first :: others)).symm
      cases readValue [] (first :: others) with
      | more => rfl
      | bad error => rfl
      | found value rest => rfl
  | false => exact if_neg (by decide)

/-- The first byte, which tells what is to be read, is one of those that the frame takes. -/
theorem settled_readFrame : Settled readFrame where
  found := by
    intro input frame rest read
    cases input with
    | nil => cases read
    | cons first others =>
        rw [readFrame_cons] at read
        obtain ⟨taken, whole, finds⟩ := (settled_frameOf _).found read
        cases taken with
        | nil =>
            have nothing := finds []
            rw [List.nil_append, frameOf_nil] at nothing
            cases nothing
        | cons same taken =>
            rw [List.cons_append] at whole
            cases whole
            refine ⟨first :: taken, rfl, fun later => ?_⟩
            rw [List.cons_append, readFrame_cons]
            exact finds later
  bad := by
    intro input error read later
    cases input with
    | nil => cases read
    | cons first others =>
        rw [readFrame_cons] at read
        rw [List.cons_append, readFrame_cons]
        exact (settled_frameOf _).bad read later

/-! ### Buffers -/

/-- Every buffer is a sequence of frames and bytes that begin with no complete one. -/
theorem exists_frames (buffer : Bytes) :
    ∃ (frames : List (Frame × Bytes)) (left : Bytes),
      buffer = frames.flatMap (·.2) ++ left ∧ frames.length ≤ buffer.length ∧
      (∀ frame ∈ frames, IsFrame frame.1 frame.2) ∧
      ∀ frame rest, readFrame left ≠ .found frame rest := by
  induction size : buffer.length using Nat.strongRecOn generalizing buffer with
  | ind size' ih =>
      cases read : readFrame buffer with
      | more => exact ⟨[], buffer, rfl, Nat.zero_le _, by simp, by simp [read]⟩
      | bad error => exact ⟨[], buffer, rfl, Nat.zero_le _, by simp, by simp [read]⟩
      | found frame rest =>
          have shorter := readFrame_length_lt read
          obtain ⟨taken, whole, finds⟩ := settled_readFrame.found read
          obtain ⟨frames, left, behind, count, all, stops⟩ := ih rest.length (size ▸ shorter) rest rfl
          refine ⟨(frame, taken) :: frames, left, ?_, ?_, ?_, stops⟩
          · rw [List.flatMap_cons, List.append_assoc, ← behind, whole]
          · simp only [List.length_cons]
            omega
          · intro other member
            rcases List.mem_cons.mp member with rfl | later
            · exact finds
            · exact all other later

theorem takeFrames_more {frames : List (Frame × Bytes)} {left : Bytes}
    (all : ∀ frame ∈ frames, IsFrame frame.1 frame.2) (waits : readFrame left = .more) :
    takeFrames (frames.flatMap (·.2) ++ left) = (.ok frames, left) := by
  have reading : readFrames (frames.flatMap (·.2) ++ left) = { frames, error := none, left } := by
    rw [readFrames, readFramesFrom_flatMap all, readFramesFrom_eq, waits]
    simp
  rw [takeFrames, reading]

theorem takeFrames_bad {frames : List (Frame × Bytes)} {left : Bytes} {error : WireError}
    (all : ∀ frame ∈ frames, IsFrame frame.1 frame.2) (breaks : readFrame left = .bad error) :
    takeFrames (frames.flatMap (·.2) ++ left) = (.error error, left) := by
  have reading : readFrames (frames.flatMap (·.2) ++ left) =
      { frames, error := some error, left } := by
    rw [readFrames, readFramesFrom_flatMap all, readFramesFrom_eq, breaks]
    simp
  rw [takeFrames, reading]

/-- Frames in front of a buffer are taken before those that it holds. -/
theorem takeFrames_append {frames : List (Frame × Bytes)}
    (all : ∀ frame ∈ frames, IsFrame frame.1 frame.2) (rest : Bytes) :
    takeFrames (frames.flatMap (·.2) ++ rest) =
      ((takeFrames rest).1.map (frames ++ ·), (takeFrames rest).2) := by
  obtain ⟨others, left, rfl, count, allOthers, stops⟩ := exists_frames rest
  have both : ∀ frame ∈ frames ++ others, IsFrame frame.1 frame.2 := by
    intro frame member
    rcases List.mem_append.mp member with early | late
    · exact all frame early
    · exact allOthers frame late
  rw [← List.append_assoc, ← List.flatMap_append]
  cases read : readFrame left with
  | more =>
      rw [takeFrames_more both read, takeFrames_more allOthers read]
      rfl
  | bad error =>
      rw [takeFrames_bad both read, takeFrames_bad allOthers read]
      rfl
  | found frame rest => exact absurd read (stops frame rest)

/-! ### Reads -/

/-- Adds every read to the buffer and takes the complete frames out, one read after the other;
gives what comes of each, and what is left at last. -/
def takeEach (buffer : Bytes) :
    List Bytes → List (Except WireError (List (Frame × Bytes))) × Bytes
  | [] => ([], buffer)
  | read :: reads =>
      let (result, left) := takeFrames (buffer ++ read)
      let (results, last) := takeEach left reads
      (result :: results, last)

/-- However a stream without an error is split, its frames come in their order, each in one of
the reads.  The induction is on the reads; what is left between them begins with no frame. -/
theorem takeEach_of_ok {buffer : Bytes} (waits : readFrame buffer = .more) {reads : List Bytes}
    {frames : List (Frame × Bytes)} {left : Bytes}
    (taken : takeFrames (buffer ++ reads.flatten) = (.ok frames, left)) :
    ∃ parts : List (List (Frame × Bytes)),
      takeEach buffer reads = (parts.map .ok, left) ∧ parts.flatten = frames := by
  have noFrames : ∀ frame ∈ ([] : List (Frame × Bytes)), IsFrame frame.1 frame.2 := by simp
  induction reads generalizing buffer frames with
  | nil =>
      have nothing := takeFrames_more noFrames waits
      rw [List.flatten_nil, List.append_nil] at taken
      rw [List.flatMap_nil, List.nil_append, taken] at nothing
      cases nothing
      exact ⟨[], rfl, rfl⟩
  | cons read reads ih =>
      obtain ⟨first, between, whole, count, all, stops⟩ := exists_frames (buffer ++ read)
      rw [List.flatten_cons, ← List.append_assoc, whole, List.append_assoc,
        takeFrames_append all] at taken
      cases run : readFrame between with
      | found frame rest => exact absurd run (stops frame rest)
      | bad error =>
          have broken := takeFrames_bad noFrames (settled_readFrame.bad run reads.flatten)
          rw [List.flatMap_nil, List.nil_append] at broken
          rw [broken] at taken
          cases taken
      | more =>
          cases later : takeFrames (between ++ reads.flatten) with
          | mk result last =>
              rw [later] at taken
              cases result with
              | error error => cases taken
              | ok others =>
                  cases taken
                  obtain ⟨parts, each, together⟩ := ih run later
                  refine ⟨first :: parts, ?_, ?_⟩
                  · rw [takeEach, whole, takeFrames_more all run]
                    dsimp only
                    rw [each, List.map_cons]
                  · rw [List.flatten_cons, together]

/-- Frames delimit themselves.  A frame at the front of a buffer covers some of its bytes, at
least one: it is read the same whatever follows them, and not before the last of them is there.
An error at the front stays whatever follows.  So taking frames out of a buffer ends after at
most as many rounds as the buffer has bytes, in front of bytes that begin with no frame; and a
stream without an error comes to the same frames and leaves the same bytes however it is split
into reads. -/
theorem frames_self_delimiting (buffer : Bytes) :
    (∀ frame rest, readFrame buffer = .found frame rest →
      ∃ count, 0 < count ∧ count ≤ buffer.length ∧ rest = buffer.drop count ∧
        (∀ later, readFrame (buffer ++ later) = .found frame ((buffer ++ later).drop count)) ∧
        readFrame (buffer.take count) = .found frame [] ∧
        ∀ fewer < count, readFrame (buffer.take fewer) = .more) ∧
      (∀ error, readFrame buffer = .bad error →
        ∀ later, readFrame (buffer ++ later) = .bad error) ∧
      (∃ (frames : List (Frame × Bytes)) (left : Bytes),
        buffer = frames.flatMap (·.2) ++ left ∧ frames.length ≤ buffer.length ∧
        (∀ frame ∈ frames, IsFrame frame.1 frame.2) ∧
        (readFrame left = .more ∧ takeFrames buffer = (.ok frames, left) ∨
          ∃ error, readFrame left = .bad error ∧ takeFrames buffer = (.error error, left))) ∧
      ∀ (reads : List Bytes) (frames : List (Frame × Bytes)) (left : Bytes),
        reads.flatten = buffer → takeFrames buffer = (.ok frames, left) →
        ∃ parts : List (List (Frame × Bytes)),
          takeEach [] reads = (parts.map .ok, left) ∧ parts.flatten = frames := by
  refine ⟨?_, fun error read later => settled_readFrame.bad read later, ?_, ?_⟩
  · intro frame rest read
    obtain ⟨taken, rfl, finds⟩ := settled_readFrame.found read
    have alone : readFrame taken = .found frame [] := by
      have bare := finds []
      rwa [List.append_nil] at bare
    have positive : 0 < taken.length := readFrame_length_lt alone
    refine ⟨taken.length, positive, by simp, by simp, fun later => ?_, ?_, ?_⟩
    · rw [List.append_assoc, List.drop_left]
      exact finds (rest ++ later)
    · rw [List.take_left]
      exact alone
    · intro fewer less
      rw [List.take_append_of_le_length (Nat.le_of_lt less)]
      apply settled_readFrame.more_of_cut alone (List.take_append_drop fewer taken).symm
      intro complete
      have most := List.drop_eq_nil_iff.mp complete
      omega
  · obtain ⟨frames, left, rfl, count, all, stops⟩ := exists_frames buffer
    refine ⟨frames, left, rfl, count, all, ?_⟩
    cases read : readFrame left with
    | more => exact .inl ⟨rfl, takeFrames_more all read⟩
    | bad error => exact .inr ⟨error, rfl, takeFrames_bad all read⟩
    | found frame rest => exact absurd read (stops frame rest)
  · rintro reads frames left rfl taken
    have start : readFrame [] = .more := rfl
    exact takeEach_of_ok start taken

/-! ### Streams of values -/

/-- A value that is not all there yet is waited for. -/
theorem readFrame_begun {value : Value} (sendable : value.Sendable) {begun missing : Bytes}
    (cut : value.toBytes = begun ++ missing) (unfinished : missing ≠ []) :
    readFrame begun = .more := by
  have whole := readFrame_toBytes sendable []
  rw [List.append_nil] at whole
  exact settled_readFrame.more_of_cut whole cut unfinished

/-- Values that have been sent come out as they were, each with the bytes of its own written
form, and of one that has been sent in part exactly these bytes are left. -/
theorem takeFrames_values {values : List Value} (sendable : ∀ value ∈ values, value.Sendable)
    {next : Value} (nextSendable : next.Sendable) {begun missing : Bytes}
    (cut : next.toBytes = begun ++ missing) (unfinished : missing ≠ []) :
    takeFrames (values.flatMap Value.toBytes ++ begun) =
      (.ok (values.map fun value => (.value value, value.toBytes)), begun) := by
  have all : ∀ frame ∈ values.map fun value => (Frame.value value, value.toBytes),
      IsFrame frame.1 frame.2 := by
    intro frame member
    obtain ⟨value, among, rfl⟩ := List.mem_map.mp member
    exact readFrame_toBytes (sendable value among)
  have taken := takeFrames_more all (readFrame_begun nextSendable cut unfinished)
  rwa [List.flatMap_map] at taken

/-- An array in an array, a text with a CR at its end, one with CR LF inside, and a failure of
which five bytes have come. -/
theorem takeFrames_values_nested :
    takeFrames (Bytes.ofText "*2\r\n+A\r\r\n*2\r\n:-5\r\n$-1\r\n$4\r\na\r\nb\r\n-wron") =
      (.ok
        [(.value (.array [.simple "A\r", .array [.integer (-5), .null]]),
            Bytes.ofText "*2\r\n+A\r\r\n*2\r\n:-5\r\n$-1\r\n"),
          (.value (.bulk "a\r\nb"), Bytes.ofText "$4\r\na\r\nb\r\n")],
        Bytes.ofText "-wron") := by
  have inner : (Value.array [.integer (-5), .null]).Sendable := by
    apply Value.Sendable.array (by decide)
    simp only [List.mem_cons, List.not_mem_nil, or_false, forall_eq_or_imp, forall_eq]
    exact ⟨.integer (by decide) (by decide), .null⟩
  have outer : (Value.array [.simple "A\r", .array [.integer (-5), .null]]).Sendable := by
    apply Value.Sendable.array (by decide)
    simp only [List.mem_cons, List.not_mem_nil, or_false, forall_eq_or_imp, forall_eq]
    exact ⟨.simple (by decide), inner⟩
  have sendable : ∀ value ∈ [Value.array [.simple "A\r", .array [.integer (-5), .null]],
      .bulk "a\r\nb"], value.Sendable := by
    simp only [List.mem_cons, List.not_mem_nil, or_false, forall_eq_or_imp, forall_eq]
    exact ⟨outer, .bulk (by decide)⟩
  have next : (Value.failure "wrong").Sendable := .failure (by decide)
  have cut : (Value.failure "wrong").toBytes = Bytes.ofText "-wron" ++ Bytes.ofText "g\r\n" := rfl
  exact takeFrames_values sendable next cut (by decide)

end ReplicaStore.Wire
