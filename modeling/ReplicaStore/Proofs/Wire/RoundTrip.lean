import ReplicaStore.Proofs.Text.Decimal
import ReplicaStore.Proofs.Wire.Line
import ReplicaStore.Wire.Frame

/-!
# Values are read back as they are written

A value in its written form is one frame, however deep its arrays are nested, and a stream of
values is read as the same values, each with its own bytes.  Lengths and integers are words of
64 bits, so this goes for values in which none takes more (`Value.Sendable`), and the text of a
simple value or a failure has to be one line.  A command is such a value (`Fits`).
-/

namespace ReplicaStore

namespace Text

/-- A number is written in one line. -/
theorem oneLine_repr (value : Nat) : OneLine value.repr := by
  apply oneLine_of_notMem
  rw [Nat.toList_repr]
  intro member
  exact absurd (Nat.isDigit_of_mem_toDigits (by decide) (by decide) member) (by decide)

theorem oneLine_toString (value : Int) : OneLine (toString value) := by
  cases value with
  | ofNat amount => exact oneLine_repr amount
  | negSucc amount =>
      have text : toString (Int.negSucc amount) = "-" ++ (amount + 1).repr := rfl
      apply oneLine_of_notMem
      rw [text, String.toList_append, Nat.toList_repr]
      intro member
      rcases List.mem_append.mp member with sign | digit
      · exact absurd sign (by decide)
      · exact absurd (Nat.isDigit_of_mem_toDigits (by decide) (by decide) digit) (by decide)

end Text

namespace Wire

/-! ### Written forms -/

/-- The written form of a bulk string. -/
def bulkBytes (text : String) : Bytes :=
  36 :: (Bytes.ofText text.utf8ByteSize.repr ++ 13 :: 10 :: (Bytes.ofText text ++ [13, 10]))

namespace Value

/-- The bytes of a line with something in front of it. -/
theorem ofText_line (front text : String) :
    Bytes.ofText (front ++ text ++ "\r\n") =
      Bytes.ofText front ++ (Bytes.ofText text ++ [13, 10]) := by
  rw [Bytes.ofText_append, Bytes.ofText_append, List.append_assoc]
  rfl

theorem toBytes_simple (text : String) :
    (simple text).toBytes = 43 :: (Bytes.ofText text ++ [13, 10]) :=
  ofText_line "+" text

theorem toBytes_failure (text : String) :
    (failure text).toBytes = 45 :: (Bytes.ofText text ++ [13, 10]) :=
  ofText_line "-" text

theorem toBytes_integer (value : Int) :
    (integer value).toBytes = 58 :: (Bytes.ofText (toString value) ++ [13, 10]) :=
  ofText_line ":" (toString value)

theorem toBytes_bulk (text : String) : (bulk text).toBytes = bulkBytes text := by
  have header : Bytes.ofText ("$" ++ text.utf8ByteSize.repr ++ "\r\n") =
      36 :: (Bytes.ofText text.utf8ByteSize.repr ++ [13, 10]) :=
    ofText_line "$" text.utf8ByteSize.repr
  refine (ofText_line ("$" ++ text.utf8ByteSize.repr ++ "\r\n") text).trans ?_
  rw [header, bulkBytes, List.cons_append, List.append_assoc]
  rfl

theorem ofText_encodeAll (elements : List Value) :
    Bytes.ofText (encode.encodeAll elements) = elements.flatMap toBytes := by
  induction elements with
  | nil => rfl
  | cons first elements ih =>
      rw [encode.encodeAll, Bytes.ofText_append, ih, List.flatMap_cons, toBytes]

theorem toBytes_array (elements : List Value) :
    (array elements).toBytes =
      42 :: (Bytes.ofText elements.length.repr ++ 13 :: 10 :: elements.flatMap toBytes) := by
  have header : Bytes.ofText s!"*{elements.length}\r\n" =
      42 :: (Bytes.ofText elements.length.repr ++ [13, 10]) :=
    ofText_line "*" elements.length.repr
  rw [toBytes, encode, Bytes.ofText_append, ofText_encodeAll, header, List.cons_append,
    List.append_assoc]
  rfl

end Value

/-- The written form of a command: a line with the number of its arguments, and each of
them as a bulk string. -/
theorem commandBytes_eq (arguments : List String) :
    commandBytes arguments =
      42 :: (Bytes.ofText arguments.length.repr ++ 13 :: 10 :: arguments.flatMap bulkBytes) := by
  rw [commandBytes, Value.command, Value.toBytes_array, List.length_map, List.flatMap_map]
  simp only [Value.toBytes_bulk]

/-! ### Tokens -/

theorem readToken_line (marker : UInt8) {line : String} (oneLine : Text.OneLine line)
    (rest : Bytes) :
    readToken (marker :: (Bytes.ofText line ++ 13 :: 10 :: rest)) =
      readMarked marker line rest := by
  rw [readToken, Bytes.splitLine_ofText oneLine]
  simp only [Bytes.text?_ofText]

/-- A body that is all there is looked at without what follows it. -/
theorem readBody_append {length : Nat} {body : Bytes} (size : body.length = length + 2)
    (rest : Bytes) :
    readBody length (body ++ rest) =
      if body.drop length = [13, 10] then
        match Bytes.text? (body.take length) with
        | some text => .found (.complete (.bulk text)) rest
        | none => .bad .invalidText
      else .bad .invalidBulk := by
  have front : (body ++ rest).take (length + 2) = body := by
    rw [← size, List.take_left]
  have behind : (body ++ rest).drop (length + 2) = rest := by
    rw [← size, List.drop_left]
  have unfolded : readBody length (body ++ rest) =
      if ((body ++ rest).take (length + 2)).length < length + 2 then .more
      else if ((body ++ rest).take (length + 2)).drop length = [13, 10] then
        match Bytes.text? (((body ++ rest).take (length + 2)).take length) with
        | some text => .found (.complete (.bulk text)) ((body ++ rest).drop (length + 2))
        | none => .bad .invalidText
      else .bad .invalidBulk := rfl
  rw [unfolded, front, behind, if_neg (by omega)]

theorem readToken_bulk {text : String} (fits : text.utf8ByteSize ≤ Text.maxSigned64)
    (rest : Bytes) :
    readToken (bulkBytes text ++ rest) = .found (.complete (.bulk text)) rest := by
  have written : bulkBytes text ++ rest =
      36 :: (Bytes.ofText text.utf8ByteSize.repr ++
        13 :: 10 :: (Bytes.ofText text ++ [13, 10] ++ rest)) := by
    simp [bulkBytes]
  have length := Bytes.length_ofText text
  have body : readBody text.utf8ByteSize (Bytes.ofText text ++ [13, 10] ++ rest) =
      .found (.complete (.bulk text)) rest := by
    rw [readBody_append (by simp [length]), ← length, List.drop_left, if_pos rfl, List.take_left,
      Bytes.text?_ofText]
  have size : Text.readSigned64 text.utf8ByteSize.repr = some (text.utf8ByteSize : Int) :=
    Text.readSigned64_toString fits
  have amount : ¬ (text.utf8ByteSize : Int) < 0 := by omega
  rw [written, readToken_line _ (Text.oneLine_repr _), ← body]
  simp [readMarked, size, amount]

/-- The header of an array with elements. -/
theorem readToken_array {elements : List Value} (given : elements ≠ [])
    (fits : elements.length ≤ Text.maxSigned64) (rest : Bytes) :
    readToken ((Value.array elements).toBytes ++ rest) =
      .found (.opened elements.length) (elements.flatMap Value.toBytes ++ rest) := by
  have size : Text.readSigned64 elements.length.repr = some (elements.length : Int) :=
    Text.readSigned64_toString fits
  have some : elements.length ≠ 0 := by
    simpa using given
  rw [Value.toBytes_array, List.cons_append, List.append_assoc, List.cons_append,
    List.cons_append, readToken_line _ (Text.oneLine_repr _)]
  simp [readMarked, size, some]

/-! ### Values -/

/-- A value that can be sent: simple texts and failures are single lines, and no integer or
length in it takes more than a word of 64 bits. -/
inductive Value.Sendable : Value → Prop where
  | simple {text : String} (oneLine : Text.OneLine text) : Sendable (.simple text)
  | failure {text : String} (oneLine : Text.OneLine text) : Sendable (.failure text)
  | integer {value : Int} (least : Text.minSigned64 ≤ value) (most : value ≤ Text.maxSigned64) :
      Sendable (.integer value)
  | bulk {text : String} (size : text.utf8ByteSize ≤ Text.maxSigned64) : Sendable (.bulk text)
  | array {elements : List Value} (count : elements.length ≤ Text.maxSigned64)
      (each : ∀ element ∈ elements, Sendable element) : Sendable (.array elements)
  | null : Sendable .null

/-- Goes on behind a value that has been placed: hands the outermost one over, or reads what
the open arrays still miss. -/
def resume : Value ⊕ List Opened → Bytes → Scan WireError Value
  | .inl value, input => .found value input
  | .inr opened, input => readValue opened input

theorem readValue_complete {opened : List Opened} {input rest : Bytes} {value : Value}
    (read : readToken input = .found (.complete value) rest) :
    readValue opened input = resume (value.place opened) rest := by
  rw [readValue_eq, read]
  dsimp only [Token.place]
  cases value.place opened with
  | inl outermost => rfl
  | inr opened => rfl

/-- What a value's bytes are read as, whatever is open around it and whatever follows. -/
def Value.Readable (value : Value) : Prop :=
  ∀ (opened : List Opened) (rest : Bytes),
    readValue opened (value.toBytes ++ rest) = resume (value.place opened) rest

/-- The elements that an open array still misses.  The induction is on these. -/
theorem readValue_elements {elements : List Value} (given : elements ≠ [])
    (readable : ∀ element ∈ elements, element.Readable) (before : List Value)
    (outer : List Opened) (rest : Bytes) :
    readValue ({ missing := elements.length, elements := before } :: outer)
        (elements.flatMap Value.toBytes ++ rest) =
      resume ((Value.array (before.reverse ++ elements)).place outer) rest := by
  induction elements generalizing before with
  | nil => exact absurd rfl given
  | cons first elements ih =>
      rw [List.flatMap_cons, List.append_assoc, readable first List.mem_cons_self]
      cases elements with
      | nil => simp [Value.place]
      | cons second elements =>
          have later := ih (by simp)
            (fun element member => readable element (List.mem_cons_of_mem _ member))
            (first :: before)
          simpa [Value.place, resume] using later

theorem Value.Sendable.readable {value : Value} (sendable : Sendable value) :
    value.Readable := by
  intro opened rest
  induction sendable generalizing opened rest with
  | simple oneLine =>
      apply readValue_complete
      rw [toBytes_simple]
      simpa [readMarked] using readToken_line 43 oneLine rest
  | failure oneLine =>
      apply readValue_complete
      rw [toBytes_failure]
      simpa [readMarked] using readToken_line 45 oneLine rest
  | @integer value least most =>
      have back : Text.readSigned64 value.repr = some value :=
        Text.readBetween_toString least most
      apply readValue_complete
      rw [toBytes_integer]
      simpa [readMarked, back] using readToken_line 58 (Text.oneLine_toString value) rest
  | @bulk text size =>
      apply readValue_complete
      rw [toBytes_bulk]
      exact readToken_bulk size rest
  | @array elements count each ih =>
      cases elements with
      | nil =>
          apply readValue_complete
          rfl
      | cons first elements =>
          have given : first :: elements ≠ [] := List.cons_ne_nil first elements
          rw [readValue_eq, readToken_array given count]
          exact readValue_elements given ih [] opened rest
  | null =>
      apply readValue_complete
      rfl

/-- A written value begins with the byte that marks its kind. -/
theorem toBytes_marked (value : Value) :
    ∃ marker behind, value.toBytes = marker :: behind ∧ isMarker marker = true := by
  cases value with
  | simple text => exact ⟨43, _, Value.toBytes_simple text, rfl⟩
  | failure text => exact ⟨45, _, Value.toBytes_failure text, rfl⟩
  | integer value => exact ⟨58, _, Value.toBytes_integer value, rfl⟩
  | bulk text => exact ⟨36, _, Value.toBytes_bulk text, rfl⟩
  | array elements => exact ⟨42, _, Value.toBytes_array elements, rfl⟩
  | null => exact ⟨36, _, rfl, rfl⟩

/-- A written value is one frame. -/
theorem readFrame_toBytes {value : Value} (sendable : value.Sendable) (rest : Bytes) :
    readFrame (value.toBytes ++ rest) = .found (.value value) rest := by
  have whole : readValue [] (value.toBytes ++ rest) = .found value rest :=
    sendable.readable [] rest
  obtain ⟨marker, behind, written, marked⟩ := toBytes_marked value
  rw [written, List.cons_append] at whole ⊢
  rw [readFrame, if_pos marked, whole]

/-! ### Commands -/

/-- A command that can be written: it is not empty, and no length in it takes more than a
word of 64 bits. -/
structure Fits (arguments : List String) : Prop where
  given : arguments ≠ []
  count : arguments.length ≤ Text.maxSigned64
  sizes : ∀ argument ∈ arguments, (argument.utf8ByteSize : Int) ≤ Text.maxSigned64

theorem size_lt_bulkBytes (text : String) : text.utf8ByteSize < (bulkBytes text).length := by
  simp only [bulkBytes, List.length_cons, List.length_append, Bytes.length_ofText]
  omega

/-- Arguments take less room than their written form. -/
theorem sizes_le_flatMap (arguments : List String) :
    arguments.length ≤ (arguments.flatMap bulkBytes).length ∧
      ∀ argument ∈ arguments, argument.utf8ByteSize ≤ (arguments.flatMap bulkBytes).length := by
  induction arguments with
  | nil => exact ⟨Nat.le_refl _, by simp⟩
  | cons first rest ih =>
      obtain ⟨count, sizes⟩ := ih
      have size := size_lt_bulkBytes first
      rw [List.flatMap_cons, List.length_append]
      constructor
      · simp only [List.length_cons]
        omega
      · intro argument member
        rcases List.mem_cons.mp member with rfl | later
        · omega
        · have within := sizes argument later
          omega

/-- What fits into a stream of 64 bits fits as a command. -/
theorem Fits.of_length {arguments : List String} (given : arguments ≠ [])
    (short : ((commandBytes arguments).length : Int) ≤ Text.maxSigned64) : Fits arguments := by
  obtain ⟨count, sizes⟩ := sizes_le_flatMap arguments
  have longer : (arguments.flatMap bulkBytes).length ≤ (commandBytes arguments).length := by
    simp only [commandBytes_eq, List.length_cons, List.length_append]
    omega
  refine ⟨given, ?_, ?_⟩
  · omega
  · intro argument member
    have within := sizes argument member
    omega

/-- A written command is one frame. -/
theorem readFrame_command {arguments : List String} (fits : Fits arguments) (rest : Bytes) :
    readFrame (commandBytes arguments ++ rest) =
      .found (.value (.command arguments)) rest := by
  apply readFrame_toBytes
  apply Value.Sendable.array
  · rw [List.length_map]
    exact fits.count
  · intro element member
    obtain ⟨text, among, rfl⟩ := List.mem_map.mp member
    exact .bulk (fits.sizes text among)

/-! ### Streams of frames -/

/-- Bytes that make up a frame of their own, whatever stands behind them. -/
def IsFrame (frame : Frame) (raw : Bytes) : Prop :=
  ∀ rest, readFrame (raw ++ rest) = .found frame rest

theorem readFramesFrom_append {frame : Frame} {raw : Bytes} (isFrame : IsFrame frame raw)
    (passed : List (Frame × Bytes)) (rest : Bytes) :
    readFramesFrom passed (raw ++ rest) = readFramesFrom ((frame, raw) :: passed) rest := by
  have covered : (raw ++ rest).take ((raw ++ rest).length - rest.length) = raw := by
    simp
  rw [readFramesFrom_eq, isFrame rest]
  dsimp only
  rw [covered]

/-- Frames at the front of a buffer are read one after the other.  The induction is on them. -/
theorem readFramesFrom_flatMap {frames : List (Frame × Bytes)}
    (all : ∀ frame ∈ frames, IsFrame frame.1 frame.2) (passed : List (Frame × Bytes))
    (rest : Bytes) :
    readFramesFrom passed (frames.flatMap (·.2) ++ rest) =
      readFramesFrom (frames.reverse ++ passed) rest := by
  induction frames generalizing passed with
  | nil => rfl
  | cons first frames ih =>
      have later := ih (fun frame member => all frame (List.mem_cons_of_mem _ member))
        (first :: passed)
      rw [List.flatMap_cons, List.append_assoc,
        readFramesFrom_append (all first List.mem_cons_self), later]
      simp

/-- A stream of frames is read as these frames, and nothing is left. -/
theorem readFrames_flatMap {frames : List (Frame × Bytes)}
    (all : ∀ frame ∈ frames, IsFrame frame.1 frame.2) :
    readFrames (frames.flatMap (·.2)) = { frames, error := none, left := [] } := by
  have reads := readFramesFrom_flatMap all [] []
  rw [List.append_nil, List.append_nil] at reads
  rw [readFrames, reads, readFramesFrom_eq, readFrame, List.reverse_reverse]

end Wire
end ReplicaStore
