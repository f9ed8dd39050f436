import ReplicaStore.Scan
import ReplicaStore.Text.Blank
import ReplicaStore.Text.Integer
import ReplicaStore.Wire.Value

/-!
# Frames

What a connection reads is a sequence of frames: values, lines of words typed by
hand, and bare newlines that only keep the connection alive.  A buffer may end in
the middle of a frame, which then has to wait for more bytes.

A value is read token by token.  A token is a complete value or the header of a
non-empty array; `Value.place` adds a complete value to the innermost array that
is still open and closes every array this completes.
-/

namespace ReplicaStore.Wire

/-- Why bytes are no frame. -/
inductive WireError where
  | invalidText
  | unknownMarker
  | invalidInteger
  | invalidBulk
  | invalidArray
  deriving DecidableEq, Repr

namespace WireError

def message : WireError → String
  | invalidText => "invalid UTF-8 sequence"
  | unknownMarker => "unknown RESP type"
  | invalidInteger => "failed to parse integer"
  | invalidBulk => "invalid bulk string"
  | invalidArray => "invalid multibulk length"

/-- What a client is told before its connection is closed. -/
def reply (error : WireError) : String :=
  (Value.failure s!"ERR Protocol error: {error.message}").encode

end WireError

/-- A complete value, or the header of an array with elements to come. -/
inductive Token where
  | complete (value : Value)
  | opened (count : Nat)
  deriving Repr

/-- One byte of a value's text that says which kind it is. -/
def isMarker (byte : UInt8) : Bool :=
  byte = 42 || byte = 36 || byte = 43 || byte = 45 || byte = 58

/-- The body of a bulk string of the given length, with its terminator. -/
def readBody (length : Nat) (input : Bytes) : Scan WireError Token :=
  let body := input.take (length + 2)
  if body.length < length + 2 then .more
  else if body.drop length = [13, 10] then
    match Bytes.text? (body.take length) with
    | some text => .found (.complete (.bulk text)) (input.drop (length + 2))
    | none => .bad .invalidText
  else .bad .invalidBulk

/-- The token that a marker and the rest of its line begin. -/
def readMarked (marker : UInt8) (line : String) (rest : Bytes) : Scan WireError Token :=
  if marker = 43 then .found (.complete (.simple line)) rest
  else if marker = 45 then .found (.complete (.failure line)) rest
  else if marker = 58 then
    match Text.readSigned64 line with
    | some value => .found (.complete (.integer value)) rest
    | none => .bad .invalidInteger
  else if marker = 36 then
    match Text.readSigned64 line with
    | some length => if length < 0 then .found (.complete .null) rest else readBody length.toNat rest
    | none => .bad .invalidBulk
  else if marker = 42 then
    match Text.readSigned64 line with
    | some length =>
        if length < 0 then .found (.complete .null) rest
        else if length = 0 then .found (.complete (.array [])) rest
        else .found (.opened length.toNat) rest
    | none => .bad .invalidArray
  else .bad .unknownMarker

/-- Reads one token.  The line is looked at before the marker, so text that is
not UTF-8 is reported first. -/
def readToken : Bytes → Scan WireError Token
  | [] => .more
  | marker :: input =>
      match Bytes.splitLine input with
      | none => .more
      | some (line, rest) =>
          match Bytes.text? line with
          | none => .bad .invalidText
          | some text => readMarked marker text rest

/-- An array of which some elements are still to come.  Those that have come are
held last one first. -/
structure Opened where
  missing : Nat
  elements : List Value
  deriving Repr

/-- Hands a complete value to the innermost open array.  The result is a complete
value when no array is open any more, otherwise the arrays that still are. -/
def Value.place (value : Value) : List Opened → Value ⊕ List Opened
  | [] => .inl value
  | inner :: outer =>
      if inner.missing ≤ 1 then
        (Value.array (value :: inner.elements).reverse).place outer
      else .inr ({ missing := inner.missing - 1, elements := value :: inner.elements } :: outer)

/-- Takes a token up: opens an array or places a complete value. -/
def Token.place (opened : List Opened) : Token → Value ⊕ List Opened
  | .complete value => value.place opened
  | .opened count => .inr ({ missing := count, elements := [] } :: opened)

theorem readBody_length_lt {length : Nat} {input rest : Bytes} {token : Token}
    (read : readBody length input = .found token rest) : rest.length < input.length := by
  simp only [readBody] at read
  split at read
  · cases read
  · split at read
    · split at read
      · cases read; simp_all; omega
      · cases read
    · cases read

theorem readMarked_length_le {marker : UInt8} {line : String} {input rest : Bytes} {token : Token}
    (read : readMarked marker line input = .found token rest) : rest.length ≤ input.length := by
  simp only [readMarked] at read
  repeat' split at read
  all_goals first
    | cases read; exact Nat.le_refl _
    | exact Nat.le_of_lt (readBody_length_lt read)
    | cases read

/-- A token takes at least one byte. -/
theorem readToken_length_lt {input rest : Bytes} {token : Token}
    (read : readToken input = .found token rest) : rest.length < input.length := by
  cases input with
  | nil => cases read
  | cons marker input =>
      simp only [readToken] at read
      split at read
      · cases read
      · next line behind split =>
          split at read
          · cases read
          · have := readMarked_length_le read
            have := Bytes.length_of_splitLine split
            simp; omega

/-- Reads the value that completes the outermost of the open arrays, or a single
value when none is open. -/
def readValue (opened : List Opened) (input : Bytes) : Scan WireError Value :=
  match read : readToken input with
  | .more => .more
  | .bad error => .bad error
  | .found token rest =>
      have := readToken_length_lt read
      match token.place opened with
      | .inl value => .found value rest
      | .inr opened => readValue opened rest
termination_by input.length

/-- What becomes of the token at the front of a buffer. -/
theorem readValue_eq (opened : List Opened) (input : Bytes) :
    readValue opened input =
      match readToken input with
      | .more => .more
      | .bad error => .bad error
      | .found token rest =>
          match token.place opened with
          | .inl value => .found value rest
          | .inr opened => readValue opened rest := by
  rw [readValue]
  split
  · next more => rw [more]
  · next error bad => rw [bad]
  · next token rest found => simp only [found]

theorem readValue_length_lt {opened : List Opened} {input rest : Bytes} {value : Value}
    (read : readValue opened input = .found value rest) : rest.length < input.length := by
  fun_induction readValue opened input with
  | case1 => cases read
  | case2 => cases read
  | case3 opened input token behind token? shorter value' _ =>
      cases read; exact shorter
  | case4 opened input token behind token? shorter opened' _ ih =>
      exact Nat.lt_trans (ih read) shorter

/-- A unit of what a connection reads. -/
inductive Frame where
  | value (value : Value)
  /-- A bare newline, as leaders send while a snapshot is being prepared. -/
  | keepAlive
  deriving BEq, Repr

/-- A line of words is the command with those words as arguments. -/
def readWords (input : Bytes) : Scan WireError Frame :=
  match Bytes.splitNewline input with
  | none => .more
  | some (line, rest) =>
      match Bytes.text? line with
      | none => .bad .invalidText
      | some text =>
          match Text.words text with
          | [] => .found .keepAlive rest
          | arguments => .found (.value (.command arguments)) rest

theorem readWords_length_lt {input rest : Bytes} {frame : Frame}
    (read : readWords input = .found frame rest) : rest.length < input.length := by
  simp only [readWords] at read
  split at read
  · cases read
  · next cut =>
      repeat' split at read
      all_goals cases read
      all_goals
        have := Bytes.length_of_splitNewline cut
        omega

/-- Reads the frame at the front of a buffer.  A line that starts with no marker
is a line of words. -/
def readFrame (input : Bytes) : Scan WireError Frame :=
  match input with
  | [] => .more
  | first :: _ =>
      if isMarker first then
        match readValue [] input with
        | .more => .more
        | .bad error => .bad error
        | .found value rest => .found (.value value) rest
      else readWords input

/-- A frame takes at least one byte. -/
theorem readFrame_length_lt {input rest : Bytes} {frame : Frame}
    (read : readFrame input = .found frame rest) : rest.length < input.length := by
  cases input with
  | nil => cases read
  | cons first input =>
      simp only [readFrame] at read
      split at read
      · split at read
        · cases read
        · cases read
        · next value? => cases read; exact readValue_length_lt value?
      · exact readWords_length_lt read

/-- What a buffer holds: its complete frames, each with the bytes it covers, the
error that stopped the reading, if one did, and the bytes that are left. -/
structure Reading where
  frames : List (Frame × Bytes)
  error : Option WireError
  left : Bytes
  deriving Repr

/-- Reads frames from a buffer as long as complete ones stand at its front.  The
frames already read are held last one first. -/
def readFramesFrom (passed : List (Frame × Bytes)) (input : Bytes) : Reading :=
  match read : readFrame input with
  | .more => { frames := passed.reverse, error := none, left := input }
  | .bad error => { frames := passed.reverse, error := some error, left := input }
  | .found frame rest =>
      have := readFrame_length_lt read
      readFramesFrom ((frame, input.take (input.length - rest.length)) :: passed) rest
termination_by input.length

/-- What becomes of the frame at the front of a buffer. -/
theorem readFramesFrom_eq (passed : List (Frame × Bytes)) (input : Bytes) :
    readFramesFrom passed input =
      match readFrame input with
      | .more => { frames := passed.reverse, error := none, left := input }
      | .bad error => { frames := passed.reverse, error := some error, left := input }
      | .found frame rest =>
          readFramesFrom ((frame, input.take (input.length - rest.length)) :: passed) rest := by
  rw [readFramesFrom]
  split
  · next more => rw [more]
  · next error bad => rw [bad]
  · next frame rest found => simp only [found]

/-- Reads all complete frames of a buffer. -/
def readFrames (input : Bytes) : Reading :=
  readFramesFrom [] input

/-- Takes the complete frames out of a buffer.  If the bytes behind them break the
format, the frames are gone and only the error is reported; the offending bytes
stay, so the next attempt reports it again. -/
def takeFrames (input : Bytes) : Except WireError (List (Frame × Bytes)) × Bytes :=
  let reading := readFrames input
  match reading.error with
  | none => (.ok reading.frames, reading.left)
  | some error => (.error error, reading.left)

end ReplicaStore.Wire
