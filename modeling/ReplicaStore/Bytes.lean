/-!
# Bytes and their text

Everything that crosses a connection or a file is a list of bytes.  Text enters
and leaves as UTF-8: `Bytes.ofText` writes it, and `Bytes.text?` reads it back
unless the bytes are not UTF-8.  Lines end with CR LF; `Bytes.splitLine` cuts the
first one off.
-/

namespace ReplicaStore

/-- A byte sequence, in the order in which it travels. -/
abbrev Bytes := List UInt8

namespace Bytes

/-- The UTF-8 form of a text. -/
def ofText (text : String) : Bytes :=
  text.toByteArray.data.toList

/-- The text that bytes are the UTF-8 form of, if they are one. -/
def text? (bytes : Bytes) : Option String :=
  String.fromUTF8? ⟨bytes.toArray⟩

/-- Text survives being written and read back. -/
@[simp] theorem text?_ofText (text : String) : text? (ofText text) = some text := by
  simp only [text?, ofText, Array.toArray_toList, String.fromUTF8?]
  exact dif_pos text.isValidUTF8

/-- Bytes that read as a text are the written form of that text. -/
theorem eq_ofText_of_text? {bytes : Bytes} {text : String} (read : text? bytes = some text) :
    bytes = ofText text := by
  simp only [text?, String.fromUTF8?] at read
  split at read
  · cases read; rfl
  · cases read

@[simp] theorem ofText_append (left right : String) :
    ofText (left ++ right) = ofText left ++ ofText right := by
  simp [ofText]

/-- Looks for CR LF behind the bytes already passed, which are held in reverse. -/
def splitLineFrom (passed : Bytes) : Bytes → Option (Bytes × Bytes)
  | first :: second :: rest =>
      if first = 13 ∧ second = 10 then some (passed.reverse, rest)
      else splitLineFrom (first :: passed) (second :: rest)
  | _ => none

/-- The part of a buffer before the first CR LF, and the part behind it. -/
def splitLine (input : Bytes) : Option (Bytes × Bytes) :=
  splitLineFrom [] input

theorem eq_of_splitLineFrom {passed input line rest : Bytes}
    (found : splitLineFrom passed input = some (line, rest)) :
    passed.reverse ++ input = line ++ 13 :: 10 :: rest := by
  fun_induction splitLineFrom passed input with
  | case1 passed first second rest' terminator =>
      obtain ⟨rfl, rfl⟩ := terminator
      simp_all
  | case2 passed first second rest' _ ih => simpa using ih found
  | case3 => cases found

/-- Cutting off a line removes the line and its two terminating bytes, nothing else. -/
theorem eq_of_splitLine {input line rest : Bytes} (found : splitLine input = some (line, rest)) :
    input = line ++ 13 :: 10 :: rest := by
  simpa using eq_of_splitLineFrom found

theorem length_of_splitLine {input line rest : Bytes} (found : splitLine input = some (line, rest)) :
    input.length = line.length + 2 + rest.length := by
  simp [eq_of_splitLine found]; omega

/-- Looks for a newline behind the bytes already passed, which are held in reverse. -/
def splitNewlineFrom (passed : Bytes) : Bytes → Option (Bytes × Bytes)
  | [] => none
  | first :: rest =>
      if first = 10 then some (passed.reverse, rest) else splitNewlineFrom (first :: passed) rest

/-- The part of a buffer before the first newline, and the part behind it. -/
def splitNewline (input : Bytes) : Option (Bytes × Bytes) :=
  splitNewlineFrom [] input

theorem eq_of_splitNewlineFrom {passed input line rest : Bytes}
    (found : splitNewlineFrom passed input = some (line, rest)) :
    passed.reverse ++ input = line ++ 10 :: rest := by
  fun_induction splitNewlineFrom passed input with
  | case1 => cases found
  | case2 => simp_all
  | case3 passed first rest' _ ih => simpa using ih found

theorem length_of_splitNewline {input line rest : Bytes}
    (found : splitNewline input = some (line, rest)) :
    input.length = line.length + 1 + rest.length := by
  have whole := eq_of_splitNewlineFrom found
  simp at whole
  simp [whole]; omega

end Bytes
end ReplicaStore
