import ReplicaStore.Bytes

/-!
# Lines of text

A text that holds no CR LF (`Text.OneLine`) is one line: with CR LF behind it, it is cut off
where it ends.  CR and LF are bytes of their own in UTF-8, so what holds for the characters
holds for the bytes.
-/

namespace ReplicaStore

/-- Text without a line break, so that it can be sent as one line. -/
def Text.OneLine (text : String) : Prop :=
  ¬ ['\r', '\n'] <:+: text.toList

instance : DecidablePred Text.OneLine := fun _ => inferInstanceAs (Decidable (¬ _))

theorem Text.oneLine_of_notMem {text : String} (plain : '\r' ∉ text.toList) : OneLine text :=
  fun found => plain (found.subset List.mem_cons_self)

namespace Bytes

theorem ofText_eq (text : String) : ofText text = text.toList.flatMap String.utf8EncodeChar := by
  rw [ofText, ← String.utf8Encode_toList, List.utf8Encode, List.toList_data_toByteArray]

theorem length_ofText (text : String) : (ofText text).length = text.utf8ByteSize := by
  rw [ofText, Array.length_toList]
  rfl

/-- A byte below 128 is a character of its own. -/
theorem eq_of_mem_utf8EncodeChar {character : Char} {byte : UInt8}
    (member : byte ∈ String.utf8EncodeChar character) (low : byte.toNat < 128) :
    String.utf8EncodeChar character = [byte] ∧ character = Char.ofNat byte.toNat := by
  have code : character.val.toNat = character.toNat := rfl
  simp only [String.utf8EncodeChar, code] at member ⊢
  split at member
  · next small =>
      rw [List.mem_singleton] at member
      have same : byte.toNat = character.toNat := by
        rw [member, UInt8.toNat_ofNat']
        omega
      rw [if_pos small, member, ← member, same, Char.ofNat_toNat]
      exact ⟨rfl, rfl⟩
  · have high : 128 ≤ byte.toNat := by
      split at member
      · simp only [List.mem_cons, List.not_mem_nil, or_false] at member
        rcases member with rfl | rfl <;> rw [UInt8.toNat_ofNat'] <;> omega
      split at member
      · simp only [List.mem_cons, List.not_mem_nil, or_false] at member
        rcases member with rfl | rfl | rfl <;> rw [UInt8.toNat_ofNat'] <;> omega
      · simp only [List.mem_cons, List.not_mem_nil, or_false] at member
        rcases member with rfl | rfl | rfl | rfl <;> rw [UInt8.toNat_ofNat'] <;> omega
    omega

/-- The line feed at the front of some bytes is the first of their characters. -/
theorem lineFeed_of_bytes {characters : List Char}
    (begins : [10] <+: characters.flatMap String.utf8EncodeChar) : ['\n'] <+: characters := by
  cases characters with
  | nil => simp at begins
  | cons first others =>
      have size := String.length_utf8EncodeChar first
      have positive := first.utf8Size_pos
      rw [List.flatMap_cons] at begins
      cases encoded : String.utf8EncodeChar first with
      | nil =>
          rw [encoded, List.length_nil] at size
          omega
      | cons byte bytes =>
          rw [encoded, List.cons_append, List.cons_prefix_cons] at begins
          have member : 10 ∈ String.utf8EncodeChar first := by
            rw [encoded, begins.1]
            exact List.mem_cons_self
          have same : first = '\n' := (eq_of_mem_utf8EncodeChar member (by decide)).2
          rw [same]
          exact List.prefix_append ['\n'] others

/-- CR LF among the bytes of a text is CR LF among its characters. -/
theorem lineBreak_of_bytes {characters : List Char}
    (found : [13, 10] <:+: characters.flatMap String.utf8EncodeChar) :
    ['\r', '\n'] <:+: characters := by
  induction characters with
  | nil => simp at found
  | cons first others ih =>
      have single (member : 13 ∈ String.utf8EncodeChar first) :
          String.utf8EncodeChar first = [13] ∧ first = '\r' :=
        eq_of_mem_utf8EncodeChar member (by decide)
      have later (behind : [13, 10] <:+: others.flatMap String.utf8EncodeChar) :
          ['\r', '\n'] <:+: first :: others :=
        (ih behind).trans (List.suffix_cons first others).isInfix
      have inside : ¬ [13, 10] <:+: String.utf8EncodeChar first := by
        intro inside
        have short := inside.length_le
        rw [(single (inside.subset List.mem_cons_self)).1] at short
        exact absurd short (by decide)
      rw [List.flatMap_cons, List.infix_append_iff] at found
      rcases found with whole | behind | ⟨before, after, cut, ends, begins⟩
      · exact absurd whole inside
      · exact later behind
      · match before, after, cut with
        | [], _, rfl => exact later begins.isInfix
        | [_], _, rfl =>
            have same := (single (ends.subset List.mem_cons_self)).2
            obtain ⟨rest, rfl⟩ := lineFeed_of_bytes begins
            rw [same]
            exact (List.prefix_append ['\r', '\n'] rest).isInfix
        | [_, _], _, rfl => exact absurd ends.isInfix inside

/-! ### Cutting off a line -/

/-- Bytes without CR LF are cut off whole.  A CR at their end does not begin a line break, since
the CR behind it does.  The induction is on these bytes. -/
theorem splitLineFrom_append {line : Bytes} (oneLine : ¬ [13, 10] <:+: line)
    (passed rest : Bytes) :
    splitLineFrom passed (line ++ 13 :: 10 :: rest) = some (passed.reverse ++ line, rest) := by
  induction line generalizing passed with
  | nil => simp [splitLineFrom]
  | cons first line ih =>
      rw [List.infix_cons_iff, not_or] at oneLine
      have later := ih oneLine.2 (first :: passed)
      cases line with
      | nil =>
          simp only [List.nil_append, List.cons_append] at later ⊢
          rw [splitLineFrom, if_neg (by simp), later]
          simp
      | cons second line =>
          have noBreak : ¬ (first = 13 ∧ second = 10) := by
            rintro ⟨rfl, rfl⟩
            exact oneLine.1 (List.prefix_append [13, 10] line)
          simp only [List.cons_append] at later ⊢
          rw [splitLineFrom, if_neg noBreak, later]
          simp

theorem splitLine_append {line : Bytes} (oneLine : ¬ [13, 10] <:+: line) (rest : Bytes) :
    splitLine (line ++ 13 :: 10 :: rest) = some (line, rest) :=
  splitLineFrom_append oneLine [] rest

/-- A text of one line is cut off where it ends. -/
theorem splitLine_ofText {text : String} (oneLine : Text.OneLine text) (rest : Bytes) :
    splitLine (ofText text ++ 13 :: 10 :: rest) = some (ofText text, rest) := by
  apply splitLine_append
  rw [ofText_eq]
  exact fun found => oneLine (lineBreak_of_bytes found)

/-! ### Lines at the front of a buffer -/

/-- A way of cutting off a line that looks at no byte behind the line and its end. -/
def Delimited (cut : Bytes → Option (Bytes × Bytes)) : Prop :=
  ∀ {input line rest : Bytes}, cut input = some (line, rest) →
    ∃ taken, input = taken ++ rest ∧ ∀ later, cut (taken ++ later) = some (line, later)

/-- The induction is on the bytes in front of the line break. -/
theorem splitLineFrom_eq_some {passed input line rest : Bytes}
    (found : splitLineFrom passed input = some (line, rest)) :
    ∃ taken, input = taken ++ 13 :: 10 :: rest ∧
      ∀ later, splitLineFrom passed (taken ++ 13 :: 10 :: later) = some (line, later) := by
  fun_induction splitLineFrom passed input with
  | case1 passed first second behind terminator =>
      obtain ⟨rfl, rfl⟩ := terminator
      cases found
      exact ⟨[], rfl, fun later => by simp [splitLineFrom]⟩
  | case2 passed first second behind noBreak ih =>
      obtain ⟨taken, whole, cuts⟩ := ih found
      refine ⟨first :: taken, by rw [whole, List.cons_append], fun later => ?_⟩
      cases taken with
      | nil =>
          rw [List.nil_append] at whole
          cases whole
          rw [List.cons_append, List.nil_append, splitLineFrom, if_neg (by simp)]
          exact cuts later
      | cons next taken =>
          rw [List.cons_append] at whole
          cases whole
          rw [List.cons_append, List.cons_append, splitLineFrom, if_neg noBreak]
          exact cuts later
  | case3 => cases found

theorem delimited_splitLine : Delimited splitLine := by
  intro input line rest found
  obtain ⟨taken, whole, cuts⟩ := splitLineFrom_eq_some found
  refine ⟨taken ++ [13, 10], ?_, fun later => ?_⟩
  · rw [whole, List.append_assoc]
    rfl
  · rw [splitLine, List.append_assoc]
    exact cuts later

theorem splitNewlineFrom_eq_some {passed input line rest : Bytes}
    (found : splitNewlineFrom passed input = some (line, rest)) :
    ∃ taken, input = taken ++ rest ∧
      ∀ later, splitNewlineFrom passed (taken ++ later) = some (line, later) := by
  fun_induction splitNewlineFrom passed input with
  | case1 => cases found
  | case2 passed behind =>
      cases found
      exact ⟨[10], rfl, fun later => by simp [splitNewlineFrom]⟩
  | case3 passed first behind noBreak ih =>
      obtain ⟨taken, whole, cuts⟩ := ih found
      refine ⟨first :: taken, by rw [whole, List.cons_append], fun later => ?_⟩
      rw [List.cons_append, splitNewlineFrom, if_neg noBreak]
      exact cuts later

theorem delimited_splitNewline : Delimited splitNewline :=
  splitNewlineFrom_eq_some

end Bytes
end ReplicaStore
