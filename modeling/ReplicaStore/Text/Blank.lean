/-!
# Blank characters

The characters with the Unicode property `White_Space`, and the two things that
are done with them: cutting a line into words and trimming its ends.  Core's
`Char.isWhitespace` knows four of the twenty-five, so the table is spelled out.
-/

namespace ReplicaStore.Text

/-- Membership in the Unicode property `White_Space`. -/
def isBlank (character : Char) : Bool :=
  let code := character.toNat
  (0x09 ≤ code && code ≤ 0x0D) || code == 0x20 || code == 0x85 || code == 0xA0 ||
    code == 0x1680 || (0x2000 ≤ code && code ≤ 0x200A) || code == 0x2028 || code == 0x2029 ||
    code == 0x202F || code == 0x205F || code == 0x3000

/-- What core calls white space is blank here too. -/
theorem isBlank_of_isWhitespace {character : Char} (white : character.isWhitespace = true) :
    isBlank character = true := by
  simp only [Char.isWhitespace, Bool.or_eq_true, decide_eq_true_eq] at white
  rcases white with ((rfl | rfl) | rfl) | rfl <;> rfl

/-- The maximal runs of non-blank characters, in order. -/
def wordsFrom (pending : List Char) : List Char → List (List Char)
  | [] => if pending.isEmpty then [] else [pending.reverse]
  | character :: rest =>
      if isBlank character then
        if pending.isEmpty then wordsFrom [] rest
        else pending.reverse :: wordsFrom [] rest
      else wordsFrom (character :: pending) rest

/-- The words of a line: what is left when blanks are taken as separators. -/
def words (line : String) : List String :=
  (wordsFrom [] line.toList).map String.ofList

/-- A line without the blanks at its two ends. -/
def trim (line : String) : String :=
  String.ofList ((line.toList.dropWhile isBlank).reverse.dropWhile isBlank).reverse

end ReplicaStore.Text
