/-!
# Letters that fold into ASCII

Command names and options are compared in upper case, and the words they are
compared with are ASCII.  Full Unicode case mapping can turn a few characters
outside ASCII into ASCII letters, so `ſet` names the same command as `SET`; every
other character outside ASCII stays outside it and can be left alone.
-/

namespace ReplicaStore.Text

/-- The upper-case spelling of a character, as far as it is ASCII. -/
def upperSpelling (character : Char) : List Char :=
  match character with
  | 'ı' => ['I']
  | 'ſ' => ['S']
  | 'ß' => ['S', 'S']
  | 'ﬀ' => ['F', 'F']
  | 'ﬁ' => ['F', 'I']
  | 'ﬂ' => ['F', 'L']
  | 'ﬃ' => ['F', 'F', 'I']
  | 'ﬄ' => ['F', 'F', 'L']
  | 'ﬅ' => ['S', 'T']
  | 'ﬆ' => ['S', 'T']
  | other => [other.toUpper]

/-- Upper-cases a word for comparison with ASCII words. -/
def upper (word : String) : String :=
  String.ofList (word.toList.flatMap upperSpelling)

/-- Equality up to the case of ASCII letters only. -/
def sameIgnoringCase (left right : String) : Bool :=
  left.toList.map Char.toLower == right.toList.map Char.toLower

end ReplicaStore.Text
