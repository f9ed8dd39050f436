import ReplicaStore.Link.Role
import ReplicaStore.Link.SyncReply
import ReplicaStore.Proofs.Link.Reading
import ReplicaStore.Proofs.Stream.Telling
import ReplicaStore.Proofs.Wire.RoundTrip

/-!
# Answers are read back as they are written

The line that lets a replica continue, and the one that announces a snapshot to it, name a
history by an id of ASCII letters and digits.  A follower that reads such a line behind any
number of heartbeats takes it for just what it is.
-/

namespace ReplicaStore

/-! ### Words -/

namespace Text

theorem wordsFrom_word {word : List Char} (solid : ∀ character ∈ word, isBlank character = false)
    (pending rest : List Char) :
    wordsFrom pending (word ++ rest) = wordsFrom (word.reverse ++ pending) rest := by
  induction word generalizing pending with
  | nil => rfl
  | cons first word ih =>
      have here := solid first List.mem_cons_self
      rw [List.cons_append, wordsFrom, if_neg (by simp [here]),
        ih (fun character member => solid character (List.mem_cons_of_mem _ member))]
      simp

theorem wordsFrom_space {pending : List Char} (given : pending ≠ []) (rest : List Char) :
    wordsFrom pending (' ' :: rest) = pending.reverse :: wordsFrom [] rest := by
  rw [wordsFrom, if_pos (by decide), if_neg (by simpa using given)]

theorem wordsFrom_nil {pending : List Char} (given : pending ≠ []) :
    wordsFrom pending [] = [pending.reverse] := by
  rw [wordsFrom, if_neg (by simpa using given)]

/-- A first word and what follows it. -/
theorem wordsFrom_cons {word : List Char} (solid : ∀ character ∈ word, isBlank character = false)
    (given : word ≠ []) (rest : List Char) :
    wordsFrom [] (word ++ ' ' :: rest) = word :: wordsFrom [] rest := by
  rw [wordsFrom_word solid, wordsFrom_space (by simpa using given)]
  simp

theorem wordsFrom_single {word : List Char} (solid : ∀ character ∈ word, isBlank character = false)
    (given : word ≠ []) : wordsFrom [] word = [word] := by
  have last := wordsFrom_word solid [] []
  rw [List.append_nil, List.append_nil, wordsFrom_nil (by simpa using given)] at last
  simpa using last

/-- Visible ASCII characters are neither blank nor written in several bytes. -/
def isPlain (character : Char) : Bool :=
  0x21 ≤ character.toNat && character.toNat ≤ 0x7E

theorem not_isBlank_of_isPlain {character : Char} (plain : isPlain character = true) :
    isBlank character = false := by
  simp only [isPlain, Bool.and_eq_true, decide_eq_true_eq] at plain
  simp only [isBlank, Bool.or_eq_false_iff, Bool.and_eq_false_imp, decide_eq_true_eq,
    decide_eq_false_iff_not, beq_eq_false_iff_ne, ne_eq]
  omega

theorem isPlain_of_isAlphanum {character : Char} (alphanum : character.isAlphanum = true) :
    isPlain character = true := by
  have ranges : ((decide ('A'.val ≤ character.val ∧ character.val ≤ 'Z'.val) ||
      (decide ('a'.val ≤ character.val) && decide (character.val ≤ 'z'.val))) ||
      (decide ('0'.val ≤ character.val) && decide (character.val ≤ '9'.val))) = true := alphanum
  simp only [Bool.or_eq_true, Bool.and_eq_true, decide_eq_true_eq, UInt32.le_iff_toNat_le]
    at ranges
  simp only [isPlain, Char.toNat, Bool.and_eq_true, decide_eq_true_eq]
  have bounds : 'A'.val.toNat = 65 ∧ 'Z'.val.toNat = 90 ∧ 'a'.val.toNat = 97 ∧
      'z'.val.toNat = 122 ∧ '0'.val.toNat = 48 ∧ '9'.val.toNat = 57 := by decide
  simp only [bounds.1, bounds.2.1, bounds.2.2.1, bounds.2.2.2.1, bounds.2.2.2.2.1,
    bounds.2.2.2.2.2] at ranges
  omega

theorem isPlain_of_mem_toDigits {value : Nat} {character : Char}
    (member : character ∈ Nat.toDigits 10 value) : isPlain character = true := by
  apply isPlain_of_isAlphanum
  have digit := Nat.isDigit_of_mem_toDigits (by decide) (by decide) member
  exact Bool.or_eq_true_iff.mpr (.inr digit)

/-- A text of visible ASCII characters. -/
structure IsWord (text : String) : Prop where
  given : text ≠ ""
  plain : ∀ character ∈ text.toList, isPlain character = true

namespace IsWord

variable {text : String}

theorem toList_ne_nil (word : IsWord text) : text.toList ≠ [] := by
  simpa using word.given

theorem solid (word : IsWord text) : ∀ character ∈ text.toList, isBlank character = false :=
  fun character member => not_isBlank_of_isPlain (word.plain character member)

theorem repr (value : Nat) : IsWord value.repr where
  given := by
    intro empty
    have digits := congrArg String.toList empty
    rw [Nat.toList_repr] at digits
    exact Nat.toDigits_ne_nil digits
  plain := by
    intro character member
    rw [Nat.toList_repr] at member
    exact isPlain_of_mem_toDigits member

theorem toString_int {value : Int} (least : 0 ≤ value) : IsWord (toString value) := by
  obtain ⟨amount, rfl⟩ := Int.eq_ofNat_of_zero_le least
  exact .repr amount

end IsWord

theorem words_two {first second : String} (one : IsWord first) (two : IsWord second) :
    words (first ++ " " ++ second) = [first, second] := by
  have split : (first ++ " " ++ second).toList = first.toList ++ ' ' :: second.toList := by
    simp [String.toList_append]
  rw [words, split, wordsFrom_cons one.solid one.toList_ne_nil,
    wordsFrom_single two.solid two.toList_ne_nil]
  simp

theorem words_three {first second third : String} (one : IsWord first) (two : IsWord second)
    (three : IsWord third) : words (first ++ " " ++ second ++ " " ++ third) = [first, second, third] := by
  have split : (first ++ " " ++ second ++ " " ++ third).toList =
      first.toList ++ ' ' :: (second.toList ++ ' ' :: third.toList) := by
    simp [String.toList_append]
  rw [words, split, wordsFrom_cons one.solid one.toList_ne_nil,
    wordsFrom_cons two.solid two.toList_ne_nil, wordsFrom_single three.solid three.toList_ne_nil]
  simp

/-- A text of visible ASCII characters and spaces. -/
def Printable (text : String) : Prop :=
  ∀ character ∈ text.toList, character = ' ' ∨ isPlain character = true

theorem Printable.append {left right : String} (first : Printable left) (second : Printable right) :
    Printable (left ++ right) := by
  intro character member
  rw [String.toList_append, List.mem_append] at member
  exact member.elim (first character) (second character)

theorem IsWord.printable {text : String} (word : IsWord text) : Printable text :=
  fun character member => .inr (word.plain character member)

/-- A word with signs in front of it. -/
theorem Printable.marked {mark text : String} (marks : mark.toList.all fun character =>
    character == ' ' || isPlain character) (printable : Printable text) : Printable (mark ++ text) := by
  refine .append (fun character member => ?_) printable
  have marked := List.all_eq_true.mp marks character member
  simpa using marked

end Text

/-! ### Lines -/

namespace Bytes

theorem mem_ofText_printable {text : String} (printable : Text.Printable text) {byte : UInt8}
    (member : byte ∈ ofText text) : byte ≠ 13 ∧ byte ≠ 10 := by
  rw [ofText_eq, List.mem_flatMap] at member
  obtain ⟨character, among, encoded⟩ := member
  have range : 32 ≤ character.toNat ∧ character.toNat ≤ 126 := by
    rcases printable character among with rfl | plain
    · decide
    · simp only [Text.isPlain, Bool.and_eq_true, decide_eq_true_eq] at plain
      omega
  have single : character.utf8Size = 1 := by
    rw [Char.utf8Size_eq_one_iff, UInt32.le_iff_toNat_le]
    exact Nat.le_trans range.2 (by decide)
  rw [String.utf8EncodeChar_eq_singleton single, List.mem_singleton] at encoded
  have code := congrArg UInt8.toNat encoded
  simp only [UInt32.toNat_toUInt8] at code
  have same : character.val.toNat = character.toNat := rfl
  constructor <;>
  · rintro rfl
    simp only [UInt8.reduceToNat] at code
    omega

end Bytes

namespace Link

/-- A line behind some heartbeats. -/
theorem scanLine_line {text : String} (printable : Text.Printable text) (given : text ≠ "")
    (count : Nat) (rest : Bytes) :
    scanLine (List.replicate count 10 ++ (Bytes.ofText text ++ 13 :: 10 :: rest)) =
      (count, .found (Bytes.ofText text) rest) := by
  obtain ⟨first, line, whole⟩ : ∃ first line, Bytes.ofText text = first :: line := by
    cases whole : Bytes.ofText text with
    | nil =>
        have size := Bytes.length_ofText text
        rw [whole, List.length_nil] at size
        exact absurd (String.utf8ByteSize_eq_zero_iff.mp size.symm) given
    | cons first line => exact ⟨first, line, rfl⟩
  have solid : (Bytes.ofText text ++ 13 :: 10 :: rest).head? ≠ some 10 := by
    have member : first ∈ Bytes.ofText text := by simp [whole]
    rw [whole]
    simpa using (Bytes.mem_ofText_printable printable member).2
  have cut : Bytes.splitLine (Bytes.ofText text ++ 13 :: 10 :: rest) = some (Bytes.ofText text, rest) :=
    Bytes.splitLine_append (fun found =>
      (Bytes.mem_ofText_printable printable (found.subset List.mem_cons_self)).1 rfl) rest
  rw [scanLine_newlines count solid, lineAt, cut]

/-- Heartbeats alone are no line. -/
theorem scanLine_heartbeats (count : Nat) :
    scanLine (List.replicate count 10) = (count, .more []) := by
  have nothing := @scanLine_newlines count [] (by simp)
  rwa [List.append_nil] at nothing

theorem lineText_ofText (text : String) : lineText (Bytes.ofText text) = .ok text := by
  simp [lineText]

end Link

/-! ### Answers -/

namespace Stream

/-- An id that was drawn is a word. -/
theorem isWord_drawnId (count : Nat) : Text.IsWord (drawnId count) where
  given := by simp [drawnId]
  plain := by
    intro character member
    simp only [drawnId, String.toList_ofList, List.mem_cons, List.mem_append] at member
    rcases member with rfl | zero | digit
    · decide
    · rw [List.eq_of_mem_replicate zero]
      decide
    · exact (Text.IsWord.repr count).plain character digit

theorem continueNumeral_padded (count : Nat) (digits : List Char) :
    Text.continueNumeral 0 (List.replicate count '0' ++ digits) = Text.continueNumeral 0 digits := by
  induction count with
  | zero => rfl
  | succ count ih =>
      rw [List.replicate_succ, List.cons_append, Text.continueNumeral, if_pos (by decide)]
      exact ih

/-- No two counts are written out alike. -/
theorem drawnId_injective {left right : Nat} (same : drawnId left = drawnId right) : left = right := by
  have read (count : Nat) : Text.continueNumeral 0 (drawnId count).toList.tail = some count := by
    have digits : (toString count).toList = Nat.toDigits 10 count := Nat.toList_repr
    rw [drawnId, String.toList_ofList, List.tail_cons, continueNumeral_padded, digits]
    exact Text.continueNumeral_toDigits count
  have values := read left
  rw [same, read right] at values
  exact (Option.some.inj values).symm

/-- Supplies with one stride that start at different residues never give out the same id. -/
theorem IdSupply.apart_of_residues {Place : Type} {supplies : Place → IdSupply} {stride : Nat}
    (positive : 0 < stride) (strides : ∀ place, (supplies place).stride = stride)
    (residues : ∀ first second, (supplies first).next % stride = (supplies second).next % stride →
      first = second) : IdSupply.Apart supplies := by
  intro first second left right same
  have counts := drawnId_injective same
  rw [strides, strides] at counts
  have places : first = second := by
    apply residues
    rw [← Nat.add_mul_mod_self_right _ left, counts, Nat.add_mul_mod_self_right]
  subst places
  exact ⟨rfl, Nat.eq_of_mul_eq_mul_right positive (Nat.add_left_cancel counts)⟩

/-- Only words are names of histories. -/
def Annals.Worded (annals : Annals) : Prop :=
  ∀ name whole, annals name = some whole → Text.IsWord name

theorem Annals.Advances.worded {supply : IdSupply} {annals further : Annals}
    (advances : Annals.Advances supply annals further) (worded : annals.Worded) : further.Worded := by
  intro name whole named
  by_cases foreign : ∀ count, name ≠ supply.id count
  · rw [advances.apart name foreign] at named
    exact worded name whole named
  · obtain ⟨count, same⟩ := Classical.not_forall.mp foreign
    rw [Classical.not_not.mp same]
    exact isWord_drawnId _

namespace Coordinator

variable {id : String} {place : Int} {payload tail : Bytes}

theorem continueReply_eq (id : String) (tail : Bytes) :
    continueReply id tail = Bytes.ofText ("+CONTINUE " ++ id) ++ 13 :: 10 :: tail := by
  have ending : Bytes.ofText "\r\n" = [13, 10] := rfl
  have text : s!"+CONTINUE {id}\r\n" = "+CONTINUE " ++ id ++ "\r\n" := rfl
  rw [continueReply, text, Bytes.ofText_append, ending]
  simp

theorem fullReply_eq (id : String) (place : Int) (payload tail : Bytes) :
    fullReply id place payload tail =
      Bytes.ofText ("+FULLRESYNC " ++ id ++ " " ++ toString place) ++
        13 :: 10 :: (Bytes.ofText ("$" ++ payload.length.repr) ++ 13 :: 10 :: (payload ++ tail)) := by
  have ending : Bytes.ofText "\r\n" = [13, 10] := rfl
  have first : s!"+FULLRESYNC {id} {place}\r\n" =
      "+FULLRESYNC " ++ id ++ " " ++ toString place ++ "\r\n" := rfl
  have second : s!"${payload.length}\r\n" = "$" ++ payload.length.repr ++ "\r\n" := rfl
  rw [fullReply, first, second, Bytes.ofText_append _ "\r\n", Bytes.ofText_append _ "\r\n", ending]
  simp

end Coordinator
end Stream

namespace Link.SyncReply

open ReplicaStore.Stream (isValidId)

variable {id : String} {place : Int}

theorem ofLine_continued (word : Text.IsWord id) :
    ofLine ("+CONTINUE " ++ id) =
      if isValidId id then .ok (.continued (some id)) else .error (.unexpectedReply ("+CONTINUE " ++ id)) := by
  have text : ("+CONTINUE " ++ id).toList = '+' :: ("CONTINUE" ++ " " ++ id).toList := by
    simp [String.toList_append]
  have read : Text.words ("CONTINUE" ++ " " ++ id) = ["CONTINUE", id] :=
    Text.words_two ⟨by decide, List.all_eq_true.mp (by decide)⟩ word
  simp only [ofLine, text, String.ofList_toList, read, ofWords?]
  cases isValidId id <;> rfl

theorem ofLine_fullSync (word : Text.IsWord id) (least : 0 ≤ place) (most : place ≤ Text.maxSigned64) :
    ofLine ("+FULLRESYNC " ++ id ++ " " ++ toString place) =
      if isValidId id then .ok (.fullSync id place)
      else .error (.unexpectedReply ("+FULLRESYNC " ++ id ++ " " ++ toString place)) := by
  have text : ("+FULLRESYNC " ++ id ++ " " ++ toString place).toList =
      '+' :: ("FULLRESYNC" ++ " " ++ id ++ " " ++ toString place).toList := by
    simp [String.toList_append]
  have read : Text.words ("FULLRESYNC" ++ " " ++ id ++ " " ++ toString place) =
      ["FULLRESYNC", id, toString place] :=
    Text.words_three ⟨by decide, List.all_eq_true.mp (by decide)⟩ word (.toString_int least)
  simp only [ofLine, text, String.ofList_toList, read, ofWords?,
    Text.readSigned64_toString_int least most]
  cases isValidId id <;> rfl

end Link.SyncReply

/-- What is read of a length that was written is that length. -/
theorem Link.blockLength_repr (length : Nat) :
    blockLength ("$" ++ length.repr) =
      if length ≤ Text.maxUnsigned64 then .ok length
      else .error (.unexpectedReply ("$" ++ length.repr)) := by
  have text : ("$" ++ length.repr).toList = '$' :: length.repr.toList := by
    simp [String.toList_append]
  simp only [blockLength, text, String.ofList_toList, Text.readUnsigned64, Text.readUpTo_repr]
  by_cases fits : length ≤ Text.maxUnsigned64
  · simp only [if_pos fits]
  · simp only [if_neg fits]

/-! ### What a follower makes of an answer -/

namespace Link

section

open ReplicaStore.Stream (Coordinator)

variable {id : String} {place : Int}

theorem scanLine_continueReply (word : Text.IsWord id) (beats : Nat) (tail : Bytes) :
    scanLine (List.replicate beats 10 ++ Coordinator.continueReply id tail) =
      (beats, .found (Bytes.ofText ("+CONTINUE " ++ id)) tail) := by
  rw [Coordinator.continueReply_eq]
  exact scanLine_line (word.printable.marked (by decide)) (by simp) beats tail

theorem scanLine_fullReply (word : Text.IsWord id) (least : 0 ≤ place) (beats : Nat)
    (payload tail : Bytes) :
    scanLine (List.replicate beats 10 ++ Coordinator.fullReply id place payload tail) =
      (beats, .found (Bytes.ofText ("+FULLRESYNC " ++ id ++ " " ++ toString place))
        (Bytes.ofText ("$" ++ payload.length.repr) ++ 13 :: 10 :: (payload ++ tail))) := by
  have printable : Text.Printable ("+FULLRESYNC " ++ id ++ " " ++ toString place) := by
    refine .append (.append (word.printable.marked (by decide)) ?_)
      (Text.IsWord.toString_int least).printable
    exact fun character member => .inl (by simpa using member)
  rw [Coordinator.fullReply_eq]
  exact scanLine_line printable (by simp) beats _

/-- The length of a snapshot stands in a line of its own, and no heartbeat in front of it. -/
theorem scanLine_length (payload tail : Bytes) :
    scanLine (Bytes.ofText ("$" ++ payload.length.repr) ++ 13 :: 10 :: (payload ++ tail)) =
      (0, .found (Bytes.ofText ("$" ++ payload.length.repr)) (payload ++ tail)) := by
  have printable : Text.Printable ("$" ++ payload.length.repr) :=
    (Text.IsWord.repr payload.length).printable.marked (by decide)
  exact scanLine_line printable (by simp) 0 (payload ++ tail)

end

/-- What comes next of the bytes that a follower has been sent, and how many of them it has
read then.  It waits for an answer first, and takes the stream behind it one command after
the other. -/
inductive Reports (sent : Bytes) : Option Nat → LinkEvent → Nat → Prop
  | continued {beats : Nat} {line rest : Bytes} {text : String} {id : Option String}
      (scanned : scanLine sent = (beats, .found line rest)) (written : lineText line = .ok text)
      (reply : SyncReply.ofLine text = .ok (.continued id)) :
      Reports sent none (.continued id) (sent.length - rest.length)
  | fullSync {beats more length : Nat} {line rest header block : Bytes} {text announced : String}
      {id : String} {offset : Int} (scanned : scanLine sent = (beats, .found line rest))
      (written : lineText line = .ok text)
      (reply : SyncReply.ofLine text = .ok (.fullSync id offset))
      (found : scanLine rest = (more, .found header block)) (read : lineText header = .ok announced)
      (sized : blockLength announced = .ok length) (there : length ≤ block.length) :
      Reports sent none (.fullSync id offset (block.take length))
        (sent.length - (block.length - length))
  | command {count : Nat} {raw rest : Bytes} (within : count ≤ sent.length)
      (next : sent.drop count = raw ++ rest) (arguments : List String) :
      Reports sent (some count) (.command arguments raw) (count + raw.length)

namespace Reports

open ReplicaStore.Stream (Annals Answer Chronicle Coordinator Says Told)

variable {sent : Bytes} {annals : Annals} {base : Option Chronicle} {told : Option (Told base)}

/-- The line of an answer is the first one that is sent. -/
theorem scanned_told {beats : Nat} {line rest : Bytes} (spoken : Says annals told sent)
    (worded : annals.Worded)
    (scanned : scanLine sent = (beats, .found line rest)) :
    ∃ (answered : Told base) (tail : Bytes), told = some answered ∧ sent = answered.front ++ tail ∧
      Text.IsWord answered.name ∧
      (base = some answered.source ∧ line = Bytes.ofText ("+CONTINUE " ++ answered.name) ∧
          rest = tail ∨
        ∃ payload : Bytes,
          line = Bytes.ofText ("+FULLRESYNC " ++ answered.name ++ " " ++ toString answered.source.ends) ∧
          rest = Bytes.ofText ("$" ++ payload.length.repr) ++ 13 :: 10 :: (payload ++ tail)) := by
  cases spoken with
  | waits count =>
      rw [scanLine_heartbeats] at scanned
      cases scanned
  | @tells answered tail known =>
      obtain ⟨whole, named, _⟩ := known
      have word := worded _ _ named
      obtain ⟨count, answer, answers, front⟩ := answered.answers
      refine ⟨answered, tail, rfl, rfl, word, ?_⟩
      rw [front, List.append_assoc] at scanned
      cases answers with
      | continued same =>
          have joined : Coordinator.continueReply answered.name [] ++ tail =
              Coordinator.continueReply answered.name tail := by
            simp [Coordinator.continueReply]
          rw [joined, scanLine_continueReply word] at scanned
          cases scanned
          exact .inl ⟨same, rfl, rfl⟩
      | snapshot payload =>
          have joined : Coordinator.fullReply answered.name answered.source.ends payload [] ++ tail =
              Coordinator.fullReply answered.name answered.source.ends payload tail := by
            simp [Coordinator.fullReply]
          rw [joined, scanLine_fullReply word answered.ends_range.1] at scanned
          cases scanned
          exact .inr ⟨payload, rfl, rfl⟩

/-- A replica is told to go on where it is only by the name of a history of which it has the
beginning. -/
theorem continued_told {id : Option String} {count : Nat} (spoken : Says annals told sent)
    (worded : annals.Worded)
    (reports : Reports sent none (.continued id) count) :
    ∃ answered : Told base, told = some answered ∧ id = some answered.name ∧
      base = some answered.source ∧ count = answered.front.length := by
  cases reports with
  | continued scanned written reply =>
      obtain ⟨answered, tail, told, sent, word, lines⟩ := scanned_told spoken worded scanned
      rcases lines with ⟨same, rfl, rfl⟩ | ⟨payload, rfl, _⟩
      · rw [lineText_ofText] at written
        cases written
        rw [SyncReply.ofLine_continued word] at reply
        split at reply <;> cases reply
        refine ⟨answered, told, rfl, same, ?_⟩
        rw [sent, List.length_append, Nat.add_sub_cancel]
      · rw [lineText_ofText] at written
        cases written
        rw [SyncReply.ofLine_fullSync word answered.ends_range.1 answered.ends_range.2] at reply
        split at reply <;> cases reply

/-- A replica is told to begin with a snapshot only where the stream goes on behind the
beginning of a history. -/
theorem fullSync_told {id : String} {offset : Int} {payload : Bytes} {count : Nat}
    (spoken : Says annals told sent)
    (worded : annals.Worded)
    (reports : Reports sent none (.fullSync id offset payload) count) :
    ∃ answered : Told base, told = some answered ∧ id = answered.name ∧
      offset = answered.source.ends ∧ count = answered.front.length := by
  cases reports with
  | fullSync scanned written reply found read sized there =>
      obtain ⟨answered, tail, told, sent, word, lines⟩ := scanned_told spoken worded scanned
      rcases lines with ⟨_, rfl, _⟩ | ⟨shipped, rfl, rfl⟩
      · rw [lineText_ofText] at written
        cases written
        rw [SyncReply.ofLine_continued word] at reply
        split at reply <;> cases reply
      · rw [lineText_ofText] at written
        cases written
        rw [SyncReply.ofLine_fullSync word answered.ends_range.1 answered.ends_range.2] at reply
        split at reply <;> cases reply
        rw [scanLine_length] at found
        cases found
        rw [lineText_ofText] at read
        cases read
        rw [blockLength_repr] at sized
        split at sized <;> cases sized
        refine ⟨answered, told, rfl, rfl, ?_⟩
        rw [sent]
        simp only [List.length_append]
        omega

/-- A snapshot that is sent to a replica can be taken by it. -/
theorem of_fullReply {id : String} {offset : Int} {payload : Bytes} (word : Text.IsWord id)
    (valid : Stream.isValidId id = true) (least : 0 ≤ offset) (most : offset ≤ Text.maxSigned64)
    (fits : payload.length ≤ Text.maxUnsigned64) (tail : Bytes) :
    Reports (Coordinator.fullReply id offset payload tail) none (.fullSync id offset payload)
      (Coordinator.fullReply id offset payload []).length := by
  have reports := @Reports.fullSync (Coordinator.fullReply id offset payload tail) _ _ _ _ _ _ _ _ _
    id offset
    (scanLine_fullReply word least 0 payload tail) (lineText_ofText _)
    (by rw [SyncReply.ofLine_fullSync word least most, if_pos valid])
    (scanLine_length payload tail) (lineText_ofText _)
    (by rw [blockLength_repr, if_pos fits]) (by simp)
  rw [List.take_left] at reports
  have read : (Coordinator.fullReply id offset payload tail).length -
      ((payload ++ tail).length - payload.length) =
        (Coordinator.fullReply id offset payload []).length := by
    simp only [Coordinator.fullReply_eq, List.length_append, List.length_cons, List.length_nil]
    omega
  rwa [read] at reports

end Reports
end Link
end ReplicaStore
