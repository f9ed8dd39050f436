import ReplicaStore.Proofs.Wire.RoundTrip
import ReplicaStore.Text.Fold
import ReplicaStore.Text.LowerCase

/-!
# Texts of one line, put together

A text that holds no line break (`Text.OneLine`) stays one when something without a CR is put
in front of it, or something without an LF behind it.  Case mapping neither makes a CR nor takes
one away.
-/

namespace ReplicaStore.Text

/-! ### Putting texts together -/

theorem OneLine.behind {front text : String} (plain : '\r' ∉ front.toList) (oneLine : OneLine text) :
    OneLine (front ++ text) := by
  intro found
  rw [String.toList_append, List.infix_append_iff] at found
  rcases found with inside | inside | ⟨before, after, cut, ends, begins⟩
  · exact plain (inside.subset List.mem_cons_self)
  · exact oneLine inside
  · match before, after, cut with
    | [], _, rfl => exact oneLine begins.isInfix
    | [_], _, rfl => exact plain (ends.subset List.mem_cons_self)
    | [_, _], _, rfl => exact plain (ends.subset List.mem_cons_self)

theorem OneLine.before {text behind : String} (oneLine : OneLine text) (plain : '\n' ∉ behind.toList) :
    OneLine (text ++ behind) := by
  intro found
  rw [String.toList_append, List.infix_append_iff] at found
  rcases found with inside | inside | ⟨before, after, cut, ends, begins⟩
  · exact oneLine inside
  · exact plain (inside.subset (by simp))
  · match before, after, cut with
    | [], _, rfl => exact plain (begins.subset (by simp))
    | [_], _, rfl => exact plain (begins.subset (by simp))
    | [_, _], _, rfl => exact oneLine ends.isInfix

/-- A number in front of a text of one line. -/
theorem OneLine.behind_repr {text : String} (value : Nat) (oneLine : OneLine text) :
    OneLine (value.repr ++ text) := by
  refine oneLine.behind fun member => ?_
  rw [Nat.toList_repr] at member
  exact absurd (Nat.isDigit_of_mem_toDigits (by decide) (by decide) member) (by decide)

theorem OneLine.behind_toString {text : String} (value : Int) (oneLine : OneLine text) :
    OneLine (toString value ++ text) := by
  cases value with
  | ofNat amount => exact oneLine.behind_repr amount
  | negSucc amount =>
      have written : toString (Int.negSucc amount) = "-" ++ (amount + 1).repr := rfl
      rw [written, String.append_assoc]
      exact (oneLine.behind_repr (amount + 1)).behind (by decide)

/-! ### Case -/

/-- A CR is its own spelling in upper case. -/
theorem mem_upper {word : String} (member : '\r' ∈ word.toList) : '\r' ∈ (upper word).toList := by
  rw [upper, String.toList_ofList, List.mem_flatMap]
  exact ⟨'\r', member, by decide⟩

theorem lowered_of_letterRuns : ∀ run ∈ letterRuns, 13 < run.lowered := by
  decide +kernel

/-- A character with a greater number is no CR, nor is the one that stands for no character. -/
theorem ofNat_ne {code : Nat} (far : 13 < code) : Char.ofNat code ≠ '\r' := by
  intro same
  have number := congrArg Char.toNat same
  have small : '\r'.toNat = 13 := rfl
  rw [small] at number
  by_cases valid : code.isValidChar
  · have form : Char.ofNat code = Char.ofNatAux code valid := dif_pos valid
    have kept : (Char.ofNatAux code valid).toNat = code := rfl
    rw [form, kept] at number
    omega
  · have form : Char.ofNat code = '\x00' := dif_neg valid
    rw [form] at number
    exact absurd number (by decide)

/-- The small letters stand behind the CR. -/
theorem eq_of_toLower {character : Char} (lowered : character.toLower = '\r') : character = '\r' := by
  delta Char.toLower at lowered
  split at lowered
  · next capital =>
      have code := congrArg Char.toNat lowered
      have bounds := UInt32.le_iff_toNat_le.mp capital.2
      have least := UInt32.le_iff_toNat_le.mp capital.1
      have letters : 'A'.val.toNat = 65 ∧ 'Z'.val.toNat = 90 ∧ ('a'.val - 'A'.val).toNat = 32 ∧
          '\r'.toNat = 13 := by decide
      simp only [Char.toNat, UInt32.toNat_add] at code letters
      omega
  · exact lowered

/-- No other letter has a CR in its spelling in lower case. -/
theorem eq_of_mem_lowerSpelling {character : Char} (member : '\r' ∈ lowerSpelling character) :
    character = '\r' := by
  rw [lowerSpelling] at member
  split at member
  · exact eq_of_toLower (List.mem_singleton.mp member).symm
  · next other =>
      split at member
      · exact absurd member (by decide)
      · split at member
        · next run found =>
            rw [List.mem_singleton] at member
            have far := lowered_of_letterRuns run (List.mem_of_find?_eq_some found)
            exact absurd member.symm (ofNat_ne (by omega))
        · exact (List.mem_singleton.mp member).symm

/-- Lower-casing a word does not bring a CR into it. -/
theorem mem_of_mem_lower {word : String} (member : '\r' ∈ (lower word).toList) :
    '\r' ∈ word.toList := by
  have each (before characters : List Char) (member : '\r' ∈ lowerFrom before characters) :
      '\r' ∈ characters := by
    induction characters generalizing before with
    | nil => cases member
    | cons character after ih =>
        rw [lowerFrom, List.mem_append] at member
        rcases member with here | later
        · split at here
          · rw [List.mem_singleton, lowerSigma] at here
            split at here <;> exact absurd here (by decide)
          · rw [eq_of_mem_lowerSpelling here]
            exact List.mem_cons_self
        · exact List.mem_cons_of_mem _ (ih _ later)
  rw [lower, String.toList_ofList] at member
  exact each [] word.toList member

end ReplicaStore.Text
