import Mathlib.Data.List.DropRight
import ReplicaStore.Text.Blank

/-!
# Words and blanks

The blanks at the two ends of a line separate nothing, so trimming a line leaves its words as
they are (`words_trim`), and what a trimmed line begins with is what its first word begins with
(`head?_trim`).
-/

namespace ReplicaStore.Text

variable {pending line : List Char} {blank : Char}

theorem wordsFrom_blank (white : isBlank blank = true) (line : List Char) :
    wordsFrom [] (blank :: line) = wordsFrom [] line := by
  rw [wordsFrom, if_pos white]
  rfl

theorem wordsFrom_dropWhile (line : List Char) :
    wordsFrom [] (line.dropWhile isBlank) = wordsFrom [] line := by
  induction line with
  | nil => rfl
  | cons first line ih =>
      by_cases white : isBlank first = true
      · rw [List.dropWhile_cons_of_pos white, wordsFrom_blank white, ih]
      · rw [List.dropWhile_cons_of_neg white]

theorem wordsFrom_append_blank (white : isBlank blank = true) (pending line : List Char) :
    wordsFrom pending (line ++ [blank]) = wordsFrom pending line := by
  induction line generalizing pending with
  | nil => simp only [List.nil_append, wordsFrom, white, if_true, List.isEmpty_nil]
  | cons first line ih => simp only [List.cons_append, wordsFrom, ih]

theorem wordsFrom_rdropWhile (line : List Char) :
    wordsFrom [] (line.rdropWhile isBlank) = wordsFrom [] line := by
  induction line using List.reverseRecOn with
  | nil => rfl
  | append_singleton line last ih =>
      rw [List.rdropWhile_concat]
      split
      · next white => rw [ih, wordsFrom_append_blank white]
      · rfl

/-- The word that is under way is the first one, however it goes on. -/
theorem wordsFrom_pending (given : pending ≠ []) (line : List Char) :
    ∃ more later, wordsFrom pending line = (pending.reverse ++ more) :: later := by
  have some : pending.isEmpty = false := by simpa using given
  induction line generalizing pending with
  | nil => exact ⟨[], [], by rw [wordsFrom, some, List.append_nil]; rfl⟩
  | cons first line ih =>
      by_cases white : isBlank first = true
      · exact ⟨[], wordsFrom [] line, by rw [wordsFrom, if_pos white, some, List.append_nil]; rfl⟩
      · obtain ⟨more, later, split⟩ := ih (List.cons_ne_nil first pending) rfl
        refine ⟨first :: more, later, ?_⟩
        rw [wordsFrom, if_neg white, split, List.reverse_cons, List.append_assoc,
          List.singleton_append]

/-- A line that does not begin with a blank begins with its first word. -/
theorem head?_wordsFrom (solid : line.head?.all (!isBlank ·) = true) :
    (wordsFrom [] line).head?.bind List.head? = line.head? := by
  cases line with
  | nil => rfl
  | cons first line =>
      have plain : isBlank first = false := by simpa using solid
      obtain ⟨more, later, split⟩ := wordsFrom_pending (List.cons_ne_nil first []) line
      rw [wordsFrom, if_neg (by simp [plain]), split]
      rfl

theorem toList_trim (line : String) :
    (trim line).toList = (line.toList.dropWhile isBlank).rdropWhile isBlank := by
  rw [trim, String.toList_ofList, List.rdropWhile]

@[simp] theorem words_trim (line : String) : words (trim line) = words line := by
  rw [words, toList_trim, wordsFrom_rdropWhile, wordsFrom_dropWhile, words]

/-- A trimmed line begins as its first word does, if it has one. -/
theorem head?_trim (line : String) :
    (trim line).toList.head? = (words line).head?.bind fun word => word.toList.head? := by
  have solid : (trim line).toList.head?.all (!isBlank ·) = true := by
    rw [toList_trim]
    obtain ⟨behind, whole⟩ := List.rdropWhile_prefix isBlank (line.toList.dropWhile isBlank)
    have front := List.head?_dropWhile_not isBlank line.toList
    rw [← whole] at front
    cases trimmed : (line.toList.dropWhile isBlank).rdropWhile isBlank with
    | nil => rfl
    | cons first rest =>
        rw [trimmed] at front
        simpa using front
  rw [← words_trim line, words, List.head?_map, Option.bind_map, ← head?_wordsFrom solid]
  congr 1
  funext word
  rw [Function.comp_apply, String.toList_ofList]

/-- A trimmed line is empty exactly if it has no words. -/
theorem trim_eq_empty_iff (line : String) : trim line = "" ↔ words line = [] := by
  constructor
  · intro empty
    rw [← words_trim, empty]
    rfl
  · intro none
    have head := head?_trim line
    rw [none, List.head?_nil, Option.bind_none, List.head?_eq_none_iff] at head
    exact String.toList_eq_nil_iff.mp head

end ReplicaStore.Text
