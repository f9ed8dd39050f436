import ReplicaStore.Text.Integer

/-!
# Numbers are read back as they are written

The decimal text of a number is a numeral of its value, so every reader whose bounds
hold the number reads it back.  What a reader gives lies between its bounds.
-/

namespace ReplicaStore.Text

theorem continueNumeral_append_digit {digits : List Char} {start value digit : Nat}
    (read : continueNumeral start digits = some value) (small : digit < 10) :
    continueNumeral start (digits ++ [digit.digitChar]) = some (10 * value + digit) := by
  induction digits generalizing start with
  | nil =>
      cases read
      have amount := Nat.toNat_digitChar_sub_48_of_lt_ten small
      simp [continueNumeral, small, amount]
  | cons first digits ih =>
      simp only [continueNumeral, List.cons_append] at read ⊢
      split at read
      · next decimal =>
          rw [if_pos decimal]
          exact ih read
      · cases read

/-- The induction is on the number, which loses its last digit. -/
theorem continueNumeral_toDigits (value : Nat) :
    continueNumeral 0 (Nat.toDigits 10 value) = some value := by
  induction value using Nat.strongRecOn with
  | ind value ih =>
      rw [Nat.toDigits_eq_if (by decide)]
      split
      · next small =>
          have start : continueNumeral 0 [] = some 0 := rfl
          simpa using continueNumeral_append_digit start small
      · next large =>
          have shorter := ih (value / 10) (by omega)
          rw [continueNumeral_append_digit shorter (Nat.mod_lt _ (by decide))]
          congr 1
          omega

theorem numeral_toDigits (value : Nat) : numeral? (Nat.toDigits 10 value) = some value := by
  have read := continueNumeral_toDigits value
  cases digits : Nat.toDigits 10 value with
  | nil => exact absurd digits Nat.toDigits_ne_nil
  | cons first rest =>
      rw [digits] at read
      exact read

/-- A numeral begins with no sign. -/
theorem ne_of_mem_toDigits {value : Nat} {character : Char}
    (member : character ∈ Nat.toDigits 10 value) : character ≠ '-' ∧ character ≠ '+' := by
  have decimal := Nat.isDigit_of_mem_toDigits (by decide) (by decide) member
  constructor
  · rintro rfl
    exact absurd decimal (by decide)
  · rintro rfl
    exact absurd decimal (by decide)

theorem readBetween_repr {low high : Int} {value : Nat} (least : low ≤ value) (most : value ≤ high) :
    readBetween low high value.repr = some (value : Int) := by
  have read := numeral_toDigits value
  have unsigned := @ne_of_mem_toDigits value
  simp only [readBetween, Nat.toList_repr]
  cases digits : Nat.toDigits 10 value with
  | nil => exact absurd digits Nat.toDigits_ne_nil
  | cons first rest =>
      rw [digits] at read
      obtain ⟨noMinus, noPlus⟩ := unsigned (digits ▸ List.mem_cons_self)
      split
      · next same => exact absurd (List.cons.inj same).1 noMinus
      · next same => exact absurd (List.cons.inj same).1 noPlus
      · rw [read]
        simp [within, least, most]

theorem readUpTo_repr (high value : Nat) :
    readUpTo high value.repr = if value ≤ high then some value else none := by
  have read := numeral_toDigits value
  have unsigned := @ne_of_mem_toDigits value
  simp only [readUpTo, Nat.toList_repr]
  cases digits : Nat.toDigits 10 value with
  | nil => exact absurd digits Nat.toDigits_ne_nil
  | cons first rest =>
      rw [digits] at read
      have plain := (unsigned (digits ▸ List.mem_cons_self)).2
      split
      · next same => exact absurd (List.cons.inj same).1 plain
      · rw [read]
        rfl

theorem readBetween_toString {low high value : Int} (least : low ≤ value) (most : value ≤ high) :
    readBetween low high (toString value) = some value := by
  cases value with
  | ofNat amount => exact readBetween_repr least most
  | negSucc amount =>
      have text : toString (Int.negSucc amount) = "-" ++ (amount + 1).repr := rfl
      have characters : ("-" ++ (amount + 1).repr).toList = '-' :: Nat.toDigits 10 (amount + 1) := by
        rw [String.toList_append, Nat.toList_repr]
        rfl
      have back : -((amount + 1 : Nat) : Int) = Int.negSucc amount := rfl
      rw [text]
      simp only [readBetween, characters, numeral_toDigits, Option.bind_some, back, within]
      rw [if_pos ⟨least, most⟩]

/-- A number of 64 signed bits is read back as it is written. -/
theorem readSigned64_toString {value : Nat} (fits : value ≤ maxSigned64) :
    readSigned64 (toString value) = some (value : Int) :=
  readBetween_repr (by simp only [minSigned64]; omega) fits

theorem readSigned64_toString_int {value : Int} (least : 0 ≤ value) (fits : value ≤ maxSigned64) :
    readSigned64 (toString value) = some value := by
  obtain ⟨amount, rfl⟩ := Int.eq_ofNat_of_zero_le least
  exact readSigned64_toString fits

theorem within_le {low high value kept : Int} (within : within low high value = some kept) :
    low ≤ kept ∧ kept ≤ high := by
  simp only [Text.within] at within
  split at within
  · next bounds =>
      cases within
      exact bounds
  · cases within

theorem readBetween_le {low high value : Int} {text : String}
    (read : readBetween low high text = some value) : low ≤ value ∧ value ≤ high := by
  simp only [readBetween] at read
  split at read
  all_goals
    obtain ⟨_, _, kept⟩ := Option.bind_eq_some_iff.mp read
    exact within_le kept

theorem readSigned64_le {value : Int} {text : String} (read : readSigned64 text = some value) :
    value ≤ maxSigned64 :=
  (readBetween_le read).2

/-- Digits are a numeral of the number that they write. -/
theorem continueNumeral_of_digits {digits : List Char}
    (decimal : ∀ digit ∈ digits, digit.isDigit = true) (start : Nat) :
    continueNumeral start digits = some (Nat.ofDigitChars 10 digits start) := by
  induction digits generalizing start with
  | nil => rfl
  | cons digit rest ih =>
      rw [continueNumeral, if_pos (decimal digit List.mem_cons_self),
        ih fun other member => decimal other (List.mem_cons_of_mem _ member)]
      rfl

/-- Digits alone are read as the number that they write, unless that is too great. -/
theorem readUpTo_of_digits {digits : List Char} (written : digits ≠ [])
    (decimal : ∀ digit ∈ digits, digit.isDigit = true) (high : Nat) :
    readUpTo high (String.ofList digits) =
      if Nat.ofDigitChars 10 digits 0 ≤ high then some (Nat.ofDigitChars 10 digits 0)
      else none := by
  cases digits with
  | nil => exact absurd rfl written
  | cons first rest =>
      have unsigned : first ≠ '+' := by
        rintro rfl
        exact absurd (decimal '+' List.mem_cons_self) (by decide)
      have value := continueNumeral_of_digits decimal 0
      simp only [readUpTo, String.toList_ofList]
      split
      · next same => exact absurd (List.cons.inj same).1 unsigned
      · rw [numeral?, value]
        · rfl
        · simp

end ReplicaStore.Text
