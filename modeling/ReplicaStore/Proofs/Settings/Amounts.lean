import Mathlib.Algebra.Group.Nat.Defs
import ReplicaStore.Proofs.Settings.Precedence
import ReplicaStore.Proofs.Text.Decimal

/-!
# Amounts of memory

The size of the backlog is written as an amount of memory, a decimal number and a unit.  The number
has to fit into 64 bits, and so has the product: what is accepted is below 2^64 and is taken exactly
(`Settings.readMemory_eq_ok_iff`).  Only the number is looked at before, and is refused if it is too
large.  A number that passes, with a unit that makes too much of it, is met by the check of the
multiplication itself, which breaks the program off (`Settings.readMemory_eq_overflow_iff`); without
this check the size would be what 64 bits hold of the product.

The size that is loaded is the amount that the last occurrence writes (`Settings.load_backlogSize`).
-/

namespace ReplicaStore

namespace Settings

variable {text : String} {unit : List Char} {number factor size : Nat}

/-! ### Amounts -/

/-- The letter of a power. -/
def letterOf : Fin 4 → List Char
  | 0 => []
  | 1 => ['k']
  | 2 => ['m']
  | 3 => ['g']

/-- What a unit stands for: a power of a thousand, or one of 1024 if it ends in `b`. -/
inductive StandsFor : List Char → Nat → Prop
  | decimal (power : Fin 4) : StandsFor (letterOf power) (1000 ^ power.val)
  | binary (power : Fin 4) : StandsFor (letterOf power ++ ['b']) (1024 ^ power.val)

/-- A text writes a number in decimal, and a unit behind it, which stands for a factor. -/
def WritesAmount (text : String) (number factor : Nat) : Prop :=
  ∃ digits unit : List Char, (Text.lower text).toList = digits ++ unit ∧ digits ≠ [] ∧
    (∀ digit ∈ digits, digit.isDigit = true) ∧ number = Nat.ofDigitChars 10 digits 0 ∧
    StandsFor unit factor

theorem memoryUnit?_eq_some_iff :
    memoryUnit? (String.ofList unit) = some factor ↔ StandsFor unit factor := by
  constructor
  · intro known
    have spelled : ∀ written : String, String.ofList unit = written → unit = written.toList := by
      rintro _ rfl
      rw [String.toList_ofList]
    unfold memoryUnit? at known
    split at known <;> cases known <;> rename_i same <;> rw [spelled _ same]
    · exact .decimal 0
    · exact .binary 0
    · exact .decimal 1
    · exact .binary 1
    · exact .decimal 2
    · exact .binary 2
    · exact .decimal 3
    · exact .binary 3
  · intro stands
    cases stands with
    | decimal power | binary power =>
        revert power
        decide +kernel

theorem StandsFor.pos (stands : StandsFor unit factor) : 0 < factor := by
  cases stands with
  | decimal power | binary power => exact Nat.pow_pos (by decide)

/-- A unit is written without digits. -/
theorem StandsFor.letters (stands : StandsFor unit factor) : unit.all (!·.isDigit) = true := by
  cases stands with
  | decimal power | binary power =>
      revert power
      decide +kernel

theorem readUnsigned64_of_digits {digits : List Char} (written : digits ≠ [])
    (decimal : ∀ digit ∈ digits, digit.isDigit = true) :
    Text.readUnsigned64 (String.ofList digits) =
      if Nat.ofDigitChars 10 digits 0 < 2 ^ 64 then some (Nat.ofDigitChars 10 digits 0)
      else none := by
  rw [Text.readUnsigned64, Text.readUpTo_of_digits written decimal]
  simp only [Text.maxUnsigned64, Nat.lt_iff_le_pred (show 0 < 2 ^ 64 by decide)]
  rfl

/-- An amount is read if it is below 2^64.  Beyond, it depends on the number without its unit what
happens. -/
theorem readMemory_of_writes (writes : WritesAmount text number factor) :
    readMemory text =
      if number * factor < 2 ^ 64 then .ok (number * factor)
      else if number < 2 ^ 64 then .error .overflow
      else .error .valueValidation := by
  obtain ⟨digits, unit, whole, written, decimal, rfl, stands⟩ := writes
  have stops : ∀ letter ∈ unit, letter.isDigit = false := by simpa using stands.letters
  have front : (digits ++ unit).takeWhile Char.isDigit = digits := by
    rw [List.takeWhile_append_of_pos decimal]
    cases unit with
    | nil => simp
    | cons first rest => simp [stops first List.mem_cons_self]
  have back : (digits ++ unit).dropWhile Char.isDigit = unit := by
    rw [List.dropWhile_append_of_pos decimal]
    cases unit with
    | nil => rfl
    | cons first rest => simp [stops first List.mem_cons_self]
  have fits (value : Nat) : value ≤ Text.maxUnsigned64 ↔ value < 2 ^ 64 := Nat.lt_succ_iff.symm
  have least := Nat.le_mul_of_pos_right (Nat.ofDigitChars 10 digits 0) stands.pos
  simp only [readMemory, whole, front, back, readUnsigned64_of_digits written decimal,
    memoryUnit?_eq_some_iff.mpr stands, fits]
  by_cases small : Nat.ofDigitChars 10 digits 0 < 2 ^ 64
  · rw [if_pos small, if_pos small]
  · have large : ¬Nat.ofDigitChars 10 digits 0 * factor < 2 ^ 64 := fun product =>
      small (Nat.lt_of_le_of_lt least product)
    rw [if_neg small, if_neg small, if_neg large]

/-- What is read, or not refused at least, is an amount. -/
theorem writes_of_readMemory (taken : readMemory text ≠ .error .valueValidation) :
    ∃ number factor, WritesAmount text number factor := by
  have whole := List.takeWhile_append_dropWhile (p := Char.isDigit) (l := (Text.lower text).toList)
  have decimal : ∀ digit ∈ (Text.lower text).toList.takeWhile Char.isDigit,
      digit.isDigit = true := fun digit member => List.mem_takeWhile_imp member
  simp only [readMemory] at taken
  generalize (Text.lower text).toList.takeWhile Char.isDigit = digits at whole decimal taken
  generalize (Text.lower text).toList.dropWhile Char.isDigit = unit at whole taken
  split at taken
  · next number factor numeral known =>
      refine ⟨_, factor, digits, unit, whole.symm, ?_, decimal, rfl, memoryUnit?_eq_some_iff.mp known⟩
      rintro rfl
      cases numeral
  · exact absurd rfl taken

/-- The amounts that are accepted are those below 2^64, and they are taken exactly. -/
theorem readMemory_eq_ok_iff :
    readMemory text = .ok size ↔
      ∃ number factor, WritesAmount text number factor ∧ number * factor < 2 ^ 64 ∧
        size = number * factor := by
  constructor
  · intro read
    obtain ⟨number, factor, writes⟩ := @writes_of_readMemory text (by rw [read]; exact nofun)
    rw [readMemory_of_writes writes] at read
    split at read
    · next fits => exact ⟨number, factor, writes, fits, (Except.ok.inj read).symm⟩
    · split at read <;> cases read
  · rintro ⟨number, factor, writes, fits, rfl⟩
    rw [readMemory_of_writes writes, if_pos fits]

/-- The program breaks off exactly at amounts from 2^64 on whose number is below 2^64. -/
theorem readMemory_eq_overflow_iff :
    readMemory text = .error .overflow ↔
      ∃ number factor, WritesAmount text number factor ∧ number < 2 ^ 64 ∧
        2 ^ 64 ≤ number * factor := by
  constructor
  · intro read
    obtain ⟨number, factor, writes⟩ := @writes_of_readMemory text (by rw [read]; exact nofun)
    rw [readMemory_of_writes writes] at read
    split at read
    · cases read
    · next large =>
        split at read
        · next small => exact ⟨number, factor, writes, small, Nat.le_of_not_lt large⟩
        · cases read
  · rintro ⟨number, factor, writes, small, large⟩
    rw [readMemory_of_writes writes, if_neg (Nat.not_lt_of_le large), if_pos small]

/-- Sixteen exbibytes and a kilobyte. -/
example : readMemory "18014398509481985kb" = .error .overflow := by decide +kernel

/-! ### Settings that are loaded -/

/-- The line that is read in the end: a command line, behind the options of the file that it
names, if it names one. -/
inductive WholeLine (readFile : String → Option Bytes) (arguments : List String) :
    List String → Prop
  | alone {own : Settings} (accepted : ofArguments arguments = .ok own)
      (fileless : own.file = none) : WholeLine readFile arguments arguments
  | behind {own : Settings} {path contents : String} {options : List String}
      (accepted : ofArguments arguments = .ok own) (named : own.file = some path)
      (found : (readFile path).bind Bytes.text? = some contents)
      (read : directives contents = .ok options) :
      WholeLine readFile arguments (options ++ arguments)

/-- The size of the backlog that a line writes: the amount that is its last one, or a default if
there is none. -/
def WritesSize (line : List String) (size : Nat) : Prop :=
  match lastOf .backlogSize (occurrences line) with
  | none => size = 1024 * 1024
  | some text => ∃ number factor, WritesAmount text number factor ∧ number * factor < 2 ^ 64 ∧
      size = number * factor

variable {readFile : String → Option Bytes} {arguments line : List String}
  {settings later : Settings}

theorem ofArguments_of_ofCommandLine (accepted : ofCommandLine arguments = .ok settings) :
    ofArguments arguments = .ok settings := by
  rw [ofCommandLine] at accepted
  split at accepted
  · next same => rw [same, Except.ok.inj accepted]
  · cases accepted

/-- Settings that pass stay as they are. -/
theorem validate_inv (valid : settings.validate = .ok later) : later = settings := by
  rw [validate] at valid
  split at valid
  · cases valid
  · obtain ⟨_, _, passed⟩ := ok_of_bind valid
    exact (Except.ok.inj passed).symm

theorem load_inv (loaded : load readFile arguments = .ok settings) :
    ∃ line, WholeLine readFile arguments line ∧ ofArguments line = .ok settings := by
  obtain ⟨own, first, loaded⟩ := ok_of_bind loaded
  have accepted := ofArguments_of_ofCommandLine first
  cases named : own.file with
  | none =>
      rw [named] at loaded
      rw [validate_inv loaded]
      exact ⟨arguments, .alone accepted named, accepted⟩
  | some path =>
      rw [named] at loaded
      dsimp only at loaded
      split at loaded
      · cases loaded
      · next contents found =>
          obtain ⟨options, read, loaded⟩ := ok_of_bind loaded
          obtain ⟨merged, second, valid⟩ := ok_of_bind loaded
          rw [validate_inv valid]
          exact ⟨options ++ arguments, .behind accepted named found read,
            ofArguments_of_ofCommandLine second⟩

/-- The size that is loaded is the one that is written, in the file or on the command line. -/
theorem load_backlogSize (loaded : load readFile arguments = .ok settings) :
    ∃ line, WholeLine readFile arguments line ∧ WritesSize line settings.backlogSize := by
  obtain ⟨line, whole, accepted⟩ := load_inv loaded
  refine ⟨line, whole, ?_⟩
  rw [WritesSize]
  have given : (lastOf .backlogSize (occurrences line)).elim
      (some (({} : Settings).get .backlogSize)) Name.backlogSize.read? =
        some (settings.get .backlogSize) := ofArguments_lastWins.last accepted .backlogSize
  cases last : lastOf .backlogSize (occurrences line) with
  | none =>
      rw [last] at given
      exact (Value.number.inj (Option.some.inj given)).symm
  | some text =>
      rw [last] at given
      simp only [Option.elim_some, Name.read?, get] at given
      cases read : readMemory text with
      | error error =>
          rw [read] at given
          cases given
      | ok size =>
          rw [read] at given
          rw [← Value.number.inj (Option.some.inj given)]
          exact readMemory_eq_ok_iff.mp read

end Settings
end ReplicaStore
