import ReplicaStore.Bytes

/-!
# Reading from a buffer that may still grow

A buffer may end in the middle of what is to be read.  Reading from its front
therefore has three outcomes: more bytes are needed, the bytes break the format,
or a value was found and some bytes are left.  A `Decoder` is such a reading;
decoders are run one behind the other by `do`.  What a decoder has found or refused is
the same when more bytes have come, if it is `Settled`; decoders that are made of
settled ones are settled.
-/

namespace ReplicaStore

/-- The outcome of reading from the front of a buffer. -/
inductive Scan (ε α : Type) where
  | more
  | bad (error : ε)
  | found (value : α) (rest : Bytes)
  deriving DecidableEq, Repr

/-- A way of reading from the front of a buffer. -/
def Decoder (ε α : Type) :=
  Bytes → Scan ε α

namespace Decoder

variable {ε α β : Type}

/-- Reads nothing. -/
protected def pure (value : α) : Decoder ε α :=
  fun input => .found value input

/-- Goes on reading behind what was found. -/
protected def bind (first : Decoder ε α) (next : α → Decoder ε β) : Decoder ε β :=
  fun input =>
    match first input with
    | .more => .more
    | .bad error => .bad error
    | .found value rest => next value rest

instance : Monad (Decoder ε) where
  pure := Decoder.pure
  bind := Decoder.bind

/-- Gives up: the bytes break the format. -/
def fail (error : ε) : Decoder ε α :=
  fun _ => .bad error

/-- Keeps a value that exists, and gives up otherwise. -/
def ofOption (error : ε) : Option α → Decoder ε α
  | some value => .pure value
  | none => fail error

/-- A fixed number of bytes. -/
def take (count : Nat) : Decoder ε Bytes :=
  fun input =>
    let taken := input.take count
    if taken.length < count then .more else .found taken (input.drop count)

/-- A single byte. -/
def byte : Decoder ε UInt8
  | [] => .more
  | first :: rest => .found first rest

/-- The same reading a number of times. -/
def repeated (decoder : Decoder ε α) : Nat → Decoder ε (List α)
  | 0 => .pure []
  | count + 1 => do
      let first ← decoder
      let others ← repeated decoder count
      pure (first :: others)

@[simp] theorem pure_run (value : α) (input : Bytes) :
    (pure value : Decoder ε α) input = .found value input := rfl

/-- Running one decoder behind another. -/
theorem bind_run (first : Decoder ε α) (next : α → Decoder ε β) (input : Bytes) :
    (first >>= next) input =
      match first input with
      | .more => .more
      | .bad error => .bad error
      | .found value rest => next value rest := rfl

theorem bind_run_found {first : Decoder ε α} {input rest : Bytes} {value : α}
    (found : first input = .found value rest) (next : α → Decoder ε β) :
    (first >>= next) input = next value rest := by
  simp [bind_run, found]

/-- Bytes that are all there are taken off the front. -/
theorem take_append {taken : Bytes} {count : Nat} (length : taken.length = count) (rest : Bytes) :
    (take count : Decoder ε Bytes) (taken ++ rest) = .found taken rest := by
  subst length; simp [take]

/-! ### Bytes that are still to come -/

/-- A reading that bytes to come do not change.  What it finds depends only on the bytes that
it takes, whatever stands behind them, and an error is one whatever is appended. -/
structure Settled (decoder : Decoder ε α) : Prop where
  found {input : Bytes} {value : α} {rest : Bytes} : decoder input = .found value rest →
    ∃ taken, input = taken ++ rest ∧ ∀ later, decoder (taken ++ later) = .found value later
  bad {input : Bytes} {error : ε} : decoder input = .bad error →
    ∀ later, decoder (input ++ later) = .bad error

namespace Settled

protected theorem pure (value : α) : Settled (pure value : Decoder ε α) where
  found := by
    intro input found rest read
    cases read
    exact ⟨[], rfl, fun later => rfl⟩
  bad := by
    intro input error read
    cases read

theorem fail (error : ε) : Settled (Decoder.fail error : Decoder ε α) where
  found := by
    intro input found rest read
    cases read
  bad := by
    intro input other read later
    cases read
    rfl

theorem ofOption (error : ε) (value : Option α) : Settled (Decoder.ofOption error value) := by
  cases value with
  | none => exact fail error
  | some value => exact .pure value

theorem byte : Settled (Decoder.byte : Decoder ε UInt8) where
  found := by
    intro input value rest read
    cases input with
    | nil => cases read
    | cons first others =>
        cases read
        exact ⟨[value], rfl, fun later => rfl⟩
  bad := by
    intro input error read
    cases input with
    | nil => cases read
    | cons first others => cases read

theorem take (count : Nat) : Settled (Decoder.take count : Decoder ε Bytes) where
  found := by
    intro input value rest read
    simp only [Decoder.take] at read
    split at read
    · cases read
    · next enough =>
        cases read
        have size : (input.take count).length = count := by
          have most := List.length_take_le count input
          omega
        exact ⟨input.take count, (List.take_append_drop count input).symm, fun later =>
          take_append size later⟩
  bad := by
    intro input error read
    simp only [Decoder.take] at read
    split at read
    · cases read
    · cases read

theorem bind {first : Decoder ε α} {next : α → Decoder ε β} (settledFirst : Settled first)
    (settledNext : ∀ value, Settled (next value)) : Settled (first >>= next) where
  found := by
    intro input value rest read
    rw [bind_run] at read
    split at read
    · cases read
    · cases read
    · next middle between run =>
        obtain ⟨taken, whole, finds⟩ := settledFirst.found run
        obtain ⟨more, behind, findsMore⟩ := (settledNext middle).found read
        refine ⟨taken ++ more, ?_, fun later => ?_⟩
        · rw [whole, behind, List.append_assoc]
        · rw [List.append_assoc, bind_run_found (finds _)]
          exact findsMore later
  bad := by
    intro input error read later
    rw [bind_run] at read
    split at read
    · cases read
    · next run =>
        cases read
        rw [bind_run, settledFirst.bad run]
    · next middle between run =>
        obtain ⟨taken, whole, finds⟩ := settledFirst.found run
        rw [whole, List.append_assoc, bind_run_found (finds _)]
        exact (settledNext middle).bad read later

theorem repeated {decoder : Decoder ε α} (settled : Settled decoder) (count : Nat) :
    Settled (Decoder.repeated decoder count) := by
  induction count with
  | zero => exact .pure []
  | succ count ih => exact bind settled fun first => bind ih fun others => .pure (first :: others)

variable {decoder : Decoder ε α} {input rest : Bytes} {value : α}

/-- What stands behind the bytes taken is left as it is. -/
theorem append (settled : Settled decoder) (read : decoder input = .found value rest)
    (later : Bytes) : decoder (input ++ later) = .found value (rest ++ later) := by
  obtain ⟨taken, rfl, finds⟩ := settled.found read
  rw [List.append_assoc]
  exact finds (rest ++ later)

/-- A reading that needs a byte takes one. -/
theorem length_lt (settled : Settled decoder) (empty : decoder [] = .more)
    (read : decoder input = .found value rest) : rest.length < input.length := by
  obtain ⟨taken, rfl, finds⟩ := settled.found read
  cases taken with
  | nil =>
      have none := finds []
      rw [List.nil_append, empty] at none
      cases none
  | cons first taken =>
      simp only [List.cons_append, List.length_cons, List.length_append]
      omega

/-- As long as the bytes that a value takes are not all there, more are needed. -/
theorem more_of_cut (settled : Settled decoder) {taken begun missing : Bytes}
    (finds : decoder taken = .found value []) (cut : taken = begun ++ missing)
    (proper : missing ≠ []) : decoder begun = .more := by
  cases run : decoder begun with
  | more => rfl
  | bad error =>
      have broken := settled.bad run missing
      rw [← cut, finds] at broken
      cases broken
  | found other rest =>
      have whole := settled.append run missing
      rw [← cut, finds] at whole
      have nothing : [] = rest ++ missing := (Scan.found.inj whole).2
      exact absurd (List.append_eq_nil_iff.mp nothing.symm).2 proper

end Settled

end Decoder
end ReplicaStore
