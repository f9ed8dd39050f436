import ReplicaStore.Proofs.Settings.Assignments
import ReplicaStore.Settings.CommandLine

/-!
# What a command line assigns

A command line is read from left to right, and a value is taken up only when the next option
is met.  What comes of it can be said without any of that: `occurrences` lists the values that
are written on the line, each with the setting that it is for, and an accepted line makes these
assignments in order (`Reading.gives_finish`).

Whether a line is accepted does not depend on the settings that it starts from
(`Reading.finish_settings`), and an option with its value in front of it does no more than set
what it names (`Reading.finish_assignment`).
-/

namespace ReplicaStore.Settings

variable {name : Name} {text : String}

/-! ### The assignments on a command line -/

/-- The values that are written on a command line, each with the setting that it is for: it is
attached to the option or the next argument.  Behind `--` nothing is an option. -/
def occurrences : List String → List (Name × String)
  | [] => []
  | argument :: rest =>
      match argument.toList with
      | ['-', '-'] => []
      | '-' :: '-' :: written =>
          let (spelling, attached) := Reading.splitAttached written
          match Name.ofWritten? spelling, attached, rest with
          | some name, some value, rest => (name, value) :: occurrences rest
          | some name, none, value :: rest => (name, value) :: occurrences rest
          | _, _, rest => occurrences rest
      | _ => occurrences rest

variable {argument : String} {written : List Char} {rest : List String}

theorem occurrences_dashes (dashes : argument.toList = ['-', '-']) :
    occurrences (argument :: rest) = [] := by
  simp only [occurrences, dashes]

theorem occurrences_attached (option : argument.toList = '-' :: '-' :: written) {spelling : String}
    (split : Reading.splitAttached written = (spelling, some text))
    (known : Name.ofWritten? spelling = some name) :
    occurrences (argument :: rest) = (name, text) :: occurrences rest := by
  cases written with
  | nil => cases split
  | cons first written => simp only [occurrences, option, split, known]

theorem occurrences_next (option : argument.toList = '-' :: '-' :: written) {spelling : String}
    (split : Reading.splitAttached written = (spelling, none))
    (known : Name.ofWritten? spelling = some name) :
    occurrences (argument :: text :: rest) = (name, text) :: occurrences rest := by
  cases written with
  | nil =>
      cases split
      cases known
  | cons first written => simp only [occurrences, option, split, known]

theorem occurrences_last (option : argument.toList = '-' :: '-' :: written) {spelling : String}
    (split : Reading.splitAttached written = (spelling, none)) : occurrences [argument] = [] := by
  cases written with
  | nil => simp only [occurrences, option]
  | cons first written =>
      simp only [occurrences, option, split]
      cases Name.ofWritten? spelling <;> rfl

theorem occurrences_plain (plain : ∀ written, argument.toList ≠ '-' :: '-' :: written) :
    occurrences (argument :: rest) = occurrences rest := by
  rw [occurrences]
  split
  · next dashes => exact absurd dashes (plain [])
  · next written _ option => exact absurd option (plain written)
  · rfl

namespace Pending

variable {pending : Pending}

/-- What is pending assigns at most one value. -/
def assignments : Pending → List (Name × String)
  | .value name text => [(name, text)]
  | .nothing | .awaiting _ | .file _ => []

/-- What a line assigns from here on, given whether `--` was passed and what is still to be
read. -/
def ahead : Pending → Bool → List String → List (Name × String)
  | pending, true, _ => pending.assignments
  | .awaiting _, false, [] => []
  | .awaiting name, false, text :: arguments => (name, text) :: occurrences arguments
  | pending, false, arguments => pending.assignments ++ occurrences arguments

theorem ahead_of_literal (pending : Pending) (arguments : List String) :
    pending.ahead true arguments = pending.assignments := by
  cases pending <;> rfl

theorem ahead_of_option (given : ∀ name, pending ≠ .awaiting name) (arguments : List String) :
    pending.ahead false arguments = pending.assignments ++ occurrences arguments := by
  cases pending with
  | awaiting name => exact absurd rfl (given name)
  | nothing | value | file => rfl

end Pending

namespace Reading

variable {reading later last : Reading} {arguments : List String}

/-- What is pending is taken up as it is written. -/
theorem commit_inv (taken : reading.commit = .ok later) :
    (∀ name, reading.pending ≠ .awaiting name) ∧
      Gives reading.settings reading.pending.assignments later.settings ∧
      later = { reading with settings := later.settings, pending := .nothing } := by
  obtain ⟨settings, pending, literal, named⟩ := reading
  cases pending with
  | nothing =>
      cases taken
      exact ⟨by simp, .refl settings, rfl⟩
  | awaiting name => cases taken
  | value name text =>
      simp only [commit] at taken
      cases given : settings.set name text with
      | error error =>
          rw [given] at taken
          cases taken
      | ok changed =>
          rw [given] at taken
          cases taken
          exact ⟨by simp, .of_set given, rfl⟩
  | file path =>
      simp only [commit] at taken
      cases given : settings.setFile path with
      | error error =>
          rw [given] at taken
          cases taken
      | ok changed =>
          rw [given] at taken
          cases taken
          exact ⟨by simp, fun name => congrArg some (get_setFile given name).symm, rfl⟩

theorem plain_inv (taken : reading.plain argument = .ok later) :
    ∃ between, reading.commit = .ok between ∧
      later = { between with pending := .file argument, named := true } := by
  rw [plain] at taken
  split at taken
  · cases taken
  · obtain ⟨between, committed, rfl⟩ := ok_of_map taken
    exact ⟨between, committed, rfl⟩

theorem display_ne_ok (reading : Reading) (error : UsageError) :
    reading.display error ≠ .ok later := by
  intro taken
  obtain ⟨_, _, failed⟩ := ok_of_bind taken
  cases failed

/-- Only an option that is known is taken, and its value with it if that is attached. -/
theorem option_inv {spelling : String} {attached : Option String}
    (taken : reading.option spelling attached = .ok later) :
    ∃ name between, Name.ofWritten? spelling = some name ∧ reading.commit = .ok between ∧
      (attached = none ∧ later = { between with pending := .awaiting name } ∨
        ∃ text settings, attached = some text ∧ between.settings.set name text = .ok settings ∧
          later = { between with settings }) := by
  unfold option at taken
  cases known : Name.ofWritten? spelling with
  | none =>
      rw [known] at taken
      dsimp only at taken
      split at taken
      · split at taken
        · cases taken
        · exact absurd taken (display_ne_ok reading _)
      · cases taken
  | some name =>
      rw [known] at taken
      cases attached with
      | none =>
          obtain ⟨between, committed, rfl⟩ := ok_of_map taken
          exact ⟨name, between, rfl, committed, .inl ⟨rfl, rfl⟩⟩
      | some text =>
          obtain ⟨between, committed, taken⟩ := ok_of_bind taken
          obtain ⟨settings, given, taken⟩ := ok_of_bind taken
          cases taken
          exact ⟨name, between, rfl, committed, .inr ⟨text, settings, rfl, given, rfl⟩⟩

theorem letters_ne_ok (reading : Reading) (letters : List Char) :
    reading.letters letters ≠ .ok later := by
  rw [Reading.letters.eq_def]
  split
  · exact display_ne_ok reading _
  · exact display_ne_ok reading _
  · simp

/-- An option takes up what is pending, and its value if that is attached to it. -/
theorem option_ahead {spelling : String} {attached : Option String}
    (optional : reading.literal = false) (option : argument.toList = '-' :: '-' :: written)
    (split : splitAttached written = (spelling, attached))
    (taken : reading.option spelling attached = .ok later) (rest : List String) :
    ∃ given, reading.pending.ahead false (argument :: rest) =
        given ++ later.pending.ahead later.literal rest ∧
      Gives reading.settings given later.settings := by
  obtain ⟨name, between, known, committed, becomes⟩ := option_inv taken
  obtain ⟨given, gives, same⟩ := commit_inv committed
  have still : between.literal = false := by rw [same, optional]
  have nothing : between.pending = .nothing := by rw [same]
  rw [Pending.ahead_of_option given]
  rcases becomes with ⟨rfl, rfl⟩ | ⟨text, settings, rfl, set, rfl⟩
  · refine ⟨reading.pending.assignments, ?_, gives⟩
    rw [still]
    cases rest with
    | nil => rw [occurrences_last option split, Pending.ahead]
    | cons text rest => rw [occurrences_next option split known, Pending.ahead]
  · refine ⟨reading.pending.assignments ++ [(name, text)], ?_, gives.trans (.of_set set)⟩
    rw [still, nothing, occurrences_attached option split known,
      Pending.ahead_of_option (by simp), Pending.assignments, List.nil_append,
      List.append_assoc, List.singleton_append]

/-- The name of a file takes up what is pending, and assigns nothing by itself. -/
theorem plain_ahead (optional : reading.literal = false)
    (bare : ∀ written, argument.toList ≠ '-' :: '-' :: written)
    (taken : reading.plain argument = .ok later) (rest : List String) :
    ∃ given, reading.pending.ahead false (argument :: rest) =
        given ++ later.pending.ahead later.literal rest ∧
      Gives reading.settings given later.settings := by
  obtain ⟨between, committed, rfl⟩ := plain_inv taken
  obtain ⟨given, gives, same⟩ := commit_inv committed
  have still : between.literal = false := by rw [same, optional]
  refine ⟨reading.pending.assignments, ?_, gives⟩
  rw [Pending.ahead_of_option given, occurrences_plain bare, still,
    Pending.ahead_of_option (by simp)]
  rfl

/-- An argument takes its part of what the line assigns. -/
theorem next_ahead (taken : reading.next argument = .ok later)
    (going : ∀ name, later.literal = true → later.pending ≠ .awaiting name) (rest : List String) :
    ∃ given, reading.pending.ahead reading.literal (argument :: rest) =
        given ++ later.pending.ahead later.literal rest ∧
      Gives reading.settings given later.settings := by
  cases literal : reading.literal with
  | true =>
      simp only [next, literal, if_true] at taken
      obtain ⟨between, committed, rfl⟩ := plain_inv taken
      obtain ⟨_, gives, same⟩ := commit_inv committed
      have passed : between.literal = true := by rw [same, literal]
      refine ⟨reading.pending.assignments, ?_, gives⟩
      rw [passed, Pending.ahead_of_literal, Pending.ahead_of_literal, Pending.assignments,
        List.append_nil]
  | false =>
      simp only [next, literal, Bool.false_eq_true, if_false] at taken
      split at taken
      · next dashes =>
          -- What is pending stays so, and must not be an option that awaits its value.
          cases taken
          have given : ∀ name, reading.pending ≠ .awaiting name := fun name => going name rfl
          refine ⟨[], ?_, .refl _⟩
          rw [Pending.ahead_of_option given, occurrences_dashes dashes, List.append_nil,
            Pending.ahead_of_literal, List.nil_append]
      · next written _ option => exact option_ahead literal option rfl taken rest
      · exact absurd taken (letters_ne_ok reading _)
      · next _ bare _ =>
          cases pending : reading.pending with
          | awaiting name =>
              rw [pending] at taken
              cases taken
              refine ⟨[], ?_, .refl _⟩
              rw [Pending.ahead, Pending.ahead_of_option (by simp), Pending.assignments,
                List.nil_append, List.singleton_append]
          | nothing | value | file =>
              rw [pending] at taken
              rw [← pending]
              exact plain_ahead literal bare taken rest

/-! ### The rest of a command line -/

/-- Reads what is left of a command line. -/
def finish (reading : Reading) : List String → Except UsageError Settings
  | [] => reading.commit.map (·.settings)
  | argument :: rest => (reading.next argument).bind (·.finish rest)

theorem ofArguments_eq (arguments : List String) : ofArguments arguments = finish {} arguments := by
  have reads : ∀ reading : Reading, (do
      let reading ← arguments.foldlM Reading.next reading
      return (← reading.commit).settings) = reading.finish arguments := by
    induction arguments with
    | nil =>
        intro reading
        rw [List.foldlM_nil, pure_bind, finish]
        cases reading.commit <;> rfl
    | cons argument rest ih =>
        intro reading
        rw [List.foldlM_cons, finish]
        cases reading.next argument with
        | error error => rfl
        | ok later => exact ih later
  exact reads {}

/-- Behind `--` no value can be given any more. -/
theorem finish_ne_ok {final : Settings} (literal : reading.literal = true)
    (awaits : reading.pending = .awaiting name) (arguments : List String) :
    reading.finish arguments ≠ .ok final := by
  have stuck : reading.commit = .error .invalidValue := by rw [commit, awaits]
  intro accepted
  cases arguments with
  | nil =>
      rw [finish, stuck] at accepted
      cases accepted
  | cons argument rest =>
      obtain ⟨later, taken, _⟩ := ok_of_bind accepted
      rw [next, if_pos literal] at taken
      obtain ⟨between, committed, _⟩ := plain_inv taken
      rw [stuck] at committed
      cases committed

/-- A command line that is accepted gives what is written on it. -/
theorem gives_finish {final : Settings} (accepted : reading.finish arguments = .ok final) :
    Gives reading.settings (reading.pending.ahead reading.literal arguments) final := by
  induction arguments generalizing reading with
  | nil =>
      obtain ⟨later, committed, rfl⟩ := ok_of_map accepted
      obtain ⟨given, gives, _⟩ := commit_inv committed
      cases literal : reading.literal with
      | true => rwa [Pending.ahead_of_literal]
      | false => rwa [Pending.ahead_of_option given, occurrences, List.append_nil]
  | cons argument rest ih =>
      obtain ⟨later, taken, accepted⟩ := ok_of_bind accepted
      obtain ⟨given, parts, gives⟩ := next_ahead taken
        (fun name literal awaits => finish_ne_ok literal awaits rest accepted) rest
      rw [parts]
      exact gives.trans (ih accepted)

/-! ### Other settings to start from -/

theorem commit_settings (taken : reading.commit = .ok later) (settings : Settings)
    (same : settings.file = reading.settings.file) :
    ∃ changed, { reading with settings }.commit = .ok { later with settings := changed } ∧
      changed.file = later.settings.file := by
  obtain ⟨before, pending, literal, named⟩ := reading
  cases pending with
  | nothing =>
      cases taken
      exact ⟨settings, rfl, same⟩
  | awaiting name => cases taken
  | value name text =>
      obtain ⟨after, given, rfl⟩ := ok_of_map taken
      obtain ⟨changed, givenToo⟩ := set_settings given settings
      refine ⟨changed, congrArg (Except.map _) givenToo, ?_⟩
      rw [(set_inv givenToo).2.2, same, (set_inv given).2.2]
  | file path =>
      obtain ⟨after, given, rfl⟩ := ok_of_map taken
      rw [setFile] at given
      split at given
      · cases given
      · next some =>
          cases given
          refine ⟨{ settings with file := path }, ?_, rfl⟩
          simp only [commit, setFile, if_neg some]
          rfl

theorem plain_settings (taken : reading.plain argument = .ok later) (settings : Settings)
    (same : settings.file = reading.settings.file) :
    ∃ changed, { reading with settings }.plain argument = .ok { later with settings := changed } ∧
      changed.file = later.settings.file := by
  rw [plain] at taken ⊢
  split at taken
  · cases taken
  · next unnamed =>
      obtain ⟨between, committed, rfl⟩ := ok_of_map taken
      obtain ⟨changed, committedToo, files⟩ := commit_settings committed settings same
      exact ⟨changed, by rw [if_neg unnamed, committedToo]; rfl, files⟩

theorem option_settings {spelling : String} {attached : Option String}
    (taken : reading.option spelling attached = .ok later) (settings : Settings)
    (same : settings.file = reading.settings.file) :
    ∃ changed, { reading with settings }.option spelling attached =
        .ok { later with settings := changed } ∧ changed.file = later.settings.file := by
  obtain ⟨name, between, known, committed, becomes⟩ := option_inv taken
  obtain ⟨changed, committedToo, files⟩ := commit_settings committed settings same
  rcases becomes with ⟨rfl, rfl⟩ | ⟨text, after, rfl, given, rfl⟩
  · exact ⟨changed, by simp only [option, known, committedToo, Except.map], files⟩
  · obtain ⟨last, givenToo⟩ := set_settings given changed
    refine ⟨last, ?_, ?_⟩
    · simp only [option, known, committedToo]
      change (changed.set name text).bind (fun settings => .ok { between with settings }) = _
      rw [givenToo]
      rfl
    · rw [(set_inv givenToo).2.2, files, (set_inv given).2.2]

theorem next_settings (taken : reading.next argument = .ok later) (settings : Settings)
    (same : settings.file = reading.settings.file) :
    ∃ changed, { reading with settings }.next argument = .ok { later with settings := changed } ∧
      changed.file = later.settings.file := by
  revert taken
  unfold next
  dsimp only
  split
  · exact fun taken => plain_settings taken settings same
  · split
    · intro taken
      cases taken
      exact ⟨settings, rfl, same⟩
    · exact fun taken => option_settings taken settings same
    · exact fun taken => absurd taken (letters_ne_ok reading _)
    · split
      · intro taken
        cases taken
        exact ⟨settings, rfl, same⟩
      · exact fun taken => plain_settings taken settings same

/-- Whether a command line is accepted does not depend on what is set before it, and neither does
the file that it names. -/
theorem finish_settings {final : Settings} (accepted : reading.finish arguments = .ok final)
    (settings : Settings) (same : settings.file = reading.settings.file) :
    ∃ changed, { reading with settings }.finish arguments = .ok changed ∧
      changed.file = final.file := by
  induction arguments generalizing reading settings with
  | nil =>
      obtain ⟨later, committed, rfl⟩ := ok_of_map accepted
      obtain ⟨changed, committedToo, files⟩ := commit_settings committed settings same
      exact ⟨changed, by rw [finish, committedToo]; rfl, files⟩
  | cons argument rest ih =>
      obtain ⟨later, taken, accepted⟩ := ok_of_bind accepted
      obtain ⟨between, takenToo, files⟩ := next_settings taken settings same
      obtain ⟨changed, acceptedToo, filesToo⟩ := ih accepted between files
      exact ⟨changed, by rw [finish, takenToo]; exact acceptedToo, filesToo⟩

/-! ### Options in front of a command line -/

theorem commit_literal (taken : reading.commit = .ok later) (literal : Bool) :
    { reading with literal }.commit = .ok { later with literal } := by
  obtain ⟨settings, pending, before, named⟩ := reading
  cases pending with
  | nothing =>
      cases taken
      rfl
  | awaiting name => cases taken
  | value | file =>
      obtain ⟨after, given, rfl⟩ := ok_of_map taken
      exact congrArg (Except.map _) given

theorem commit_again (taken : reading.commit = .ok later) : reading.commit = later.commit := by
  obtain ⟨_, _, becomes⟩ := commit_inv taken
  rw [taken, becomes]
  rfl

/-- What is pending may as well be taken up at once. -/
theorem finish_of_commit (taken : reading.commit = .ok later) (arguments : List String) :
    reading.finish arguments = later.finish arguments := by
  have same := commit_again taken
  induction arguments generalizing reading later with
  | nil => rw [finish, finish, same]
  | cons argument rest ih =>
      obtain ⟨given, _, becomes⟩ := commit_inv taken
      have literal : later.literal = reading.literal := by rw [becomes]
      have named : later.named = reading.named := by rw [becomes]
      have nothing : later.pending = .nothing := by rw [becomes]
      rw [finish, finish, next, next, literal, nothing]
      -- Whatever the argument is, it has what is pending taken up first; only `--` leaves it.
      split
      · rw [plain, plain, same, named]
      · split
        · have passed := commit_literal taken true
          rw [nothing] at passed
          exact ih passed (commit_again passed)
        · simp only [option, display, same]
        · simp only [letters, display, same]
        · split
          · next awaits => exact absurd awaits (given _)
          · rw [plain, plain, same, named]

theorem next_option {spelling : String}
    (split : splitAttached spelling.toList = (spelling, none))
    (known : Name.ofWritten? spelling = some name) (settings : Settings) :
    next { settings } ("--" ++ spelling) = .ok { settings, pending := .awaiting name } := by
  have letters : ("--" ++ spelling).toList = '-' :: '-' :: spelling.toList := by
    rw [String.toList_append]
    rfl
  cases written : spelling.toList with
  | nil =>
      rw [String.toList_eq_nil_iff.mp written] at known
      cases known
  | cons first more =>
      rw [written] at letters split
      simp only [next, Bool.false_eq_true, if_false, letters, split, option, known]
      rfl

theorem next_value (plain : text.toList.head? ≠ some '-') (settings : Settings) :
    next { settings, pending := .awaiting name } text =
      .ok { settings, pending := .value name text } := by
  rw [next, if_neg Bool.false_ne_true]
  split
  · next dashes => exact absurd (congrArg List.head? dashes) plain
  · next option => exact absurd (congrArg List.head? option) plain
  · next letters => exact absurd (congrArg List.head? letters) plain
  · rfl

/-- An option with its value, in front of a command line, sets what it names. -/
theorem finish_assignment {settings after : Settings} {spelling : String}
    (split : splitAttached spelling.toList = (spelling, none))
    (known : Name.ofWritten? spelling = some name) (plain : text.toList.head? ≠ some '-')
    (given : settings.set name text = .ok after) (arguments : List String) :
    finish { settings } (("--" ++ spelling) :: text :: arguments) =
      finish { settings := after } arguments := by
  have taken : commit { settings, pending := .value name text } = .ok { settings := after } := by
    simp only [commit, given]
    rfl
  rw [finish, next_option split known]
  change finish { settings, pending := .awaiting name } (text :: arguments) = _
  rw [finish, next_value plain]
  exact finish_of_commit taken arguments

end Reading
end ReplicaStore.Settings
