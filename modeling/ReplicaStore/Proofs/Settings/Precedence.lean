import ReplicaStore.Proofs.Settings.CommandLine
import ReplicaStore.Proofs.Text.Words
import ReplicaStore.Settings.Load

/-!
# Which setting counts

A setting can be given on the command line and in a file that the command line names, in each of
them more than once.  The last value on the command line counts, else the last one in the file,
else the default (`load_precedence`).

What a file assigns is `Writes`, line by line and in terms of words: the first word of a line, in
any case, is the setting, and the others are its value.  The file is read by turning its lines
into options in front of the command line.

Of the command line no more is used than that the last occurrence of a setting wins (`LastWins`),
which holds of the way it is read here (`ofArguments_lastWins`).
-/

namespace ReplicaStore.Settings

/-! ### Names as they are written -/

/-- How a setting is written, for a leader to follow the one of the two ways that is read from
a file. -/
def Name.spelling : Name → String
  | .bind => "bind"
  | .port => "port"
  | .databases => "databases"
  | .directory => "dir"
  | .snapshotName => "dbfilename"
  | .backlogSize => "repl-backlog-size"
  | .backlogTtl => "repl-backlog-ttl"
  | .timeout => "repl-timeout"
  | .pingPeriod => "repl-ping-replica-period"
  | .replicaOf => "replicaof"
  | .maxClients => "maxclients"
  | .drainBatch => "drain-batch"
  | .drainInterval => "drain-interval-ms"
  | .logLevel => "loglevel"

@[simp] theorem Name.ofWritten?_spelling (name : Name) : ofWritten? name.spelling = some name := by
  cases name <;> rfl

theorem splitAttached_spelling (name : Name) :
    Reading.splitAttached name.spelling.toList = (name.spelling, none) := by
  cases name <;> decide +kernel

/-- Only following a leader can be written in another way. -/
theorem Name.eq_of_ofWritten? {name : Name} {written : String}
    (known : ofWritten? written = some name) :
    written = name.spelling ∨ written = "slaveof" ∧ name = .replicaOf := by
  unfold ofWritten? at known
  split at known <;> cases known <;> simp [spelling]

/-! ### What a file assigns -/

/-- A line that says nothing: it has no words, or its first word begins with `#`. -/
def Silent (line : String) : Prop :=
  ∀ word ∈ (Text.words line).head?, word.toList.head? = some '#'

instance (line : String) : Decidable (Silent line) :=
  inferInstanceAs (Decidable (∀ word ∈ (Text.words line).head?, word.toList.head? = some '#'))

/-- The setting that a line names in any case, and the value that it gives it: its other words, one
space between each two and without the double quotes at their ends. -/
def assignment? (line : String) : Option (Name × String) :=
  match Text.words line with
  | directive :: first :: more =>
      (Name.ofWritten? (Text.lower directive)).map (·, unquote (" ".intercalate (first :: more)))
  | _ => none

/-- A line that gives a setting a value which it accepts and which is not taken for an option. -/
structure Assigns (line : String) (name : Name) (text : String) : Prop where
  written : assignment? line = some (name, text)
  accepted : (name.read? text).isSome = true
  plain : text.toList.head? ≠ some '-'

instance (line : String) (name : Name) (text : String) : Decidable (Assigns line name text) :=
  decidable_of_iff
    (assignment? line = some (name, text) ∧ (name.read? text).isSome = true ∧
      text.toList.head? ≠ some '-')
    ⟨fun ⟨written, accepted, plain⟩ => ⟨written, accepted, plain⟩,
      fun ⟨written, accepted, plain⟩ => ⟨written, accepted, plain⟩⟩

/-- What the lines of a file assign, in order. -/
inductive Writes : List String → List (Name × String) → Prop
  | done : Writes [] []
  | silent {line : String} {lines : List String} {assignments : List (Name × String)}
      (silent : Silent line) (rest : Writes lines assignments) : Writes (line :: lines) assignments
  | assigns {line text : String} {name : Name} {lines : List String}
      {assignments : List (Name × String)} (assigns : Assigns line name text)
      (rest : Writes lines assignments) : Writes (line :: lines) ((name, text) :: assignments)

/-- The options that assignments stand for. -/
def options (assignments : List (Name × String)) : List String :=
  assignments.flatMap fun (name, text) => ["--" ++ name.spelling, text]

variable {line text : String} {name : Name} {assignments : List (Name × String)}

theorem trim_startsWith_iff (line : String) :
    (Text.trim line).startsWith "#" = true ↔
      ∃ word ∈ (Text.words line).head?, word.toList.head? = some '#' := by
  have head : (Text.trim line).startsWith "#" = true ↔
      (Text.trim line).toList.head? = some '#' := by
    rw [String.startsWith_string_iff]
    cases (Text.trim line).toList with
    | nil => simp
    | cons first rest => simp [List.cons_prefix_cons, eq_comm]
  rw [head, Text.head?_trim, Option.bind_eq_some_iff]
  rfl

theorem directive_of_silent (silent : Silent line) (number : Nat) :
    directive number line = .ok [] := by
  have nothing : Text.trim line = "" ∨ (Text.trim line).startsWith "#" = true := by
    rw [Text.trim_eq_empty_iff, trim_startsWith_iff]
    cases words : Text.words line with
    | nil => exact .inl rfl
    | cons word more => exact .inr ⟨word, rfl, silent word (by rw [words]; rfl)⟩
  rw [directive, if_pos nothing]

/-- No setting begins with `#`, in any case. -/
theorem head?_of_known {directive : String}
    (known : Name.ofWritten? (Text.lower directive) = some name) :
    directive.toList.head? ≠ some '#' := by
  intro comment
  obtain ⟨rest, letters⟩ := List.head?_eq_some_iff.mp comment
  have lowered : (Text.lower directive).toList.head? = some '#' := by
    rw [Text.lower, letters, String.toList_ofList]
    rfl
  rcases Name.eq_of_ofWritten? known with same | ⟨same, _⟩
  · rw [same] at lowered
    cases name <;> revert lowered <;> decide +kernel
  · rw [same] at lowered
    revert lowered
    decide +kernel

theorem assignment_inv (written : assignment? line = some (name, text)) :
    ∃ directive first more, Text.words line = directive :: first :: more ∧
      Name.ofWritten? (Text.lower directive) = some name ∧
      unquote (" ".intercalate (first :: more)) = text := by
  rw [assignment?] at written
  split at written
  · next directive first more words =>
      obtain ⟨named, known, same⟩ := Option.map_eq_some_iff.mp written
      cases same
      exact ⟨directive, first, more, words, known, rfl⟩
  · cases written

theorem directive_of_assigns (assigns : Assigns line name text) (number : Nat) :
    directive number line = .ok ["--" ++ name.spelling, text] := by
  obtain ⟨directive, first, more, words, known, rfl⟩ := assignment_inv assigns.written
  have speaks : ¬ (Text.trim line = "" ∨ (Text.trim line).startsWith "#" = true) := by
    rw [Text.trim_eq_empty_iff, trim_startsWith_iff, words]
    rintro (none | ⟨word, member, comment⟩)
    · cases none
    · cases member
      exact head?_of_known known comment
  rw [Settings.directive, if_neg speaks, Text.words_trim, words]
  dsimp only
  rcases Name.eq_of_ofWritten? known with same | ⟨same, rfl⟩
  · rw [same]
    cases name <;> rfl
  · rw [same]
    rfl

theorem mapM_directive {lines : List String} (writes : Writes lines assignments) (start : Nat) :
    ∃ parts,
      ((lines.zipIdx start).mapM fun (line, index) => directive (index + 1) line) = .ok parts ∧
      parts.flatten = options assignments := by
  induction writes generalizing start with
  | done => exact ⟨[], rfl, rfl⟩
  | @silent line lines assignments silent rest ih =>
      obtain ⟨parts, reads, same⟩ := ih (start + 1)
      refine ⟨[] :: parts, ?_, same⟩
      rw [List.zipIdx_cons, List.mapM_cons, reads]
      dsimp only
      rw [directive_of_silent silent]
      rfl
  | @assigns line text name lines assignments assigns rest ih =>
      obtain ⟨parts, reads, same⟩ := ih (start + 1)
      refine ⟨["--" ++ name.spelling, text] :: parts, ?_, ?_⟩
      · rw [List.zipIdx_cons, List.mapM_cons, reads]
        dsimp only
        rw [directive_of_assigns assigns]
        rfl
      · rw [List.flatten_cons, same, options, options, List.flatMap_cons]

/-- A file is read as the options that it stands for. -/
theorem directives_of_writes {contents : String} (writes : Writes (lines contents) assignments) :
    directives contents = .ok (options assignments) := by
  obtain ⟨parts, reads, same⟩ := mapM_directive writes 0
  rw [directives, reads, ← same]
  rfl

/-! ### The last occurrence wins -/

/-- A setting accepts a text, which is not taken for an option. -/
structure Acceptable (name : Name) (text : String) : Prop where
  accepted : (name.read? text).isSome = true
  plain : text.toList.head? ≠ some '-'

theorem Writes.acceptable {lines : List String} (writes : Writes lines assignments) :
    ∀ assignment ∈ assignments, Acceptable assignment.1 assignment.2 := by
  induction writes with
  | done => exact nofun
  | silent _ _ ih => exact ih
  | assigns assigns _ ih => exact List.forall_mem_cons.mpr ⟨⟨assigns.accepted, assigns.plain⟩, ih⟩

/-- A way to read command lines.  On a line that is accepted the last value of a setting counts,
and options with acceptable values may be put in front of it. -/
structure LastWins (read : List String → Except UsageError Settings) : Prop where
  last : ∀ {arguments : List String} {settings : Settings}, read arguments = .ok settings →
    Gives {} (occurrences arguments) settings
  ahead : ∀ {arguments : List String} {settings : Settings} {assignments : List (Name × String)},
    read arguments = .ok settings →
    (∀ assignment ∈ assignments, Acceptable assignment.1 assignment.2) →
    ∃ merged, read (options assignments ++ arguments) = .ok merged ∧ merged.file = settings.file

/-- Options that are put in front of a line are its first occurrences. -/
theorem occurrences_options (assignments : List (Name × String)) (arguments : List String) :
    occurrences (options assignments ++ arguments) = assignments ++ occurrences arguments := by
  induction assignments with
  | nil => rfl
  | cons assignment assignments ih =>
      obtain ⟨name, text⟩ := assignment
      have option : ("--" ++ name.spelling).toList = '-' :: '-' :: name.spelling.toList := by
        rw [String.toList_append]
        rfl
      rw [options, List.flatMap_cons, List.append_assoc]
      exact (occurrences_next option (splitAttached_spelling name)
        (Name.ofWritten?_spelling name)).trans (congrArg _ ih)

/-- Options in front of a command line leave nothing but settings behind. -/
theorem finish_options
    (acceptable : ∀ assignment ∈ assignments, Acceptable assignment.1 assignment.2)
    (settings : Settings) :
    ∃ after : Settings, after.file = settings.file ∧
      ∀ arguments, Reading.finish { settings } (options assignments ++ arguments) =
        Reading.finish { settings := after } arguments := by
  induction assignments generalizing settings with
  | nil => exact ⟨settings, rfl, fun _ => rfl⟩
  | cons assignment assignments ih =>
      obtain ⟨name, text⟩ := assignment
      obtain ⟨first, others⟩ := List.forall_mem_cons.mp acceptable
      obtain ⟨between, given⟩ := set_of_read first.accepted settings
      obtain ⟨after, files, reads⟩ := ih others between
      refine ⟨after, files.trans (set_inv given).2.2, fun arguments => ?_⟩
      rw [options, List.flatMap_cons, List.append_assoc, ← reads arguments]
      exact Reading.finish_assignment (splitAttached_spelling name) (Name.ofWritten?_spelling name)
        first.plain given (options assignments ++ arguments)

theorem ofArguments_lastWins : LastWins ofArguments where
  last accepted := by
    rw [Reading.ofArguments_eq] at accepted
    exact Reading.gives_finish accepted
  ahead := by
    intro arguments settings assignments accepted acceptable
    obtain ⟨after, fileless, reads⟩ := finish_options acceptable {}
    rw [Reading.ofArguments_eq] at accepted
    obtain ⟨merged, read, sameFile⟩ := Reading.finish_settings accepted after fileless
    exact ⟨merged, by rw [Reading.ofArguments_eq, reads arguments, read], sameFile⟩

/-! ### Both together -/

/-- A text that is a host and a port. -/
def WritesLeader (written : String) : Prop :=
  ∃ host port number, Text.words written = [host, port] ∧ Text.readUnsigned16 port = some number

variable {settings : Settings} {written : String}

theorem leader_of_writes
    (leads : ∀ written, settings.replicaOf = some written → WritesLeader written) :
    ∃ leader, settings.leader = .ok leader := by
  rw [leader]
  cases named : settings.replicaOf with
  | none => exact ⟨none, rfl⟩
  | some written =>
      obtain ⟨host, port, number, words, numeral⟩ := leads written named
      exact ⟨some (host, number), by simp only [words, numeral]⟩

theorem leader_of_not_writes (named : settings.replicaOf = some written)
    (misled : ¬ WritesLeader written) : settings.leader = .error (.invalidLeader written) := by
  rw [leader, named]
  dsimp only
  split
  · next host port words =>
      split
      · next number numeral => exact absurd ⟨host, port, number, words, numeral⟩ misled
      · rfl
  · rfl

/-- Settings are refused exactly if they have no database or a leader that is no host and
port. -/
theorem validate_cases (settings : Settings) :
    (settings.databases = 0 → settings.validate = .error .noDatabases) ∧
      (settings.databases ≠ 0 →
        (∀ written, settings.replicaOf = some written → WritesLeader written) →
        settings.validate = .ok settings) ∧
      ∀ written, settings.databases ≠ 0 → settings.replicaOf = some written →
        ¬ WritesLeader written → settings.validate = .error (.invalidLeader written) := by
  refine ⟨fun none => ?_, fun some leads => ?_, fun written some named misled => ?_⟩
  · rw [validate, if_pos none]
    rfl
  · obtain ⟨leader, read⟩ := leader_of_writes leads
    rw [validate, if_neg some, read]
    rfl
  · rw [validate, if_neg some, leader_of_not_writes named misled]
    rfl

/-- The command line is read once more, behind the options that the file stands for. -/
theorem load_of_file {readFile : String → Option Bytes} {path contents : String}
    {arguments fileOptions : List String} {own : Settings}
    (first : ofCommandLine arguments = .ok own) (named : own.file = some path)
    (found : (readFile path).bind Bytes.text? = some contents)
    (read : directives contents = .ok fileOptions) :
    load readFile arguments = (ofCommandLine (fileOptions ++ arguments)).bind validate := by
  have given {α : Type} (value : α) : (.ok value : Except SettingsError α) = pure value := rfl
  rw [load, first, given, pure_bind, named]
  dsimp only
  rw [found]
  dsimp only
  rw [read, given, pure_bind]
  rfl

/-- Where a command line is accepted and names a file whose lines are assignments, each setting
has its last value on the command line, else its last value in the file, else its default.  These
settings are loaded unless they have no database or a leader that is no host and port. -/
theorem load_precedence {readFile : String → Option Bytes} {path contents : String}
    {arguments : List String} {own : Settings} {assignments : List (Name × String)}
    (accepted : ofArguments arguments = .ok own) (named : own.file = some path)
    (found : (readFile path).bind Bytes.text? = some contents)
    (writes : Writes (lines contents) assignments) :
    ∃ merged : Settings, merged.file = some path ∧
      (∀ name, ((lastOf name (occurrences arguments)).or (lastOf name assignments)).elim
        (some (({} : Settings).get name)) name.read? = some (merged.get name)) ∧
      (merged.databases ≠ 0 →
        (∀ written, merged.replicaOf = some written → WritesLeader written) →
        load readFile arguments = .ok merged) ∧
      (merged.databases = 0 → load readFile arguments = .error .noDatabases) ∧
      ∀ written, merged.databases ≠ 0 → merged.replicaOf = some written →
        ¬ WritesLeader written → load readFile arguments = .error (.invalidLeader written) := by
  have first : ofCommandLine arguments = .ok own := by rw [ofCommandLine, accepted]
  obtain ⟨merged, acceptedToo, sameFile⟩ := ofArguments_lastWins.ahead accepted writes.acceptable
  have gives := ofArguments_lastWins.last acceptedToo
  rw [occurrences_options] at gives
  have second : ofCommandLine (options assignments ++ arguments) = .ok merged := by
    rw [ofCommandLine, acceptedToo]
  have loads : load readFile arguments = merged.validate := by
    rw [load_of_file first named found (directives_of_writes writes), second]
    rfl
  obtain ⟨none, valid, misled⟩ := merged.validate_cases
  refine ⟨merged, sameFile.trans named, fun name => ?_, ?_⟩
  · rw [← lastOf_append]
    exact gives name
  · rw [loads]
    exact ⟨valid, none, misled⟩

/-- A file that sets the port twice and the leader by its other name, with spaces, line ends and
quotes that do not count, and a command line that sets the port twice again. -/
theorem load_precedence_repeated :
    let contents := "# served here\nPort   7000\n\nslaveof 10.0.0.1    7001\r\n" ++
      "  DBFILENAME \"replica.rdb\"\nport 7003\n"
    let arguments := ["--port=1", "server.conf", "--port", "7002"]
    ∃ merged, load (fun _ => some (Bytes.ofText contents)) arguments = .ok merged ∧
      merged.port = 7002 ∧ merged.replicaOf = some "10.0.0.1 7001" ∧
      merged.snapshotName = "replica.rdb" ∧ merged.databases = 16 := by
  intro contents arguments
  let assignments : List (Name × String) :=
    [(.port, "7000"), (.replicaOf, "10.0.0.1 7001"), (.snapshotName, "replica.rdb"),
      (.port, "7003")]
  let readFile : String → Option Bytes := fun _ => some (Bytes.ofText contents)
  have accepted : ofArguments arguments = .ok { port := 7002, file := some "server.conf" } := by
    decide +kernel
  have found : (readFile "server.conf").bind Bytes.text? = some contents := by decide +kernel
  have split : lines contents = ["# served here", "Port   7000", "", "slaveof 10.0.0.1    7001",
      "  DBFILENAME \"replica.rdb\"", "port 7003"] := by
    decide +kernel
  have writes : Writes (lines contents) assignments := by
    rw [split]
    refine .silent ?comment (.assigns ?port (.silent ?blank (.assigns ?leader
      (.assigns ?name (.assigns ?portAgain .done)))))
    all_goals decide +kernel
  obtain ⟨merged, _, each, loads, _⟩ := load_precedence accepted rfl found writes
  have port : merged.port = 7002 :=
    Value.number.inj (Option.some.inj ((each .port).symm.trans (by decide +kernel)))
  have leads : merged.replicaOf = some "10.0.0.1 7001" :=
    Value.written.inj (Option.some.inj ((each .replicaOf).symm.trans (by decide +kernel)))
  have named : merged.snapshotName = "replica.rdb" :=
    Value.text.inj (Option.some.inj ((each .snapshotName).symm.trans (by decide +kernel)))
  have databases : merged.databases = 16 :=
    Value.number.inj (Option.some.inj ((each .databases).symm.trans (by decide +kernel)))
  refine ⟨merged, loads (by rw [databases]; decide) ?_, port, leads, named, databases⟩
  intro written same
  rw [leads] at same
  cases same
  exact ⟨"10.0.0.1", "7001", 7001, by decide +kernel, by decide +kernel⟩

end ReplicaStore.Settings
