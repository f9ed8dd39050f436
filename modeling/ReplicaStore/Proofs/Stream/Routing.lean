import ReplicaStore.Proofs.Stream.Chronicle
import ReplicaStore.Proofs.Stream.Pieces
import ReplicaStore.Proofs.Text.Decimal
import ReplicaStore.Text.Fold

/-!
# Reading a stream

Whoever reads a stream has a database selected, which `SELECT` changes, passes over `PING`,
and runs everything else on the database that is selected then.  What is run of a stream is
compared with a log of what should be (`Stream.Routes`).
-/

namespace ReplicaStore.Stream

/-- The command that an action reports. -/
def commandOf : Link.Action → Option (List String)
  | .report (.command arguments _) => some arguments
  | _ => none

/-- The commands that some bytes of a stream are read as. -/
def commandsIn (bytes : Bytes) : List (List String) :=
  (Piece.actions bytes).filterMap commandOf

theorem commandsIn_bytes {pieces : List Piece} (framed : ∀ piece ∈ pieces, piece.Framed) :
    commandsIn (Piece.bytes pieces) = pieces.map (·.arguments) := by
  have reported : (commandOf ∘ fun piece : Piece => .report (.command piece.arguments piece.raw)) =
      some ∘ (·.arguments) := rfl
  rw [commandsIn, Piece.actions_bytes framed, List.filterMap_map, reported, List.filterMap_eq_map]

/-- The database that is selected behind a command. -/
def selectedBy (database : Nat) : List String → Nat
  | [name, index] =>
      if Text.upper name = "SELECT" then (Text.numeral? index.toList).getD database else database
  | _ => database

/-- What is run of a command, and on which database. -/
def runs (database : Nat) : List String → List (Nat × List String)
  | [] => []
  | name :: rest =>
      if Text.upper name = "SELECT" ∨ Text.upper name = "PING" then []
      else [(database, name :: rest)]

/-- The database that is selected behind several commands. -/
def selectedByAll (database : Nat) (commands : List (List String)) : Nat :=
  commands.foldl selectedBy database

/-- What is run of several commands, and on which databases. -/
def runsAll (database : Nat) : List (List String) → List (Nat × List String)
  | [] => []
  | command :: rest => runs database command ++ runsAll (selectedBy database command) rest

@[simp] theorem runsAll_nil (database : Nat) : runsAll database [] = [] := rfl

@[simp] theorem selectedByAll_nil (database : Nat) : selectedByAll database [] = database := rfl

theorem selectedByAll_append (database : Nat) (first second : List (List String)) :
    selectedByAll database (first ++ second) =
      selectedByAll (selectedByAll database first) second :=
  List.foldl_append ..

theorem runs_ping (database : Nat) : runs database ["PING"] = [] := by
  rw [runs, if_pos (.inr (by decide))]

theorem runs_select (database : Nat) (index : String) : runs database ["SELECT", index] = [] := by
  rw [runs, if_pos (.inl (by decide))]

theorem selectedBy_select (database index : Nat) :
    selectedBy database ["SELECT", toString index] = index := by
  have digits : (toString index).toList = Nat.toDigits 10 index := by
    simp [toString, Nat.repr]
  rw [selectedBy, if_pos (by decide), digits, Text.numeral_toDigits]
  rfl

/-! ### Logs -/

/-- What a log says of a command: the database on which it is run, and the offset up to
which the stream has come with it. -/
structure Logged where
  upto : Int
  run : Nat × List String

/-- The bytes of several commands. -/
def bytesOf (commands : List (List String)) : Bytes :=
  commands.flatMap Wire.commandBytes

theorem bytesOf_append (first second : List (List String)) :
    bytesOf (first ++ second) = bytesOf first ++ bytesOf second :=
  List.flatMap_append ..

theorem bytesOf_singleton (command : List String) : bytesOf [command] = Wire.commandBytes command :=
  List.append_nil _

theorem bytes_ofCommand (command : List String) :
    Piece.bytes [.ofCommand command] = Wire.commandBytes command :=
  List.append_nil _

theorem bytesOf_eq (commands : List (List String)) :
    bytesOf commands = Piece.bytes (commands.map .ofCommand) := by
  rw [bytesOf, Piece.bytes, List.flatMap_map]
  rfl

theorem length_commandBytes_pos (command : List String) : 0 < (Wire.commandBytes command).length := by
  rw [Wire.commandBytes_eq]
  exact Nat.succ_pos _

/-- Commands that are sent are read again. -/
theorem commandsIn_bytesOf {commands : List (List String)} (given : ∀ command ∈ commands, command ≠ [])
    (short : ((bytesOf commands).length : Int) ≤ Text.maxSigned64) :
    commandsIn (bytesOf commands) = commands := by
  have framed : ∀ piece ∈ commands.map Piece.ofCommand, piece.Framed := by
    intro piece member
    have size := Piece.length_le_bytes member
    rw [← bytesOf_eq] at size
    obtain ⟨command, there, rfl⟩ := List.mem_map.mp member
    exact Piece.framed_ofCommand (given command there) (by simp only [Piece.ofCommand] at size; omega)
  rw [bytesOf_eq, commandsIn_bytes framed, List.map_map]
  exact List.map_id _

/-- What a log says of commands that are read from a place on. -/
def transcript (place : Int) (database : Nat) : List (List String) → List Logged
  | [] => []
  | command :: rest =>
      (runs database command).map (⟨place + (Wire.commandBytes command).length, ·⟩) ++
        transcript (place + (Wire.commandBytes command).length) (selectedBy database command) rest

section

variable {place : Int} {database : Nat}

theorem run_transcript (place : Int) (database : Nat) (commands : List (List String)) :
    (transcript place database commands).map (·.run) = runsAll database commands := by
  induction commands generalizing place database with
  | nil => rfl
  | cons command commands ih =>
      rw [transcript, List.map_append, ih, runsAll, List.map_map]
      congr 1
      exact List.map_id _

theorem transcript_append (place : Int) (database : Nat) (first second : List (List String)) :
    transcript place database (first ++ second) =
      transcript place database first ++
        transcript (place + (bytesOf first).length) (selectedByAll database first) second := by
  induction first generalizing place database with
  | nil => simp [transcript, bytesOf]
  | cons command first ih =>
      have length : (bytesOf (command :: first)).length =
          (Wire.commandBytes command).length + (bytesOf first).length := by
        simp [bytesOf]
      rw [List.cons_append, transcript, ih, transcript, List.append_assoc, length, Int.natCast_add,
        ← Int.add_assoc]
      rfl

/-- Whatever is run was read behind the place, and before the end. -/
theorem upto_transcript {commands : List (List String)} {entry : Logged}
    (member : entry ∈ transcript place database commands) :
    place < entry.upto ∧ entry.upto ≤ place + (bytesOf commands).length := by
  induction commands generalizing place database with
  | nil => cases member
  | cons command commands ih =>
      have positive := length_commandBytes_pos command
      have length : (bytesOf (command :: commands)).length =
          (Wire.commandBytes command).length + (bytesOf commands).length := by
        simp [bytesOf]
      rw [length]
      rcases List.mem_append.mp member with now | later
      · obtain ⟨run, _, rfl⟩ := List.mem_map.mp now
        dsimp only
        omega
      · have := ih later
        omega

/-- What was run behind a later place is what is read from there. -/
theorem filter_transcript (place : Int) (database : Nat) (first second : List (List String)) :
    (transcript place database (first ++ second)).filter
        (fun entry => place + (bytesOf first).length < entry.upto) =
      transcript (place + (bytesOf first).length) (selectedByAll database first) second := by
  rw [transcript_append, List.filter_append, List.filter_eq_nil_iff.mpr, List.nil_append,
    List.filter_eq_self.mpr]
  · intro entry member
    simpa using (upto_transcript member).1
  · intro entry member
    have := (upto_transcript member).2
    simp only [decide_eq_true_eq]
    omega

end

/-- What is run of a stream from a place on, with a database selected there, is what a log
has of that part of the stream. -/
structure Routes (chronicle : Chronicle) (log : List Logged) (place : Int) (database : Nat)
    (selected : Option Nat) (commands : List (List String)) : Prop where
  reaches : chronicle.Reaches place
  bytes : chronicle.since place = bytesOf commands
  given : ∀ command ∈ commands, command ≠ []
  logged : transcript place database commands = log.filter (place < ·.upto)
  /-- The stream selects again if there may be another database selected than it has noted. -/
  selects : ∀ index, selected = some index → selectedByAll database commands = index

namespace Routes

variable {chronicle : Chronicle} {log : List Logged} {place : Int} {database : Nat}
  {selected : Option Nat} {commands : List (List String)}

/-- At the end of a stream there is nothing to read. -/
theorem begins (upto : ∀ entry ∈ log, entry.upto ≤ chronicle.ends) (database : Nat) :
    Routes chronicle log chronicle.ends database none [] where
  reaches := ⟨by simp only [Chronicle.ends]; omega, Int.le_refl _⟩
  bytes := by
    have all : (chronicle.ends - chronicle.start).toNat = chronicle.bytes.length := by
      simp only [Chronicle.ends]
      omega
    rw [Chronicle.since, all, List.drop_length]
    rfl
  given := by simp
  logged := by
    rw [transcript, eq_comm, List.filter_eq_nil_iff]
    intro entry member
    have := upto entry member
    simp only [decide_eq_true_eq]
    omega
  selects := by simp

theorem congr (routes : Routes chronicle log place database selected commands) {later : Option Nat}
    (same : later = none ∨ later = selected) :
    Routes chronicle log place database later commands where
  reaches := routes.reaches
  bytes := routes.bytes
  given := routes.given
  logged := routes.logged
  selects := by
    rcases same with rfl | rfl
    · simp
    · exact routes.selects

theorem length (routes : Routes chronicle log place database selected commands) :
    place + (bytesOf commands).length = chronicle.ends := by
  have reaches := routes.reaches
  rw [← routes.bytes, Chronicle.since, List.length_drop]
  simp only [Chronicle.Reaches, Chronicle.ends] at *
  omega

/-- A command is added to the stream, and what is run of it to the log. -/
theorem add (routes : Routes chronicle log place database selected commands) {command : List String}
    (given : command ≠ []) {later : Option Nat}
    (selects : ∀ index, later = some index →
      selectedBy (selectedByAll database commands) command = index) :
    Routes (chronicle.extend (Wire.commandBytes command))
      (log ++ (runs (selectedByAll database commands) command).map
        (⟨chronicle.ends + (Wire.commandBytes command).length, ·⟩))
      place database later (commands ++ [command]) where
  reaches := routes.reaches.extend _
  bytes := by
    rw [Chronicle.since_extend routes.reaches, routes.bytes, bytesOf_append, bytesOf_singleton]
  given := by
    intro other member
    rcases List.mem_append.mp member with before | now
    · exact routes.given other before
    · rw [List.mem_singleton.mp now]
      exact given
  logged := by
    have last : (transcript (place + (bytesOf commands).length) (selectedByAll database commands)
        [command]) = (runs (selectedByAll database commands) command).map
          (⟨chronicle.ends + (Wire.commandBytes command).length, ·⟩) := by
      rw [transcript, routes.length]
      exact List.append_nil _
    rw [transcript_append, routes.logged, last, List.filter_append]
    congr 1
    rw [eq_comm, List.filter_eq_self]
    rintro entry member
    have := routes.reaches.2
    obtain ⟨run, _, rfl⟩ := List.mem_map.mp member
    have positive := length_commandBytes_pos command
    simp only [decide_eq_true_eq]
    omega
  selects := by
    intro index same
    rw [selectedByAll_append]
    exact selects index same

/-- Between any two commands, reading the rest of the stream runs the rest of the log. -/
theorem replays (routes : Routes chronicle log place database selected commands)
    (range : chronicle.InRange) {before after : List (List String)} (split : commands = before ++ after) :
    chronicle.since (place + (bytesOf before).length) = bytesOf after ∧
      runsAll (selectedByAll database before)
          (commandsIn (chronicle.since (place + (bytesOf before).length))) =
        (log.filter (place + (bytesOf before).length < ·.upto)).map (·.run) := by
  subst split
  have reaches := routes.reaches
  have inside : chronicle.since (place + (bytesOf before).length) = bytesOf after := by
    have ahead : (place + ((bytesOf before).length : Int) - chronicle.start).toNat =
        (place - chronicle.start).toNat + (bytesOf before).length := by
      have := reaches.1
      omega
    have bytes := routes.bytes
    rw [Chronicle.since, bytesOf_append] at bytes
    rw [Chronicle.since, ahead, ← List.drop_drop, bytes, List.drop_left]
  refine ⟨inside, ?_⟩
  have short : ((bytesOf after).length : Int) ≤ Text.maxSigned64 := by
    have most := range.most
    have least := range.least
    have length := routes.length
    rw [bytesOf_append, List.length_append] at length
    have := reaches.1
    omega
  have read := commandsIn_bytesOf
    (fun command member => routes.given command (List.mem_append_right _ member)) short
  have later : log.filter (place + ((bytesOf before).length : Int) < ·.upto) =
      (log.filter (place < ·.upto)).filter (place + ((bytesOf before).length : Int) < ·.upto) := by
    rw [List.filter_filter]
    congr 1
    funext entry
    simp only [← Bool.decide_and, decide_eq_decide]
    omega
  rw [inside, read, later, ← routes.logged, filter_transcript, run_transcript]

end Routes
end ReplicaStore.Stream
