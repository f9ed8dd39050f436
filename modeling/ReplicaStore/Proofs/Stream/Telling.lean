import ReplicaStore.Proofs.Stream.Annals
import ReplicaStore.Proofs.Stream.Attendance

/-!
# What a replica is told of a history

A replica is told a history by its name: first where it begins, in an answer to its request,
and then what it is made of, which goes on as long as the replica is not asked to leave
(`Stream.Speaks`).  All that it is told is the beginning of what the annals have under that
name, also when it is asked to leave in between (`Stream.Sends.applyAll`).
-/

namespace ReplicaStore.Stream

/-! ### What is said -/

section

variable {messages : List Outgoing}

theorem said_append (lasts : .close ∉ messages) (more : List Outgoing) :
    said (messages ++ more) = said messages ++ said more := by
  induction messages with
  | nil => rfl
  | cons first messages ih =>
      rw [List.mem_cons, not_or] at lasts
      cases first with
      | data bytes => simp [said, ih lasts.2]
      | close => exact absurd rfl lasts.1

/-- Nothing is said any more once a connection is closed. -/
theorem said_append_of_close (asked : .close ∈ messages) (more : List Outgoing) :
    said (messages ++ more) = said messages := by
  induction messages with
  | nil => cases asked
  | cons first messages ih =>
      cases first with
      | data bytes =>
          have later : .close ∈ messages := by simpa using asked
          simp [said, ih later]
      | close => rfl

theorem said_prefix (messages more : List Outgoing) : said messages <+: said (messages ++ more) := by
  by_cases asked : .close ∈ messages
  · have same := said_append_of_close asked more
    exact same ▸ List.prefix_refl _
  · rw [said_append asked]
    exact List.prefix_append ..

theorem close_not_mem_heartbeats (count : Nat) : .close ∉ heartbeats count := by
  intro member
  cases List.eq_of_mem_replicate member

theorem said_heartbeats (count : Nat) : said (heartbeats count) = List.replicate count 10 := by
  induction count with
  | zero => rfl
  | succ count ih => exact congrArg (10 :: ·) ih

end

/-! ### Who stays registered -/

namespace Coordinator

variable {coordinator : Coordinator} {id : ClientId} {state : ReplicaState}

theorem identity_expireBacklog (there : coordinator.stateOf id = some state) (now : Nat)
    (upkeep : Upkeep) : (coordinator.expireBacklog now upkeep).identity = coordinator.identity := by
  have some : coordinator.replicas.isEmpty = false := by
    cases empty : coordinator.replicas.isEmpty with
    | false => rfl
    | true =>
        rw [stateOf, Std.ExtTreeMap.isEmpty_iff.mp empty] at there
        simp at there
  simp [expireBacklog, some]

theorem not_stateOf_dropAll (clients : Clients) :
    (coordinator.dropAll clients).1.stateOf id ≠ some state := by
  intro there
  rw [dropAll, stateOf_dropReplicas] at there
  split at there
  · cases there
  · next absent =>
      rw [mem_keys_iff, there] at absent
      exact absent rfl

end Coordinator

/-- With another identity nobody stays registered. -/
theorem Move.identity_apply {move : Move} {desk : Desk} {id : ClientId} {state : ReplicaState}
    (flows : ¬move.Restarts) (there : (move.apply desk).1.stateOf id = some state) :
    (move.apply desk).1.identity = desk.1.identity := by
  cases move with
  | resume now other history offset =>
      simp only [apply, Coordinator.partialResync?]
      cases desk.1.missed? history offset <;> rfl
  | feed bytes database =>
      simp only [apply]
      split <;> rfl
  | finish now payload => exact (desk.1.finishFullSync_steady desk.2 now payload).1.identity
  | expire now upkeep =>
      exact Coordinator.identity_expireBacklog
        ((Coordinator.stateOf_expireBacklog now upkeep).symm.trans there) now upkeep
  | branch | shift => exact absurd there (Coordinator.not_stateOf_dropAll _)
  | create | activate | renew => exact absurd trivial flows
  | _ => rfl

/-! ### Telling -/

/-- An answer to a request.  With it goes on a history that the replica has, or a snapshot
takes the place of the beginning of one. -/
inductive Answer (base : Option Chronicle) (name : String) (source : Chronicle) : Bytes → Prop
  | continued (same : base = some source) :
      Answer base name source (Coordinator.continueReply name [])
  | snapshot (payload : Bytes) :
      Answer base name source (Coordinator.fullReply name source.ends payload [])

/-- What a replica is told that has got an answer: the name of a history, and where it is to
go on.  The base is what the replica had when it asked. -/
structure Told (base : Option Chronicle) where
  name : String
  source : Chronicle
  /-- All that is said up to where the stream follows. -/
  front : Bytes
  range : source.InRange
  answers : ∃ count answer, Answer base name source answer ∧ front = List.replicate count 10 ++ answer

theorem Told.ends_range {base : Option Chronicle} (told : Told base) :
    0 ≤ told.source.ends ∧ told.source.ends ≤ Text.maxSigned64 := by
  have least := told.range.least
  refine ⟨?_, told.range.most⟩
  simp only [Chronicle.ends]
  omega

/-- What a replica is told with a snapshot that was begun at a place in the stream. -/
def Told.shipped {base : Option Chronicle} (count : Nat) (name : String) {chronicle : Chronicle}
    {place : Int} (payload : Bytes) (range : chronicle.InRange) (reaches : chronicle.Reaches place) :
    Told base where
  name := name
  source := chronicle.upTo place
  front := List.replicate count 10 ++ Coordinator.fullReply name place payload []
  range := range.within (chronicle.upTo_within place)
  answers := ⟨count, _, .snapshot payload, by rw [Chronicle.ends_upTo reaches]⟩

/-- What a replica is told that goes on where it is. -/
def Told.resumed {base : Option Chronicle} (name : String) {source : Chronicle} (range : source.InRange)
    (same : base = some source) : Told base where
  name := name
  source := source
  front := Coordinator.continueReply name []
  range := range
  answers := ⟨0, _, .continued same, rfl⟩

variable {base : Option Chronicle} {told later last : Option (Told base)} {annals : Annals}
  {id : ClientId} {coordinator : Coordinator} {chronicle : Chronicle} {messages taken : List Outgoing}
  {move : Move} {moves : List Move} {desk : Desk}

/-- What is said is the beginning of a history that is known. -/
inductive Says (annals : Annals) : Option (Told base) → Bytes → Prop
  | waits (count : Nat) : Says annals none (List.replicate count 10)
  | tells {told : Told base} {tail : Bytes} (known : annals.Has told.name (told.source.extend tail)) :
      Says annals (some told) (told.front ++ tail)

theorem Says.grows {further : Annals} {sent : Bytes} (spoken : Says annals told sent)
    (grows : annals.Grows further) : Says further told sent := by
  cases spoken with
  | waits count => exact .waits count
  | tells known => exact .tells (known.grows grows)

/-- A replica is kept waiting, or it is told all that there is of the stream. -/
inductive Speaks (id : ClientId) (coordinator : Coordinator) (chronicle : Chronicle) :
    Option (Told base) → List Outgoing → Prop
  | waits (recorded : coordinator.backlog.isSome = true) {state : ReplicaState}
      (registered : coordinator.stateOf id = some state) (waits : state ≠ .online) (count : Nat) :
      Speaks id coordinator chronicle none (heartbeats count)
  | tells (recorded : coordinator.backlog.isSome = true)
      (registered : coordinator.stateOf id = some .online) {told : Told base}
      {messages : List Outgoing} (lasts : .close ∉ messages)
      (named : told.name = coordinator.identity.current) {tail : Bytes}
      (text : said messages = told.front ++ tail) (whole : told.source.extend tail = chronicle) :
      Speaks id coordinator chronicle (some told) messages

/-- Whoever waits may get an answer, as long as it is not asked to leave, with some beginning
of the stream. -/
inductive Leads (lasts : Prop) (chronicle : Chronicle) : Option (Told base) → Option (Told base) → Prop
  | same (told : Option (Told base)) : Leads lasts chronicle told told
  | opens {told : Told base} (lasting : lasts) (within : told.source.Within chronicle) :
      Leads lasts chronicle none (some told)

theorem Leads.trans {early late : Prop} {whole : Chronicle} (first : Leads early chronicle told later)
    (second : Leads late whole later last) (lasted : late → early) (within : chronicle.Within whole) :
    Leads early whole told last := by
  cases first with
  | same =>
      cases second with
      | same => exact .same _
      | opens lasting within => exact .opens (lasted lasting) within
  | opens lasting inner =>
      cases second with
      | same => exact .opens lasting (inner.trans within)

namespace Speaks

theorem recorded (speaks : Speaks id coordinator chronicle told messages) :
    coordinator.backlog.isSome = true := by
  cases speaks with
  | waits recorded => exact recorded
  | tells recorded => exact recorded

theorem registered (speaks : Speaks id coordinator chronicle told messages) :
    ∃ state, coordinator.stateOf id = some state := by
  cases speaks with
  | waits _ registered => exact ⟨_, registered⟩
  | tells _ registered => exact ⟨_, registered⟩

theorem spoken (speaks : Speaks id coordinator chronicle told messages)
    (known : annals.Has coordinator.identity.current chronicle) : Says annals told (said messages) := by
  cases speaks with
  | waits _ _ _ count =>
      rw [said_heartbeats]
      exact .waits count
  | tells _ _ _ named text whole =>
      rw [text]
      refine .tells ?_
      rw [named, whole]
      exact known

theorem within {told : Told base} (speaks : Speaks id coordinator chronicle (some told) messages) :
    told.source.Within chronicle := by
  cases speaks with
  | tells _ _ _ _ _ whole =>
      rw [← whole]
      exact told.source.within_extend _

/-- A replica goes on being told the stream, or it is asked to leave. -/
theorem treat {state : ReplicaState} {new : List Outgoing}
    (speaks : Speaks id desk.1 chronicle told messages) (flows : ¬move.Restarts)
    (kept : chronicle.Kept desk.1) (range : chronicle.InRange)
    (recorded : (move.apply desk).1.backlog.isSome = true)
    (registered : desk.1.stateOf id = some state)
    (treats : move.Treats id desk.1 (move.apply desk).1 state new) :
    (.close ∈ new ∧ said new = []) ∨ ∃ later : Option (Told base),
      Leads True (chronicle.extend move.fed) told later ∧
        Speaks id (move.apply desk).1 (chronicle.extend move.fed) later (messages ++ new) := by
  cases speaks with
  | waits _ same waits count =>
      obtain rfl := Option.some.inj (registered.symm.trans same)
      cases treats with
      | closes asked silent => exact .inl ⟨asked, silent⟩
      | lets _ still =>
          refine .inr ⟨none, .same _, ?_⟩
          rw [List.append_nil]
          exact .waits recorded still waits count
      | comforts _ still =>
          have more : heartbeats count ++ [.data [10]] = heartbeats (count + 1) :=
            List.replicate_succ'.symm
          refine .inr ⟨none, .same _, ?_⟩
          rw [more]
          exact .waits recorded still waits (count + 1)
      | counts counted =>
          refine .inr ⟨none, .same _, ?_⟩
          rw [List.append_nil]
          exact .waits recorded counted (by decide) count
      | ships silent online found given payload =>
          obtain ⟨reaches, rfl⟩ := kept.read range found given
          have whole := (chronicle.upTo_within desk.1.snapshotOffset).extend_since
          rw [Chronicle.ends_upTo reaches] at whole
          rw [silent, Chronicle.extend_nil]
          refine .inr ⟨some (.shipped count desk.1.identity.current payload range reaches),
            .opens trivial (chronicle.upTo_within _),
            @Speaks.tells _ _ _ _ recorded online _ _ ?_ ?_ _ ?_ whole⟩
          · simp [close_not_mem_heartbeats]
          · rw [Move.identity_apply flows online]
            rfl
          · rw [said_append (close_not_mem_heartbeats count), said_heartbeats]
            simp [said, Told.shipped, Coordinator.fullReply]
      | feeds => exact absurd rfl waits
  | @tells _ same told _ lasts named tail text whole =>
      obtain rfl := Option.some.inj (registered.symm.trans same)
      cases treats with
      | closes asked silent => exact .inl ⟨asked, silent⟩
      | lets apart still =>
          refine .inr ⟨_, .same _, ?_⟩
          rw [List.append_nil, apart rfl, Chronicle.extend_nil]
          exact .tells recorded still lasts (named.trans (by rw [Move.identity_apply flows still]))
            text whole
      | comforts waits => exact absurd rfl waits
      | feeds still =>
          refine .inr ⟨_, .same _, @Speaks.tells _ _ _ _ recorded still told _ (by simpa using lasts)
            (named.trans (by rw [Move.identity_apply flows still])) (tail ++ move.fed) ?_ ?_⟩
          · rw [said_append lasts, text]
            simp [said]
          · rw [Chronicle.extend_append, whole]

end Speaks

/-- A replica is read.  What was taken from its queue and what is in it now says the
beginning of a history, and goes on to do so unless the replica has been asked to leave. -/
structure Sends (annals : Annals) (id : ClientId) (desk : Desk) (chronicle : Chronicle)
    (told : Option (Told base)) (taken : List Outgoing) : Prop where
  reaches : desk.2.reaches id = true
  spoken : Says annals told (said (taken ++ desk.2.pending id))
  speaks : .close ∈ taken ++ desk.2.pending id ∨
    Speaks id desk.1 chronicle told (taken ++ desk.2.pending id)

namespace Sends

/-- Whoever can go on from where it is is told all that it has missed. -/
theorem resume {history : String} {tail : Bytes} (now : Nat) {source : Chronicle}
    (missed : desk.1.missed? history source.ends = some tail) (same : base = some source)
    (within : source.Within chronicle) (kept : chronicle.Kept desk.1) (range : chronicle.InRange)
    (reaches : desk.2.reaches id = true) (empty : desk.2.pending id = [])
    (known : annals.Has desk.1.identity.current chronicle) :
    ∃ told : Option (Told base), Leads True chronicle none told ∧
      Sends annals id (Move.apply desk (.resume now id history source.ends)) chronicle told [] := by
  obtain ⟨backlog, recorded, given, _⟩ := Coordinator.missed?_inv missed
  obtain ⟨place, rfl⟩ := kept.read range recorded given
  have queue := Clients.pending_queue reaches id
    (.data (Coordinator.continueReply desk.1.identity.current (chronicle.since source.ends)))
  rw [if_pos rfl, empty, List.nil_append] at queue
  have text : said ([] ++ [.data (Coordinator.continueReply desk.1.identity.current
      (chronicle.since source.ends))]) =
      (Told.resumed desk.1.identity.current (range.within within) same).front ++
        chronicle.since source.ends := by
    simp [said, Told.resumed, Coordinator.continueReply]
  have speaks : Speaks id (desk.1.register desk.2 now id .online source.ends) chronicle
      (some (.resumed desk.1.identity.current (range.within within) same))
      ([] ++ [.data (Coordinator.continueReply desk.1.identity.current
        (chronicle.since source.ends))]) :=
    .tells (by simp [Coordinator.register, recorded]) (Coordinator.stateOf_register_self ..)
      (by simp) rfl text within.extend_since
  rw [← queue] at speaks
  simp only [Move.apply, Coordinator.partialResync?, missed, Option.map_some, Option.getD_some]
  exact ⟨_, .opens trivial within, (Clients.reaches_queue ..).trans reaches, speaks.spoken known,
    .inr speaks⟩

/-- What is said goes on as the stream does. -/
theorem apply (sends : Sends annals id desk chronicle told taken) (spares : move.Spares (· = id))
    (flows : ¬move.Restarts) (kept : chronicle.Kept desk.1) (range : chronicle.InRange)
    (known : .close ∉ taken ++ desk.2.pending id →
      annals.Has desk.1.identity.current (chronicle.extend move.fed)) :
    ∃ later, Leads (.close ∉ taken ++ desk.2.pending id) (chronicle.extend move.fed) told later ∧
      Sends annals id (move.apply desk) (chronicle.extend move.fed) later taken := by
  have grown := @Move.extends_apply id move desk spares
  have reaches := grown.reads sends.reaches
  by_cases asked : .close ∈ taken ++ desk.2.pending id
  · obtain ⟨new, queue⟩ := grown.grows sends.reaches
    refine ⟨told, .same told, reaches, ?_, .inl ?_⟩ <;> rw [← queue, ← List.append_assoc]
    · rw [said_append_of_close asked]
      exact sends.spoken
    · exact List.mem_append_left _ asked
  · have speaks := sends.speaks.resolve_left asked
    obtain ⟨state, registered⟩ := speaks.registered
    obtain ⟨new, queue, treats⟩ := Move.treated spares flows speaks.recorded sends.reaches registered
    have recorded := @Move.recorded_of_registered _ _ move _ speaks.recorded registered
    rcases speaks.treat flows kept range recorded registered treats with
      ⟨closes, silent⟩ | ⟨later, leads, further⟩
    · refine ⟨told, .same told, reaches, ?_, .inl ?_⟩ <;> rw [queue, ← List.append_assoc]
      · rw [said_append asked, silent, List.append_nil]
        exact sends.spoken
      · exact List.mem_append_right _ closes
    · have said : Says annals later (said (taken ++ (move.apply desk).2.pending id)) := by
        rw [queue, ← List.append_assoc]
        refine further.spoken ?_
        obtain ⟨_, still⟩ := further.registered
        rw [Move.identity_apply flows still]
        exact known asked
      refine ⟨later, ?_, reaches, said, .inr ?_⟩
      · cases leads with
        | same => exact .same told
        | opens _ within => exact .opens asked within
      · rw [queue, ← List.append_assoc]
        exact further

theorem applyAll (sends : Sends annals id desk chronicle told taken)
    (all : ∀ move ∈ moves, move.Spares (· = id) ∧ ¬move.Restarts) (kept : chronicle.Kept desk.1)
    (range : (chronicle.extend (moves.flatMap Move.fed)).InRange)
    (known : .close ∉ taken ++ desk.2.pending id →
      annals.Has desk.1.identity.current (chronicle.extend (moves.flatMap Move.fed))) :
    ∃ later, Leads (.close ∉ taken ++ desk.2.pending id)
        (chronicle.extend (moves.flatMap Move.fed)) told later ∧
      Sends annals id (Move.applyAll moves desk) (chronicle.extend (moves.flatMap Move.fed)) later
        taken := by
  induction moves generalizing desk chronicle told with
  | nil => exact ⟨told, .same told, by simpa using sends⟩
  | cons move moves ih =>
      rw [List.flatMap_cons, Chronicle.extend_append] at range known ⊢
      obtain ⟨spares, flows⟩ := all move List.mem_cons_self
      have within := (chronicle.extend move.fed).within_extend (moves.flatMap Move.fed)
      obtain ⟨between, first, there⟩ := sends.apply spares flows kept range.of_extend.of_extend
        fun lasts => (known lasts).mono within
      have grown := @Move.extends_apply id move desk spares
      obtain ⟨new, queue⟩ := grown.grows sends.reaches
      have lasted (lasts : .close ∉ taken ++ (move.apply desk).2.pending id) :
          .close ∉ taken ++ desk.2.pending id := by
        intro asked
        rw [← queue, ← List.append_assoc] at lasts
        exact lasts (List.mem_append_left _ asked)
      obtain ⟨later, second, last⟩ := ih there
        (fun later member => all later (List.mem_cons_of_mem _ member)) (kept.apply flows range.of_extend)
        range fun lasts => by
          obtain ⟨_, still⟩ := (there.speaks.resolve_left lasts).registered
          rw [Move.identity_apply flows still]
          exact known (lasted lasts)
      exact ⟨later, first.trans second lasted within, last⟩

/-- Whoever has been asked to leave, or is asked to leave now and told nothing more before,
may be sent anything after that. -/
theorem leaves {next : Desk} {following : Chronicle} (sends : Sends annals id desk chronicle told taken)
    (grown : Clients.Extends id desk.2 next.2)
    (gone : desk.1.stateOf id = none ∨ ∃ new, next.2.pending id = desk.2.pending id ++ new ∧
      .close ∈ new ∧ said new = []) :
    Sends annals id next following told taken := by
  have reaches := grown.reads sends.reaches
  by_cases asked : .close ∈ taken ++ desk.2.pending id
  · obtain ⟨new, queue⟩ := grown.grows sends.reaches
    refine ⟨reaches, ?_, .inl ?_⟩ <;> rw [← queue, ← List.append_assoc]
    · rw [said_append_of_close asked]
      exact sends.spoken
    · exact List.mem_append_left _ asked
  · rcases gone with unknown | ⟨new, queue, closes, silent⟩
    · obtain ⟨_, registered⟩ := (sends.speaks.resolve_left asked).registered
      simp [unknown] at registered
    · refine ⟨reaches, ?_, .inl ?_⟩ <;> rw [queue, ← List.append_assoc]
      · rw [said_append asked, silent, List.append_nil]
        exact sends.spoken
      · exact List.mem_append_right _ closes

/-- Everybody has to leave when another history takes the place of this one. -/
theorem renew (sends : Sends annals id desk chronicle told taken) (history : String) (offset : Int)
    (following : Chronicle) :
    Sends annals id (Move.applyAll [.renew history offset, .forget] desk) following told taken := by
  refine sends.leaves (Clients.Extends.closeAll ..) ?_
  by_cases among : id ∈ desk.1.replicas.keys
  · refine .inr ⟨_, Clients.pending_closeAll sends.reaches desk.1.replicas.keys, ?_,
      said_replicate_close _⟩
    exact List.mem_replicate.mpr ⟨Nat.ne_of_gt (List.count_pos_iff.mpr among), rfl⟩
  · rw [Coordinator.mem_keys_iff, Option.not_isSome_iff_eq_none] at among
    exact .inl among

theorem grows {further : Annals} (sends : Sends annals id desk chronicle told taken)
    (grows : annals.Grows further) : Sends further id desk chronicle told taken :=
  ⟨sends.reaches, sends.spoken.grows grows, sends.speaks⟩

/-- What else is known about a client does not matter. -/
theorem congr (sends : Sends annals id desk chronicle told taken) {clients : Clients}
    (reaches : clients.reaches id = desk.2.reaches id)
    (same : clients.pending id = desk.2.pending id) :
    Sends annals id (desk.1, clients) chronicle told taken :=
  ⟨reaches.trans sends.reaches, by rw [same]; exact sends.spoken, by rw [same]; exact sends.speaks⟩

/-- What is queued may be taken at any time. -/
theorem take (sends : Sends annals id desk chronicle told taken) {clients : Clients}
    (reaches : clients.reaches id = desk.2.reaches id) (empty : clients.pending id = []) :
    Sends annals id (desk.1, clients) chronicle told (taken ++ desk.2.pending id) :=
  ⟨reaches.trans sends.reaches, by rw [empty, List.append_nil]; exact sends.spoken,
    by rw [empty, List.append_nil]; exact sends.speaks⟩

end Sends
end ReplicaStore.Stream
