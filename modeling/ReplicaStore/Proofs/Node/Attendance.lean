import ReplicaStore.Proofs.Node.Chronicle
import ReplicaStore.Proofs.Stream.Attendance

/-!
# What a replica is sent in a run

A client has asked to be made a replica, is read, listens to no channel and does no more
than acknowledge the stream from then on.  Then all that is queued for it after its opening
is the stream from the offset of the opening up to its end (`Node.Attended.receives_stream`).
-/

namespace ReplicaStore

open ReplicaStore.Stream (Attends Chronicle Coordinator Desk Move Opening Piece ReplicaState Tends)

namespace Command

open CommandM

variable {context : Context}

/-- A request to go on from an offset. -/
def Requests (offset : Int) (arguments : List String) : Prop :=
  ∃ name history written, arguments = [name, history, written] ∧ Text.upper name = "PSYNC" ∧
    Text.readSigned64 written = some offset

theorem find?_psync {name : String} (named : Text.upper name = "PSYNC") :
    find? all name = some ⟨"PSYNC", 3, .admin, psync⟩ := by
  simp only [find?, named]
  rfl

theorem addition?_requests {offset : Int} {arguments : List String}
    (requests : Requests offset arguments) : addition? context arguments = none := by
  obtain ⟨name, history, written, rfl, named, _⟩ := requests
  simp [addition?, lookup?, find?_psync named, Effect.propagates]

/-- A request is answered by nothing but the stream. -/
theorem dispatch_psync {id : ClientId} (client : context.session.source = .client id)
    (linked : context.node.following = true → context.node.role.connected = true)
    {name history written : String} (named : Text.upper name = "PSYNC") {offset : Int}
    (read : Text.readSigned64 written = some offset) :
    dispatch context [name, history, written] = ([], { context.ready with
      node := synchronise id history offset context.node }) := by
  have allowed : ¬(context.node.following && !context.node.role.connected) = true := by
    simpa using linked
  have ran := @outcome_psync context.ready id client allowed history written offset read
  rw [dispatch, dispatchFrom_eq, outcome_runFrom_cons, find?_psync named]
  simp [ran, accepts, Effect.propagates]
  rfl

end Command

/-! ### Being taken up -/

namespace Node

variable {node later : Node} {chronicle : Chronicle} {id : ClientId} {requested : Int}
  {happening : Happening} {earlier taken : List Outgoing}

/-- Where nothing is added and nothing begins, the backlog stays as it is. -/
theorem Stills.backlog {audience : ClientId → Prop} (stills : node.Stills audience False later) :
    later.coordinator.backlog = node.coordinator.backlog :=
  @Desk.Becomes.keeps _ _ _ (·.1.backlog = node.coordinator.backlog) stills
    (fun _ desk still same =>
      ((Move.backlog_apply still.keeps.1 (fun restarts => (still.restarts restarts).2) desk).resolve_right
        fun expired => still.keeps.2 expired.1).trans same) rfl

/-- Whoever has been registered to get a snapshot waits for it while one is begun. -/
theorem scheduleFullSync_tends (kept : chronicle.Kept node.coordinator) (range : chronicle.InRange)
    (recorded : node.coordinator.backlog.isSome = true)
    (registered : node.coordinator.stateOf id = some .needSnapshot)
    (reaches : node.clients.reaches id = true) :
    Tends requested id (node.clients.pending id) [] chronicle node.scheduleFullSync.desk := by
  obtain ⟨moves, still, reached⟩ := @stills_scheduleFullSync (· = id) False node
  have same : chronicle.extend (moves.flatMap Move.fed) = chronicle := by
    rw [fed_of_still still, Chronicle.extend_nil]
  have waits : Tends requested id (node.clients.pending id) [] chronicle node.desk :=
    @Tends.enlist requested id chronicle node.desk recorded registered reaches
  have tends := waits.applyAll
    (fun move member => ⟨(still move member).spares,
      fun restarts => ((still move member).restarts restarts).2⟩) kept (by rwa [same])
  rwa [same, ← reached] at tends

/-- A client that asks to be made a replica is attended to from then on. -/
theorem synchronise_tends (history : String) (range : chronicle.InRange)
    (kept : node.coordinator.backlog.isSome = true → chronicle.Kept node.coordinator)
    (fresh : node.coordinator.backlog = none → chronicle =
      { start := (Command.synchronise id history requested node).coordinator.offset })
    (reaches : node.clients.reaches id = true) :
    Tends requested id (node.clients.pending id) [] chronicle
      (Command.synchronise id history requested node).desk := by
  simp only [Command.synchronise] at fresh ⊢
  cases missed : (node.coordinator.remove id).missed? history requested with
  | some tail =>
      have recorded : node.coordinator.backlog.isSome = true := by
        cases recorded : node.coordinator.backlog with
        | none => simp [Coordinator.missed?, Coordinator.remove, recorded] at missed
        | some backlog => rfl
      have resumed := @Tends.resume requested id chronicle (node.coordinator.remove id, node.clients)
        history tail node.clock.elapsed missed ((kept recorded).congr rfl) range reaches
      simp only [Move.apply, Coordinator.partialResync?, missed, Option.map_some] at resumed ⊢
      exact resumed
  | none =>
      simp only [Coordinator.partialResync?, missed, Option.map_none] at fresh ⊢
      cases recorded : node.coordinator.backlog with
      | some backlog =>
          have same : (node.coordinator.remove id).backlog = some backlog := recorded
          simp only [Coordinator.beginFullResync, same]
          refine @scheduleFullSync_tends { node with
            coordinator := (node.coordinator.remove id).register node.clients node.clock.elapsed id
              .needSnapshot requested } chronicle id requested
            ((kept (by simp [recorded])).congr rfl) range ?_ (Coordinator.stateOf_register_self ..)
            reaches
          simp [Coordinator.register, same]
      | none =>
          have same : (node.coordinator.remove id).backlog = none := recorded
          have whole := fresh recorded
          simp only [Coordinator.beginFullResync, same] at whole ⊢
          generalize registers : Coordinator.register _ _ _ _ _ _ = registered at whole ⊢
          have begun : Chronicle.Fresh registered := by
            rw [← registers]
            rintro _ ⟨⟩
            exact ⟨rfl, rfl⟩
          have offset : ({ node with coordinator := registered }).scheduleFullSync.coordinator.offset =
              registered.offset := by
            rw [Coordinator.offset, (@stills_scheduleFullSync (fun _ => False) False _).backlog]
            rfl
          rw [offset] at whole
          subst whole
          refine @scheduleFullSync_tends { node with coordinator := registered } _ id requested
            (begun.kept range) range ?_ ?_ reaches <;> rw [← registers]
          · rfl
          · exact Coordinator.stateOf_register_self ..

/-- A client whose queue is read asks to be made a replica, and there is nothing to keep the
node from it. -/
structure Asks (node : Node) (id : ClientId) (requested : Int) (value : Wire.Value) : Prop where
  reaches : node.clients.reaches id = true
  deaf : node.Deaf (· = id)
  linked : node.following = true → node.role.connected = true
  requests : ∃ arguments, value.arguments? = some arguments ∧ Command.Requests requested arguments

variable {value : Wire.Value}

/-- Serving a request takes the client up, and is not answered otherwise. -/
theorem serve_psync (reaches : node.clients.reaches id = true)
    (linked : node.following = true → node.role.connected = true) {name history written : String}
    (given : value.arguments? = some [name, history, written]) (named : Text.upper name = "PSYNC")
    (read : Text.readSigned64 written = some requested) :
    node.added (.command id value) = [] ∧ (node.serve id value).channels = node.channels ∧
    ∃ (issued : Node) (database : Nat),
      issued.coordinator = node.coordinator.touch node.clock.elapsed id ∧
      issued.clients = node.clients ∧
      (node.serve id value).desk = Move.apply (Command.synchronise id history requested issued).desk
        (.adjust id fun client => { client with database }) := by
  obtain ⟨client, found⟩ : ∃ client, node.clients[id]? = some client := by
    rw [Clients.reaches] at reaches
    cases found : node.clients[id]? with
    | none => simp [found] at reaches
    | some client => exact ⟨client, rfl⟩
  have ran := @Command.dispatch_psync (node.issued id client) id rfl linked name history written named
    requested read
  have served := desk_serve found given
  rw [ran] at served
  refine ⟨?_, ?_, _, _, ?_, ?_, served⟩
  · simp [added, found, given, Command.addition?_requests ⟨_, _, _, rfl, named, read⟩]
  · simp only [Node.serve, found, given]
    rw [Deaf.channels_answer]
    exact (congrArg (·.2.node.channels) ran).trans (channels_synchronise ..)
  · rfl
  · rfl

theorem Asks.serve (asks : node.Asks id requested value) :
    node.added (.command id value) = [] ∧ (node.serve id value).channels = node.channels ∧
    ∃ (issued : Node) (history : String) (database : Nat),
      issued.coordinator.backlog = node.coordinator.backlog ∧ issued.clients = node.clients ∧
      (node.serve id value).desk = Move.apply (Command.synchronise id history requested issued).desk
        (.adjust id fun client => { client with database }) := by
  obtain ⟨_, given, _, history, _, rfl, named, read⟩ := asks.requests
  obtain ⟨silent, channels, issued, database, coordinator, clients, served⟩ :=
    serve_psync asks.reaches asks.linked given named read
  exact ⟨silent, channels, issued, history, database, by rw [coordinator]; rfl, clients, served⟩

theorem Asks.tends (asks : node.Asks id requested value) (kept : chronicle.Kept node.coordinator)
    (range : (chronicle.next node (.command id value) (node.serve id value)).InRange) :
    Tends requested id (node.clients.pending id) []
      (chronicle.next node (.command id value) (node.serve id value)) (node.serve id value).desk := by
  obtain ⟨silent, _, issued, history, database, recorded, clients, served⟩ := asks.serve
  generalize node.serve id value = later at served range ⊢
  have coordinator : later.coordinator = (Command.synchronise id history requested issued).coordinator :=
    congrArg Prod.fst served
  have tends := @synchronise_tends issued
    (chronicle.next node (.command id value) later) id requested history range
    (fun some => by
      rw [recorded] at some
      rw [Chronicle.next_of_recorded some rfl, silent]
      simpa using kept.congr recorded)
    (fun none => by
      rw [recorded] at none
      rw [Chronicle.next_of_none none, coordinator])
    (by rw [clients]; exact asks.reaches)
  rw [clients] at tends
  rw [served]
  exact tends.congr (Clients.reaches_modify _ _ _ fun _ => rfl)
    (Clients.pending_modify _ _ _ fun _ => rfl)

/-- Where no stream is recorded there are no replicas. -/
theorem Orderly.unregistered (orderly : node.Orderly) (unrecorded : node.coordinator.backlog = none)
    (id : ClientId) : node.coordinator.stateOf id = none := by
  cases registered : node.coordinator.replicas[id]? with
  | none => simp [Coordinator.stateOf, registered]
  | some replica =>
      have recorded := orderly.coordinator.recorded ⟨id, replica, registered⟩
      simp [unrecorded] at recorded

/-- What is taken from the queue of a client when something happens. -/
def takes (node : Node) (id : ClientId) : Happening → List Outgoing
  | .deliver => node.clients.pending id
  | _ => []

/-- Whatever happens, a replica that does no more than acknowledge the stream is attended to. -/
theorem tends_next (tends : Tends requested id earlier taken chronicle node.desk)
    (kept : chronicle.Kept node.coordinator) (orderly : node.Orderly) (deaf : node.Deaf (· = id))
    (modest : happening.Modest (· = id)) (happened : node.next? happening = some later)
    (range : (chronicle.next node happening later).InRange) :
    Tends requested id earlier (taken ++ node.takes id happening) (chronicle.next node happening later)
      later.desk := by
  by_cases delivers : happening = .deliver
  · subst delivers
    cases happened
    have same : Tends requested id earlier taken
        (chronicle.next node .deliver { node with clients := node.clients.takeQueued.2 }) node.desk := by
      cases recorded : node.coordinator.backlog with
      | none => exact tends.leaves (.refl _) (.inl (orderly.unregistered recorded id))
      | some backlog =>
          rw [Chronicle.next_of_recorded (by simp [recorded]) rfl]
          simpa [added] using tends
    exact same.take (Clients.reaches_takeQueued ..) (Clients.pending_takeQueued ..)
  · have nothing : node.takes id happening = [] := by
      cases happening <;> first | rfl | exact absurd rfl delivers
    rw [nothing, List.append_nil]
    have begins (unrecorded : node.coordinator.backlog = none)
        (grown : Clients.Extends id node.desk.2 later.desk.2) :
        Tends requested id earlier taken (chronicle.next node happening later) later.desk :=
      tends.leaves grown (.inl (orderly.unregistered unrecorded id))
    cases passes orderly deaf modest delivers happened with
    | flows same moves all fed reached =>
        cases recorded : node.coordinator.backlog with
        | none =>
            refine begins recorded ?_
            rw [reached]
            exact Move.extends_applyAll fun move member => (all move member).1
        | some backlog =>
            rw [Chronicle.next_of_recorded (by simp [recorded]) same, ← fed] at range ⊢
            rw [reached]
            exact tends.applyAll (fun move member => ⟨(all move member).1, (all move member).2.1⟩)
              kept range
    | opens same unrecorded quiet becomes =>
        obtain ⟨moves, still, reached⟩ := becomes
        refine begins unrecorded ?_
        rw [reached]
        exact Move.extends_applyAll fun move member => (still move member).spares
    | @loads history offset loads quiet reached =>
        rw [reached]
        exact tends.renew history offset _

/-- A client has asked to be made a replica, and a run has gone on since in which it did no
more than acknowledge the stream.  What was queued for it earlier, and what has been taken
from its queue since. -/
inductive Attended (id : ClientId) (requested : Int) (earlier : List Outgoing) :
    Node → Chronicle → List Outgoing → Prop
  | asks {node : Node} {chronicle : Chronicle} {value : Wire.Value}
      (chronicled : node.Chronicled chronicle) (asks : node.Asks id requested value)
      (before : node.clients.pending id = earlier)
      (range : (chronicle.next node (.command id value) (node.serve id value)).InRange) :
      Attended id requested earlier (node.serve id value)
        (chronicle.next node (.command id value) (node.serve id value)) []
  | next {node later : Node} {chronicle : Chronicle} {taken : List Outgoing} (happening : Happening)
      (attended : Attended id requested earlier node chronicle taken)
      (modest : happening.Modest (· = id)) (happened : node.next? happening = some later)
      (range : (chronicle.next node happening later).InRange) :
      Attended id requested earlier later (chronicle.next node happening later)
        (taken ++ node.takes id happening)

namespace Attended

theorem chronicled (attended : node.Attended id requested earlier chronicle taken) :
    node.Chronicled chronicle := by
  induction attended with
  | asks chronicled asks before range => exact chronicled.next _ rfl range
  | next happening _ _ happened range ih => exact ih.next happening happened range

theorem run (attended : node.Attended id requested earlier chronicle taken) (happening : Happening)
    (modest : happening.Modest (· = id)) (happens : (node.next? happening).isSome = true)
    (range : (chronicle.next node happening (node.run [happening])).InRange) :
    (node.run [happening]).Attended id requested earlier
      (chronicle.next node happening (node.run [happening])) (taken ++ node.takes id happening) :=
  attended.next happening modest (next?_run happens) range

theorem deaf (attended : node.Attended id requested earlier chronicle taken) :
    node.Deaf (· = id) := by
  induction attended with
  | asks _ asks => exact asks.deaf.congr asks.serve.2.1
  | next _ _ modest happened _ ih => exact ih.next modest happened

theorem tends (attended : node.Attended id requested earlier chronicle taken) :
    Tends requested id earlier taken chronicle node.desk := by
  induction attended with
  | asks chronicled asks before range =>
      rw [← before]
      exact asks.tends chronicled.kept range
  | next _ attended modest happened range ih =>
      exact tends_next ih attended.chronicled.kept attended.chronicled.reachable.orderly
        attended.deaf modest happened range

/-- All that is queued for a replica that is online, behind its opening, is the stream from
the offset of the opening up to its end, until the replica is asked to leave; and whatever is
fed to the stream moves its end on by just so many bytes. -/
theorem receives_stream (attended : node.Attended id requested earlier chronicle taken)
    (online : node.coordinator.Online id) :
    node.coordinator.offset = chronicle.ends ∧
    (∀ happening later, node.next? happening = some later → node.loads happening = false →
      later.coordinator.backlog.isSome = true →
      (chronicle.extend (Piece.bytes (node.added happening))).InRange →
      later.coordinator.offset =
        node.coordinator.offset + (Piece.bytes (node.added happening)).length) ∧
    ∃ messages, taken ++ node.clients.pending id = earlier ++ messages ∧
      (.close ∈ messages ∨ ∃ (count : Nat) (opening first : Bytes) (place : Int) (parts : List Bytes),
        Opening requested opening place ∧
        messages = Stream.heartbeats count ++ .data (opening ++ first) :: parts.map .data ∧
        chronicle.Reaches place ∧ first ++ parts.flatten = chronicle.since place) := by
  have kept := attended.chronicled.kept
  have orderly := attended.chronicled.reachable.orderly
  have recorded := orderly.coordinator.recorded online.serves
  refine ⟨kept.offset_eq recorded, ?_, ?_⟩
  · intro happening later happened same still range
    have next := @Chronicle.next_of_recorded chronicle node later happening recorded same
    have keeps := kept_next kept orderly happened (by rwa [next])
    rw [keeps.offset_eq still, next, Chronicle.ends_extend, kept.offset_eq recorded]
  · obtain ⟨messages, whole, attends⟩ := attended.tends.sent
    refine ⟨messages, whole, ?_⟩
    cases attends with
    | closed asked => exact .inl asked
    | waiting _ registered waits =>
        have same := registered.symm.trans (Coordinator.online_iff.mp online)
        exact absurd (Option.some.inj same) waits
    | online _ _ count opens reaches follows =>
        exact .inr ⟨count, _, _, _, _, opens, rfl, reaches, follows⟩

/-- A client asks for everything, and another one writes while the snapshot is taken and
after it was shipped. -/
theorem receives_stream_after_snapshot :
    ∃ (node : Node) (chronicle : Chronicle) (taken : List Outgoing),
      node.Attended 1 (-1) [] chronicle taken ∧ node.coordinator.Online 1 ∧
      chronicle.start = 0 ∧ chronicle.bytes.length = 100 ∧ node.coordinator.offset = chronicle.ends ∧
      taken.length = 1 ∧ ∃ messages, taken ++ node.clients.pending 1 = messages ∧
        (.close ∈ messages ∨ ∃ (count : Nat) (opening first : Bytes) (place : Int)
            (parts : List Bytes), Opening (-1) opening place ∧
          messages = Stream.heartbeats count ++ .data (opening ++ first) :: parts.map .data ∧
          chronicle.Reaches place ∧ first ++ parts.flatten = chronicle.since place) := by
  have asks : small.Asks 1 (-1) (.command ["PSYNC", "?", "-1"]) :=
    { reaches := by decide +kernel
      deaf := by
        intro channel id listens
        cases listens
      linked := by decide +kernel
      requests := ⟨_, rfl, "PSYNC", "?", "-1", rfl, by decide +kernel, by decide +kernel⟩ }
  have asked := Attended.asks small_chronicled asks rfl (by decide +kernel)
  have wrote := asked.run (.runs 2 ["SET", "a", "1"]) (fun same => absurd same (by decide))
    (by decide +kernel) (by decide +kernel)
  have written := wrote.run .report trivial (by decide +kernel) (by decide +kernel)
  have shipped := written.run .report trivial (by decide +kernel) (by decide +kernel)
  have taken := shipped.run .deliver trivial (by decide +kernel) (by decide +kernel)
  have attended := taken.run (.runs 2 ["SET", "b", "2"]) (fun same => absurd same (by decide))
    (by decide +kernel) (by decide +kernel)
  have online := attended.receives_stream (by decide +kernel)
  exact ⟨_, _, _, attended, by decide +kernel, by decide +kernel, by decide +kernel, online.1,
    by decide +kernel, online.2.2⟩

end Attended
end Node
end ReplicaStore
