import ReplicaStore.Proofs.Node.Attendance
import ReplicaStore.Proofs.Node.Reforms
import ReplicaStore.Proofs.Stream.Telling

/-!
# What a node tells its replicas

Whatever happens to a node, a replica that does no more than acknowledge the stream is told
more of the same history, or nothing more (`Node.sends_next`).  A replica that asks to go on
with a history is told to do so only where its leader has that history
(`Node.sends_psync`).
-/

namespace ReplicaStore

open ReplicaStore.Stream (Annals Chronicle Coordinator Desk Leads Move Piece Sends Speaks Told)

namespace Node

variable {node later : Node} {happening : Happening} {annals : Annals} {id : ClientId}
  {chronicle : Chronicle} {base : Option Chronicle} {told : Option (Told base)}
  {taken : List Outgoing}

/-- A queue that is read only grows, until it is taken. -/
theorem queue_next (reaches : node.clients.reaches id = true) (orderly : node.Orderly)
    (deaf : node.Deaf (· = id)) (modest : happening.Modest (· = id))
    (happened : node.next? happening = some later) :
    node.clients.pending id <+: node.takes id happening ++ later.clients.pending id := by
  by_cases delivers : happening = .deliver
  · subst delivers
    cases happened
    simp only [takes, Clients.pending_takeQueued, List.append_nil]
    exact List.prefix_refl _
  · have nothing : node.takes id happening = [] := by
      cases happening <;> first | rfl | exact absurd rfl delivers
    have grown : Clients.Extends id node.desk.2 later.desk.2 := by
      cases passes orderly deaf modest delivers happened with
      | flows same moves all fed reached =>
          rw [reached]
          exact Move.extends_applyAll fun move member => (all move member).1
      | opens same unrecorded quiet becomes =>
          obtain ⟨moves, still, reached⟩ := becomes
          rw [reached]
          exact Move.extends_applyAll fun move member => (still move member).spares
      | loads loads quiet reached =>
          rw [reached]
          exact Clients.Extends.closeAll ..
    rw [nothing, List.nil_append]
    exact grown.grows reaches

/-- Whatever happens, a replica that does no more than acknowledge the stream is told more of
it, or is asked to leave. -/
theorem sends_next (sends : Sends annals id node.desk chronicle told taken)
    (kept : chronicle.Kept node.coordinator) (orderly : node.Orderly) (deaf : node.Deaf (· = id))
    (modest : happening.Modest (· = id)) (happened : node.next? happening = some later)
    {whole : Chronicle}
    (goes_on : node.loads happening = false → whole = chronicle.next node happening later)
    (range : whole.InRange)
    (known : node.coordinator.backlog.isSome = true → annals.Has node.coordinator.identity.current
      (chronicle.extend (Piece.bytes (node.added happening)))) :
    ∃ last : Option (Told base), Leads (.close ∉ taken ++ node.clients.pending id)
        (chronicle.extend (Piece.bytes (node.added happening))) told last ∧
      Sends annals id later.desk whole last (taken ++ node.takes id happening) := by
  by_cases delivers : happening = .deliver
  · subst delivers
    cases happened
    have same := goes_on rfl
    refine ⟨told, .same told, ?_⟩
    cases recorded : node.coordinator.backlog with
    | none =>
        have rests : Sends annals id node.desk whole told taken :=
          sends.leaves (.refl _) (.inl (orderly.unregistered recorded id))
        exact rests.take (Clients.reaches_takeQueued ..) (Clients.pending_takeQueued ..)
    | some backlog =>
        have stays : whole = chronicle := by
          rw [same, Chronicle.next_of_recorded (by simp [recorded]) rfl]
          simp [added]
        rw [stays]
        exact sends.take (Clients.reaches_takeQueued ..) (Clients.pending_takeQueued ..)
  · have nothing : node.takes id happening = [] := by
      cases happening <;> first | rfl | exact absurd rfl delivers
    rw [nothing, List.append_nil]
    have begins (unrecorded : node.coordinator.backlog = none)
        (grown : Clients.Extends id node.desk.2 later.desk.2) :
        Sends annals id later.desk whole told taken :=
      sends.leaves grown (.inl (orderly.unregistered unrecorded id))
    cases passes orderly deaf modest delivers happened with
    | flows same moves all fed reached =>
        have spared : ∀ move ∈ moves, move.Spares (· = id) ∧ ¬move.Restarts :=
          fun move member => ⟨(all move member).1, (all move member).2.1⟩
        cases recorded : node.coordinator.backlog with
        | none =>
            refine ⟨told, .same told, begins recorded ?_⟩
            rw [reached]
            exact Move.extends_applyAll fun move member => (spared move member).1
        | some backlog =>
            rw [goes_on same, Chronicle.next_of_recorded (by simp [recorded]) same] at range ⊢
            rw [← fed] at range known ⊢
            rw [reached]
            exact sends.applyAll spared kept range fun _ => known (by simp [recorded])
    | opens same unrecorded quiet becomes =>
        obtain ⟨moves, still, reached⟩ := becomes
        refine ⟨told, .same told, begins unrecorded ?_⟩
        rw [reached]
        exact Move.extends_applyAll fun move member => (still move member).spares
    | @loads history offset loads quiet reached =>
        rw [reached]
        exact ⟨told, .same told, sends.renew history offset _⟩

/-! ### Being asked -/

/-- Whoever is registered to get a snapshot is kept waiting while one is begun. -/
theorem sends_scheduleFullSync (kept : chronicle.Kept node.coordinator) (range : chronicle.InRange)
    (recorded : node.coordinator.backlog.isSome = true)
    (registered : node.coordinator.stateOf id = some .needSnapshot)
    (reaches : node.clients.reaches id = true) (empty : node.clients.pending id = [])
    (known : annals.Has node.coordinator.identity.current chronicle) :
    ∃ told : Option (Told base), Leads True chronicle none told ∧
      Sends annals id node.scheduleFullSync.desk chronicle told [] := by
  obtain ⟨moves, still, reached⟩ := @stills_scheduleFullSync (· = id) False node
  have same : chronicle.extend (moves.flatMap Move.fed) = chronicle := by
    rw [fed_of_still still, Chronicle.extend_nil]
  have waits : Sends annals id node.desk chronicle (none : Option (Told base)) [] := by
    have nothing : [] ++ node.desk.2.pending id = Stream.heartbeats 0 := empty
    refine ⟨reaches, ?_, .inr ?_⟩ <;> rw [nothing]
    · exact .waits 0
    · exact .waits recorded registered (by decide) 0
  obtain ⟨told, leads, sends⟩ := waits.applyAll
    (fun move member => ⟨(still move member).spares,
      fun restarts => ((still move member).restarts restarts).2⟩) kept (by rwa [same])
    (fun _ => by rw [same]; exact known)
  rw [same, ← reached] at sends
  rw [same] at leads
  refine ⟨told, ?_, sends⟩
  cases leads with
  | same => exact .same _
  | opens _ within => exact .opens trivial within

/-- A client that asks to be made a replica is told to go on where it is, or waits. -/
theorem sends_synchronise {requested : Int} (history : String) (range : chronicle.InRange)
    (kept : node.coordinator.backlog.isSome = true → chronicle.Kept node.coordinator)
    (fresh : node.coordinator.backlog = none → chronicle =
      { start := (Command.synchronise id history requested node).coordinator.offset })
    (reaches : node.clients.reaches id = true) (empty : node.clients.pending id = [])
    (shares : ∀ tail, node.coordinator.missed? history requested = some tail →
      ∃ source : Chronicle, base = some source ∧ source.ends = requested ∧ source.Within chronicle)
    (known : annals.Has (Command.synchronise id history requested node).coordinator.identity.current
      chronicle) :
    ∃ told : Option (Told base), Leads True chronicle none told ∧
      Sends annals id (Command.synchronise id history requested node).desk chronicle told [] := by
  simp only [Command.synchronise] at fresh known ⊢
  cases missed : (node.coordinator.remove id).missed? history requested with
  | some tail =>
      obtain ⟨source, same, rfl, within⟩ := shares tail missed
      obtain ⟨_, recorded, _⟩ := Coordinator.missed?_inv missed
      simp only [Coordinator.partialResync?, missed, Option.map_some] at known ⊢
      have resumed := @Sends.resume base annals id chronicle (node.coordinator.remove id, node.clients)
        history tail node.clock.elapsed source missed same within
        ((kept (Option.isSome_iff_exists.mpr ⟨_, recorded⟩)).congr rfl) range reaches empty known
      simp only [Move.apply, Coordinator.partialResync?, missed, Option.map_some] at resumed
      exact resumed
  | none =>
      simp only [Coordinator.partialResync?, missed, Option.map_none] at fresh known ⊢
      rw [(unmoved_scheduleFullSync _).identity] at known
      cases recorded : node.coordinator.backlog with
      | some backlog =>
          have same : (node.coordinator.remove id).backlog = some backlog := recorded
          simp only [Coordinator.beginFullResync, same] at known ⊢
          refine @sends_scheduleFullSync { node with
            coordinator := (node.coordinator.remove id).register node.clients node.clock.elapsed id
              .needSnapshot requested } annals id chronicle base
            ((kept (by simp [recorded])).congr rfl) range ?_ (Coordinator.stateOf_register_self ..)
            reaches empty known
          simp [Coordinator.register, same]
      | none =>
          have same : (node.coordinator.remove id).backlog = none := recorded
          have whole := fresh recorded
          rw [(unmoved_scheduleFullSync _).offset] at whole
          simp only [Coordinator.beginFullResync, same] at whole known ⊢
          generalize registers : Coordinator.register _ _ _ _ _ _ = registered at whole known ⊢
          have begun : Chronicle.Fresh registered := by
            rw [← registers]
            rintro _ ⟨⟩
            exact ⟨rfl, rfl⟩
          subst whole
          refine @sends_scheduleFullSync { node with coordinator := registered } annals id _ base
            (begun.kept range) range ?_ ?_ reaches empty known <;> rw [← registers]
          · rfl
          · exact Coordinator.stateOf_register_self ..

variable {value : Wire.Value}

/-- A client asks to go on from where a history ends that is known under its id, or asks for
everything. -/
theorem sends_psync {requested : Int} {name history written : String}
    (reaches : node.clients.reaches id = true) (empty : node.clients.pending id = [])
    (linked : node.following = true → node.role.connected = true)
    (given : value.arguments? = some [name, history, written]) (named : Text.upper name = "PSYNC")
    (read : Text.readSigned64 written = some requested) (kept : chronicle.Kept node.coordinator)
    (range : (chronicle.next node (.command id value) (node.serve id value)).InRange)
    (shares : ∀ tail, node.coordinator.missed? history requested = some tail →
      ∃ source : Chronicle, base = some source ∧ source.ends = requested ∧ source.Within chronicle)
    (known : annals.Has (node.serve id value).coordinator.identity.current
      (chronicle.next node (.command id value) (node.serve id value))) :
    ∃ told : Option (Told base),
      Leads True (chronicle.next node (.command id value) (node.serve id value)) none told ∧
      Sends annals id (node.serve id value).desk
        (chronicle.next node (.command id value) (node.serve id value)) told [] := by
  obtain ⟨silent, _, issued, database, touched, clients, served⟩ :=
    serve_psync reaches linked given named read
  generalize node.serve id value = later at served range known ⊢
  have coordinator : later.coordinator = (Command.synchronise id history requested issued).coordinator :=
    congrArg Prod.fst served
  have recorded : issued.coordinator.backlog = node.coordinator.backlog := by rw [touched]; rfl
  have goes_on (some : node.coordinator.backlog.isSome = true) :
      chronicle.next node (.command id value) later = chronicle := by
    rw [Chronicle.next_of_recorded some rfl, silent]
    exact Chronicle.extend_nil _
  obtain ⟨told, leads, sends⟩ := @sends_synchronise issued annals id
    (chronicle.next node (.command id value) later) base requested history range
    (fun some => by
      rw [recorded] at some
      rw [goes_on some]
      exact kept.congr recorded)
    (fun none => by
      rw [recorded] at none
      rw [Chronicle.next_of_none none, coordinator])
    (by rw [clients]; exact reaches) (by rw [clients]; exact empty)
    (fun tail missed => by
      rw [touched] at missed
      obtain ⟨backlog, there, _⟩ := Coordinator.missed?_inv missed
      rw [goes_on (Option.isSome_iff_exists.mpr ⟨backlog, there⟩)]
      exact shares tail missed)
    (coordinator ▸ known)
  refine ⟨told, leads, ?_⟩
  rw [served]
  exact sends.congr (Clients.reaches_modify _ _ _ fun _ => rfl)
    (Clients.pending_modify _ _ _ fun _ => rfl)

end Node
end ReplicaStore
