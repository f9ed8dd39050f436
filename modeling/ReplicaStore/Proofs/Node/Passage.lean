import ReplicaStore.Proofs.Command.Sparing
import ReplicaStore.Proofs.Node.Progress

/-!
# From one state of a node to the next

Whatever happens to a node, its coordinator and what is queued for its clients change by
moves that leave the audience to the coordinator, as long as those in the audience keep to
acknowledging the stream (`Node.passes`).  Either the stream goes on, with just the pieces
that the happening adds, or a stream begins where none was recorded, or a snapshot of the
leader puts another stream in its place.
-/

namespace ReplicaStore

open ReplicaStore.Stream (Coordinator Desk Move Piece)

/-- Something happens, and whoever is in the audience does no more than acknowledge the
stream. -/
def Happening.Modest (audience : ClientId → Prop) : Happening → Prop
  | .connected id _ | .disconnected id | .hangUp id | .refuse id _ => ¬audience id
  | .command id value =>
      audience id → ∃ arguments, value.arguments? = some arguments ∧ Command.Acknowledges arguments
  | _ => True

namespace Node

/-- Whether a snapshot of the leader takes the place of all data. -/
def loads (node : Node) : Happening → Bool
  | .link epoch (.fullSync _ _ payload) =>
      node.role.accepts epoch && (Snapshot.commandsOf payload).toOption.isSome
  | _ => false

/-- How the stream of a node comes from one state to the next. -/
inductive Passes (audience : ClientId → Prop) (node : Node) (happening : Happening) (later : Node) :
    Prop
  /-- It goes on. -/
  | flows (same : node.loads happening = false) (moves : List Move)
      (all : ∀ move ∈ moves, move.Spares audience ∧ ¬move.Restarts ∧ move.Suits node.following)
      (fed : moves.flatMap Move.fed = Piece.bytes (node.added happening))
      (reached : later.desk = Move.applyAll moves node.desk)
  /-- It begins, or still does not. -/
  | opens (same : node.loads happening = false) (unrecorded : node.coordinator.backlog = none)
      (quiet : node.added happening = [])
      (becomes : Desk.Becomes (Move.Still audience True) node.desk later.desk)
  /-- Another one takes its place. -/
  | loads {history : String} {offset : Int} (loads : node.loads happening = true)
      (quiet : node.added happening = [])
      (reached : later.desk = Move.applyAll [.renew history offset, .forget] node.desk)

variable {audience : ClientId → Prop} {asks : Prop} {node between later : Node}
  {happening : Happening}

theorem fed_of_still {unrecorded : Prop} {moves : List Move}
    (all : ∀ move ∈ moves, move.Still audience unrecorded) : moves.flatMap Move.fed = [] := by
  rw [List.flatMap_eq_nil_iff]
  intro move member
  have silent := (all move member).keeps.1
  cases move <;> first | rfl | exact absurd trivial silent

namespace Passes

/-- Nothing is added to the stream. -/
theorem of_stills (same : node.loads happening = false) (quiet : node.added happening = [])
    (stills : node.Stills audience asks later) : node.Passes audience happening later := by
  cases unrecorded : node.coordinator.backlog with
  | none =>
      exact .opens same unrecorded quiet <|
        Desk.Becomes.mono stills fun _ still => ⟨still.spares, still.keeps, fun _ => trivial⟩
  | some backlog =>
      obtain ⟨moves, all, reached⟩ := stills
      refine .flows same moves ?_ ?_ reached
      · intro move member
        have still := all move member
        refine ⟨still.spares, fun restarts => ?_, Move.suits_of_not_expires still.keeps.2 _⟩
        simp [unrecorded] at still
        exact absurd restarts still.2.2
      · rw [fed_of_still all, quiet]
        rfl

theorem of_moves (same : node.loads happening = false) (quiet : node.added happening = [])
    (moves : List Move) (all : ∀ move ∈ moves, move.Still audience False)
    (reached : later.desk = Move.applyAll moves node.desk) : node.Passes audience happening later :=
  @of_stills audience False node later happening same quiet
    ⟨moves, fun move member =>
      ⟨(all move member).spares, (all move member).keeps,
        fun restarts => ((all move member).restarts restarts).elim⟩, reached⟩

/-- Something is added to the stream on the way. -/
theorem of_feed (same : node.loads happening = false) (front : node.Stills audience False between)
    {bytes : Bytes} (added : bytes = Piece.bytes (node.added happening)) (database : Option Nat)
    {back : List Move} (all : ∀ move ∈ back, move.Still audience False)
    (reached : later.desk = Move.applyAll (.feed bytes database :: back) between.desk) :
    node.Passes audience happening later := by
  obtain ⟨moves, spared, first⟩ := front
  refine .flows same (moves ++ .feed bytes database :: back) ?_ ?_ ?_
  · intro move member
    rcases List.mem_append.mp member with before | rest
    · have still := spared move before
      exact ⟨still.spares, fun restarts => (still.restarts restarts).2,
        Move.suits_of_not_expires still.keeps.2 _⟩
    · rcases List.mem_cons.mp rest with rfl | after
      · exact ⟨trivial, id, trivial⟩
      · have still := all move after
        exact ⟨still.spares, still.restarts, Move.suits_of_not_expires still.keeps.2 _⟩
  · rw [List.flatMap_append, List.flatMap_cons, fed_of_still spared, fed_of_still all, ← added]
    simp [Move.fed]
  · rw [Move.applyAll_append, ← first]
    exact reached

end Passes

/-- Adding to the stream is a move. -/
theorem desk_feed (node : Node) (data : Bytes) (database : Option Nat) :
    (node.feed data database).desk =
      Move.apply node.desk (.feed (node.coordinator.streamBytes data database) database) := by
  cases recorded : node.coordinator.backlog <;>
    simp [feed, coordinate, desk, Coordinator.feed, Move.apply, recorded]

/-! ### Commands of clients -/

/-- Queueing a reply, if there is one. -/
def replyMoves (id : ClientId) (reply : Reply) : List Move :=
  if reply.isEmpty then [] else [.queue id (.data (reply.flatMap (·.toBytes)))]

theorem desk_answer (node : Node) (id : ClientId) (reply : Reply) :
    (node.answer id reply).desk = Move.applyAll (replyMoves id reply) node.desk := by
  simp only [answer, replyMoves]
  cases reply.isEmpty <;> rfl

/-- What serving a client does behind its command. -/
def serveMoves (id : ClientId) (database : Nat) (reply : Reply) : List Move :=
  .adjust id (fun client => { client with database }) :: replyMoves id reply

theorem still_serveMoves {id : ClientId} (outside : ¬audience id) (database : Nat) (reply : Reply) :
    ∀ move ∈ serveMoves id database reply, move.Still audience False := by
  intro move member
  rcases List.mem_cons.mp member with rfl | replies
  · simp
  · simp only [replyMoves] at replies
    split at replies
    · cases replies
    · obtain rfl := List.mem_singleton.mp replies
      simpa using outside

theorem desk_serve {id : ClientId} {value : Wire.Value} {client : Client} {arguments : List String}
    (found : node.clients[id]? = some client) (given : value.arguments? = some arguments) :
    (node.serve id value).desk =
      Move.applyAll (serveMoves id
          (Command.dispatch (node.issued id client) arguments).2.session.database
          (Command.dispatch (node.issued id client) arguments).1)
        (Command.dispatch (node.issued id client) arguments).2.node.desk := by
  simp only [serve, found, given]
  rw [desk_answer]
  rfl

theorem serve_passes (deaf : node.Deaf audience) {id : ClientId} {value : Wire.Value}
    (modest : Happening.Modest audience (.command id value)) :
    node.Passes audience (.command id value) (node.serve id value) := by
  cases found : node.clients[id]? with
  | none =>
      refine .of_moves rfl (by simp [added, found]) [] (by simp) ?_
      simp [serve, found]
  | some client =>
      have touched {asks : Prop} : node.Stills audience asks (node.issued id client).node :=
        .moves [.note id fun replica => { replica with lastHeard := node.clock.elapsed }] (by simp) rfl
      cases given : value.arguments? with
      | none =>
          have outside : ¬audience id := by
            intro inside
            obtain ⟨arguments, some, _⟩ := modest inside
            simp [given] at some
          refine .of_moves rfl (by simp [added, found, given])
            (.note id (fun replica => { replica with lastHeard := node.clock.elapsed }) ::
              replyMoves id [CommandError.invalidFormat.reply])
            (by simpa [replyMoves] using outside) ?_
          simp only [serve, found, given]
          rw [desk_answer]
          rfl
      | some arguments =>
          have served := desk_serve found given
          by_cases inside : audience id
          · obtain ⟨_, same, acknowledges⟩ := modest inside
            obtain rfl := Option.some.inj (given.symm.trans same)
            obtain ⟨offset, ran⟩ :=
              @Command.dispatch_acknowledges (node.issued id client) id rfl arguments acknowledges
            rw [ran] at served
            have silent : node.added (.command id value) = [] := by
              simp [added, found, given, Command.addition?_acknowledges acknowledges]
            exact .of_moves rfl silent
              [.note id fun replica => { replica with lastHeard := node.clock.elapsed },
                .note id fun replica => { replica with
                  acknowledged := max replica.acknowledged offset, lastHeard := node.clock.elapsed },
                .adjust id fun known => { known with database := client.database }]
              (by simp) served
          · have outside : Command.Outside audience (node.issued id client) := by
              rintro other ⟨⟩
              exact inside
            have still := still_serveMoves inside
              (Command.dispatch (node.issued id client) arguments).2.session.database
              (Command.dispatch (node.issued id client) arguments).1
            rcases Command.dispatch_spares (deaf.congr rfl) outside arguments with
              ⟨becomes, silent⟩ | ⟨_, leads, form, database, after, adds, becomes, frame, fed⟩
            · refine .of_stills rfl ?_ ((touched.trans becomes.stills).trans
                (.moves _ (fun move member => ?_) served))
              · cases follows : node.following with
                | true => simp [added, found, given, follows]
                | false => simp [added, found, given, follows, silent rfl follows]
              · exact ⟨(still move member).spares, (still move member).keeps,
                  fun restarts => ((still move member).restarts restarts).elim⟩
            · have front : node.Stills audience False after :=
                touched.trans (becomes.stills.mono Bool.false_ne_true)
              rw [fed, desk_feed] at served
              refine .of_feed rfl front ?_ _ still served
              have streamed : after.coordinator.streamBytes (Wire.commandBytes form) (some database) =
                  node.coordinator.streamBytes (Wire.commandBytes form) (some database) := by
                rw [frame]
                rfl
              have leading : node.following = false := leads
              rw [streamed, ← Coordinator.bytes_pieces]
              simp [added, found, given, leading, adds]

/-! ### Upkeep -/

theorem maintain_passes (node : Node) : node.Passes audience .upkeep node.maintain := by
  obtain ⟨coordinator, clients⟩ := node.maintain_coordinates
  have ends (pinged : Desk)
      (same : node.coordinator.ping node.clients node.clock.elapsed node.periods = pinged) :
      node.maintain.desk = Move.applyAll
        [.comfort, .drop (pinged.1.timedOut node.clock.elapsed node.periods),
          .expire node.clock.elapsed node.periods] pinged := by
    rw [desk, coordinator, clients, Coordinator.maintain, same]
    rfl
  by_cases pings : node.pings = true
  · have sent : node.coordinator.ping node.clients node.clock.elapsed node.periods =
        Move.applyAll [.pinged node.clock.elapsed, .feed (Wire.commandBytes ["PING"]) none]
          node.desk := by
      rw [ping_periods, if_pos pings]
      simp only [Coordinator.feed, Move.applyAll_cons, Move.applyAll_nil, Move.apply, desk]
      cases node.coordinator.backlog <;> rfl
    have reached := ends _ sent
    rw [← Move.applyAll_append] at reached
    refine .flows rfl _ ?_ ?_ reached
    · simp [periods]
    · simp [Move.fed, added, pings, Piece.ofCommand]
  · have sent : node.coordinator.ping node.clients node.clock.elapsed node.periods = node.desk := by
      rw [ping_periods, if_neg pings]
      rfl
    refine .flows rfl _ ?_ ?_ (ends _ sent)
    · simp [periods]
    · simp [Move.fed, added, pings]

/-! ### The link to a leader -/

theorem follow_passes (deaf : node.Deaf audience) {epoch : Nat}
    (accepts : node.role.accepts epoch = true) (arguments : List String) (raw : Bytes) :
    node.Passes audience (.link epoch (.command arguments raw)) (node.follow arguments raw) := by
  by_cases connected : node.role.state = .connected
  · have outside : Command.Outside audience node.listening := by
      rintro id ⟨⟩
    have heard : node.Stills audience False (node.hear arguments).node := by
      rw [hear_eq]
      rcases Command.dispatch_spares (deaf.congr rfl) outside arguments with
        ⟨becomes, _⟩ | ⟨client, _⟩
      · exact becomes.stills.mono Bool.false_ne_true
      · cases client
    have linked : node.role.connected = true := by simp [Link.Role.connected, connected]
    have fed : (node.follow arguments raw).desk =
        Move.applyAll [.feed raw none] (node.hear arguments).node.desk := by
      rw [follow_eq connected]
      exact desk_feed ..
    refine .of_feed rfl heard ?_ none ?_ fed
    · simp [added, accepts, linked]
    · simp
  · have apart : node.role.connected = false := by simpa [Link.Role.connected] using connected
    refine .of_moves rfl (by simp [added, apart]) [] (by simp) ?_
    rw [follow_apart connected]
    rfl

/-- The bytes of a snapshot that can be read replace the data, the history and the stream. -/
theorem applyFullSync_desk {history : String} {offset : Int} {payload : Bytes}
    (readable : (Snapshot.commandsOf payload).toOption.isSome = true) :
    (node.applyFullSync history offset payload).desk =
      Move.applyAll [.renew history offset, .forget] node.desk := by
  rcases node.applyFullSync_cases history offset payload with ⟨broken, _⟩ | ⟨_, partitions, _, same⟩
  · rw [readable] at broken
    cases broken
  · rw [same]
    rfl

theorem continueStream_passes (orderly : node.Orderly) {epoch : Nat} (history : Option String) :
    node.Passes audience (.link epoch (.continued history)) (node.continueStream history) := by
  have activated (between : Node) (stills : node.Stills audience True between)
      (same : between.coordinator.backlog = node.coordinator.backlog)
      (later : Node) (reached : later.desk = Move.apply between.desk .activate) :
      node.Passes audience (.link epoch (.continued history)) later := by
    cases recorded : node.coordinator.backlog with
    | none =>
        refine .of_stills rfl rfl (stills.trans (.moves [.activate] ?_ reached))
        simp [same, recorded]
    | some backlog =>
        refine .of_stills rfl rfl (stills.trans (.moves [] (by simp) ?_))
        have active := (orderly.coordinator.ready backlog recorded).active
        have still := Coordinator.changeBacklog_activate (same.trans recorded) active
        rw [reached, Move.apply, desk, still]
        rfl
  rcases node.continueStream_cases history with ⟨_, same⟩ | ⟨name, _, _, same⟩ <;> rw [same]
  · exact activated node (.refl node) rfl _ rfl
  · exact activated ({ node with
        coordinator := node.coordinator.shiftIdentity name node.coordinator.offset }.coordinate
      fun coordinator clients => coordinator.dropAll clients)
      (.moves [.shift name] (by simp) rfl) rfl _ rfl

/-! ### All that can happen -/

theorem takeReport_passes (node : Node) (report : Report) :
    ∃ moves : List Move, (∀ move ∈ moves, move.Still audience False) ∧
      (node.takeReport report).desk = Move.applyAll moves node.desk := by
  cases report with
  | written index =>
      obtain ⟨_, _, same⟩ := node.partitionWritten_eq index
      exact ⟨[], by simp, by rw [takeReport, same]; rfl⟩
  | aborted index => exact ⟨[], by simp, rfl⟩
  | finished result =>
      cases result with
      | ok payload => exact ⟨[.finish node.clock.elapsed payload], by simp, rfl⟩
      | error error => exact ⟨[.fail], by simp, rfl⟩

theorem desk_drain (node : Node) (index : Nat) (picked : List String) :
    (node.drain index picked).desk = node.desk := by
  obtain ⟨_, _, same⟩ := node.drain_eq index picked
  rw [same]
  rfl

theorem link_passes (orderly : node.Orderly) (deaf : node.Deaf audience) (epoch : Nat)
    (event : Link.LinkEvent) :
    node.Passes audience (.link epoch event) (node.handle (.link epoch event)) := by
  simp only [handle]
  split
  · next accepts =>
      cases event with
      | fullSync history offset payload =>
          cases readable : (Snapshot.commandsOf payload).toOption.isSome with
          | true =>
              exact .loads (by simp [Node.loads, accepts, readable]) rfl (applyFullSync_desk readable)
          | false =>
              refine .of_moves (by simp [Node.loads, readable]) rfl [] (by simp) ?_
              cases read : Snapshot.commandsOf payload with
              | error error =>
                  simp only [takeLinkEvent, applyFullSync, read]
                  rfl
              | ok commands => simp [read, Except.toOption] at readable
      | continued history => exact continueStream_passes orderly history
      | command arguments raw => exact follow_passes deaf accepts arguments raw
      | state | heartbeat | failed => exact .of_moves rfl rfl [] (by simp) rfl
  · next refused =>
      have quiet : node.added (.link epoch event) = [] := by
        cases event with
        | command arguments raw => simp [added, refused]
        | _ => rfl
      have same : node.loads (.link epoch event) = false := by
        cases event with
        | fullSync history offset payload => simp [Node.loads, refused]
        | _ => rfl
      exact .of_moves same quiet [] (by simp) rfl

/-- Whatever happens to a node, apart from queues being taken, its coordinator and what is
queued change by a few moves. -/
theorem passes (orderly : node.Orderly) (deaf : node.Deaf audience)
    (modest : happening.Modest audience) (other : happening ≠ .deliver)
    (happened : node.next? happening = some later) : node.Passes audience happening later := by
  cases happening with
  | connected id address =>
      cases happened
      exact .of_moves rfl rfl [.greet id address] (by simpa [Happening.Modest] using modest) rfl
  | disconnected id =>
      cases happened
      exact .of_moves rfl rfl [.leave id, .strike id] (by simpa [Happening.Modest] using modest) rfl
  | command id value =>
      cases happened
      exact serve_passes deaf modest
  | upkeep =>
      cases happened
      exact maintain_passes node
  | link epoch event =>
      cases happened
      exact link_passes orderly deaf epoch event
  | task position picked =>
      simp only [next?, Option.map_eq_some_iff] at happened
      obtain ⟨task, _, rfl⟩ := happened
      cases task with
      | beginSnapshot =>
          simp only [Task.event, handle]
          split
          · exact @Passes.of_stills audience False node _ _ rfl rfl (stills_scheduleFullSync
              { node with tasks := node.tasks.eraseIdx position })
          · exact .of_moves rfl rfl [] (by simp) rfl
      | drain index => exact .of_moves rfl rfl [] (by simp) (desk_drain _ index picked)
  | report =>
      obtain ⟨report, reports, writing, storage, _, rfl, _⟩ := next?_report happened
      obtain ⟨moves, still, reached⟩ :=
        @takeReport_passes audience { node with writing, storage } report
      exact .of_moves rfl rfl moves still reached
  | refuse id reply =>
      cases happened
      exact .of_moves rfl rfl [.queue id (.data reply), .queue id .close] (by simpa [Happening.Modest] using modest) rfl
  | hangUp id =>
      cases happened
      exact .of_moves rfl rfl [.hangUp id] (by simpa [Happening.Modest] using modest) rfl
  | deliver => exact absurd rfl other
  | advance | setWall | setStorage | deliverToLeader =>
      cases happened
      exact .of_moves rfl rfl [] (by simp) rfl

/-! ### Listening -/

namespace Deaf

theorem channels_answer (node : Node) (id : ClientId) (reply : Reply) :
    (node.answer id reply).channels = node.channels := by
  simp only [answer]
  split <;> rfl

theorem dispatch {context : Context} (deaf : context.node.Deaf audience)
    (outside : Command.Outside audience context) (arguments : List String) :
    (Command.dispatch context arguments).2.node.Deaf audience := by
  rcases Command.dispatch_spares deaf outside arguments with
    ⟨becomes, _⟩ | ⟨_, _, form, database, after, _, becomes, _, fed⟩
  · exact deaf.becomes becomes
  · rw [fed]
    exact (deaf.becomes becomes).congr rfl

theorem serve (deaf : node.Deaf audience) {id : ClientId} {value : Wire.Value}
    (modest : Happening.Modest audience (.command id value)) :
    (node.serve id value).Deaf audience := by
  cases found : node.clients[id]? with
  | none =>
      simp only [Node.serve, found]
      exact deaf
  | some client =>
      cases given : value.arguments? with
      | none =>
          simp only [Node.serve, found, given]
          exact deaf.congr (channels_answer ..)
      | some arguments =>
          have ran : (Command.dispatch (node.issued id client) arguments).2.node.Deaf audience := by
            by_cases inside : audience id
            · obtain ⟨_, same, acknowledges⟩ := modest inside
              obtain rfl := Option.some.inj (given.symm.trans same)
              obtain ⟨offset, ran⟩ :=
                @Command.dispatch_acknowledges (node.issued id client) id rfl arguments acknowledges
              rw [ran]
              exact deaf.congr rfl
            · refine Deaf.dispatch (deaf.congr rfl) ?_ arguments
              rintro other ⟨⟩
              exact inside
          simp only [Node.serve, found, given]
          exact ran.congr (channels_answer ..)

theorem takeLinkEvent (deaf : node.Deaf audience) (event : Link.LinkEvent) :
    (node.takeLinkEvent event).Deaf audience := by
  cases event with
  | fullSync history offset payload =>
      simp only [Node.takeLinkEvent]
      rcases node.applyFullSync_cases history offset payload with ⟨_, same⟩ | ⟨_, partitions, _, same⟩
      all_goals
        rw [same]
        exact deaf.congr rfl
  | continued history =>
      rcases node.continueStream_cases history with ⟨_, same⟩ | ⟨_, _, _, same⟩
      all_goals
        rw [Node.takeLinkEvent, same]
        exact deaf.congr rfl
  | command arguments raw =>
      have heard : (node.hear arguments).node.Deaf audience := by
        refine Deaf.dispatch (deaf.congr rfl) ?_ arguments
        rintro other ⟨⟩
      rcases node.follow_cases arguments raw with ⟨_, same⟩ | ⟨_, same⟩ <;>
        rw [Node.takeLinkEvent, same]
      · exact heard.congr rfl
      · exact deaf.congr rfl
  | state | heartbeat | failed => exact deaf.congr rfl

/-- Whatever happens, nobody in the audience begins to listen to a channel. -/
theorem next (deaf : node.Deaf audience) (modest : happening.Modest audience)
    (happened : node.next? happening = some later) : later.Deaf audience := by
  cases happening with
  | command id value =>
      cases happened
      exact deaf.serve modest
  | disconnected id =>
      cases happened
      intro channel other listens
      exact deaf channel other (Channels.mem_listeners_unsubscribeAll.mp listens).1
  | upkeep =>
      cases happened
      apply deaf.congr
      simp only [handle, maintain]
      split <;> rfl
  | link epoch event =>
      cases happened
      simp only [handle]
      split
      · exact deaf.takeLinkEvent event
      · exact deaf
  | task position picked =>
      simp only [next?, Option.map_eq_some_iff] at happened
      obtain ⟨task, _, rfl⟩ := happened
      cases task with
      | beginSnapshot =>
          simp only [Task.event, handle]
          split
          · exact deaf.congr (channels_scheduleFullSync _)
          · exact deaf.congr rfl
      | drain index =>
          obtain ⟨_, _, same⟩ := drain_eq { node with tasks := node.tasks.eraseIdx position } index picked
          rw [Task.event, handle, same]
          exact deaf.congr rfl
  | report =>
      obtain ⟨report, reports, writing, storage, _, rfl, _⟩ := next?_report happened
      cases report with
      | written index =>
          obtain ⟨_, _, same⟩ := partitionWritten_eq { node with writing, storage } index
          rw [takeReport, same]
          exact deaf.congr rfl
      | aborted index => exact deaf.congr rfl
      | finished result => cases result <;> exact deaf.congr rfl
  | connected | advance | setWall | setStorage | refuse | hangUp | deliver | deliverToLeader =>
      cases happened
      exact deaf.congr rfl

end Deaf
end Node
end ReplicaStore
