import ReplicaStore.Proofs.Node.Told
import ReplicaStore.Proofs.Stream.Moves

/-!
# Commands and the audience

Whatever command a node runs, its coordinator and what is queued for its clients change by
moves that leave the audience to the coordinator, provided that nobody in the audience
issued the command or listens to a channel (`Command.dispatch_spares`).
-/

namespace ReplicaStore

open ReplicaStore.Stream (Coordinator Desk Move Piece)

/-! ### Deeds -/

/-- Whether a deed of a command from some source leaves the audience to the coordinator, and
adds nothing to the stream. -/
def Deed.Spares (audience : ClientId → Prop) (source : Source) : Deed → Prop
  | publish listeners _ => ∀ id ∈ listeners, ¬audience id
  | subscription id _ _ => ¬audience id
  | synchronise id _ _ => source = .client id ∧ ¬audience id
  | feed .. => False
  | _ => True

namespace Node

/-- The coordinator of a node, and what it works with. -/
def desk (node : Node) : Desk :=
  (node.coordinator, node.clients)

/-- Nobody in the audience listens to a channel. -/
def Deaf (audience : ClientId → Prop) (node : Node) : Prop :=
  ∀ channel, ∀ id ∈ node.channels.listeners channel, ¬audience id

end Node

namespace Channels

variable {channels : Channels} {name channel : String} {id other : ClientId}

theorem mem_listeners :
    id ∈ channels.listeners channel ↔ ∃ others, channels[channel]? = some others ∧ id ∈ others := by
  rw [listeners]
  cases channels[channel]? with
  | none => simp
  | some others => simp [Std.ExtTreeSet.mem_toList]

theorem mem_listeners_subscribe :
    id ∈ (channels.subscribe name other).listeners channel ↔
      name = channel ∧ id = other ∨ id ∈ channels.listeners channel := by
  simp only [mem_listeners, subscribe, Std.ExtTreeMap.getElem?_insert]
  by_cases same : name = channel
  · subst same
    simp only [Std.ReflCmp.compare_self, if_true, Option.some.injEq, exists_eq_left', true_and,
      Std.ExtTreeSet.mem_insert, Std.LawfulEqCmp.compare_eq_iff_eq, @eq_comm ClientId other id]
    refine or_congr_right ?_
    cases channels[name]? <;> simp
  · simp [same]

theorem mem_listeners_unsubscribe :
    id ∈ (channels.unsubscribe name other).listeners channel ↔
      id ∈ channels.listeners channel ∧ ¬(name = channel ∧ id = other) := by
  simp only [mem_listeners, unsubscribe]
  split
  · next unknown =>
      refine ⟨fun listens => ⟨listens, ?_⟩, And.left⟩
      rintro ⟨rfl, _⟩
      simp [unknown] at listens
  · next others found =>
      have kept : id ∈ others.erase other ↔ id ∈ others ∧ ¬id = other := by
        simp only [Std.ExtTreeSet.mem_erase, ne_eq, Std.LawfulEqCmp.compare_eq_iff_eq, and_comm,
          @eq_comm ClientId other id]
      by_cases same : name = channel
      · subst same
        split
        · next last =>
            have gone := Std.ExtTreeSet.eq_empty_iff_forall_not_mem.mp
              (Std.ExtTreeSet.isEmpty_iff.mp last) id
            rw [kept] at gone
            simpa [found] using gone
        · simpa [found] using kept
      · split <;>
          simp [same, Std.ExtTreeMap.getElem?_erase, Std.ExtTreeMap.getElem?_insert]

theorem mem_listeners_unsubscribeAll {names : List String} :
    id ∈ (channels.unsubscribeAll names other).listeners channel ↔
      id ∈ channels.listeners channel ∧ ¬(channel ∈ names ∧ id = other) := by
  simp only [unsubscribeAll]
  induction names generalizing channels with
  | nil => simp
  | cons first names ih =>
      rw [List.foldl_cons, ih, mem_listeners_unsubscribe, List.mem_cons, and_assoc,
        @eq_comm String channel first, ← not_or, or_and_right]

end Channels

namespace Node

variable {audience : ClientId → Prop} {source : Source} {node later : Node}

theorem Deaf.congr (deaf : node.Deaf audience) (same : later.channels = node.channels) :
    later.Deaf audience := by
  rw [Deaf, same]
  exact deaf

theorem channels_scheduleFullSync (node : Node) :
    node.scheduleFullSync.channels = node.channels := by
  rcases node.scheduleFullSync_cases with ⟨_, same⟩ | ⟨_, _, same⟩ | ⟨begun, begins, same⟩ <;> rw [same]
  obtain ⟨_, rfl⟩ := beginSnapshot?_inv begins
  rfl

theorem channels_synchronise (id : ClientId) (history : String) (offset : Int) (node : Node) :
    (Command.synchronise id history offset node).channels = node.channels := by
  rcases synchronise_cases id history offset node with ⟨_, _, same⟩ | ⟨_, same⟩ <;> rw [same]
  rw [channels_scheduleFullSync]

/-- Nobody in the audience begins to listen. -/
theorem Deaf.deed (deaf : node.Deaf audience) {deed : Deed}
    (spares : deed.Spares audience source) : (deed.apply node).Deaf audience := by
  cases deed with
  | subscription other channel listen =>
      intro name id listens
      simp only [Deed.apply, Command.changeSubscription] at listens
      split at listens
      · rcases Channels.mem_listeners_subscribe.mp listens with ⟨_, rfl⟩ | before
        · exact spares
        · exact deaf name id before
      · exact deaf name id (Channels.mem_listeners_unsubscribe.mp listens).1
  | save =>
      rcases node.save_cases with ⟨_, same⟩ | ⟨_, _, _, same⟩ <;> rw [Deed.apply, same] <;>
        exact deaf.congr rfl
  | beginSnapshot =>
      simp only [Deed.apply]
      cases begun : node.beginSnapshot? with
      | none => exact deaf
      | some later =>
          obtain ⟨_, rfl⟩ := beginSnapshot?_inv begun
          exact deaf.congr rfl
  | synchronise id history offset => exact deaf.congr (channels_synchronise ..)
  | promote =>
      apply deaf.congr
      simp only [Deed.apply, Command.promote]
      split <;> rfl
  | edit | flush | publish | listeningPort | close | acknowledge | follow | answerLeader | feed =>
      exact deaf

theorem Deaf.becomes (deaf : node.Deaf audience)
    (becomes : node.Becomes (Deed.Spares audience source) later) : later.Deaf audience :=
  becomes.keeps (fun _ _ spares deaf => deaf.deed spares) deaf

/-! ### The moves of deeds -/

/-- One node comes of another, and nothing is added to the stream.  It may begin if somebody
asks for it. -/
def Stills (audience : ClientId → Prop) (asks : Prop) (node later : Node) : Prop :=
  Desk.Becomes (Move.Still audience (node.coordinator.backlog = none ∧ asks)) node.desk later.desk

variable {asks wider : Prop}

namespace Stills

theorem refl (node : Node) : node.Stills audience asks node :=
  Desk.Becomes.refl _

theorem trans {between : Node} (first : node.Stills audience asks between)
    (second : between.Stills audience asks later) : node.Stills audience asks later :=
  @Desk.Becomes.trans_still node.desk between.desk later.desk audience asks first second

theorem moves (moves : List Move)
    (still : ∀ move ∈ moves, move.Still audience (node.coordinator.backlog = none ∧ asks))
    (reached : later.desk = Move.applyAll moves node.desk) : node.Stills audience asks later :=
  ⟨moves, still, reached⟩

theorem mono (stills : node.Stills audience asks later) (widen : asks → wider) :
    node.Stills audience wider later :=
  Desk.Becomes.mono stills fun _ still =>
    ⟨still.spares, still.keeps, fun restarts => ⟨(still.restarts restarts).1,
      widen (still.restarts restarts).2⟩⟩

end Stills

theorem stills_dropReplicas (node : Node) : node.Stills audience asks node.dropReplicas :=
  .moves [.drop node.coordinator.replicas.keys, .forget] (by simp) rfl

theorem stills_scheduleFullSync (node : Node) : node.Stills audience asks node.scheduleFullSync := by
  rcases node.scheduleFullSync_cases with ⟨_, same⟩ | ⟨_, _, same⟩ | ⟨begun, begins, same⟩ <;> rw [same]
  · exact .refl node
  · exact .moves [.await] (by simp) rfl
  · obtain ⟨_, rfl⟩ := beginSnapshot?_inv begins
    exact .moves [.begun, .await] (by simp) rfl

theorem stills_synchronise {id : ClientId} (spared : ¬audience id) (asked : asks)
    (history : String) (offset : Int) (node : Node) :
    node.Stills audience asks (Command.synchronise id history offset node) := by
  have struck : node.Stills audience asks { node with coordinator := node.coordinator.remove id } :=
    .moves [.strike id] (by simpa using spared) rfl
  apply struck.trans
  simp only [Command.synchronise]
  cases resumed : (node.coordinator.remove id).partialResync? node.clients node.clock.elapsed id
      history offset with
  | some desk =>
      refine .moves [.resume node.clock.elapsed id history offset] (by simpa using spared) ?_
      exact (congrArg (·.getD (node.coordinator.remove id, node.clients)) resumed).symm
  | none =>
      apply Stills.trans ?_ (stills_scheduleFullSync _)
      simp only [Coordinator.beginFullResync]
      cases recorded : (node.coordinator.remove id).backlog with
      | some backlog =>
          exact .moves [.enlist node.clock.elapsed id offset] (by simpa using spared) rfl
      | none =>
          refine .moves [.create offset, .enlist node.clock.elapsed id offset] ?_ rfl
          simpa [recorded, asked] using spared

/-- A deed of a command is made of moves that add nothing to the stream. -/
theorem stills_deed {deed : Deed} (spares : deed.Spares audience source) (node : Node) :
    node.Stills audience (source.isClient = true) (deed.apply node) := by
  cases deed with
  | save =>
      rcases node.save_cases with ⟨_, same⟩ | ⟨_, _, _, same⟩ <;> rw [Deed.apply, same]
      · exact .refl node
      · exact .moves [] (by simp) rfl
  | beginSnapshot =>
      simp only [Deed.apply]
      cases begun : node.beginSnapshot? with
      | none => exact .refl node
      | some later =>
          obtain ⟨_, rfl⟩ := beginSnapshot?_inv begun
          exact .moves [.begun] (by simp) rfl
  | publish listeners bytes =>
      refine .moves (listeners.map (.queue · (.data bytes))) ?_ ?_
      · intro move member
        obtain ⟨id, listens, rfl⟩ := List.mem_map.mp member
        simpa using spares id listens
      · have sent (clients : Clients) :
            Move.applyAll (listeners.map (.queue · (.data bytes))) (node.coordinator, clients) =
              (node.coordinator, clients.sendAll listeners bytes) := by
          rw [Clients.sendAll]
          induction listeners generalizing clients with
          | nil => rfl
          | cons first listeners ih =>
              exact ih (fun id member => spares id (List.mem_cons_of_mem _ member)) _
        exact (sent node.clients).symm
  | subscription id channel listen => exact .moves [.adjust id _] (by simp) rfl
  | listeningPort id port => exact .moves [.adjust id _] (by simp) rfl
  | close id => exact .moves [.queue id .close] (by simp) rfl
  | acknowledge id offset => exact .moves [.note id _] (by simp) rfl
  | synchronise id history offset =>
      exact stills_synchronise spares.2 (by rw [spares.1]; rfl) history offset node
  | promote =>
      simp only [Deed.apply, Command.promote]
      split
      · exact .moves [.branch, .forget] (by simp) rfl
      · exact .refl node
  | follow host port => exact stills_dropReplicas { node with role := node.role.follow host port }
  | edit | flush | answerLeader => exact .refl node
  | feed => exact absurd spares id

theorem Becomes.stills (becomes : node.Becomes (Deed.Spares audience source) later) :
    node.Stills audience (source.isClient = true) later :=
  becomes.keeps (fun _ between spares stills => stills.trans (stills_deed spares between))
    (.refl node)

end Node

/-! ### Commands -/

namespace Deed

variable {audience : ClientId → Prop} {source : Source} {deed : Deed}

theorem spares_of_read {moment : Int} (reads : deed.IsRead moment) : deed.Spares audience source := by
  cases deed <;> trivial

theorem spares_of_write (writes : deed.IsWrite) : deed.Spares audience source := by
  cases deed <;> trivial

theorem spares_of_notice (notice : deed.IsNotice) : deed.Spares audience source := by
  cases deed <;> trivial

theorem spares_of_turn (turn : deed.IsTurn) : deed.Spares audience source := by
  cases deed <;> trivial

end Deed

namespace Command

open CommandM

variable {audience : ClientId → Prop} {context : Context}

/-- Whoever issues commands does not belong to the audience. -/
def Outside (audience : ClientId → Prop) (context : Context) : Prop :=
  ∀ id, context.session.source = .client id → ¬audience id

section

variable (deaf : context.node.Deaf audience) (outside : Outside audience context)

include deaf outside

theorem basic_spares {command : Command} (member : command ∈ basic) (arguments : List String) :
    context.node.Becomes (Deed.Spares audience context.session.source)
      ((command.handler arguments).outcome context).2.node := by
  have reads {step : CommandM Reply} (does : step.Does (Deed.IsRead context.node.clock.wall) context) :
      context.node.Becomes (Deed.Spares audience context.session.source) (step.outcome context).2.node :=
    Node.Becomes.mono (Context.Does.becomes does) fun _ => Deed.spares_of_read
  have writes {step : CommandM Reply} (does : step.Does Deed.IsWrite context) :
      context.node.Becomes (Deed.Spares audience context.session.source) (step.outcome context).2.node :=
    Node.Becomes.mono (Context.Does.becomes does) fun _ => Deed.spares_of_write
  have turns {step : CommandM Reply} (does : step.Does Deed.IsTurn context) :
      context.node.Becomes (Deed.Spares audience context.session.source) (step.outcome context).2.node :=
    Node.Becomes.mono (Context.Does.becomes does) fun _ => Deed.spares_of_turn
  have mine {step : CommandM Reply} {allowed : Deed → Prop} (does : step.Does allowed context)
      (spares : ∀ deed, allowed deed → deed.Spares audience context.session.source) :
      context.node.Becomes (Deed.Spares audience context.session.source) (step.outcome context).2.node :=
    Node.Becomes.mono (Context.Does.becomes does) spares
  simp only [basic, List.mem_cons, List.not_mem_nil, or_false] at member
  rcases member with rfl | rfl | rfl | rfl | rfl | rfl | rfl | rfl | rfl | rfl | rfl | rfl | rfl |
    rfl | rfl | rfl | rfl | rfl | rfl | rfl | rfl | rfl | rfl | rfl | rfl | rfl | rfl | rfl | rfl
  · exact reads (ping_does arguments)
  · exact reads (echo_does arguments)
  · dsimp only
    rcases outcome_select arguments context with unchanged | ⟨index, _, changed⟩
    · rw [unchanged]
      exact .refl _
    · rw [changed]
      exact .refl _
  · exact reads (get_does arguments)
  · exact reads (mget_does arguments)
  · obtain ⟨form, does⟩ := set_does arguments context
    exact does.becomes.mono fun _ => Deed.spares_of_write
  · exact writes (mset_does arguments)
  · exact writes (del_does arguments)
  · exact reads (countExisting_does arguments)
  · exact reads (dbsize_does arguments)
  · exact writes (pexpireat_does arguments)
  · exact writes (flushall_does arguments)
  · exact writes (push_does _ _ _ arguments)
  · exact writes (push_does _ _ _ arguments)
  · exact writes (push_does _ _ _ arguments)
  · exact writes (push_does _ _ _ arguments)
  · exact reads (lrange_does arguments)
  · exact reads (llen_does arguments)
  · exact writes (lpop_does arguments)
  · exact mine (save_does arguments) fun _ same => same ▸ trivial
  · exact mine (bgsave_does arguments) fun _ same => same ▸ trivial
  · exact reads (info_does arguments)
  · exact turns (replicaof_does arguments)
  · exact turns (replicaof_does arguments)
  · exact mine (replconf_does arguments) fun _ => Deed.spares_of_notice
  · apply mine (psync_does arguments)
    rintro _ ⟨id, history, offset, client, rfl⟩
    exact ⟨client, outside id client⟩
  · apply mine (publish_listeners arguments)
    rintro _ ⟨channel, bytes, rfl⟩
    exact deaf channel
  · apply mine (subscribe_issuer arguments)
    rintro _ ⟨id, channel, listen, client, rfl⟩
    exact outside id client
  · apply mine (unsubscribe_issuer arguments)
    rintro _ ⟨id, channel, listen, client, rfl⟩
    exact outside id client

theorem all_spares {command : Command} (member : command ∈ all) (arguments : List String) :
    context.node.Becomes (Deed.Spares audience context.session.source)
      ((command.handler arguments).outcome context).2.node := by
  rcases List.mem_cons.mp member with rfl | basic
  · dsimp only
    rcases debug_cases Command.basic arguments context with
      ⟨_, _, _, form⟩ | ⟨_, count, _, _, form⟩ | does
    · rw [form]
      apply (reload_writes context).mono
      rintro deed (rfl | writes)
      · trivial
      · exact Deed.spares_of_write writes
    · have populates : context.Does _ _ := populateBy_does count context
      rw [form]
      exact populates.becomes.mono fun _ => Deed.spares_of_write
    · have ran : context.Does _ _ := does
      apply ran.becomes.mono
      rintro deed (reads | ⟨id, rfl⟩)
      · exact Deed.spares_of_read reads
      · trivial
  · exact basic_spares deaf outside basic arguments

end

/-- A command that is added to the stream writes, or sends a message.  It changes no more of
a node than its databases and what is queued for its clients. -/
theorem propagating_spares (deaf : context.node.Deaf audience) {command : Command}
    (member : command ∈ all) (propagates : command.effect.propagates = true)
    (arguments : List String) :
    context.node.Becomes (Deed.Spares audience .loader)
      ((command.handler arguments).outcome context).2.node ∧
    ((command.handler arguments).outcome context).2.node = { context.node with
      partitions := ((command.handler arguments).outcome context).2.node.partitions
      clients := ((command.handler arguments).outcome context).2.node.clients } := by
  have written {after : Node} (becomes : context.node.Becomes Deed.IsWrite after) :
      context.node.Becomes (Deed.Spares audience .loader) after ∧
        after = { context.node with partitions := after.partitions, clients := after.clients } := by
    have frame := becomes.frame
    have clients : after.clients = context.node.clients := by rw [frame]
    refine ⟨becomes.mono fun _ => Deed.spares_of_write, ?_⟩
    rw [clients]
    exact frame
  cases effect : command.effect with
  | write =>
      rcases List.mem_cons.mp member with rfl | basic
      · cases effect
      · obtain ⟨form, does⟩ := (basic_writes basic effect arguments).does context
        exact written does.becomes
  | broadcast =>
      obtain rfl := eq_publish member effect
      have published : context.Does _ _ := publish_listeners arguments
      have frame := (published.becomes.mono (by
        rintro _ ⟨channel, bytes, rfl⟩
        exact (trivial : (Deed.publish _ bytes).IsPublication))).publication_frame
      refine ⟨published.becomes.mono ?_, ?_⟩
      · rintro _ ⟨channel, bytes, rfl⟩
        exact deaf channel
      · have partitions : ((publish arguments).outcome context).2.node.partitions =
            context.node.partitions := by rw [frame]
        dsimp only
        rw [partitions]
        exact frame
  | read | admin => simp [effect, Effect.propagates] at propagates

/-- Running a command comes down to deeds that leave the audience to the coordinator.  What
a client's command adds to the stream is added last. -/
theorem dispatch_spares (deaf : context.node.Deaf audience) (outside : Outside audience context)
    (arguments : List String) :
    context.node.Becomes (Deed.Spares audience context.session.source)
        (dispatch context arguments).2.node ∧
      (context.session.source.isClient = true → context.node.following = false →
        addition? context arguments = none) ∨
    context.session.source.isClient = true ∧ context.node.following = false ∧
      ∃ form database after, addition? context arguments = some (form, database) ∧
        context.node.Becomes (Deed.Spares audience .loader) after ∧
        after = { context.node with partitions := after.partitions, clients := after.clients } ∧
        (dispatch context arguments).2.node =
          after.feed (Wire.commandBytes form) (some database) := by
  cases arguments with
  | nil => exact .inl ⟨.refl _, fun _ _ => rfl⟩
  | cons name rest =>
      rw [dispatch, dispatchFrom_context, outcome_runFrom_cons]
      simp only [addition?, lookup?]
      cases known : find? all name with
      | none => exact .inl ⟨.refl _, fun _ _ => rfl⟩
      | some command =>
          dsimp only
          have member := (find?_inv known).1
          have ran := @all_spares audience context.ready deaf outside command member rest
          cases accepts : command.accepts (rest.length + 1) with
          | false => exact .inl ⟨.refl _, fun _ _ => by simp⟩
          | true =>
              simp only [Bool.not_true, Bool.false_eq_true, if_false, Bool.true_and]
              split
              · next refused =>
                  refine .inl ⟨.refl _, fun _ leads => ?_⟩
                  simp [leads] at refused
              · cases outcome : (command.handler rest).outcome context.ready with
                | mk result after =>
                    rw [outcome] at ran
                    replace ran : context.node.Becomes
                      (Deed.Spares audience context.session.source) after.node := ran
                    cases result with
                    | error error => exact .inl ⟨ran, fun _ _ => by simp⟩
                    | ok reply =>
                        dsimp only
                        cases propagates : command.effect.propagates with
                        | false => exact .inl ⟨by simpa using ran, fun _ _ => by simp⟩
                        | true =>
                            obtain ⟨spares, frame⟩ := @propagating_spares audience context.ready
                              deaf command member propagates rest
                            rw [outcome] at spares frame
                            have following : after.node.following = context.node.following := by
                              rw [frame]
                              rfl
                            rw [following]
                            by_cases fed : context.session.source.isClient = true ∧
                                context.node.following = false
                            · refine .inr ⟨fed.1, fed.2, _, _, after.node, rfl, spares, frame, ?_⟩
                              simp [fed, Context.propagated]
                            · refine .inl ⟨?_, fun client leads => absurd ⟨client, leads⟩ fed⟩
                              cases client : context.session.source.isClient with
                              | false => simpa using ran
                              | true =>
                                  have follows : context.node.following = true := by
                                    simpa [client] using fed
                                  simpa [follows] using ran

/-- The commands of clients in the audience: they only acknowledge the stream. -/
def Acknowledges (arguments : List String) : Prop :=
  ∃ name option written offset, arguments = [name, option, written] ∧
    Text.upper name = "REPLCONF" ∧ Text.lower option = "ack" ∧
    Text.readSigned64 written = some offset

theorem find?_replconf {name : String} (named : Text.upper name = "REPLCONF") :
    find? all name = some ⟨"REPLCONF", -1, .admin, replconf⟩ := by
  simp only [find?, named]
  rfl

/-- An acknowledgement is not passed on. -/
theorem addition?_acknowledges {arguments : List String} (acknowledges : Acknowledges arguments) :
    addition? context arguments = none := by
  obtain ⟨name, option, written, offset, rfl, named, _⟩ := acknowledges
  simp [addition?, lookup?, find?_replconf named, Effect.propagates]

/-- An acknowledgement is noted, and has no reply. -/
theorem dispatch_acknowledges {id : ClientId} (client : context.session.source = .client id)
    {arguments : List String} (acknowledges : Acknowledges arguments) :
    ∃ offset, dispatch context arguments = ([], { context.ready with
      node := (Deed.acknowledge id offset).apply context.node }) := by
  obtain ⟨name, option, written, offset, rfl, named, acknowledgement, read⟩ := acknowledges
  refine ⟨offset, ?_⟩
  have ran : (replconf [option, written]).outcome context.ready =
      (.ok [], { context.ready with node := (Deed.acknowledge id offset).apply context.node }) := by
    have source : context.ready.session.source = .client id := client
    simp only [replconf, acknowledgement, List.head?_cons]
    rw [outcome_bind, outcome_orFail]
    dsimp only
    rw [outcome_bind, outcome_integer, read]
    dsimp only
    rw [outcome_bind, noteAcknowledgement, outcome_bind, outcome_session]
    simp only [source, outcome_changeNode]
    rfl
  rw [dispatch, dispatchFrom_eq, outcome_runFrom_cons, find?_replconf named]
  simp [ran, accepts, Effect.propagates]

end Command
end ReplicaStore
