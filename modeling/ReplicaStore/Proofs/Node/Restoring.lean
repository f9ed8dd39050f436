import ReplicaStore.Proofs.Node.Calm
import ReplicaStore.Proofs.Node.Waiting

/-!
# What is saved can be loaded

A snapshot that is saved at once shows what can be read at that moment, and one that is
written in the background what could be read when it was begun (`Node.Launches`), whatever
happens meanwhile.  Either can be loaded by a node with at least as many databases without a
failure, after which the same can be read, in whatever order the entries were written
(`Node.Reachable.snapshot_restores`).
-/

namespace ReplicaStore

open ReplicaStore.Stream (Coordinator)

namespace Node

variable {node before begun later : Node}

/-- The writer of a node stays as it was, or one is launched on all that clients see. -/
def Launches (node later : Node) : Prop :=
  later.writing = node.writing ∨
    later.writing = some (node.storage.reports node.partitions.contents node.clock.wall)

theorem launches_beginSnapshot (sound : node.Sound) (lifecycle : node.Lifecycle)
    (begins : node.beginSnapshot? = some later) : node.Launches later :=
  .inr (writing_beginSnapshot sound lifecycle begins)

theorem launches_scheduleFullSync (sound : node.Sound) (lifecycle : node.Lifecycle) :
    node.Launches node.scheduleFullSync := by
  rcases node.scheduleFullSync_cases with ⟨_, same⟩ | ⟨_, _, same⟩ | ⟨begun, begins, same⟩ <;> rw [same]
  · exact .inl rfl
  · exact .inl rfl
  · have launched := launches_beginSnapshot sound lifecycle begins
    exact launched

theorem launches_synchronise (sound : node.Sound) (lifecycle : node.Lifecycle) (id : ClientId)
    (history : String) (offset : Int) :
    node.Launches (Command.synchronise id history offset node) := by
  rcases synchronise_cases id history offset node with ⟨_, _, same⟩ | ⟨_, same⟩ <;> rw [same]
  · exact .inl rfl
  · exact @launches_scheduleFullSync
      { node with
        coordinator := (node.coordinator.remove id).beginFullResync node.clients
          node.clock.elapsed id offset }
      sound (lifecycle.congr rfl rfl rfl fun _ drains => drains)

end Node

/-- The deeds that begin no snapshot. -/
def Deed.IsQuiet : Deed → Prop
  | beginSnapshot | synchronise .. => False
  | _ => True

theorem Deed.writing_apply {deed : Deed} (quiet : deed.IsQuiet) (node : Node) :
    (deed.apply node).writing = node.writing := by
  cases deed with
  | save => exact node.save_frame.2.2.2
  | promote =>
      simp only [apply, Command.promote]
      split <;> rfl
  | beginSnapshot | synchronise => cases quiet
  | edit | flush | publish | subscription | listeningPort | close | acknowledge | follow
  | answerLeader | feed => rfl

namespace Command

open CommandM

/-- A handler that at most launches a writer on all that clients see. -/
def Launching (handler : CommandM Reply) (context : Context) : Prop :=
  context.node.Launches (handler.outcome context).2.node

namespace Launching

variable {context : Context}

theorem of_quiet {handler : CommandM Reply} (does : handler.Does Deed.IsQuiet context) :
    Launching handler context :=
  .inl (does.becomes.same Node.writing fun _ node quiet => Deed.writing_apply quiet node)

theorem of_impact {handler : CommandM Reply} (impact : Impact handler context)
    (sound : context.node.Sound) (lifecycle : context.node.Lifecycle) :
    Launching handler context := by
  cases impact with
  | calm calm _ => exact .inl calm.writing
  | begins later begun same =>
      rw [Launching, same]
      exact Node.launches_beginSnapshot sound lifecycle begun
  | synchronises id history offset _ same =>
      rw [Launching, same]
      exact Node.launches_synchronise sound lifecycle id history offset

theorem turn {command : Command} (member : command ∈ Command.all) (turns : command.IsTurn)
    (arguments : List String) : Launching (command.handler arguments) context := by
  rw [(replicaof_of_turn member turns).1]
  apply of_quiet
  apply (replicaof_does arguments).mono
  intro deed turn
  cases deed <;> trivial

theorem basic {command : Command} (member : command ∈ Command.basic) (arguments : List String)
    (sound : context.node.Sound) (lifecycle : context.node.Lifecycle) :
    Launching (command.handler arguments) context := by
  by_cases turns : command.IsTurn
  · exact turn (List.mem_cons_of_mem _ member) turns arguments
  · by_cases selects : command = ⟨"SELECT", 2, .read, select⟩
    · subst selects
      rcases outcome_select arguments context with unchanged | ⟨index, _, changed⟩
      · exact .inl (congrArg (·.node.writing) unchanged)
      · exact .inl (congrArg (·.node.writing) changed)
    · by_cases writes : command.effect = .write
      · have quiet {deed : Deed} (write : deed.IsWrite) : deed.IsQuiet := by
          cases deed <;> trivial
        rcases basic_does member with rfl | rfl | does
        · exact absurd rfl selects
        · obtain ⟨form, does⟩ := set_does arguments context
          exact .inl ((does.becomes.mono fun _ => quiet).same Node.writing
            fun _ node quiet => Deed.writing_apply quiet node)
        · have ran := does arguments context
          rw [writes] at ran
          exact of_quiet (ran.mono fun _ => quiet)
      · exact of_impact (basic_impact member writes turns selects arguments sound) sound lifecycle

/-- What loading a snapshot leaves of a node leaves its writer. -/
theorem reload (table : List Command) (restores : Restores table) :
    Launching (Command.reload table) context := by
  have saved : (saveNow.outcome context).2.node.writing = context.node.writing := by
    rw [outcome_saveNow]
    exact context.node.save_frame.2.2.2
  rw [Launching, outcome_reload]
  split
  · next given =>
      rw [given] at saved
      exact .inl saved
  · next payload saves given =>
      rw [given] at saved
      split
      · exact .inl saved
      · next commands read =>
          have frame := (loadFrom_does restores read
            { saves.node with partitions := saves.node.partitions.flush }).frame
          exact .inl ((congrArg Node.writing frame).trans saved)

theorem all {command : Command} (member : command ∈ Command.all) (arguments : List String)
    (sound : context.node.Sound) (lifecycle : context.node.Lifecycle) :
    Launching (command.handler arguments) context := by
  rcases List.mem_cons.mp member with rfl | among
  · rcases debug_cases Command.basic arguments context with
      ⟨_, _, _, form⟩ | ⟨_, number, _, _, form⟩ | does
    · dsimp only
      rw [form]
      exact reload _ restores_basic
    · dsimp only
      rw [form]
      apply of_quiet
      apply (populateBy_does number context).mono
      intro deed write
      cases deed <;> trivial
    · apply of_quiet
      apply does.mono
      rintro deed (read | ⟨id, rfl⟩)
      · cases deed <;> trivial
      · trivial
  · exact basic among arguments sound lifecycle

end Launching

/-- Whatever a command is, it at most launches a writer on all that clients see. -/
theorem dispatch_launches (context : Context) (arguments : List String)
    (sound : context.node.Sound) (lifecycle : context.node.Lifecycle) :
    context.node.Launches (dispatch context arguments).2.node := by
  rw [dispatch, dispatchFrom_context]
  cases arguments with
  | nil => exact .inl rfl
  | cons name arguments =>
      rw [outcome_runFrom_cons]
      split
      · exact .inl rfl
      · next command found =>
          have ran : Launching (command.handler arguments) context.ready :=
            .all (find?_inv found).1 arguments sound lifecycle
          rw [Launching] at ran
          split
          · exact .inl rfl
          · split
            · exact .inl rfl
            · split
              · next given =>
                  rw [given] at ran
                  exact ran
              · next given =>
                  rw [given] at ran
                  dsimp only
                  split <;> exact ran

end Command

namespace Node

variable {node before begun later : Node}

/-! ### What is written in the background -/

theorem serve_launches (sound : node.Sound) (lifecycle : node.Lifecycle) (id : ClientId)
    (value : Wire.Value) : node.Launches (node.serve id value) := by
  have issued (client : Client) : (node.issued id client).node.Lifecycle :=
    lifecycle.congr rfl rfl rfl fun _ drains => drains
  rcases node.serve_cases id value with
    ⟨_, same⟩ | ⟨client, _, ⟨_, _, same⟩ | ⟨arguments, _, _, same⟩⟩ <;> rw [same]
  · exact .inl rfl
  · exact .inl rfl
  · have ran := Command.dispatch_launches (node.issued id client) arguments sound (issued client)
    exact ran

theorem follow_launches (sound : node.Sound) (lifecycle : node.Lifecycle)
    (arguments : List String) (raw : Bytes) : node.Launches (node.follow arguments raw) := by
  have listening : node.listening.node.Lifecycle :=
    lifecycle.congr rfl rfl rfl fun _ drains => drains
  rcases node.follow_cases arguments raw with ⟨_, same⟩ | ⟨_, same⟩ <;> rw [same]
  · have ran := Command.dispatch_launches node.listening arguments sound listening
    exact ran
  · exact .inl rfl

/-- Whatever happens to a node without a writer, at most one is launched on all that clients
see. -/
theorem next_launches {happening : Happening} (sound : node.Sound) (lifecycle : node.Lifecycle)
    (idle : node.writing = none) (happened : node.next? happening = some later) :
    node.Launches later := by
  cases happening with
  | command id value =>
      cases happened
      exact serve_launches sound lifecycle id value
  | upkeep =>
      cases happened
      obtain ⟨_, _, writing, _⟩ := node.maintain_frame
      exact .inl writing
  | link epoch event =>
      cases happened
      simp only [handle]
      split
      · cases event with
        | fullSync id offset payload => exact .inl (node.writing_applyFullSync id offset payload)
        | continued id =>
            rcases node.continueStream_cases id with ⟨_, same⟩ | ⟨_, _, _, same⟩ <;>
              rw [takeLinkEvent, same] <;> exact .inl rfl
        | command arguments raw => exact follow_launches sound lifecycle arguments raw
        | state | heartbeat | failed => exact .inl rfl
      · exact .inl rfl
  | task position picked =>
      simp only [next?, Option.map_eq_some_iff] at happened
      obtain ⟨task, found, rfl⟩ := happened
      cases task with
      | beginSnapshot =>
          simp only [Task.event, handle]
          split
          · have launched := @launches_scheduleFullSync
              { node with tasks := node.tasks.eraseIdx position } sound (lifecycle.eraseIdx found)
            exact launched
          · exact .inl rfl
      | drain index =>
          obtain ⟨_, _, same⟩ := drain_eq { node with tasks := node.tasks.eraseIdx position } index picked
          rw [Task.event, handle, same]
          exact .inl rfl
  | report =>
      obtain ⟨_, _, _, _, running, _⟩ := next?_report happened
      rw [idle] at running
      cases running
  | connected | disconnected | advance | setWall | setStorage | refuse | hangUp | deliver
  | deliverToLeader =>
      cases happened
      exact .inl rfl

/-- The last report of a writer that was successful. -/
theorem payload_of_reports {storage : Storage} {views : List Keyspace} {now : Int}
    {payload : Bytes} (member : .finished (.ok payload) ∈ storage.reports views now) :
    payload = Snapshot.image views now := by
  simp only [Storage.reports] at member
  cases breaks : storage.breaksAfter with
  | none => simpa [breaks] using member
  | some count =>
      simp only [breaks, List.mem_append, List.mem_map, List.mem_singleton] at member
      rcases member with (⟨_, _, same⟩ | ⟨_, _, same⟩) | same <;> cases same

/-- What a writer has written in the background is what clients saw when it was begun. -/
theorem Underway.payload {happening : Happening} (reachable : before.Reachable)
    (idle : before.writing = none) (happened : before.next? happening = some begun)
    (underway : begun.Underway node) {payload : Bytes} {rest : List Report}
    (last : node.writing = some (.finished (.ok payload) :: rest)) : payload = before.picture := by
  obtain ⟨reports, running⟩ := Option.isSome_iff_exists.mp underway.running
  obtain ⟨spoken, left, same, still⟩ :=
    (underway.bides (reachable.next happening happened)).running reports running
  cases still.symm.trans last
  rcases next_launches reachable.sound reachable.lifecycle idle happened with kept | launched
  · rw [kept, idle] at running
    cases running
  · cases launched.symm.trans running
    apply payload_of_reports
    rw [same]
    exact List.mem_append_right _ List.mem_cons_self

end Node

/-! ### What is loaded again -/

/-- A snapshot of some databases at a moment, with the entries in any order. -/
def Snapshot.Depicts (payload : Bytes) (views : List Keyspace) (now : Int) : Prop :=
  ∃ orders : Orders, orders.Of views now ∧ payload = imageIn orders views now

theorem Snapshot.depicts_image (views : List Keyspace) (now : Int) :
    Depicts (image views now) views now :=
  ⟨.sorted views now, Orders.sorted_of views now, image_eq_imageIn views now⟩

/-- Reloading leaves all that can be read. -/
theorem Command.dispatch_reload {context : Context} {name option : String}
    (debug : Text.upper name = "DEBUG") (reload : Text.upper option = "RELOAD")
    (sound : context.node.Sound) (lifecycle : context.node.Lifecycle)
    (sized : context.node.Sized) :
    (dispatch context [name, option]).2.node.partitions.live context.node.clock.wall =
      context.node.partitions.live context.node.clock.wall := by
  have known : find? all name = some ⟨"DEBUG", -2, .admin, Command.debug basic⟩ := by
    rw [find?, debug]
    rfl
  have form : Command.debug basic [option] = Command.reload basic := by
    unfold Command.debug
    dsimp only
    rw [reload]
    rfl
  obtain ⟨calm, _⟩ := @reload_calm context.ready sound lifecycle sized
  have live := calm.live
  rw [dispatch, dispatchFrom_context, outcome_runFrom_cons, known]
  dsimp only
  rw [form]
  split
  · rfl
  · split
    · rfl
    · split
      · next given =>
          rw [given] at live
          exact live
      · next given =>
          rw [given] at live
          dsimp only
          split <;> exact live

namespace Node

variable {node : Node}

/-- What is saved at once is a snapshot of what clients see, and what has been written in the
background is one of what they saw when it was begun, whatever happened meanwhile.  Such a
snapshot, whatever the order of its entries is, is loaded by a node with at least as many
databases without a failure, and at the same moment each database shows the same there.
Reloading a node leaves all that can be read of it.  (The wall clock must not show a negative moment,
and all that can be read must be of a size that can be written down in 64 bits.) -/
theorem Reachable.snapshot_restores (reachable : node.Reachable) (sized : node.Sized) :
    (∀ payload, node.save.1 = .ok payload →
      Snapshot.Depicts payload node.partitions.contents node.clock.wall) ∧
    (∀ (happening : Happening) (begun later : Node) (payload : Bytes) (rest : List Report),
      node.writing = none → node.next? happening = some begun → begun.Underway later →
      later.writing = some (.finished (.ok payload) :: rest) →
      Snapshot.Depicts payload node.partitions.contents node.clock.wall) ∧
    (∀ (payload : Bytes) (base : Node),
      Snapshot.Depicts payload node.partitions.contents node.clock.wall →
      base.clock.wall = node.clock.wall → node.partitions.count ≤ base.partitions.count →
      ∃ commands partitions, Snapshot.commandsOf payload = .ok commands ∧
        Command.load commands { base with partitions := base.partitions.flush } =
          (0, { base with partitions }) ∧
        partitions.live node.clock.wall = node.partitions.live node.clock.wall ++
          List.replicate (base.partitions.count - node.partitions.count) ∅) ∧
    ∀ (session : Session) (name option : String), Text.upper name = "DEBUG" →
      Text.upper option = "RELOAD" →
      (Command.dispatch ⟨node, session⟩ [name, option]).2.node.partitions.live node.clock.wall =
        node.partitions.live node.clock.wall := by
  refine ⟨fun payload saved => ?_, fun happening begun later payload rest idle begins underway last => ?_,
    fun payload base depicts wall room => ?_, fun session name option debug reload => ?_⟩
  · rw [save_picture reachable.sound reachable.lifecycle saved]
    exact Snapshot.depicts_image ..
  · rw [underway.payload reachable idle begins last]
    exact Snapshot.depicts_image ..
  · obtain ⟨orders, of, rfl⟩ := depicts
    obtain ⟨commands, partitions, read, loaded, _, live⟩ :=
      sized.loads reachable.sound Command.restores_all of wall room
    exact ⟨commands, partitions, read, loaded, live⟩
  · exact Command.dispatch_reload debug reload reachable.sound reachable.lifecycle sized

/-- A node with a string and a list that expires. -/
def stocked : Node :=
  small.run [.runs 1 ["SET", "a", "1"], .runs 1 ["RPUSH", "l", "x", "y"],
    .runs 1 ["PEXPIREAT", "l", "5000"]]

/-- The node while all of it is written in the background, after all of it was deleted. -/
def emptied : Node :=
  ((stocked.run [.runs 1 ["BGSAVE"]]).run [.runs 1 ["FLUSHALL"]]).run [.report]

/-- What was there when the snapshot was begun is loaded by a node with two databases, although
all of it was deleted meanwhile. -/
theorem snapshot_restores_flushed :
    stocked.Reachable ∧ emptied.partitions.live stocked.clock.wall = [∅] ∧
    ∃ (payload : Bytes) (commands : List (List String)) (partitions : PartitionSet),
      emptied.writing = some [.finished (.ok payload)] ∧
      Snapshot.commandsOf payload = .ok commands ∧
      Command.load commands { small with partitions := (PartitionSet.new 2).flush } =
        (0, { small with partitions }) ∧
      partitions.live stocked.clock.wall = stocked.partitions.live stocked.clock.wall ++ [∅] := by
  have reachable : stocked.Reachable := small_reachable.run _
  obtain ⟨_, writes, loads, _⟩ :=
    Reachable.snapshot_restores reachable (Bounded.sized (by decide +kernel))
  have underway : (stocked.run [.runs 1 ["BGSAVE"]]).Underway emptied :=
    .next .report (.next (.runs 1 ["FLUSHALL"]) (.start (by decide +kernel)) (next?_run rfl)
      (by decide +kernel)) (next?_run (by decide +kernel)) (by decide +kernel)
  have last : emptied.writing = some [.finished (.ok stocked.picture)] := rfl
  have depicts := writes _ _ _ _ [] (by decide +kernel) (next?_run rfl) underway last
  obtain ⟨commands, partitions, read, loaded, live⟩ :=
    loads _ { small with partitions := .new 2 } depicts (by decide +kernel) (by decide +kernel)
  exact ⟨reachable, by decide +kernel, _, commands, partitions, last, read, loaded, live⟩

end Node
end ReplicaStore
