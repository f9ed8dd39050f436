import ReplicaStore.Proofs.Command.Conduct

/-!
# What running commands does

Whatever command is run, and whoever issued it, the node that is left comes of the one
before by the deeds of commands.  This goes for the commands of a snapshot that is
loaded too, and so for `DEBUG RELOAD`.
-/

namespace ReplicaStore

/-- The deeds of commands are all but those edits that change the phase of a
partition. -/
def Deed.IsOrdinary : Deed → Prop
  | edit _ operation => operation.onKey
  | _ => True

theorem Effect.ordinary {effect : Effect} {moment : Int} {deed : Deed}
    (allowed : effect.allows moment deed) :
    deed.IsOrdinary := by
  cases deed with
  | edit index operation =>
      cases effect <;>
        simp_all [Effect.allows, Deed.IsRead, Deed.IsWrite, Deed.IsSubscription, Deed.IsAdmin,
          Deed.IsTurn, Deed.IsNotice, Deed.IsPublication, Deed.IsOrdinary]
      cases operation <;> simp_all [Operation.reads, Operation.onKey]
  | _ => trivial

/-- Whatever is written, only the databases change. -/
theorem Node.Becomes.frame {node later : Node} (becomes : node.Becomes Deed.IsWrite later) :
    later = { node with partitions := later.partitions } := by
  have same := becomes.same (fun later => { later with partitions := node.partitions }) (by
    intro deed before writes
    cases deed with
    | edit | flush => rfl
    | _ => cases writes)
  have restored := congrArg (fun before => { before with partitions := later.partitions }) same
  exact restored

/-- Whatever is published, only what is queued for clients changes. -/
theorem Node.Becomes.publication_frame {node later : Node}
    (becomes : node.Becomes Deed.IsPublication later) :
    later = { node with clients := later.clients } := by
  have same := becomes.same (fun later => { later with clients := node.clients }) (by
    intro deed before publishes
    cases deed with
    | publish => rfl
    | _ => cases publishes)
  have restored := congrArg (fun before => { before with clients := later.clients }) same
  exact restored

namespace Command

open CommandM

/-- Whatever a handler is run with, a property of the node stays. -/
def Keeps (holds : Node → Prop) (handler : Handler) : Prop :=
  ∀ (arguments : List String) (context : Context), holds context.node →
    holds ((handler arguments).outcome context).2.node

/-- The context after several commands. -/
def runAll (table : List Command) (commands : List (List String)) (context : Context) : Context :=
  commands.foldl (fun context arguments => (dispatchFrom table context arguments).2) context

/-- Runs one command of a snapshot, and counts it if it fails. -/
def loadStep (table : List Command) (state : Nat × Context) (arguments : List String) :
    Nat × Context :=
  let (reply, context) := dispatchFrom table state.2 arguments
  (if isFailure reply then state.1 + 1 else state.1, context)

/-- Loading runs the commands one after the other. -/
theorem loadFrom_eq (table : List Command) (commands : List (List String)) (node : Node) :
    (loadFrom table commands node).2 =
      (runAll table commands { node, session := { source := .loader } }).node := by
  have runs (state : Nat × Context) :
      (commands.foldl (loadStep table) state).2 = runAll table commands state.2 := by
    induction commands generalizing state with
    | nil => rfl
    | cons arguments commands ih => exact ih _
  have loads : (loadFrom table commands node).2 =
      (commands.foldl (loadStep table) (0, { node, session := { source := .loader } })).2.node :=
    rfl
  rw [loads, runs]

/-! ### Tables of commands -/

section

variable {holds : Node → Prop} {table : List Command}
variable (feeds : ∀ (node : Node) data database, holds node → holds (node.feed data (some database)))
variable (handlers : ∀ command ∈ table, Keeps holds command.handler)

include feeds handlers

/-- What every handler of a table keeps, and what adding to the stream keeps, is kept by
running a command. -/
theorem runFrom_keeps : Keeps holds (runFrom table) := by
  intro arguments context start
  match arguments with
  | [] => exact start
  | name :: arguments =>
      rw [outcome_runFrom_cons]
      split
      · exact start
      · next command found =>
          have ran := handlers command (List.mem_of_find?_eq_some found) arguments context.ready start
          split
          · exact start
          · split
            · exact start
            · split
              · next after given =>
                  rw [given] at ran
                  exact ran
              · next reply after given =>
                  rw [given] at ran
                  dsimp only
                  split
                  · exact feeds after.node _ _ ran
                  · exact ran

theorem dispatchFrom_keeps (context : Context) (arguments : List String)
    (start : holds context.node) : holds (dispatchFrom table context arguments).2.node := by
  rw [dispatchFrom_context]
  exact runFrom_keeps feeds handlers arguments context start

theorem loadFrom_keeps (commands : List (List String)) (node : Node) (start : holds node) :
    holds (loadFrom table commands node).2 := by
  have runs (context : Context) (start : holds context.node) :
      holds (runAll table commands context).node := by
    induction commands generalizing context with
    | nil => exact start
    | cons arguments commands ih =>
        exact ih _ (dispatchFrom_keeps feeds handlers context arguments start)
  rw [loadFrom_eq]
  exact runs _ start

end

/-- What saving, emptying and loading keep is kept by all three together. -/
theorem reload_keeps {holds : Node → Prop} {table : List Command}
    (saves : ∀ node : Node, holds node → holds node.save.2)
    (flushes : ∀ node : Node, holds node →
      holds { node with partitions := node.partitions.flush })
    (loads : ∀ commands node, holds node → holds (loadFrom table commands node).2)
    (context : Context) (start : holds context.node) :
    holds ((reload table).outcome context).2.node := by
  have saved : holds (saveNow.outcome context).2.node := by
    rw [outcome_saveNow]
    exact saves context.node start
  rw [outcome_reload]
  split
  · next given =>
      rw [given] at saved
      exact saved
  · next given =>
      rw [given] at saved
      split
      · exact saved
      · next commands _ => exact loads commands _ (flushes _ saved)

/-! ### DEBUG -/

theorem showBacklog_does (offset : Int) (context : Context) :
    (showBacklog offset).Does (Deed.IsRead context.node.clock.wall) context := by
  apply Does.node
  split
  · exact .pure _
  · split
    · exact .pure _
    · exact .throw _

theorem closeClient_does (id : ClientId) (context : Context) :
    (closeClient id).Does (· = .close id) context := by
  apply Does.node
  split
  · apply Does.bind
    · exact .changeNode (.close id) rfl rfl
    · intro _ after _
      exact .ok
  · exact .throw _

/-- Storing as many keys as an argument says. -/
def populateBy (argument : String) : CommandM Reply := do
  let count ← integer argument
  if count < 0 then throw .notAnInteger
  else populate count.toNat

/-- Apart from reloading and populating, DEBUG reads at most, or closes a connection. -/
theorem debug_cases (table : List Command) (arguments : List String) (context : Context) :
    (∃ name, Text.upper name = "RELOAD" ∧ arguments = [name] ∧
      debug table arguments = reload table) ∨
    (∃ name count, Text.upper name = "POPULATE" ∧ arguments = [name, count] ∧
      debug table arguments = populateBy count) ∨
    (debug table arguments).Does
      (fun deed => deed.IsRead context.node.clock.wall ∨ ∃ id, deed = .close id) context := by
  have reads : ∀ {step : CommandM Reply}, step.Does (Deed.IsRead context.node.clock.wall) context →
      step.Does (fun deed => deed.IsRead context.node.clock.wall ∨ ∃ id, deed = .close id) context :=
    fun does => does.mono fun _ => .inl
  match arguments with
  | [] => exact .inr (.inr (.throw _))
  | subcommand :: arguments =>
      unfold debug
      dsimp only
      split
      · next reload => exact .inl ⟨subcommand, reload, rfl, rfl⟩
      · next count populate =>
          refine .inr (.inl ⟨subcommand, count, populate, rfl, ?_⟩)
          simp only [populateBy]
          congr
      all_goals refine .inr (.inr ?_)
      · apply Does.integer
        intro offset
        exact reads (showBacklog_does offset context)
      · apply Does.node
        exact .pure _
      · apply Does.node
        exact .pure _
      · apply Does.node
        exact .pure _
      · exact reads (describeKey_does _)
      · exact .throw _
      · apply Does.orFail
        intro id
        exact (closeClient_does id context).mono fun _ same => .inr ⟨id, same⟩
      · exact .pure _
      · exact .throw _

/-! ### Ordinary deeds -/

theorem basic_ordinary {command : Command} (member : command ∈ basic) (start : Node) :
    Keeps (start.Becomes Deed.IsOrdinary) command.handler := by
  intro arguments context becomes
  rcases basic_does member with rfl | rfl | does
  · dsimp only
    rcases outcome_select arguments context with unchanged | ⟨index, _, changed⟩
    · rw [unchanged]
      exact becomes
    · rw [changed]
      exact becomes
  · obtain ⟨form, does⟩ := set_does arguments context
    exact becomes.trans (does.becomes.mono fun _ => @Effect.ordinary .write 0 _)
  · exact becomes.trans ((does arguments context).becomes.mono fun _ => Effect.ordinary)

theorem populate_follows (count : Nat) (partition : Partition) :
    partition.Follows (·.onKey) ((List.range count).foldl
      (fun partition index =>
        partition.put s!"key:{index}" { datum := .text s!"value:{index}" })
      partition) :=
  .foldl (fun partition _ => partition.put_follows _ _) _ partition

theorem populateBy_does (argument : String) (context : Context) :
    (populateBy argument).Does Deed.IsWrite context := by
  apply Does.integer
  intro count
  split
  · exact .throw _
  · apply Does.bind
    · exact .writing (populate_follows _)
    · intro _ after _
      exact .ok

theorem debug_ordinary (start : Node) : Keeps (start.Becomes Deed.IsOrdinary) (debug basic) := by
  intro arguments context becomes
  rcases debug_cases basic arguments context with ⟨_, _, _, form⟩ | ⟨_, count, _, _, form⟩ | does
  · rw [form]
    apply reload_keeps
    · exact fun node before => before.trans (.deed .save trivial node)
    · exact fun node before => before.trans (.deed .flush trivial node)
    · apply loadFrom_keeps
      · exact fun node data database before => before.trans (.deed (.feed data database) trivial node)
      · exact fun command member => basic_ordinary member start
    · exact becomes
  · rw [form]
    exact becomes.trans
      ((populateBy_does count context).becomes.mono fun _ => @Effect.ordinary .write 0 _)
  · refine becomes.trans (does.becomes.mono ?_)
    rintro deed (read | ⟨id, rfl⟩)
    · exact @Effect.ordinary .read _ _ (.inl read)
    · trivial

theorem all_ordinary {command : Command} (member : command ∈ all) (start : Node) :
    Keeps (start.Becomes Deed.IsOrdinary) command.handler := by
  rcases List.mem_cons.mp member with rfl | basic
  · exact debug_ordinary start
  · exact basic_ordinary basic start

theorem feed_ordinary (start node : Node) (data : Bytes) (database : Nat)
    (becomes : start.Becomes Deed.IsOrdinary node) :
    start.Becomes Deed.IsOrdinary (node.feed data (some database)) :=
  becomes.trans (.deed (.feed data database) trivial node)

/-- Whatever a command is, and whoever issued it, it is made of ordinary deeds. -/
theorem dispatch_ordinary (context : Context) (arguments : List String) :
    context.node.Becomes Deed.IsOrdinary (dispatch context arguments).2.node :=
  dispatchFrom_keeps (feed_ordinary context.node) (fun _ member => all_ordinary member context.node)
    context arguments (.refl _)

theorem load_ordinary (commands : List (List String)) (node : Node) :
    node.Becomes Deed.IsOrdinary (load commands node).2 :=
  loadFrom_keeps (feed_ordinary node) (fun _ member => all_ordinary member node) commands node
    (.refl _)

end Command
end ReplicaStore
