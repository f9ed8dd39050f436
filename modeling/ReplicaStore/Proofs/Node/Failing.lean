import ReplicaStore.Proofs.Command.Refusal
import ReplicaStore.Proofs.Node.Serving
import ReplicaStore.Proofs.Node.Unseen

/-!
# Commands that fail

What a command has done before it fails stays: keys that it came across may have been merged
or reaped, and all partitions may have been stopped and resumed.  None of this can be seen.
Whoever issued the command, what can be read, the stream, the replicas, the link to a leader
and the connections are as they were (`Node.Reachable.failures_unseen`).
-/

namespace ReplicaStore

/-- A change that makes nothing different of the client there is none. -/
theorem Clients.modify_same {clients : Clients} {id : ClientId} {change : Client → Client}
    (same : ∀ client, clients[id]? = some client → change client = client) :
    clients.modify id change = clients := by
  apply Std.ExtTreeMap.ext_getElem?
  intro other
  rw [Std.ExtTreeMap.getElem?_modify]
  split
  · next here =>
      rw [← Std.LawfulEqCmp.eq_of_compare here]
      cases found : clients[id]? with
      | none => rfl
      | some client => exact congrArg some (same client found)
  · rfl

namespace Node

variable {before between after node : Node}

/-- Nothing has changed but what cannot be seen of the databases, and of the storage. -/
structure Intact (before after : Node) : Prop where
  clock : after.clock = before.clock
  sound : after.Sound
  live : after.partitions.live before.clock.wall = before.partitions.live before.clock.wall
  coordinator : after.coordinator = before.coordinator
  role : after.role = before.role
  clients : after.clients = before.clients
  channels : after.channels = before.channels

namespace Intact

theorem refl (sound : node.Sound) : node.Intact node :=
  ⟨rfl, sound, rfl, rfl, rfl, rfl, rfl⟩

/-- Where only the databases are touched, it is enough that the same can be read. -/
theorem of_calm (calm : before.Calm after)
    (frame : after = { before with partitions := after.partitions }) : before.Intact after := by
  refine ⟨?_, calm.sound, calm.live, ?_, ?_, ?_, ?_⟩ <;> rw [frame]

theorem save (sound : node.Sound) : node.Intact node.save.2 := by
  have calm := save_calm sound
  rcases node.save_cases with ⟨_, same⟩ | ⟨_, _, _, same⟩ <;> rw [same] at calm ⊢ <;>
    exact ⟨rfl, calm.sound, calm.live, rfl, rfl, rfl, rfl⟩

/-- What is read at the moment stays as it is. -/
theorem reads (becomes : before.Becomes (Deed.IsRead before.clock.wall) after)
    (sound : before.Sound) : before.Intact after := by
  have calm : before.Calm after := by
    refine (becomes.mono fun deed read => ?_).calm sound
    cases deed <;> first | exact read | cases read
  refine .of_calm calm (becomes.mono fun deed read => ?_).frame
  cases deed with
  | edit index operation =>
      cases operation <;> simp_all [Deed.IsRead, Deed.IsWrite, Operation.reads, Operation.onKey]
  | _ => cases read

end Intact
end Node

namespace Command

open CommandM

/-- A step that leaves no trace if it fails: nothing that can be seen has changed, and the
session has selected the same database. -/
def Traceless {α : Type} (step : CommandM α) : Prop :=
  ∀ (context : Context) (error : CommandError) (after : Context), context.node.Sound →
    step.outcome context = (.error error, after) →
    context.node.Intact after.node ∧ after.session.database = context.session.database

namespace Traceless

variable {α : Type} {step : CommandM α}

theorem refuses (refuses : Refuses step) : Traceless step := by
  intro context error after sound failed
  obtain rfl := refuses context error after failed
  exact ⟨.refl sound, rfl⟩

theorem reads (does : ∀ context : Context, step.Does (Deed.IsRead context.node.clock.wall) context) :
    Traceless step := by
  intro context error after sound failed
  have ran : context.Does (Deed.IsRead context.node.clock.wall) (step.outcome context).2 :=
    does context
  rw [failed] at ran
  exact ⟨.reads ran.becomes sound, congrArg Session.database ran.session⟩

theorem writes {handler : CommandM Reply} (writes : Writes handler) : Traceless handler := by
  intro context error after sound failed
  have calm := writes.calm_of_error sound failed
  obtain ⟨form, does⟩ := writes.does context
  rw [failed] at does
  exact ⟨.of_calm calm does.becomes.frame, (congrArg Session.database does.session).trans rfl⟩

theorem saveNow : Traceless saveNow := by
  intro context error after sound failed
  rw [outcome_saveNow] at failed
  obtain rfl := congrArg Prod.snd failed
  exact ⟨.save sound, rfl⟩

theorem save (arguments : List String) : Traceless (save arguments) := by
  intro context error after sound failed
  cases saved : Command.saveNow.outcome context with
  | mk result between =>
      cases result with
      | error other =>
          rw [Command.save, outcome_bind_error saved] at failed
          cases failed
          exact saveNow context _ _ sound saved
      | ok payload =>
          rw [Command.save, outcome_bind_ok saved] at failed
          cases failed

/-- A snapshot that cannot be stored is not loaded, and one that cannot be read neither. -/
theorem reload (table : List Command) : Traceless (reload table) := by
  intro context error after sound failed
  have intact : context.node.Intact (Command.saveNow.outcome context).2.node ∧
      (Command.saveNow.outcome context).2.session.database = context.session.database := by
    rw [outcome_saveNow]
    exact ⟨.save sound, rfl⟩
  rw [outcome_reload] at failed
  split at failed
  · next given =>
      cases failed
      rw [given] at intact
      exact intact
  · next given =>
      rw [given] at intact
      split at failed
      · cases failed
        exact intact
      · -- Loading does not fail as a whole, whatever its commands do.
        cases failed

theorem debug (arguments : List String) : Traceless (debug basic arguments) := by
  match arguments with
  | [] => exact .refuses (.throw _)
  | subcommand :: arguments =>
      unfold Command.debug
      dsimp only
      split
      · exact reload basic
      · next argument _ => exact writes (populateBy_writes argument)
      · exact reads fun context => .integer fun offset => showBacklog_does offset context
      · exact .refuses (.node fun node => .completes (.pure _))
      · exact .refuses (.node fun node => .completes (.pure _))
      · exact .refuses (.node fun node => .completes (.pure _))
      · next key _ => exact reads fun context => describeKey_does key
      · exact .refuses (.throw _)
      · exact .refuses (.orFail fun id => .closeClient id)
      · exact .refuses (.completes (.pure _))
      · exact .refuses (.throw _)

theorem admin {command : Command} (member : command ∈ basic) (admin : command.effect = .admin)
    (arguments : List String) : Traceless (command.handler arguments) := by
  rcases admin_cases member admin with form | form | form | form | turn
  · rw [form]
    exact save arguments
  · rw [form]
    exact .refuses (.bgsave arguments)
  · rw [form]
    exact .refuses (.replconf arguments)
  · rw [form]
    exact .refuses (.psync arguments)
  · rw [(replicaof_of_turn (List.mem_cons_of_mem _ member) turn).1]
    exact .refuses (.replicaof arguments)

/-- Commands that read, but for those that change the session or its subscriptions. -/
theorem read_cases {command : Command} (member : command ∈ basic) (reads : command.effect = .read) :
    command.handler = select ∨ command.handler = subscribe ∨ command.handler = unsubscribe ∨
      ∀ (arguments : List String) (context : Context),
        (command.handler arguments).Does (Deed.IsRead context.node.clock.wall) context := by
  simp only [basic, List.mem_cons, List.not_mem_nil, or_false] at member
  rcases member with rfl | rfl | rfl | rfl | rfl | rfl | rfl | rfl | rfl | rfl | rfl | rfl | rfl |
    rfl | rfl | rfl | rfl | rfl | rfl | rfl | rfl | rfl | rfl | rfl | rfl | rfl | rfl | rfl | rfl
  all_goals try cases reads
  · exact .inr <| .inr <| .inr fun arguments _ => ping_does arguments
  · exact .inr <| .inr <| .inr fun arguments _ => echo_does arguments
  · exact .inl rfl
  · exact .inr <| .inr <| .inr fun arguments _ => get_does arguments
  · exact .inr <| .inr <| .inr fun arguments _ => mget_does arguments
  · exact .inr <| .inr <| .inr fun arguments _ => countExisting_does arguments
  · exact .inr <| .inr <| .inr fun arguments _ => dbsize_does arguments
  · exact .inr <| .inr <| .inr fun arguments _ => lrange_does arguments
  · exact .inr <| .inr <| .inr fun arguments _ => llen_does arguments
  · exact .inr <| .inr <| .inr fun arguments _ => info_does arguments
  · exact .inr (.inl rfl)
  · exact .inr (.inr (.inl rfl))

theorem all {command : Command} (member : command ∈ all) (arguments : List String) :
    Traceless (command.handler arguments) := by
  rcases List.mem_cons.mp member with rfl | basic
  · exact debug arguments
  · cases effect : command.effect with
    | write => exact writes (basic_writes basic effect arguments)
    | admin => exact admin basic effect arguments
    | broadcast =>
        obtain rfl := eq_publish member effect
        exact .refuses (.publish arguments)
    | read =>
        rcases read_cases basic effect with form | form | form | does
        · rw [form]
          exact .refuses (.select arguments)
        · rw [form]
          exact .refuses (.subscribe arguments)
        · rw [form]
          exact .refuses (.unsubscribe arguments)
        · exact reads (does arguments)

end Traceless

/-- A command that is answered with a failure leaves no trace. -/
theorem dispatch_traceless {context : Context} (sound : context.node.Sound) {arguments : List String}
    (failed : isFailure (dispatch context arguments).1 = true) :
    context.node.Intact (dispatch context arguments).2.node ∧
      (dispatch context arguments).2.session.database = context.session.database := by
  rcases dispatch_failure failed with same | ⟨name, rest, command, error, _, known, ran⟩
  · rw [same]
    exact ⟨.refl sound, rfl⟩
  · exact Traceless.all (find?_inv known).1 rest context.ready error _ sound ran

end Command

namespace Node

variable {node : Node}

/-- Whatever a command is, whoever issued it and whatever has happened to the node before: if
it is answered with a failure, the same can be read of every database, the session has
selected the same one, and the history, the stream, the replicas, the role and all
connections with their subscriptions are as they were. -/
theorem Reachable.failures_unseen (reachable : node.Reachable) (session : Session)
    (arguments : List String)
    (failed : Command.isFailure (Command.dispatch { node, session } arguments).1 = true) :
    node.Intact (Command.dispatch { node, session } arguments).2.node ∧
      (Command.dispatch { node, session } arguments).2.session.database = session.database :=
  Command.dispatch_traceless reachable.sound failed

/-- A node that is writing a snapshot of a string. -/
def copying : Node :=
  small.run [.runs 1 ["SET", "k", "v"], .runs 1 ["BGSAVE"]]

/-- Pushing to the string fails when it has been copied for the sake of the snapshot. -/
theorem failures_unseen_copied :
    let after := (Command.dispatch { node := copying, session := { source := .client 2 } }
      ["RPUSH", "k", "w"]).2.node
    (copying.partitions.get? 0).map (·.shadow.size) = some 0 ∧
      (after.partitions.get? 0).map (·.shadow.size) = some 1 ∧ copying.Intact after :=
  ⟨by decide +kernel, by decide +kernel,
    ((small_reachable.run _).failures_unseen { source := .client 2 } ["RPUSH", "k", "w"]
      (by decide +kernel)).1⟩

/-- A request that is answered with a failure leaves nothing behind but the reply, and the
moment at which the replica that sent it was last heard of. -/
theorem Reachable.obey_failure (reachable : node.Reachable) (id : ClientId) (value : Wire.Value)
    (failed : Command.isFailure (node.obey id value).1 = true) :
    { node with coordinator := node.coordinator.touch node.clock.elapsed id }.Intact
      (node.obey id value).2 := by
  have sound : { node with coordinator := node.coordinator.touch node.clock.elapsed id }.Sound :=
    reachable.sound
  rw [obey] at failed ⊢
  cases here : node.clients[id]? with
  | none =>
      rw [here] at failed
      cases failed
  | some client =>
      rw [here] at failed
      dsimp only at failed ⊢
      cases given : value.arguments? with
      | none => exact .refl sound
      | some arguments =>
          rw [given] at failed
          obtain ⟨intact, database⟩ := Command.dispatch_traceless sound failed
          refine ⟨intact.clock, intact.sound, intact.live, intact.coordinator, intact.role, ?_,
            intact.channels⟩
          dsimp only at database ⊢
          rw [database, intact.clients]
          apply Clients.modify_same
          rintro other there
          cases here.symm.trans there
          rfl

end Node
end ReplicaStore
