import ReplicaStore.Proofs.Command.Deeds

/-!
# What each command does

For every command the kinds of deed that it is made of.  A command that reads at most
reaps the keys it comes across, one that writes changes keys of its own database or
empties all of them, and only the commands of administration touch snapshots, the
replicas or the link to a leader (`Effect.allows`).  `SELECT` stands apart, for it
changes nothing but the session.
-/

namespace ReplicaStore

namespace Deed

/-- What is read at a moment. -/
def IsRead (moment : Int) : Deed → Prop
  | edit _ operation => operation.reads moment
  | _ => False

def IsWrite : Deed → Prop
  | edit _ operation => operation.onKey
  | flush => True
  | _ => False

def IsSubscription : Deed → Prop
  | subscription .. => True
  | _ => False

def IsPublication : Deed → Prop
  | publish .. => True
  | _ => False

def IsTurn : Deed → Prop
  | promote | follow .. => True
  | _ => False

/-- What a replica or a leader has said about itself. -/
def IsNotice : Deed → Prop
  | listeningPort .. | acknowledge .. | answerLeader => True
  | _ => False

def IsAdmin : Deed → Prop
  | save | beginSnapshot | synchronise .. => True
  | deed => deed.IsTurn ∨ deed.IsNotice

end Deed

/-- The deeds that a command with an effect may be made of at a moment. -/
def Effect.allows (effect : Effect) (moment : Int) (deed : Deed) : Prop :=
  match effect with
  | .read => deed.IsRead moment ∨ deed.IsSubscription
  | .write => deed.IsWrite
  | .admin => deed.IsAdmin
  | .broadcast => deed.IsPublication

namespace Partition

variable (key : String) (now : Int) (partition : Partition)

theorem get_follows : partition.Follows (·.reads now) (partition.get key now).2 :=
  .perform (.get key now) (by simp [Operation.reads]) partition

theorem contains_follows : partition.Follows (·.reads now) (partition.contains key now).2 :=
  get_follows key now partition

theorem put_follows (entry : Entry) : partition.Follows (·.onKey) (partition.put key entry) :=
  .perform (.put key entry) (by rfl) partition

theorem delete_follows : partition.Follows (·.onKey) (partition.delete key) :=
  .perform (.delete key) (by rfl) partition

theorem modify_follows (change : Datum → Datum) :
    partition.Follows (·.onKey) (partition.modify key now change).2 :=
  .perform (.modify key now change) (by rfl) partition

theorem Follows.writes {before after : Partition} {moment : Int}
    (follows : before.Follows (·.reads moment) after) : before.Follows (·.onKey) after := by
  obtain ⟨operations, all, reached⟩ := follows
  refine ⟨operations, ?_, reached⟩
  intro operation member
  have reads := all operation member
  cases operation <;> simp_all [Operation.reads, Operation.onKey]

end Partition

namespace CommandM.Does

variable {α : Type} {context : Context} {use : Partition → α × Partition}

theorem reading {moment : Int}
    (follows : ∀ partition : Partition, partition.Follows (·.reads moment) (use partition).2) :
    (CommandM.onPartition use).Does (Deed.IsRead moment) context :=
  onPartition follows fun _ reads => reads

theorem writing (follows : ∀ partition : Partition, partition.Follows (·.onKey) (use partition).2) :
    (CommandM.onPartition use).Does Deed.IsWrite context :=
  onPartition follows fun _ writes => writes

end CommandM.Does

namespace Command

open CommandM Deed

variable {α : Type} {context : Context}

/-! ### Reading -/

theorem forEach_follows {step : Partition → String → α × Partition} {allowed : Operation → Prop}
    (does : ∀ (partition : Partition) key, partition.Follows allowed (step partition key).2)
    (keys : List String) (partition : Partition) :
    partition.Follows allowed (forEach step keys partition).2 := by
  have follows (results : List α) (partition : Partition) :
      partition.Follows allowed (keys.foldl
        (fun state key => ((step state.2 key).1 :: state.1, (step state.2 key).2))
        (results, partition)).2 := by
    induction keys generalizing results partition with
    | nil => exact .refl partition
    | cons key keys ih => exact (does partition key).trans (ih _ _)
  exact follows [] partition

theorem ping_does (arguments : List String) : (ping arguments).Does (IsRead context.node.clock.wall) context := by
  match arguments with
  | [] | [_] => exact .pure _
  | _ :: _ :: _ => exact .throw _

theorem echo_does (arguments : List String) : (echo arguments).Does (IsRead context.node.clock.wall) context := by
  match arguments with
  | [] => exact .throw _
  | _ :: _ => exact .pure _

theorem get_does (arguments : List String) : (get arguments).Does (IsRead context.node.clock.wall) context := by
  match arguments with
  | [key] =>
      apply Does.now
      apply Does.bind
      · exact .reading (Partition.get_follows key _)
      · intro found after _
        match found with
        | some (.text _) | none => exact .pure _
        | some (.list _) => exact .throw _
  | [] | _ :: _ :: _ => exact .throw _

theorem mget_does (keys : List String) : (mget keys).Does (IsRead context.node.clock.wall) context := by
  apply Does.now
  apply Does.bind
  · exact .reading (forEach_follows (fun partition key => Partition.get_follows key _ partition) keys)
  · intro found after _
    exact .pure _

theorem countExisting_does (keys : List String) : (countExisting keys).Does (IsRead context.node.clock.wall) context := by
  apply Does.now
  apply Does.bind
  · exact .reading (forEach_follows (fun partition key => Partition.contains_follows key _ partition) keys)
  · intro found after _
    exact .count _

theorem dbsize_does (arguments : List String) : (dbsize arguments).Does (IsRead context.node.clock.wall) context := by
  apply Does.bind
  · exact .reading .refl
  · intro size after _
    exact .count _

theorem items_does (found : Option Datum) {allowed : Deed → Prop} :
    (items? found).Does allowed context := by
  match found with
  | some (.list _) | none => exact .pure _
  | some (.text _) => exact .throw _

theorem readList_does (key : String) : (readList key).Does (IsRead context.node.clock.wall) context := by
  apply Does.now
  apply Does.bind
  · exact .reading (Partition.get_follows key _)
  · intro found after _
    exact items_does found

theorem lrange_does (arguments : List String) : (lrange arguments).Does (IsRead context.node.clock.wall) context := by
  match arguments with
  | [key, start, stop] =>
      apply Does.integer
      intro start
      apply Does.integer
      intro stop
      apply Does.bind (readList_does key)
      intro items after _
      exact .pure _
  | [] | [_] | [_, _] | _ :: _ :: _ :: _ :: _ => exact .throw _

theorem llen_does (arguments : List String) : (llen arguments).Does (IsRead context.node.clock.wall) context := by
  match arguments with
  | [key] =>
      apply Does.bind (readList_does key)
      intro items after _
      exact .count _
  | [] | _ :: _ :: _ => exact .throw _

theorem info_does (arguments : List String) : (info arguments).Does (IsRead context.node.clock.wall) context := by
  apply Does.node
  dsimp only
  split
  · exact .throw _
  · exact .pure _

theorem describeKey_does (key : String) : (describeKey key).Does (IsRead context.node.clock.wall) context := by
  apply Does.now
  apply Does.bind
  · exact .reading (Partition.get_follows key _)
  · intro found after _
    apply Does.orFail
    intro datum
    exact .pure _

/-! ### Writing -/

theorem putPairs_follows (arguments : List String) (partition : Partition) :
    partition.Follows (·.onKey) (putPairs partition arguments) := by
  fun_induction putPairs partition arguments with
  | case1 partition key value rest ih => exact (partition.put_follows key _).trans ih
  | case2 => exact .refl _

theorem store_does (key value : String) (moment : Option Int) :
    (store key value moment).Does IsWrite context := by
  apply Does.bind
  · exact .writing (Partition.put_follows key · _)
  · intro _ after _
    exact .ok

theorem session_store (key value : String) (expiry : Option Int) (context : Context) :
    ((store key value expiry).outcome context).2.session = context.session := by
  have does : context.Does IsWrite ((store key value expiry).outcome context).2 :=
    store_does key value expiry
  exact does.session

theorem mset_does (arguments : List String) : (mset arguments).Does IsWrite context := by
  rw [mset_eq]
  split
  · exact .throw _
  · apply Does.bind
    · exact .writing (putPairs_follows arguments)
    · intro _ after _
      exact .ok

theorem removeLive_follows (now : Int) (partition : Partition) (key : String) :
    partition.Follows (·.onKey) (removeLive now partition key).2 := by
  have touched := (partition.get_follows key now).writes
  simp only [removeLive, Partition.contains]
  by_cases found : (partition.get key now).1.isSome
  all_goals simp only [found]
  · exact touched.trans (Partition.delete_follows key _)
  · exact touched

theorem del_does (keys : List String) : (del keys).Does IsWrite context := by
  apply Does.now
  apply Does.bind
  · exact .writing (forEach_follows (removeLive_follows _) keys)
  · intro removed after _
    exact .count _

theorem expireAt_follows (now : Int) (key : String) (moment : Int) (partition : Partition) :
    partition.Follows (·.onKey) (expireAt now key moment partition).2 := by
  have touched := (partition.get_follows key now).writes
  simp only [expireAt]
  split
  · next read => simpa only [read] using touched
  · next datum after read =>
      rw [read] at touched
      split
      · exact touched.trans (Partition.delete_follows key _)
      · exact touched.trans (Partition.put_follows key _ _)

theorem pexpireat_does (arguments : List String) : (pexpireat arguments).Does IsWrite context := by
  match arguments with
  | [key, moment] =>
      apply Does.integer
      intro moment
      apply Does.now
      apply Does.bind
      · exact .writing (expireAt_follows _ key moment)
      · intro found after _
        exact .count _
  | [] | [_] | _ :: _ :: _ :: _ => exact .throw _

theorem flushall_does (arguments : List String) : (flushall arguments).Does IsWrite context := by
  rcases flushall_eq arguments with form | form
  · rw [form]
    exact .throw _
  · rw [form]
    apply Does.bind
    · exact .changeNode flush trivial rfl
    · intro _ after _
      exact .ok

theorem changeList_does (key : String) (change : List String → List String) :
    (changeList key change).Does IsWrite context := by
  apply Does.now
  apply Does.bind
  · exact .writing (Partition.modify_follows key _ · _)
  · intro found after _
    exact items_does found

theorem push_does (name : String) (side : Side) (onlyExisting : Bool) (arguments : List String) :
    (push name side onlyExisting arguments).Does IsWrite context := by
  match arguments with
  | key :: value :: more =>
      apply Does.bind (changeList_does key _)
      intro items after _
      match items with
      | some items => exact .count _
      | none =>
          dsimp only
          split
          · exact .count _
          · apply Does.bind
            · exact .writing (Partition.put_follows key · _)
            · intro _ later _
              exact .count _
  | [] | [_] => exact .throw _

theorem pop_does (key : String) (count : Nat) : (pop key count).Does IsWrite context := by
  apply Does.bind (changeList_does key _)
  intro items after _
  match items with
  | none => exact .pure _
  | some items =>
      dsimp only
      split
      · apply Does.bind
        · exact .writing (Partition.delete_follows key)
        · intro _ later _
          exact .pure _
      · exact .pure _

theorem lpop_does (arguments : List String) : (lpop arguments).Does IsWrite context := by
  match arguments with
  | [key] =>
      apply Does.bind (pop_does key 1)
      intro items after _
      match items with
      | some (_ :: _) | some [] | none => exact .pure _
  | [key, count] =>
      rw [lpop_eq]
      apply Does.integer
      intro count
      split
      · exact .throw _
      · apply Does.bind (pop_does key _)
        intro items after _
        match items with
        | some _ | none => exact .pure _
  | [] | _ :: _ :: _ :: _ => exact .throw _

/-! ### Messages between connections -/

/-- A message goes to whoever listens to its channel. -/
theorem publish_listeners (arguments : List String) :
    (publish arguments).Does
      (fun deed => ∃ channel bytes, deed = .publish (context.node.channels.listeners channel) bytes)
      context := by
  match arguments with
  | [channel, message] =>
      apply Does.node
      apply Does.bind
      · exact .changeNode (.publish _ _) ⟨channel, _, rfl⟩ rfl
      · intro _ after _
        exact .count _
  | [] | [_] | _ :: _ :: _ :: _ => exact .throw _

theorem publish_does (arguments : List String) :
    (publish arguments).Does IsPublication context := by
  apply (publish_listeners arguments).mono
  rintro _ ⟨channel, bytes, rfl⟩
  trivial

theorem changeSubscriptions_does (id : ClientId) (kind : String) (listen : Bool)
    (channels : List String) :
    (changeSubscriptions id kind listen channels).Does
      (fun deed => ∃ channel, deed = .subscription id channel listen) context := by
  simp only [changeSubscriptions]
  induction channels generalizing context with
  | nil => exact .pure _
  | cons channel channels ih =>
      rw [List.mapM_cons]
      apply Does.bind
      · apply Does.bind
        · exact .changeNode (.subscription id channel listen) ⟨channel, rfl⟩ rfl
        · intro _ between _
          apply Does.node
          exact .pure _
      · intro first after _
        apply Does.bind ih
        intro others later _
        exact .pure _

/-- Clients subscribe for themselves. -/
theorem subscribe_issuer (channels : List String) :
    (subscribe channels).Does
      (fun deed => ∃ id channel listen,
        context.session.source = .client id ∧ deed = .subscription id channel listen)
      context := by
  simp only [subscribe]
  split
  · exact .throw _
  · apply Does.session
    split
    · next id source =>
        apply (changeSubscriptions_does id _ _ channels).mono
        rintro _ ⟨channel, rfl⟩
        exact ⟨id, channel, _, source, rfl⟩
    · exact .pure _

theorem unsubscribe_issuer (channels : List String) :
    (unsubscribe channels).Does
      (fun deed => ∃ id channel listen,
        context.session.source = .client id ∧ deed = .subscription id channel listen)
      context := by
  apply Does.session
  split
  · next id source =>
      apply Does.node
      dsimp only
      generalize (if channels.isEmpty then _ else channels) = chosen
      split
      · exact .pure _
      · apply (changeSubscriptions_does id _ _ chosen).mono
        rintro _ ⟨channel, rfl⟩
        exact ⟨id, channel, _, source, rfl⟩
  · exact .pure _

theorem subscribe_does (channels : List String) :
    (subscribe channels).Does IsSubscription context := by
  apply (subscribe_issuer channels).mono
  rintro _ ⟨_, _, _, _, rfl⟩
  trivial

theorem unsubscribe_does (channels : List String) :
    (unsubscribe channels).Does IsSubscription context := by
  apply (unsubscribe_issuer channels).mono
  rintro _ ⟨_, _, _, _, rfl⟩
  trivial

/-! ### Administration -/

theorem saveNow_does : saveNow.Does (· = .save) context := by
  apply Does.node
  apply Does.bind
  · exact .changeNode .save rfl rfl
  · intro _ after _
    split
    · exact .pure _
    · exact .throw _
    · exact .throw _

theorem save_does (arguments : List String) : (save arguments).Does (· = .save) context := by
  apply Does.bind saveNow_does
  intro payload after _
  exact .ok

theorem bgsave_does (arguments : List String) :
    (bgsave arguments).Does (· = .beginSnapshot) context := by
  rcases bgsave_eq arguments with form | form
  · rw [form]
    exact .throw _
  · rw [form]
    apply Does.node
    split
    · next node begun =>
        apply Does.bind
        · exact .changeNode .beginSnapshot rfl (by rw [Deed.apply, begun]; rfl)
        · intro _ after _
          exact .pure _
    · exact .throw _

theorem replicaof_does (arguments : List String) :
    (replicaof arguments).Does IsTurn context := by
  match arguments with
  | [host, port] =>
      simp only [replicaof]
      split
      · apply Does.bind
        · exact .changeNode .promote trivial rfl
        · intro _ after _
          exact .ok
      · split
        · exact .throw _
        · next port _ =>
            apply Does.node
            split
            · exact .pure _
            · apply Does.bind
              · exact .changeNode (.follow host port) trivial rfl
              · intro _ after _
                exact .ok
  | [] | [_] | _ :: _ :: _ :: _ => exact .throw _

theorem noteListeningPort_does (port : Nat) : (noteListeningPort port).Does IsNotice context := by
  apply Does.session
  split
  · exact .changeNode (.listeningPort _ port) trivial rfl
  · exact .pure _

theorem noteAcknowledgement_does (offset : Int) :
    (noteAcknowledgement offset).Does IsNotice context := by
  apply Does.session
  split
  · exact .changeNode (.acknowledge _ offset) trivial rfl
  · exact .pure _

theorem answerLeader_does : answerLeader.Does IsNotice context := by
  apply Does.session
  split
  · exact .changeNode .answerLeader trivial rfl
  · exact .pure _

theorem replconf_does (arguments : List String) : (replconf arguments).Does IsNotice context := by
  match arguments with
  | [] => exact .ok
  | option :: values =>
      simp only [replconf]
      split
      · apply Does.orFail
        intro written
        apply Does.orFail
        intro port
        apply Does.bind (noteListeningPort_does port)
        intro _ after _
        exact .ok
      · exact .ok
      · apply Does.orFail
        intro written
        apply Does.integer
        intro offset
        apply Does.bind (noteAcknowledgement_does offset)
        intro _ after _
        exact .pure _
      · apply Does.bind answerLeader_does
        intro _ after _
        exact .pure _
      · exact .throw _

theorem psync_does (arguments : List String) :
    (psync arguments).Does
      (fun deed => ∃ id history offset,
        context.session.source = .client id ∧ deed = .synchronise id history offset)
      context := by
  match arguments with
  | [history, offset] =>
      apply Does.integer
      intro offset
      apply Does.session
      split
      · next id source =>
          apply Does.node
          dsimp only
          split
          · exact .throw _
          · apply Does.bind
            · exact .changeNode (.synchronise id history offset) ⟨id, history, offset, source, rfl⟩ rfl
            · intro _ after _
              exact .pure _
      · exact .pure _
  | [] | [_] | _ :: _ :: _ :: _ => exact .throw _

/-! ### Whole commands -/

/-- `SELECT` changes nothing but the database of the session, which is one that exists. -/
theorem outcome_select (arguments : List String) (context : Context) :
    ((select arguments).outcome context).2 = context ∨
    ∃ index < context.node.partitions.count,
      ((select arguments).outcome context).2 =
        { context with session := { context.session with database := index } } := by
  match arguments with
  | [argument] =>
      simp only [select, outcome_bind, outcome_integer]
      cases Text.readSigned64 argument with
      | none => exact .inl rfl
      | some index =>
          dsimp only
          rw [outcome_node]
          dsimp only
          split
          · next range =>
              refine .inr ⟨index.toNat, ?_, rfl⟩
              omega
          · exact .inl rfl
  | [] | _ :: _ :: _ => exact .inl rfl

/-- `SET` writes, and in its session it changes nothing but the form in which it is to be
replicated. -/
theorem set_does (arguments : List String) (context : Context) :
    ∃ form, { context with session := { context.session with propagateAs := form } }.Does
      IsWrite ((set arguments).outcome context).2 := by
  match arguments with
  | [] | [_] => exact ⟨_, .refl context⟩
  | key :: value :: options =>
      rw [outcome_set]
      match setExpiry? context.node.clock.wall none options with
      | .error error => exact ⟨_, .refl context⟩
      | .ok none | .ok (some ⟨_, true⟩) | .ok (some ⟨_, false⟩) =>
          exact ⟨_, store_does key value _⟩

/-- Every command but `SELECT` and `SET` leaves the session alone, and does what its
effect allows. -/
theorem basic_does {command : Command} (member : command ∈ basic) :
    command = ⟨"SELECT", 2, .read, select⟩ ∨ command = ⟨"SET", -3, .write, set⟩ ∨
    ∀ (arguments : List String) (context : Context),
      (command.handler arguments).Does (command.effect.allows context.node.clock.wall) context := by
  have reads : ∀ {context : Context} {step : CommandM Reply},
      step.Does (IsRead context.node.clock.wall) context →
      step.Does (Effect.allows .read context.node.clock.wall) context := fun does => does.mono fun _ => .inl
  have listens : ∀ {context : Context} {step : CommandM Reply}, step.Does IsSubscription context →
      step.Does (Effect.allows .read context.node.clock.wall) context := fun does => does.mono fun _ => .inr
  have notes : ∀ {context : Context} {step : CommandM Reply}, step.Does IsNotice context →
      step.Does (Effect.allows .admin context.node.clock.wall) context := by
    intro context step does
    refine does.mono fun deed notice => ?_
    cases deed <;> simp_all [Effect.allows, IsAdmin, IsNotice]
  have turns : ∀ {context : Context} {step : CommandM Reply}, step.Does IsTurn context →
      step.Does (Effect.allows .admin context.node.clock.wall) context := by
    intro context step does
    refine does.mono fun deed turn => ?_
    cases deed <;> simp_all [Effect.allows, IsAdmin, IsTurn]
  simp only [basic, List.mem_cons, List.not_mem_nil, or_false] at member
  rcases member with rfl | rfl | rfl | rfl | rfl | rfl | rfl | rfl | rfl | rfl | rfl | rfl | rfl |
    rfl | rfl | rfl | rfl | rfl | rfl | rfl | rfl | rfl | rfl | rfl | rfl | rfl | rfl | rfl | rfl
  · exact .inr <| .inr fun arguments _ => reads (ping_does arguments)
  · exact .inr <| .inr fun arguments _ => reads (echo_does arguments)
  · exact .inl rfl
  · exact .inr <| .inr fun arguments _ => reads (get_does arguments)
  · exact .inr <| .inr fun arguments _ => reads (mget_does arguments)
  · exact .inr (.inl rfl)
  · exact .inr <| .inr fun arguments _ => mset_does arguments
  · exact .inr <| .inr fun arguments _ => del_does arguments
  · exact .inr <| .inr fun arguments _ => reads (countExisting_does arguments)
  · exact .inr <| .inr fun arguments _ => reads (dbsize_does arguments)
  · exact .inr <| .inr fun arguments _ => pexpireat_does arguments
  · exact .inr <| .inr fun arguments _ => flushall_does arguments
  · exact .inr <| .inr fun arguments _ => push_does _ _ _ arguments
  · exact .inr <| .inr fun arguments _ => push_does _ _ _ arguments
  · exact .inr <| .inr fun arguments _ => push_does _ _ _ arguments
  · exact .inr <| .inr fun arguments _ => push_does _ _ _ arguments
  · exact .inr <| .inr fun arguments _ => reads (lrange_does arguments)
  · exact .inr <| .inr fun arguments _ => reads (llen_does arguments)
  · exact .inr <| .inr fun arguments _ => lpop_does arguments
  · exact .inr <| .inr fun arguments _ => (save_does arguments).mono fun _ same => same ▸ trivial
  · exact .inr <| .inr fun arguments _ => (bgsave_does arguments).mono fun _ same => same ▸ trivial
  · exact .inr <| .inr fun arguments _ => reads (info_does arguments)
  · exact .inr <| .inr fun arguments _ => turns (replicaof_does arguments)
  · exact .inr <| .inr fun arguments _ => turns (replicaof_does arguments)
  · exact .inr <| .inr fun arguments _ => notes (replconf_does arguments)
  · refine .inr <| .inr fun arguments _ => (psync_does arguments).mono ?_
    rintro _ ⟨id, history, offset, _, rfl⟩
    trivial
  · exact .inr <| .inr fun arguments _ => publish_does arguments
  · exact .inr <| .inr fun arguments _ => listens (subscribe_does arguments)
  · exact .inr <| .inr fun arguments _ => listens (unsubscribe_does arguments)

end Command
end ReplicaStore
