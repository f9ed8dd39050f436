import ReplicaStore.Proofs.Node.Echo

/-!
# Serving clients

What a command of a client comes to, seen from the replicas.  Either it is added to the
stream, and then it can be repeated, or it is calm, or it has begun a snapshot, or taken up
a replica.
-/

namespace ReplicaStore.Command

open CommandM

/-- A command that clients may issue where contents are to be followed: it neither turns
the node to another leader nor generates keys. -/
structure Permitted (arguments : List String) : Prop where
  stays : ¬Turns arguments
  stored : ∀ name rest, arguments = name :: rest → Text.upper name = "DEBUG" → ¬Populates rest

/-- Any command by another name than these is permitted. -/
theorem permitted_of_name {name : String} {rest : List String}
    (other : Text.upper name ∉ ["REPLICAOF", "SLAVEOF", "DEBUG"]) : Permitted (name :: rest) where
  stays := by
    rintro ⟨_, _, ⟨⟩, turn | turn⟩ <;> simp [turn] at other
  stored := by
    rintro _ _ ⟨⟩ debug
    simp [debug] at other

/-- What a command of a client comes to if nothing is added to the stream. -/
inductive Served (before after : Node) : Prop where
  | calm (calm : before.Calm after)
  | begins (begun : before.beginSnapshot? = some after)
  | synchronises (id : ClientId) (history : String) (offset : Int)
      (same : after = synchronise id history offset before)

theorem Impact.served {handler : CommandM Reply} {context : Context}
    (impact : Impact handler context) : Served context.node (handler.outcome context).2.node := by
  cases impact with
  | calm calm => exact .calm calm
  | begins later begun same =>
      rw [same]
      exact .begins begun
  | synchronises id history offset _ same =>
      rw [same]
      exact .synchronises id history offset rfl

theorem role_scheduleFullSync (node : Node) : node.scheduleFullSync.role = node.role := by
  rcases node.scheduleFullSync_cases with ⟨_, same⟩ | ⟨_, _, same⟩ | ⟨begun, begins, same⟩ <;> rw [same]
  obtain ⟨_, rfl⟩ := Node.beginSnapshot?_inv begins
  rfl

theorem role_synchronise (id : ClientId) (history : String) (offset : Int) (node : Node) :
    (synchronise id history offset node).role = node.role := by
  rcases Node.synchronise_cases id history offset node with ⟨_, _, same⟩ | ⟨_, same⟩ <;> rw [same]
  rw [role_scheduleFullSync]

theorem Served.following {before after : Node} (served : Served before after) :
    after.following = before.following := by
  simp only [Node.following, Link.Role.following]
  cases served with
  | calm calm => rw [calm.leader]
  | begins begun =>
      have role := (Node.beginSnapshot_abides begun).role
      rw [role]
  | synchronises id history offset same => rw [same, role_synchronise]

/-- A command that writes and fails is calm. -/
theorem Writes.calm_of_error {handler : CommandM Reply} (writes : Writes handler)
    {context after : Context} {error : CommandError} (sound : context.node.Sound)
    (failed : handler.outcome context = (.error error, after)) : context.node.Calm after.node := by
  obtain ⟨form, does⟩ := writes.does context
  obtain ⟨_, alike, steady⟩ := writes.uniform context.node.clock.wall context context
    ⟨rfl, rfl, rfl, .refl sound _⟩
  rw [failed] at does alike steady
  have frame := does.becomes.frame
  dsimp only at frame
  have still := alike.partitions.soundLeft
  have live := steady error rfl
  dsimp only at still live
  rw [frame]
  exact ⟨rfl, still, live, rfl, rfl, .refl _, rfl⟩

/-- Whoever repeats SET runs its handler. -/
theorem dispatch_set {right : Context} (source : right.session.source.isClient = false) (key value : String)
    (options : List String) :
    (dispatch right ("SET" :: key :: value :: options)).2 =
      ((set (key :: value :: options)).outcome right.ready).2 := by
  have accepts : Command.accepts ⟨"SET", -3, .write, set⟩
      ((key :: value :: options).length + 1) = true := by
    simp [Command.accepts]
    omega
  rw [dispatch_of_not_client source, restores_all.set]
  dsimp only
  rw [if_pos accepts]

/-- What SET adds to the stream can be repeated. -/
theorem set_echoes {context after : Context} {name : String} {rest : List String} {reply : Reply}
    (known : find? all name = some ⟨"SET", -3, .write, set⟩)
    (accepts : Command.accepts ⟨"SET", -3, .write, set⟩ (rest.length + 1) = true)
    (ran : (set rest).outcome context.ready = (.ok reply, after))
    (since : 0 ≤ context.node.clock.wall) :
    Echoes context (after.session.propagateAs.getD (Text.upper name :: rest)) after := by
  have stays : ¬Command.IsTurn ⟨"SET", -3, .write, set⟩ := by
    rintro (turn | turn) <;> exact absurd turn (by decide)
  have echoes := writes_echoes known accepts ran stays
    (basic_writes (by simp [basic]) rfl rest)
  rcases rest with _ | ⟨key, _ | ⟨value, options⟩⟩
  · cases ran
  · cases ran
  · rw [outcome_set] at ran
    cases read : setExpiry? context.ready.node.clock.wall none options with
    | error error =>
        rw [read] at ran
        cases ran
    | ok expiry =>
        rw [read] at ran
        have left := congrArg Prod.snd ran
        dsimp only at left
        have noted : after.session = noteForm key value expiry context.ready.session := by
          rw [← left, session_store]
        rcases expiry with _ | ⟨moment, _ | _⟩
        · rw [noted]
          exact echoes
        · rw [noted]
          exact echoes
        · have positive := setExpiry_pos since read (by simp) _ rfl
          have fits := setExpiry_le read (by simp) _ rfl
          have form : (noteForm key value (some ⟨moment, true⟩)
              context.ready.session).propagateAs.getD (Text.upper name :: key :: value :: options) =
              ["SET", key, value, "PXAT", toString moment] := rfl
          rw [noted, form]
          refine ⟨List.cons_ne_nil _ _, echoes.database, echoes.frame, echoes.reaches, ?_, ?_⟩
          · rintro ⟨_, _, ⟨⟩, turn | turn⟩ <;> exact absurd turn (by decide)
          · intro right alike source _
            have there : (dispatch right ["SET", key, value, "PXAT", toString moment]).2 =
                ((store key value (some moment)).outcome right.ready).2 := by
              rw [dispatch_set source, outcome_set_form positive fits]
            have uniform := (@store_uniform context.node.clock.wall key value (some moment)
              (by rintro _ ⟨⟩; exact fits)
              { context.ready with
                session := noteForm key value (some ⟨moment, true⟩) context.ready.session }
              right.ready
              ⟨alike.wallLeft, alike.wallRight, alike.database, alike.partitions⟩).2.1
            rw [there, ← left]
            exact uniform

/-! ### Whole commands of clients -/

/-- Whoever serves a client runs the handler of its command. -/
theorem dispatch_known {context : Context} {name : String} {rest : List String} {command : Command}
    (known : find? all name = some command)
    (accepts : command.accepts (rest.length + 1) = true)
    (allowed : (context.session.source.isClient && context.node.following &&
      command.effect == .write) = false) :
    (dispatch context (name :: rest)).2 =
      match (command.handler rest).outcome context.ready with
      | (.error _, after) => after
      | (.ok _, after) =>
          if context.session.source.isClient && !after.node.following &&
              command.effect.propagates then
            after.propagated (Text.upper name :: rest)
          else after := by
  rw [dispatch, dispatchFrom_context, outcome_runFrom_cons, known]
  simp only [accepts, allowed, Bool.not_true, Bool.false_eq_true, if_false]
  match (command.handler rest).outcome context.ready with
  | (.error error, after) | (.ok reply, after) => rfl

/-- A command that is not run leaves all as it is. -/
theorem dispatch_refused {context : Context} {name : String} {rest : List String}
    (refused : ∀ command, find? all name = some command →
      command.accepts (rest.length + 1) = true →
      (context.session.source.isClient && context.node.following &&
        command.effect == .write) = true) :
    (dispatch context (name :: rest)).2 = context := by
  rw [dispatch, dispatchFrom_context, outcome_runFrom_cons]
  cases known : find? all name with
  | none => rfl
  | some command =>
      dsimp only
      split
      · rfl
      · next accepts =>
          have allowed := refused command known (by simpa using accepts)
          rw [if_pos allowed]

section

variable {context : Context} (client : context.session.source.isClient = true)
  (regular : context.node.Regular) {arguments : List String} (permitted : Permitted arguments)

include client regular permitted

/-- A command of a client of a node that follows a leader adds nothing to the stream. -/
theorem dispatch_following (follows : context.node.following = true) :
    Served context.node (dispatch context arguments).2.node := by
  have unchanged : Served context.node context.node := .calm (.refl regular.sound)
  match arguments with
  | [] => exact unchanged
  | name :: rest =>
      by_cases runs : ∃ command, find? all name = some command ∧
          command.accepts (rest.length + 1) = true ∧ command.effect ≠ .write
      · obtain ⟨command, known, accepts, reads⟩ := runs
        have allowed : (context.session.source.isClient && context.node.following &&
            command.effect == .write) = false := by simp [reads]
        have served : Served context.node ((command.handler rest).outcome context.ready).2.node := by
          obtain ⟨member, named⟩ := find?_inv known
          rcases all_cases member (stays_of_known known permitted.stays) rest with
            rfl | ⟨writes | ⟨debug, populates⟩, _⟩ | ⟨_, impact⟩
          · rcases outcome_select rest context.ready with same | ⟨index, _, same⟩
            · rw [same]
              exact unchanged
            · rw [same]
              exact unchanged
          · exact absurd writes reads
          · exact absurd populates (permitted.stored name rest rfl (named.symm.trans debug))
          · exact (impact context.ready regular).served
        rw [dispatch_known known accepts allowed]
        match ran : (command.handler rest).outcome context.ready with
        | (.error error, after) =>
            rw [ran] at served
            exact served
        | (.ok reply, after) =>
            rw [ran] at served
            have still : after.node.following = true := served.following.trans follows
            simp only [still, Bool.not_true, Bool.and_false, Bool.false_and, Bool.false_eq_true,
              if_false]
            exact served
      · rw [dispatch_refused]
        · exact unchanged
        · intro command known accepts
          by_cases writes : command.effect = .write
          · simp [client, follows, writes]
          · exact absurd ⟨command, known, accepts, writes⟩ runs

omit client in
/-- A handler that fails adds nothing to the stream, and one that does not is repeated if
it has to be. -/
theorem handler_leading {name : String} {rest : List String} {command : Command}
    (given : arguments = name :: rest) (known : find? all name = some command)
    (accepts : command.accepts (rest.length + 1) = true) {result : Except CommandError Reply}
    {after : Context} (ran : (command.handler rest).outcome context.ready = (result, after)) :
    (result.isOk && command.effect.propagates) = false ∧ Served context.node after.node ∨
    (result.isOk && command.effect.propagates) = true ∧
      Echoes context (after.session.propagateAs.getD (Text.upper name :: rest)) after := by
  subst given
  obtain ⟨member, named⟩ := find?_inv known
  have stays := stays_of_known known permitted.stays
  have unchanged : Served context.node context.node := .calm (.refl regular.sound)
  rcases all_cases member stays rest with
    rfl | ⟨effect | ⟨debug, populates⟩, writes⟩ | ⟨reads, impact⟩
  · refine .inl ⟨by simp [Effect.propagates], ?_⟩
    dsimp only at ran
    rcases outcome_select rest context.ready with same | ⟨index, _, same⟩
    · rw [ran] at same
      obtain rfl : after = context.ready := same
      exact unchanged
    · rw [ran] at same
      obtain rfl : after = _ := same
      exact unchanged
  · cases result with
    | error error =>
        exact .inl ⟨rfl, .calm (@Writes.calm_of_error _ writes context.ready after error
          regular.sound ran)⟩
    | ok reply =>
        have among : command ∈ basic := by
          rcases List.mem_cons.mp member with rfl | among
          · cases effect
          · exact among
        refine .inr ⟨by rw [effect]; rfl, ?_⟩
        rcases basic_does among with rfl | rfl | does
        · cases effect
        · exact set_echoes known accepts ran regular.bounded.since
        · have ready : context.ready.Does _ _ := does rest context.ready
          have session := ready.session
          rw [ran] at session
          dsimp only at session
          rw [session]
          exact writes_echoes known accepts ran stays writes
  · exact absurd populates (permitted.stored name rest rfl (named.symm.trans debug))
  · by_cases broadcast : command.effect = .broadcast
    · cases result with
      | error error =>
          have served := (impact context.ready regular).served
          rw [ran] at served
          exact .inl ⟨rfl, served⟩
      | ok reply =>
          refine .inr ⟨by rw [broadcast]; rfl, ?_⟩
          have echoes := publish_echoes known accepts ran broadcast
          obtain rfl := eq_publish member broadcast
          have does : context.ready.Does Deed.IsPublication _ := publish_does rest
          have session := does.session
          dsimp only at ran
          rw [ran] at session
          dsimp only at session
          rw [session]
          exact echoes
    · have silent : command.effect.propagates = false := by
        cases effect : command.effect with
        | write => exact absurd effect reads
        | broadcast => exact absurd effect broadcast
        | read | admin => rfl
      have served := (impact context.ready regular).served
      rw [ran] at served
      exact .inl ⟨by simp [silent], served⟩

/-- A command of a client of a node that follows nobody is added to the stream in a form in
which it can be repeated, or nothing is added. -/
theorem dispatch_leading (leads : context.node.following = false) :
    (addition? context arguments = none ∧ Served context.node (dispatch context arguments).2.node) ∨
    ∃ form after, addition? context arguments = some (form, after.session.database) ∧
      (dispatch context arguments).2.node =
        after.node.feed (Wire.commandBytes form) (some after.session.database) ∧
      Echoes context form after := by
  have unchanged : Served context.node context.node := .calm (.refl regular.sound)
  match arguments with
  | [] => exact .inl ⟨rfl, unchanged⟩
  | name :: rest =>
      by_cases runs : ∃ command, find? all name = some command ∧
          command.accepts (rest.length + 1) = true
      · obtain ⟨command, known, accepts⟩ := runs
        have allowed : (context.session.source.isClient && context.node.following &&
            command.effect == .write) = false := by simp [leads]
        rw [dispatch_known known accepts allowed]
        simp only [addition?, lookup?, known, accepts, client, Bool.true_and]
        match ran : (command.handler rest).outcome context.ready with
        | (.error error, after) =>
            rcases handler_leading regular permitted rfl known accepts ran with
              ⟨_, served⟩ | ⟨added, _⟩
            · exact .inl ⟨by split <;> rfl, served⟩
            · cases added
        | (.ok reply, after) =>
            rcases handler_leading regular permitted rfl known accepts ran with
              ⟨silent, served⟩ | ⟨added, echoes⟩
            · have silent : command.effect.propagates = false := silent
              simp only [silent, Bool.and_false, Bool.false_eq_true, if_false]
              exact .inl ⟨trivial, served⟩
            · have added : command.effect.propagates = true := added
              have still : after.node.following = false := by
                rw [echoes.frame]
                exact leads
              simp only [added, still, Bool.not_false, Bool.and_true, if_true]
              exact .inr ⟨_, after, rfl, rfl, echoes⟩
      · left
        rw [dispatch_refused]
        · refine ⟨?_, unchanged⟩
          simp only [addition?, lookup?]
          split
          · rfl
          · next command known =>
              split
              · next accepts =>
                  simp only [Bool.and_eq_true] at accepts
                  exact absurd ⟨command, known, accepts.1⟩ runs
              · rfl
        · intro command known accepts
          exact absurd ⟨command, known, accepts⟩ runs

end

end ReplicaStore.Command
