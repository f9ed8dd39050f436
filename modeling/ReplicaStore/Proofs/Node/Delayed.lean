import ReplicaStore.Proofs.Command.Delayed
import ReplicaStore.Proofs.Node.Logging

/-!
# Replication with delay

A leader runs the commands of its clients, and a replica repeats later, each at a time of
its own, what the leader has added to its stream.  Both reap expired keys by their own
clocks.  What can be read of the two is then the same, as long as every command is punctual
when it is repeated (`Context.punctual`).
-/

namespace ReplicaStore

open ReplicaStore.Stream (Coordinator Desk Piece)

namespace Command

open CommandM

/-! ### Commands that add nothing -/

/-- What turns a node leaves its databases as they are. -/
theorem dispatch_turns {arguments : List String} (turns : Turns arguments) (context : Context) :
    (dispatch context arguments).2.node.partitions = context.node.partitions := by
  obtain ⟨name, rest, rfl, named⟩ := turns
  rw [dispatch, dispatchFrom_context, outcome_runFrom_cons]
  cases known : find? all name with
  | none => rfl
  | some command =>
      obtain ⟨member, same⟩ := find?_inv known
      obtain ⟨handler, admin⟩ := replicaof_of_turn member (by rwa [IsTurn, same])
      have does : context.ready.Does Deed.IsTurn ((replicaof rest).outcome context.ready).2 :=
        replicaof_does rest
      have still := does.becomes.same Node.partitions (by
        intro deed node turn
        cases deed with
        | follow => rfl
        | promote =>
            simp only [Deed.apply, promote]
            split <;> rfl
        | _ => cases turn)
      dsimp only
      split
      · rfl
      · split
        · rfl
        · rw [handler, admin]
          cases ran : (replicaof rest).outcome context.ready with
          | mk result after =>
              rw [ran] at still
              have same : after.node.partitions = context.node.partitions := still
              cases result <;> simpa [Effect.propagates] using same

/-- What turns a node is not added to the stream. -/
theorem addition?_of_turns {arguments : List String} (turns : Turns arguments) (context : Context) :
    addition? context arguments = none := by
  obtain ⟨name, rest, rfl, named⟩ := turns
  simp only [addition?, lookup?]
  cases known : find? all name with
  | none => rfl
  | some command =>
      obtain ⟨member, same⟩ := find?_inv known
      have admin := (replicaof_of_turn member (by rwa [IsTurn, same])).2
      simp [admin, Effect.propagates]

theorem Served.live {before after : Node} (served : Served before after) (sound : before.Sound) :
    after.partitions.live before.clock.wall = before.partitions.live before.clock.wall := by
  cases served with
  | calm calm => exact calm.live
  | begins begun => exact (Node.beginSnapshot_retains sound begun).live _
  | synchronises id history offset same =>
      rw [same]
      exact (Node.synchronise_retains sound id history offset).live _

/-- A command that adds nothing to the stream leaves what can be read. -/
theorem live_unadded {context : Context} (client : context.session.source.isClient = true)
    (regular : context.node.Regular) {arguments : List String}
    (stored : ∀ name rest, arguments = name :: rest → Text.upper name = "DEBUG" → ¬Populates rest)
    (silent : context.node.following = false → addition? context arguments = none) :
    (dispatch context arguments).2.node.partitions.live context.node.clock.wall =
      context.node.partitions.live context.node.clock.wall := by
  by_cases turns : Turns arguments
  · rw [dispatch_turns turns]
  · have permitted : Permitted arguments := ⟨turns, stored⟩
    cases leads : context.node.following with
    | true => exact (dispatch_following client regular permitted leads).live regular.sound
    | false =>
        rcases dispatch_leading client regular permitted leads with ⟨_, served⟩ | ⟨_, _, adds, _⟩
        · exact served.live regular.sound
        · rw [silent leads] at adds
          cases adds

/-! ### Commands that are repeated later -/

theorem setExpiry_some (now : Int) (found : SetExpiry) (options : List String) :
    setExpiry? now (some found) options =
      if options.isEmpty then .ok (some found) else .error .badSyntax := by
  rcases options with _ | ⟨_, _ | _⟩ <;> rfl

/-- An expiry that is given as a moment is read the same at any time. -/
theorem setExpiry_later {now : Int} {options : List String} {expiry : Option SetExpiry}
    (read : setExpiry? now none options = .ok expiry)
    (absolute : ∀ moment, expiry ≠ some ⟨moment, true⟩) (later : Int) :
    setExpiry? later none options = .ok expiry := by
  rcases options with _ | ⟨option, _ | ⟨amount, rest⟩⟩
  · exact read
  · exact read
  · simp only [setExpiry?, Option.isSome_none, Bool.false_eq_true, if_false, setExpiry_some]
      at read ⊢
    cases number : Text.readSigned64 amount with
    | none => simp [number] at read
    | some span =>
        simp only [number] at read ⊢
        split at read
        · cases read
        · next positive =>
            rw [if_neg positive]
            split at read
            · split at read
              · cases read
                exact absurd rfl (absolute _)
              · cases read
            · exact read
            · cases read

/-- What is to be read later after a command has been run is what is to be read of whoever
repeats it then. -/
structure Repeats (later : Int) (after repeated : Context) : Prop where
  live : repeated.node.partitions.live later = after.node.partitions.live later
  database : repeated.session.database = after.session.database

/-- Somebody who is to repeat a command of a context later. -/
structure Behind (later : Int) (context right : Context) : Prop where
  wall : right.node.clock.wall = later
  source : right.session.source.isClient = false
  sound : right.node.Sound
  database : right.session.database = context.session.database
  live : right.node.partitions.live later = context.node.partitions.live later

section

variable {context right after : Context} {later : Int}

/-- A handler that writes the same everywhere, and leaves the same whether it is run now or
later, can be repeated later. -/
theorem Writes.repeats {handler : CommandM Reply} (writes : Writes handler)
    (late : Late handler later context) (sound : context.node.Sound)
    (behind : Behind later context right) :
    Repeats later (handler.outcome context).2 (handler.outcome right).2 := by
  obtain ⟨form, does⟩ := writes.does context
  obtain ⟨other, repeats⟩ := writes.does right
  have alike : Context.Alike later (context.setWall later) right :=
    ⟨rfl, behind.wall, behind.database.symm, sound, behind.sound, behind.live.symm⟩
  refine ⟨?_, ?_⟩
  · exact (writes.uniform later _ _ alike).2.1.partitions.live.symm.trans late.symm
  · rw [repeats.session, does.session]
    exact behind.database

theorem store_repeats {key value : String} {expiry : Option Int}
    (fits : ∀ limit, expiry = some limit → limit ≤ Text.maxSigned64)
    (sound : context.node.Sound) (behind : Behind later context right) :
    Repeats later ((store key value expiry).outcome context).2
      ((store key value expiry).outcome right).2 :=
  (Writes.of_does (fun _ => store_uniform key value fits) fun _ =>
    store_does key value expiry).repeats (store_late key value expiry) sound behind

/-- SET in the form in which it is streamed stores the same at any time. -/
theorem dispatch_noteForm {key value : String} {options : List String} {now : Int}
    {expiry : Option SetExpiry} (since : 0 ≤ now) (read : setExpiry? now none options = .ok expiry)
    {session : Session} (plain : session.propagateAs = none)
    (source : right.session.source.isClient = false) :
    (dispatch right ((noteForm key value expiry session).propagateAs.getD
      ("SET" :: key :: value :: options))).2 =
      ((store key value (expiry.map (·.moment))).outcome right.ready).2 := by
  have absolute (lasting : ∀ moment, expiry ≠ some ⟨moment, true⟩)
      (silent : noteForm key value expiry right.ready.session = right.ready.session) :
      (dispatch right ("SET" :: key :: value :: options)).2 =
        ((store key value (expiry.map (·.moment))).outcome right.ready).2 := by
    rw [dispatch_set source, outcome_set, setExpiry_later read lasting]
    dsimp only
    rw [silent]
  rcases expiry with _ | ⟨moment, _ | _⟩
  · have form : (noteForm key value none session).propagateAs = none := plain
    rw [form]
    exact absolute (by simp) rfl
  · have form : (noteForm key value (some ⟨moment, false⟩) session).propagateAs = none := plain
    rw [form]
    exact absolute (by simp) rfl
  · have positive := setExpiry_pos since read (by simp) _ rfl
    have fits := setExpiry_le read (by simp) _ rfl
    have form : (noteForm key value (some ⟨moment, true⟩) session).propagateAs.getD
        ("SET" :: key :: value :: options) = ["SET", key, value, "PXAT", toString moment] := rfl
    rw [form, dispatch_set source, outcome_set_form positive fits]
    rfl

/-- What SET adds to the stream stores the same later. -/
theorem set_repeats {rest : List String} {reply : Reply} (since : 0 ≤ context.node.clock.wall)
    (sound : context.node.Sound) (behind : Behind later context right)
    (ran : (set rest).outcome context.ready = (.ok reply, after)) :
    Repeats later after (dispatch right (after.session.propagateAs.getD ("SET" :: rest))).2 := by
  rcases rest with _ | ⟨key, _ | ⟨value, options⟩⟩
  · cases ran
  · cases ran
  · rw [outcome_set] at ran
    cases read : setExpiry? context.node.clock.wall none options with
    | error error =>
        have failed : setExpiry? context.ready.node.clock.wall none options = .error error := read
        rw [failed] at ran
        cases ran
    | ok expiry =>
        have given : setExpiry? context.ready.node.clock.wall none options = .ok expiry := read
        rw [given] at ran
        have left := congrArg Prod.snd ran
        dsimp only at left
        have fits : ∀ limit, expiry.map (·.moment) = some limit → limit ≤ Text.maxSigned64 := by
          intro limit found
          obtain ⟨found, rfl, rfl⟩ := Option.map_eq_some_iff.mp found
          exact setExpiry_le read (by simp) _ rfl
        have stored : after.session = noteForm key value expiry context.ready.session := by
          rw [← left, session_store]
        have repeats : Repeats later after
            ((store key value (expiry.map (·.moment))).outcome right.ready).2 := by
          rw [← left]
          apply store_repeats fits
          · exact sound
          · refine ⟨behind.wall, behind.source, behind.sound, ?_, behind.live⟩
            refine behind.database.trans ?_
            simp only [noteForm]
            split <;> rfl
        rw [stored, dispatch_noteForm since read rfl behind.source]
        exact repeats

/-- A message that is published concerns no database. -/
theorem publish_repeats (rest : List String) (behind : Behind later context right) :
    Repeats later ((publish rest).outcome context).2 ((publish rest).outcome right).2 := by
  have publishes (context : Context) :
      context.Does Deed.IsPublication ((publish rest).outcome context).2 := publish_does rest
  have still (context : Context) :
      ((publish rest).outcome context).2.node.partitions = context.node.partitions := by
    rw [(publishes context).becomes.publication_frame]
  refine ⟨?_, ?_⟩
  · rw [still, still]
    exact behind.live
  · rw [(publishes right).session, (publishes context).session]
    exact behind.database

/-- A command that is added to the stream leaves the same later in the form in which it is
streamed. -/
theorem handler_repeats {name : String} {rest : List String} {command : Command}
    (known : find? all name = some command) (accepts : command.accepts (rest.length + 1) = true)
    (propagates : command.effect.propagates = true) {reply : Reply}
    (ran : (command.handler rest).outcome context.ready = (.ok reply, after))
    (since : 0 ≤ context.node.clock.wall) (sound : context.node.Sound)
    (due : context.node.clock.wall ≤ later) (punctual : context.punctual later (name :: rest) = true)
    (behind : Behind later context right) :
    Repeats later after
      (dispatch right (after.session.propagateAs.getD (Text.upper name :: rest))).2 := by
  obtain ⟨member, named⟩ := find?_inv known
  have ready : Behind later context.ready right.ready :=
    ⟨behind.wall, behind.source, behind.sound, behind.database, behind.live⟩
  by_cases stores : command.name = "SET"
  · obtain rfl := eq_set member stores
    have upper : Text.upper name = "SET" := named.symm
    rw [upper]
    exact set_repeats since sound behind ran
  · have other : Text.upper name ≠ "SET" := named ▸ stores
    obtain ⟨_, form⟩ := session_propagating member propagates named rest rfl ran
    rw [form, streamed, if_neg other, dispatch_upper behind.source known accepts]
    have left : after = ((command.handler rest).outcome context.ready).2 := by rw [ran]
    rw [left]
    cases effect : command.effect with
    | read | admin => simp [effect, Effect.propagates] at propagates
    | broadcast =>
        obtain rfl := eq_publish member effect
        exact publish_repeats rest ready
    | write =>
        have among : command ∈ basic := by
          rcases List.mem_cons.mp member with rfl | among
          · cases effect
          · exact among
        have timely : context.ready.punctual later (command.name :: rest) = true := by
          have upper : Text.upper command.name = Text.upper name := (upper_name member).trans named
          cases rest with
          | nil => rfl
          | cons key rest =>
              simp only [Context.punctual, upper]
              exact punctual
        exact (basic_writes among effect rest).repeats
          (basic_late among effect stores sound due timely) sound ready

/-- What a leader adds to its stream for a command leaves the same to be read, whenever it is
repeated, if the command is punctual then. -/
theorem addition?_repeats {name : String} {rest form : List String} {database : Nat}
    (adds : addition? context (name :: rest) = some (form, database))
    (leads : context.node.following = false) (since : 0 ≤ context.node.clock.wall)
    (sound : context.node.Sound) (due : context.node.clock.wall ≤ later)
    (punctual : context.punctual later (name :: rest) = true)
    (behind : Behind later context right) :
    (dispatch right form).2.node.partitions.live later =
        (dispatch context (name :: rest)).2.node.partitions.live later ∧
      (dispatch right form).2.session.database = database := by
  simp only [addition?, lookup?] at adds
  cases known : find? all name with
  | none => simp [known] at adds
  | some command =>
      simp only [known] at adds
      split at adds
      · next streams =>
          obtain ⟨accepts, propagates⟩ := Bool.and_eq_true_iff.mp streams
          have allowed : (context.session.source.isClient && context.node.following &&
              command.effect == .write) = false := by simp [leads]
          rw [dispatch_known known accepts allowed]
          cases ran : (command.handler rest).outcome context.ready with
          | mk result after =>
              rw [ran] at adds
              cases result with
              | error error => cases adds
              | ok reply =>
                  cases adds
                  have repeats : Repeats later after
                      (dispatch right (after.session.propagateAs.getD (Text.upper name :: rest))).2 :=
                    handler_repeats known accepts propagates ran since sound due punctual behind
                  refine ⟨?_, repeats.database⟩
                  rw [repeats.live]
                  dsimp only
                  split <;> rfl
      · cases adds

end

end Command

/-! ### A replica behind its leader -/

namespace Node

/-- A command of a client, and when it happens: the leader runs it at one moment, and the
replica repeats at another what the leader has added to its stream. -/
structure Errand where
  id : ClientId
  value : Wire.Value
  moment : Int
  later : Int

namespace Errand

/-- The leader at the moment at which it is to run the command. -/
def start (errand : Errand) (leader : Node) : Node :=
  leader.setWall errand.moment

/-- The leader after it has run the command. -/
def run (errand : Errand) (leader : Node) : Node :=
  (errand.start leader).handle (.command errand.id errand.value)

/-- What the leader adds to its stream. -/
def told (errand : Errand) (leader : Node) : List Piece :=
  (errand.start leader).added (.command errand.id errand.value)

/-- The replica after it has repeated that. -/
def repeated (errand : Errand) (epoch : Nat) (leader replica : Node) : Node :=
  (replica.setWall errand.later).take epoch (errand.told leader)

/-- Whether the command generates keys. -/
def populates (errand : Errand) : Bool :=
  match errand.value.arguments? with
  | some [name, subcommand, _] => Text.upper name = "DEBUG" && Text.upper subcommand = "POPULATE"
  | _ => false

/-- What is required of the time and the size of things: the replica comes second, and its
clock goes on. -/
structure Fits (errand : Errand) (leader : Node) (since : Int) : Prop where
  due : errand.moment ≤ errand.later
  goes : since ≤ errand.later
  stored : errand.populates = false
  bounded : (errand.start leader).Bounded

instance (errand : Errand) (leader : Node) (since : Int) : Decidable (errand.Fits leader since) :=
  decidable_of_iff (errand.moment ≤ errand.later ∧ since ≤ errand.later ∧
      errand.populates = false ∧ (errand.start leader).Bounded)
    ⟨fun ⟨due, goes, stored, bounded⟩ => ⟨due, goes, stored, bounded⟩,
      fun fits => ⟨fits.due, fits.goes, fits.stored, fits.bounded⟩⟩

/-- If anything is told, repeating it comes to the same. -/
def punctual (errand : Errand) (leader : Node) : Bool :=
  (errand.told leader).isEmpty ||
    (leader.clients[errand.id]?).all fun client =>
      errand.value.arguments?.all
        (((errand.start leader).issued errand.id client).punctual errand.later)

end Errand

/-- A replica that is connected has repeated all that its leader has added to its stream, and
the same can be read of both at a moment. -/
structure Trails (replica leader : Node) (epoch : Nat) (moment : Int) : Prop where
  sound : replica.Sound
  epoch : replica.role.epoch = epoch
  connected : replica.role.state = .connected
  recorded : leader.coordinator.backlog.isSome = true
  live : replica.partitions.live moment = leader.partitions.live moment
  database : ∀ index, leader.coordinator.streamDatabase = some index → replica.role.database = index

variable {leader replica : Node} {epoch : Nat} {since : Int}

/-- A replica that holds what its leader does trails it. -/
theorem Mirrors.trails (mirrors : replica.Mirrors leader epoch) (leads : leader.following = false)
    (recorded : leader.coordinator.backlog.isSome = true) :
    replica.Trails leader epoch leader.clock.wall where
  sound := mirrors.attached.sound
  epoch := mirrors.attached.epoch
  connected := mirrors.attached.connected
  recorded := recorded
  live := mirrors.live
  database := fun index selects => mirrors.database index ((selected_of_leading leads).trans selects)

/-- A follower takes a command of its leader's stream. -/
theorem take_piece (epoch_eq : replica.role.epoch = epoch)
    (connected : replica.role.state = .connected) (piece : Piece) :
    replica.take epoch [piece] =
      ({ (replica.hear piece.arguments).node with
        role := { (replica.hear piece.arguments).node.role with
          database := (replica.hear piece.arguments).session.database } } : Node).feed piece.raw
            none := by
  have accepts : replica.role.accepts epoch = true := by
    simp [Link.Role.accepts, epoch_eq, connected]
  rw [← follow_eq connected]
  simp only [take, List.foldl_cons, List.foldl_nil, handle, accepts, if_true, takeLinkEvent]

/-- A follower that has taken a command of its leader's stream comes to what it has come to by
running it. -/
theorem Trails.takes {before : Node} {later : Int} (trails : replica.Trails before epoch since)
    {piece : Piece} (stays : ¬Command.Turns piece.arguments)
    (recorded : leader.coordinator.backlog.isSome = true)
    (live : (replica.hear piece.arguments).node.partitions.live later = leader.partitions.live later)
    (database : ∀ index, leader.coordinator.streamDatabase = some index →
      (replica.hear piece.arguments).session.database = index) :
    (replica.take epoch [piece]).Trails leader epoch later := by
  have abides := @hear_abides replica piece.arguments stays
  have sound : (replica.take epoch [piece]).Sound :=
    @next_sound replica _ (.link epoch (.command piece.arguments piece.raw)) trails.sound rfl
  rw [take_piece trails.epoch trails.connected] at sound ⊢
  refine ⟨sound, ?_, ?_, recorded, live, database⟩
  · exact (congrArg Link.Role.epoch abides.role).trans trails.epoch
  · exact (congrArg Link.Role.state abides.role).trans trails.connected

/-- The node with a stream that has forgotten which database it had selected. -/
def forgetful (node : Node) : Node :=
  { node with coordinator := node.coordinator.forgetStreamDatabase }

/-- Before a command of a database, a follower is told to select it if need be. -/
theorem Trails.selects (trails : replica.Trails leader epoch since) {index : Nat}
    (inside : index < leader.partitions.count) (fits : (index : Int) ≤ Text.maxSigned64) :
    (replica.take epoch (leader.coordinator.selection (some index))).Trails leader.forgetful epoch
        since ∧
      (replica.take epoch (leader.coordinator.selection (some index))).role.database = index ∧
      (replica.take epoch (leader.coordinator.selection (some index))).clock = replica.clock := by
  simp only [Coordinator.selection]
  split
  · next selected =>
      exact ⟨⟨trails.sound, trails.epoch, trails.connected, trails.recorded, trails.live,
        fun _ forgotten => by cases forgotten⟩, trails.database index selected, rfl⟩
  · have count : replica.partitions.count = leader.partitions.count := by
      rw [← PartitionSet.count_live _ since, trails.live, PartitionSet.count_live]
    have heard := @hear_select replica index (by omega) fits
    refine ⟨?_, ?_, ?_⟩
    · refine trails.takes (not_turns_select (toString index)) trails.recorded ?_
        fun _ forgotten => by cases forgotten
      rw [Piece.ofCommand, heard]
      exact trails.live
    · rw [take_piece trails.epoch trails.connected, Piece.ofCommand, heard]
      rfl
    · rw [take_piece trails.epoch trails.connected, Piece.ofCommand, heard]
      rfl

/-! ### What a leader does -/

theorem recorded_serve (orderly : leader.Orderly) (recorded : leader.coordinator.backlog.isSome = true)
    (id : ClientId) (value : Wire.Value) :
    (leader.serve id value).coordinator.backlog.isSome = true := by
  rcases serves orderly id value with ⟨_, _, before, after, near, becomes, still⟩ |
    ⟨_, _, _, _, ⟨clients, data, fed⟩, _⟩
  · rw [still.backlog]
    exact Desk.Becomes.recorded becomes.stills (fun _ still => still.keeps.2)
      (near.backlog ▸ recorded)
  · obtain ⟨backlog, found⟩ := Option.isSome_iff_exists.mp recorded
    replace found : (leader.coordinator.touch leader.clock.elapsed id).backlog = some backlog := found
    rw [fed, Coordinator.feed_of_some found]
    rfl

/-- What a client's command comes to at a leader: nothing is told and the same can be read, or
it is told in the form in which it is streamed. -/
inductive Spreads (node : Node) (id : ClientId) (value : Wire.Value) : Prop
  | silent (silent : node.added (.command id value) = [])
      (live : (node.serve id value).partitions.live node.clock.wall =
        node.partitions.live node.clock.wall)
      (stream : (node.serve id value).coordinator.streamDatabase = none ∨
        (node.serve id value).coordinator.streamDatabase = node.coordinator.streamDatabase)
  | tells {client : Client} {arguments form : List String} {database : Nat}
      (found : node.clients[id]? = some client) (given : value.arguments? = some arguments)
      (leads : node.following = false)
      (adds : Command.addition? (node.issued id client) arguments = some (form, database))
      (stays : ¬Command.Turns form) (selected : database = client.database)
      (stream : (node.serve id value).coordinator.streamDatabase = some database)

/-- Where nothing is told, the stream selects what it did or nothing. -/
theorem Spreads.quiet {node : Node} {id : ClientId} {value : Wire.Value} (orderly : node.Orderly)
    (silent : node.added (.command id value) = [])
    (live : (node.serve id value).partitions.live node.clock.wall =
      node.partitions.live node.clock.wall) : node.Spreads id value := by
  refine .silent silent live ?_
  rcases serves orderly id value with ⟨_, marks, _⟩ | ⟨_, added, _, _, _, _⟩
  · exact marks.stream
  · rw [silent] at added
    simp [Coordinator.pieces] at added

theorem spreads {node : Node} (reachable : node.Reachable) (bounded : node.Bounded)
    (recorded : node.coordinator.backlog.isSome = true) (id : ClientId) {value : Wire.Value}
    (stored : ∀ name rest, value.arguments? = some (name :: rest) → Text.upper name = "DEBUG" →
      ¬Command.Populates rest) : node.Spreads id value := by
  cases found : node.clients[id]? with
  | none =>
      apply Spreads.quiet reachable.orderly
      · simp [added, found]
      · simp only [serve, found]
  | some client =>
      cases given : value.arguments? with
      | none =>
          apply Spreads.quiet reachable.orderly
          · simp [added, found, given]
          · simp only [serve, found, given, answer]
            split <;> rfl
      | some arguments =>
          have regular : (node.issued id client).node.Regular :=
            ⟨reachable.sound, reachable.lifecycle.congr rfl rfl rfl fun _ drains => drains,
              bounded.congr rfl rfl⟩
          have permits : ∀ name rest, arguments = name :: rest → Text.upper name = "DEBUG" →
              ¬Command.Populates rest := by
            rintro name rest rfl
            exact stored name rest given
          obtain ⟨clients, served, _⟩ := serve_eq found given
          have unadded (silent : node.following = false →
              Command.addition? (node.issued id client) arguments = none) : node.Spreads id value := by
            apply Spreads.quiet reachable.orderly
            · cases leads : node.following with
              | true => simp [added, found, given, leads]
              | false => simp [added, found, given, leads, silent leads]
            · rw [served]
              exact Command.live_unadded rfl regular permits silent
          cases leads : node.following with
          | true => exact unadded fun leading => by simp [leads] at leading
          | false =>
              by_cases turns : Command.Turns arguments
              · exact unadded fun _ => Command.addition?_of_turns turns _
              · rcases Command.dispatch_leading rfl regular ⟨turns, permits⟩ leads with
                  ⟨silent, _⟩ | ⟨form, after, adds, fed, echoes⟩
                · exact unadded fun _ => silent
                · refine .tells found given leads adds echoes.stays echoes.database ?_
                  obtain ⟨backlog, ring⟩ := Option.isSome_iff_exists.mp recorded
                  have there : after.node.coordinator.backlog = some backlog := by
                    rw [echoes.frame]
                    exact ring
                  rw [served, fed, feed, coordinate]
                  dsimp only
                  rw [Coordinator.feed_of_some there]
                  rfl

/-! ### Runs of both -/

theorem Errand.stored_start {errand : Errand} (stored : errand.populates = false) (name : String)
    (rest : List String) (given : errand.value.arguments? = some (name :: rest))
    (debug : Text.upper name = "DEBUG") : ¬Command.Populates rest := by
  rintro ⟨subcommand, count, populate, rfl⟩
  simp [populates, given, debug, populate] at stored

/-- A replica that trails its leader does so after one more command, whenever it repeats it, if
it repeats it in time. -/
theorem Trails.repeats {errand : Errand} (trails : replica.Trails leader epoch since)
    (reachable : leader.Reachable) (fits : errand.Fits leader since)
    (punctual : errand.punctual leader = true) :
    (errand.repeated epoch leader replica).Trails (errand.run leader) epoch errand.later := by
  have started : (errand.start leader).Reachable := reachable.next (.setWall errand.moment) rfl
  have begun : (replica.setWall errand.later).Trails (errand.start leader) epoch errand.later :=
    ⟨trails.sound, trails.epoch, trails.connected, trails.recorded,
      PartitionSet.live_of_le fits.goes trails.live, trails.database⟩
  have recorded : (errand.run leader).coordinator.backlog.isSome = true :=
    recorded_serve started.orderly begun.recorded errand.id errand.value
  rw [Errand.repeated]
  rcases spreads started fits.bounded begun.recorded errand.id (Errand.stored_start fits.stored) with
    ⟨silent, live, stream⟩ | @⟨client, arguments, form, database, found, given, leads, adds, stays,
      selected, stream⟩
  · have told : errand.told leader = [] := silent
    rw [told, take_nil]
    refine ⟨begun.sound, begun.epoch, begun.connected, recorded, ?_, ?_⟩
    · have still := PartitionSet.live_of_le fits.due live
      exact begun.live.trans still.symm
    · intro index selects
      have selects : ((errand.start leader).serve errand.id errand.value).coordinator.streamDatabase =
          some index := selects
      rcases stream with forgotten | same
      · rw [forgotten] at selects
        cases selects
      · exact begun.database index (same.symm.trans selects)
  · have told : errand.told leader =
        (errand.start leader).coordinator.selection (some database) ++ [.ofCommand form] := by
      simp [Errand.told, added, found, given, leads, adds, Coordinator.pieces]
    have inside : database < (errand.start leader).partitions.count := by
      have positive := fits.bounded.positive
      rcases started.orderly.clients errand.id client found with first | within <;> omega
    obtain ⟨trails, index, clock⟩ := begun.selects inside (by have := fits.bounded.count; omega)
    have behind : Command.Behind errand.later ((errand.start leader).issued errand.id client)
        ((replica.setWall errand.later).take epoch
          ((errand.start leader).coordinator.selection (some database))).listening :=
      ⟨congrArg Clock.wall clock, rfl, trails.sound, index.trans selected, trails.live⟩
    have timely : ((errand.start leader).issued errand.id client).punctual errand.later arguments =
        true := by
      have there : leader.clients[errand.id]? = some client := found
      simpa [Errand.punctual, told, there, given] using punctual
    obtain ⟨clients, served, _⟩ := serve_eq found given
    cases arguments with
    | nil => cases adds
    | cons name rest =>
        obtain ⟨live, database⟩ := Command.addition?_repeats adds leads fits.bounded.since
          started.sound fits.due timely behind
        rw [told, take_append]
        refine trails.takes stays recorded ?_ ?_
        · rw [Errand.run, handle, served]
          exact live
        · intro index selects
          have selects : ((errand.start leader).serve errand.id
              errand.value).coordinator.streamDatabase = some index := selects
          rw [stream] at selects
          cases selects
          exact database

/-- The leader and the replica after some commands. -/
def relay (epoch : Nat) (leader replica : Node) : List Errand → Node × Node
  | [] => (leader, replica)
  | errand :: errands =>
      relay epoch (errand.run leader) (errand.repeated epoch leader replica) errands

/-- The replica's clock goes on from one command to the next, and everything is of a size that
fits. -/
def Paced (leader : Node) (since : Int) : List Errand → Prop
  | [] => True
  | errand :: errands =>
      errand.Fits leader since ∧ Paced (errand.run leader) errand.later errands

instance decidablePaced (leader : Node) (since : Int) :
    (errands : List Errand) → Decidable (leader.Paced since errands)
  | [] => isTrue trivial
  | errand :: errands =>
      have := decidablePaced (errand.run leader) errand.later errands
      inferInstanceAs (Decidable (_ ∧ _))

/-- All that is told is repeated in time. -/
def inTime (leader : Node) : List Errand → Bool
  | [] => true
  | errand :: errands => errand.punctual leader && inTime (errand.run leader) errands

/-- When the last command has been repeated. -/
def lastTime (since : Int) : List Errand → Int
  | [] => since
  | errand :: errands => lastTime errand.later errands

theorem Trails.relay {errands : List Errand} (trails : replica.Trails leader epoch since)
    (reachable : leader.Reachable) (paced : leader.Paced since errands)
    (timely : leader.inTime errands = true) :
    (Node.relay epoch leader replica errands).2.Trails (Node.relay epoch leader replica errands).1
      epoch (lastTime since errands) := by
  induction errands generalizing leader replica since with
  | nil => exact trails
  | cons errand errands ih =>
      obtain ⟨fits, paced⟩ := paced
      obtain ⟨punctual, timely⟩ := Bool.and_eq_true_iff.mp timely
      have ran : (errand.run leader).Reachable :=
        (reachable.next (.setWall errand.moment) rfl).next (.command errand.id errand.value) rfl
      exact ih (trails.repeats reachable fits punctual) ran paced timely

/-- Whatever commands a leader runs, and whenever a replica repeats them, from the last of them
on the same can be read of both, if all are repeated in time. -/
theorem live_relay {errands : List Errand} (reachable : leader.Reachable)
    (trails : replica.Trails leader epoch since) (paced : leader.Paced since errands)
    (timely : leader.inTime errands = true) {moment : Int} (due : lastTime since errands ≤ moment) :
    (relay epoch leader replica errands).2.partitions.live moment =
      (relay epoch leader replica errands).1.partitions.live moment :=
  PartitionSet.live_of_le due (trails.relay reachable paced timely).live

/-! ### Two small nodes -/

/-- A leader with a stream, and a follower that is connected to it. -/
def smallLeader : Node :=
  small.run [.runs 1 ["PSYNC", "?", "-1"], .report, .report]

def smallFollower : Node :=
  small.run [.runs 1 ["REPLICAOF", "127.0.0.1", "7000"], .upkeep, .link 3 (.continued none)]

theorem small_trails : smallFollower.Trails smallLeader 3 1000 where
  sound := (small_reachable.run _).sound
  epoch := by decide +kernel
  connected := by decide +kernel
  recorded := by decide +kernel
  live := by decide +kernel
  database := by
    have forgotten : smallLeader.coordinator.streamDatabase = none := by decide +kernel
    intro index selects
    rw [forgotten] at selects
    cases selects

/-- A client's command that is run and repeated at some milliseconds. -/
def Errand.of (arguments : List String) (moment later : Int) : Errand :=
  { id := 2, value := .command arguments, moment, later }

/-- A list that is changed in time, and a key whose time from now is told as a moment. -/
def smallErrands : List Errand :=
  [ .of ["RPUSH", "k", "a"] 1001 1500, .of ["PEXPIREAT", "k", "2000"] 1002 1500,
    .of ["LPUSH", "k", "b"] 1003 1600, .of ["SET", "x", "1", "PX", "5000"] 1004 2500,
    .of ["RPUSHX", "k", "c"] 1900 2600 ]

theorem live_relay_small :
    smallLeader.Reachable ∧ smallFollower.Trails smallLeader 3 1000 ∧
      smallLeader.Paced 1000 smallErrands ∧ smallLeader.inTime smallErrands = true ∧
      lastTime 1000 smallErrands ≤ 3000 ∧
      (relay 3 smallLeader smallFollower smallErrands).2.partitions.live 3000 =
        (relay 3 smallLeader smallFollower smallErrands).1.partitions.live 3000 := by
  have paced : smallLeader.Paced 1000 smallErrands := by decide +kernel
  have timely : smallLeader.inTime smallErrands = true := by decide +kernel
  exact ⟨small_reachable.run _, small_trails, paced, timely, by decide,
    live_relay (small_reachable.run _) small_trails paced timely (by decide)⟩

/-- A list that has expired before the replica repeats that something was pushed to it. -/
def lateErrands : List Errand :=
  [ .of ["RPUSH", "k", "a"] 1001 5000, .of ["PEXPIREAT", "k", "1005"] 1002 5000,
    .of ["RPUSH", "k", "b"] 1003 5000 ]

/-- The replica makes the list anew then, and keeps it, whereas the leader's expires. -/
theorem relay_diverges :
    smallLeader.Reachable ∧ smallFollower.Trails smallLeader 3 1000 ∧
      smallLeader.Paced 1000 lateErrands ∧
      smallLeader.clock.wall ≤ 1001 ∧ (lateErrands.map (·.moment)).Pairwise (· ≤ ·) ∧
      lastTime 1000 lateErrands ≤ 10000 ∧
      (relay 3 smallLeader smallFollower lateErrands).2.partitions.live 10000 ≠
        (relay 3 smallLeader smallFollower lateErrands).1.partitions.live 10000 :=
  ⟨small_reachable.run _, small_trails, by decide +kernel, by decide +kernel, by decide,
    by decide, by decide +kernel⟩

end Node
end ReplicaStore
