import ReplicaStore.Proofs.Node.Standing

/-!
# Links that report no more than they know

A link reports of its state only how far it has come in being established.  That it is
connected its node concludes itself, from what the leader sends.  Where all links do so, a
node that is connected to a leader records a stream (`Node.Attuned.streaming`).
-/

namespace ReplicaStore

open ReplicaStore.Stream (Coordinator)

/-- What a link reports of its state is a step on the way to being established. -/
def Happening.isPlain : Happening → Bool
  | .link _ (.state state) => state.handshaking
  | _ => true

namespace Node

variable {node later : Node}

/-- A node that has been started, and to which anything has happened since, but that its links
have reported no state than those of a link that is being established. -/
inductive Attuned : Node → Prop
  | start {settings : Settings} {supply : Stream.IdSupply} {clock : Clock}
      {found : Except Snapshot.SnapshotError (Option Bytes)} {server : Server} (port : Nat)
      (started : Server.start settings supply clock found = .ok server) :
      Attuned { server.node with port }
  | next {node later : Node} (happening : Happening) (attuned : Attuned node)
      (plain : happening.isPlain = true) (happened : node.next? happening = some later) :
      Attuned later

theorem Attuned.reachable (attuned : node.Attuned) : node.Reachable := by
  induction attuned with
  | start port started => exact .start port started
  | next happening _ _ happened ih => exact ih.next happening happened

theorem Attuned.run (attuned : node.Attuned) {happenings : List Happening}
    (plain : ∀ happening ∈ happenings, happening.isPlain = true) :
    (node.run happenings).Attuned := by
  induction happenings generalizing node with
  | nil => exact attuned
  | cons happening happenings ih =>
      refine @ih ((node.next? happening).getD node) ?_ fun other member =>
        plain other (List.mem_cons_of_mem _ member)
      cases happened : node.next? happening with
      | none => exact attuned
      | some later => exact attuned.next happening (plain _ (List.mem_cons_self ..)) happened

theorem small_attuned : small.Attuned :=
  (@Attuned.start { databases := 1 } {} { wall := 1000 } (.ok none)
    { node := Node.new { databases := 1 } {} { wall := 1000 } } 7000 rfl).run (by decide)

end Node

namespace Link.Role

variable {role : Role}

/-- Whoever is connected follows somebody. -/
theorem Idle.following (idle : role.Idle) (connected : role.connected = true) :
    role.following = true := by
  cases leader : role.leader with
  | none => simp [Role.connected, idle leader] at connected
  | some leader => simp [Role.following, leader]

theorem Idle.apart_reconnect (idle : role.Idle) : role.reconnect.connected = false := by
  simp only [Role.reconnect]
  split
  · rfl
  · next alone =>
      have leader : role.leader = none := by
        simpa [Role.following, dropLink] using alone
      simp [Role.connected, dropLink, idle leader]

/-- The upkeep brings about no connection. -/
theorem Idle.connected_of_maintain (idle : role.Idle) {now : Nat} {request : SyncRequest}
    {timeout : Nat} (connected : (role.maintain now request timeout).connected = true) :
    role.connected = true := by
  simp only [Role.maintain] at connected
  split at connected
  · exact connected
  · simp only [Role.openLink] at connected
    split at connected
    · exact connected
    · cases connected
  · next state => simp [Role.connected, state]
  · split at connected
    · rw [idle.apart_reconnect] at connected
      cases connected
    · exact connected

end Link.Role

namespace Node

variable {node later : Node}

/-- Whoever is connected to a leader records its stream. -/
structure Streaming (node : Node) : Prop where
  recorded : node.role.connected = true → node.coordinator.backlog.isSome = true

namespace Streaming

theorem congr (streaming : node.Streaming) (state : later.role.state = node.role.state)
    (backlog : later.coordinator.backlog = node.coordinator.backlog) : later.Streaming := by
  refine ⟨fun connected => ?_⟩
  rw [backlog]
  apply streaming.recorded
  rw [← connected, Link.Role.connected, Link.Role.connected, state]

theorem of_unmoved (unmoved : node.Unmoved later) (streaming : node.Streaming) : later.Streaming :=
  streaming.congr unmoved.role.state unmoved.backlog

theorem of_apart (apart : later.role.connected = false) : later.Streaming := by
  refine ⟨fun connected => ?_⟩
  rw [apart] at connected
  cases connected

theorem feed (streaming : node.Streaming) (data : Bytes) (database : Option Nat) :
    (node.feed data database).Streaming := by
  refine ⟨fun connected => ?_⟩
  obtain ⟨backlog, found⟩ := Option.isSome_iff_exists.mp (streaming.recorded connected)
  simp only [Node.feed, coordinate, Coordinator.feed, found, Option.isSome_some]

theorem deed (streaming : node.Streaming) (deed : Deed) : (deed.apply node).Streaming := by
  by_cases inner : deed.IsInner
  · have abides := Deed.abides inner node
    exact streaming.congr ((congrArg Link.Role.state abides.role).trans rfl) abides.backlog
  · cases deed with
    | synchronise id history offset =>
        rcases synchronise_standing id history offset node with ⟨_, unmoved⟩ | ⟨_, _, _, _, some⟩
        · exact .of_unmoved unmoved streaming
        · exact ⟨fun _ => some⟩
    | promote =>
        simp only [Deed.apply, Command.promote]
        split
        · exact of_apart rfl
        · exact streaming
    | follow host port => exact of_apart rfl
    | feed data database => exact streaming.feed data _
    | _ => exact absurd trivial inner

theorem becomes {allowed : Deed → Prop} (streaming : node.Streaming)
    (becomes : node.Becomes allowed later) : later.Streaming :=
  becomes.keeps (fun deed _ _ streaming => streaming.deed deed) streaming

theorem serve (streaming : node.Streaming) (id : ClientId) (value : Wire.Value) :
    (node.serve id value).Streaming := by
  have issued (client : Client) : (node.issued id client).node.Streaming :=
    ⟨streaming.recorded⟩
  rcases node.serve_cases id value with
    ⟨_, same⟩ | ⟨client, _, ⟨_, _, same⟩ | ⟨arguments, _, _, same⟩⟩ <;> rw [same]
  · exact streaming
  · exact ⟨streaming.recorded⟩
  · have ran := (issued client).becomes (Command.dispatch_ordinary (node.issued id client) arguments)
    exact ⟨ran.recorded⟩

theorem maintain (streaming : node.Streaming) (idle : node.role.Idle) : node.maintain.Streaming := by
  refine ⟨fun connected => ?_⟩
  rw [role_maintain] at connected
  have before := idle.connected_of_maintain connected
  rw [(maintain_follower (idle.following before)).2]
  exact streaming.recorded before

/-- A command of the leader's stream. -/
theorem follow (streaming : node.Streaming) (arguments : List String) (raw : Bytes) :
    (node.follow arguments raw).Streaming := by
  have listening : node.listening.node.Streaming := ⟨streaming.recorded⟩
  rcases node.follow_cases arguments raw with ⟨_, same⟩ | ⟨_, same⟩ <;> rw [same]
  · have heard := listening.becomes (Command.dispatch_ordinary node.listening arguments)
    apply feed
    exact ⟨heard.recorded⟩
  · exact listening

theorem takeLinkEvent (streaming : node.Streaming) (idle : node.role.Idle) {event : Link.LinkEvent}
    (plain : ∀ state, event = .state state → state.handshaking = true) :
    (node.takeLinkEvent event).Streaming := by
  cases event with
  | state state =>
      apply of_apart
      cases state <;> first | rfl | exact absurd (plain _ rfl) (by decide)
  | heartbeat => exact ⟨streaming.recorded⟩
  | fullSync id offset payload =>
      rcases node.applyFullSync_cases id offset payload with ⟨_, same⟩ | ⟨_, partitions, _, same⟩
      · rw [Node.takeLinkEvent, same]
        exact of_apart idle.apart_reconnect
      · rw [Node.takeLinkEvent, same]
        exact ⟨fun _ => rfl⟩
  | continued id => exact ⟨fun _ => rfl⟩
  | command arguments raw => exact streaming.follow arguments raw
  | failed => exact of_apart idle.apart_reconnect

theorem next {happening : Happening} (streaming : node.Streaming) (idle : node.role.Idle)
    (plain : happening.isPlain = true) (happened : node.next? happening = some later) :
    later.Streaming := by
  cases happening with
  | command id value =>
      cases happened
      exact streaming.serve id value
  | upkeep =>
      cases happened
      exact streaming.maintain idle
  | link epoch event =>
      cases happened
      simp only [handle]
      split
      · refine streaming.takeLinkEvent idle fun state reports => ?_
        subst reports
        exact plain
      · exact streaming
  | connected | disconnected | advance | setWall | task | report | setStorage | refuse | hangUp
  | deliver | deliverToLeader => exact .of_unmoved (unmoved_next happened rfl) streaming

end Streaming

/-- A node whose links report no more than they know records a stream while it is connected
to a leader. -/
theorem Attuned.streaming (attuned : node.Attuned) : node.Streaming := by
  induction attuned with
  | start port started =>
      obtain ⟨loaded, made, role⟩ := Server.start_inv started
      have streaming : loaded.Streaming := by
        rcases made with rfl | ⟨bytes, commands, _, rfl⟩
        · exact .of_apart rfl
        · refine Streaming.becomes ?_ (Command.load_ordinary commands _)
          exact .of_apart rfl
      rcases role with same | ⟨host, port, same⟩
      · rw [same]
        exact ⟨streaming.recorded⟩
      · rw [same]
        exact .of_apart rfl
  | next happening attuned plain happened ih =>
      exact ih.next attuned.reachable.orderly.idle plain happened

end Node
end ReplicaStore
