import ReplicaStore.Proofs.Node.Course

/-!
# Fan-out

Whatever is added to the stream of a node is queued, in one message, for each of its replicas
that is online and still reads (`Node.Ordinary.queued_added`).
-/

namespace ReplicaStore

open ReplicaStore.Stream (Coordinator Piece)

namespace Node

/-- A replica is online, and somebody reads what is queued for it. -/
def Hears (node : Node) (id : ClientId) : Prop :=
  node.coordinator.Online id ∧ node.clients.reaches id = true

end Node

/-- A deed that concerns neither the history nor the role leaves replicas online. -/
theorem Deed.hears {deed : Deed} (inner : deed.IsInner) {node : Node} {id : ClientId}
    (hears : node.Hears id) : (deed.apply node).Hears id := by
  have modified (other : ClientId) {change : Client → Client}
      (kept : ∀ client, (change client).reading = client.reading) :
      Clients.reaches (node.clients.modify other change) id = true :=
    (Clients.reaches_modify _ id other kept).trans hears.2
  cases deed with
  | save =>
      rcases node.save_cases with ⟨_, same⟩ | ⟨_, _, _, same⟩ <;> rw [apply, same] <;> exact hears
  | beginSnapshot =>
      simp only [apply]
      cases begun : node.beginSnapshot? with
      | none => exact hears
      | some later =>
          obtain ⟨_, rfl⟩ := Node.beginSnapshot?_inv begun
          exact hears
  | publish listeners bytes => exact ⟨hears.1, (Clients.reaches_sendAll ..).trans hears.2⟩
  | subscription other channel listen => exact ⟨hears.1, modified other fun _ => rfl⟩
  | listeningPort other port => exact ⟨hears.1, modified other fun _ => rfl⟩
  | close other => exact ⟨hears.1, (Clients.reaches_queue ..).trans hears.2⟩
  | acknowledge other offset =>
      exact ⟨hears.1.changeReplica other fun _ => rfl, hears.2⟩
  | edit | flush | answerLeader => exact hears
  | _ => cases inner

namespace Node

variable {node later : Node} {id : ClientId}

theorem Hears.listening (hears : node.Hears id) : node.listening.node.Hears id :=
  hears

theorem Hears.hear (hears : node.Hears id) {arguments : List String}
    (stays : ¬Command.Turns arguments) : (node.hear arguments).node.Hears id := by
  rw [hear_eq]
  have becomes := @Command.dispatch_inner node.listening rfl arguments stays
  have step (deed : Deed) (between : Node) (inner : deed.IsInner) (hears : between.Hears id) :
      (deed.apply between).Hears id := Deed.hears inner hears
  exact becomes.keeps step hears.listening

section

variable (hears : node.Hears id) (recorded : node.coordinator.backlog.isSome = true)

include hears recorded

theorem queued_serve (regular : node.Regular) {issuer : ClientId} {value : Wire.Value}
    (permitted : ∀ arguments, value.arguments? = some arguments → Command.Permitted arguments)
    (adds : node.added (.command issuer value) ≠ []) :
    (node.serve issuer value).clients.Queued id
      (.data (Piece.bytes (node.added (.command issuer value)))) := by
  simp only [added] at adds ⊢
  cases found : node.clients[issuer]? with
  | none => simp [found] at adds
  | some client =>
      cases given : value.arguments? with
      | none => simp [found, given] at adds
      | some arguments =>
          have issued : (node.issued issuer client).node.Regular :=
            ⟨regular.sound, regular.lifecycle.congr rfl rfl rfl fun _ drains => drains,
              regular.bounded.congr rfl rfl⟩
          obtain ⟨clients, same, kept⟩ := serve_eq found given
          simp only [found, given] at adds ⊢
          rw [same]
          apply kept
          by_cases follows : node.following = true
          · simp [follows] at adds
          · have leads : node.following = false := by simpa using follows
            simp only [leads, Bool.false_eq_true, if_false] at adds ⊢
            rcases Command.dispatch_leading rfl issued (permitted _ given) leads with
              ⟨silent, _⟩ | ⟨form, after, added, feeds, echoes⟩
            · simp [silent] at adds
            · rw [added, feeds]
              have touched : after.node.coordinator =
                  node.coordinator.touch node.clock.elapsed issuer := by
                rw [echoes.frame]
                rfl
              have queued := @Coordinator.queued_feed after.node.coordinator after.node.clients id
                (by rw [touched]; exact hears.1.changeReplica issuer fun _ => rfl)
                ((echoes.reaches id).trans hears.2)
                (by rw [touched]; exact recorded) (Wire.commandBytes form)
                (some after.session.database)
              rw [touched] at queued
              dsimp only
              rw [Coordinator.bytes_pieces]
              simp only [feed, coordinate, touched]
              exact queued

theorem queued_maintain (adds : node.added .upkeep ≠ []) :
    node.maintain.clients.Queued id (.data (Piece.bytes (node.added .upkeep))) := by
  simp only [added] at adds ⊢
  by_cases pings : node.pings = true
  · rw [if_pos pings]
    have one : Piece.bytes [.ofCommand ["PING"]] = Wire.commandBytes ["PING"] := by
      simp [Piece.ofCommand]
    rw [one, node.maintain_coordinates.2]
    apply Coordinator.queued_maintain
    rw [ping_periods, if_pos pings]
    exact @Coordinator.queued_feed { node.coordinator with lastPing := node.clock.elapsed }
      node.clients id hears.1 hears.2 recorded (Wire.commandBytes ["PING"]) none
  · rw [if_neg pings] at adds
    exact absurd rfl adds

theorem queued_follow (connected : node.role.state = .connected) {piece : Piece}
    (stays : ¬Command.Turns piece.arguments) :
    (node.follow piece.arguments piece.raw).clients.Queued id (.data piece.raw) := by
  have abides := @hear_abides node piece.arguments stays
  obtain ⟨online, reaches⟩ := hears.hear stays
  have queued := Coordinator.queued_feed online reaches (by rw [abides.backlog]; exact recorded)
    piece.raw none
  rw [follow_eq connected]
  exact queued

end

/-- What is added to the stream is sent, in one message, to every replica that hears it. -/
theorem Ordinary.queued_added {happening : Happening} (ordinary : node.Ordinary happening later)
    (reachable : node.Reachable) (hears : node.Hears id) (adds : node.added happening ≠ []) :
    later.clients.Queued id (.data (Piece.bytes (node.added happening))) := by
  have recorded := reachable.orderly.coordinator.recorded hears.1.serves
  have happened := ordinary.happened
  cases happening with
  | command issuer value =>
      cases happened
      exact queued_serve hears recorded ⟨reachable.sound, reachable.lifecycle, ordinary.bounded⟩
        (fun arguments => ordinary.permitted issuer value arguments rfl) adds
  | upkeep =>
      cases happened
      exact queued_maintain hears recorded adds
  | link epoch event =>
      cases event with
      | command arguments raw =>
          cases happened
          simp only [added] at adds ⊢
          by_cases heard : (node.role.accepts epoch && node.role.connected) = true
          · obtain ⟨accepts, linked⟩ := (Bool.and_eq_true ..).mp heard
            have follows := Link.Role.leader_of_accepts reachable.orderly.idle accepts
            obtain ⟨_, stays⟩ := ordinary.passed follows epoch arguments raw rfl
            have connected : node.role.state = .connected := by
              simpa [Link.Role.connected] using linked
            have queued := @queued_follow node id hears recorded connected ⟨arguments, raw⟩ stays
            have one : Piece.bytes [⟨arguments, raw⟩] = raw := by simp
            rw [if_pos heard, one]
            simp only [handle, accepts, if_true, takeLinkEvent]
            exact queued
          · rw [if_neg heard] at adds
            exact absurd rfl adds
      | _ => exact absurd rfl adds
  | _ => exact absurd rfl adds

end Node
end ReplicaStore
