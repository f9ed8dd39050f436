import ReplicaStore.Proofs.Node.Resync

/-!
# Chained replicas

A node that has a leader itself passes on what its leader says just as it came.  Its replicas
take this in the first database, although the leader may have selected another one before
their snapshot was begun.  So a replica of such a node holds what the node does if this was
the first database (`Node.Resync.chained`), and otherwise there are commands after which it
does not.
-/

namespace ReplicaStore

open ReplicaStore.Stream (Piece)

namespace Node

variable {node : Node} {epoch : Nat}

theorem hear_flushall (node : Node) :
    node.hear ["FLUSHALL"] =
      { node.listening with
        node := { node.listening.node with partitions := node.partitions.flush } } := by
  have known : Command.find? Command.all "FLUSHALL" =
      some ⟨"FLUSHALL", -1, .write, Command.flushall⟩ := rfl
  rw [hear_eq, Command.dispatch_of_not_client rfl, known]
  rfl

theorem hear_set (node : Node) (key value : String) :
    (node.hear ["SET", key, value]).node.partitions =
      node.partitions.modify node.role.database fun partition =>
        partition.put key { datum := .text value, expiry := none } := by
  have ran : (node.hear ["SET", key, value]).node.partitions =
      ((Command.store key value none).outcome node.listening.ready).2.node.partitions := by
    rw [hear_eq, Command.dispatch_of_not_client rfl, Command.restores_all.set]
    dsimp only
    rw [if_pos (by rfl), Command.outcome_set]
    rfl
  have same : node.listening.ready.node.partitions.get? node.listening.ready.session.database =
      node.partitions.get? node.role.database := rfl
  rw [ran, Command.store, CommandM.outcome_bind, CommandM.outcome_onPartition, same]
  cases found : node.partitions.get? node.role.database with
  | none =>
      have apart : node.partitions.partitions.modify node.role.database
          (fun partition => partition.put key { datum := .text value, expiry := none }) =
            node.partitions.partitions :=
        List.modify_eq_self (List.getElem?_eq_none_iff.mp found)
      rw [PartitionSet.modify, apart]
      rfl
  | some partition =>
      have alone : node.partitions.partitions.modify node.role.database
          (fun _ => partition.put key { datum := .text value, expiry := none }) =
            node.partitions.partitions.modify node.role.database
              (fun partition => partition.put key { datum := .text value, expiry := none }) := by
        apply List.ext_getElem?
        intro index
        simp only [List.getElem?_modify]
        by_cases here : node.role.database = index
        · subst here
          have there : node.partitions.partitions[node.role.database]? = some partition := found
          rw [there]
          simp
        · simp [here]
      rw [PartitionSet.modify, ← alone]
      rfl

/-- A node that its leader has empty all databases and then store something has stored it in
the database that it believes to be selected. -/
theorem take_flush_store (accepts : node.role.accepts epoch = true)
    (connected : node.role.state = .connected) (key value : String) (first second : Bytes) :
    (node.take epoch [⟨["FLUSHALL"], first⟩, ⟨["SET", key, value], second⟩]).partitions =
      node.partitions.flush.modify node.role.database fun partition =>
        partition.put key { datum := .text value, expiry := none } := by
  have follow {node : Node} (accepts : node.role.accepts epoch = true)
      (connected : node.role.state = .connected) (arguments : List String) (raw : Bytes) :
      node.take epoch [⟨arguments, raw⟩] =
        ({ (node.hear arguments).node with
          role := { (node.hear arguments).node.role with
            database := (node.hear arguments).session.database } } : Node).feed raw none := by
    simp only [take, List.foldl_cons, List.foldl_nil, handle, accepts, if_true, takeLinkEvent]
    exact follow_eq connected arguments raw
  have emptied := follow accepts connected ["FLUSHALL"] first
  rw [hear_flushall] at emptied
  have partitions : (node.take epoch [⟨["FLUSHALL"], first⟩]).partitions =
      node.partitions.flush := by
    rw [emptied]
    rfl
  have role : (node.take epoch [⟨["FLUSHALL"], first⟩]).role =
      node.role.touch node.clock.elapsed := by
    rw [emptied]
    rfl
  have stored := congrArg Node.partitions
    (@follow (node.take epoch [⟨["FLUSHALL"], first⟩]) (by rw [role]; exact accepts)
      (by rw [role]; exact connected) ["SET", key, value] second)
  have set := hear_set (node.take epoch [⟨["FLUSHALL"], first⟩]) key value
  rw [partitions, role] at set
  exact stored.trans set

/-- The first database after one of them was stored into and all had been emptied. -/
theorem live_flush_store (set : PartitionSet) (some : 0 < set.count) (index : Nat)
    (key value : String) (now : Int) :
    ((set.flush.modify index fun partition =>
        partition.put key { datum := .text value, expiry := none }).live now)[0]?.map (·[key]?) =
      if index = 0 then Option.some (Option.some { datum := .text value, expiry := none })
      else Option.some none := by
  have first : set.flush.get? 0 = Option.some {} := by
    have there : 0 < set.partitions.length := some
    simp [PartitionSet.get?, PartitionSet.flush, Partition.flush, there]
  rw [PartitionSet.getElem?_live]
  by_cases here : index = 0
  · subst here
    rw [PartitionSet.get?_modify first, if_pos rfl]
    simp [Partition.live_put Partition.Sound.new.settled, Entry.expired]
  · have apart : (set.flush.modify index fun partition =>
        partition.put key { datum := .text value, expiry := none }).get? 0 = Option.some {} := by
      simpa [PartitionSet.get?, PartitionSet.modify, List.getElem?_modify, here] using first
    rw [apart, if_neg here]
    simp [Partition.live, Keyspace.getElem?_unexpired, Partition.lookup]

namespace Resync

variable (resync : Resync)

/-- What becomes of a node with a leader is what the loaded snapshot becomes if the stream
behind it is taken in the database that the leader had selected before.  A replica takes it
in the first database: it holds what the node does whenever these two are one, whatever the
commands are, and otherwise not after all data was deleted and something was stored. -/
theorem chained {follower : Node} {epoch : Nat} (fits : follower.Fits resync.before epoch) :
    resync.leader.partitions.live resync.leader.clock.wall =
      (((resync.loaded follower epoch).inDatabase resync.before.role.database).replay epoch
        resync.stream).partitions.live resync.leader.clock.wall ∧
    (resync.before.role.database = 0 →
      (resync.replica follower epoch).partitions.live resync.leader.clock.wall =
        resync.leader.partitions.live resync.leader.clock.wall) ∧
    (resync.before.role.database ≠ 0 → ∀ key value : String,
      (resync.meanwhile ++ resync.later).map (·.arguments) =
        [["FLUSHALL"], ["SET", key, value]] →
      (resync.replica follower epoch).partitions.live resync.leader.clock.wall ≠
        resync.leader.partitions.live resync.leader.clock.wall) := by
  have mirrors := @Resync.mirrors resync follower epoch fits resync.before.role.database
    fun _ => rfl
  refine ⟨mirrors.live.symm, ?_, ?_⟩
  · intro first
    rw [first, resync.loaded_inDatabase fits] at mirrors
    exact mirrors.live
  · intro other key value given same
    obtain ⟨opened, tells, count, first, loads⟩ := resync.loads fits
    obtain ⟨flushing, rest, all, emptied, tail⟩ := List.map_eq_cons_iff.mp given
    obtain ⟨storing, last, rfl, stored, nothing⟩ := List.map_eq_cons_iff.mp tail
    obtain rfl := List.map_eq_nil_iff.mp nothing
    obtain ⟨_, flushed⟩ := flushing
    obtain ⟨_, set⟩ := storing
    obtain rfl : _ = ["FLUSHALL"] := emptied
    obtain rfl : _ = ["SET", key, value] := stored
    have ideal := loads resync.before.role.database fun _ => rfl
    have positive : 0 < (resync.loaded follower epoch).partitions.count := by
      have same := congrArg List.length ideal.live
      rw [PartitionSet.count_live, PartitionSet.count_live, count] at same
      have least := resync.begins.bounded.positive
      have here : ((resync.loaded follower epoch).inDatabase
        resync.before.role.database).partitions.count =
          (resync.loaded follower epoch).partitions.count := rfl
      omega
    rw [← mirrors.live, replica, stream, ← Piece.bytes_append, replay_bytes tells.framed,
      replay_bytes tells.framed, all] at same
    have accepts : (resync.loaded follower epoch).role.accepts epoch = true := ideal.attached.accepts
    have connected : (resync.loaded follower epoch).role.state = .connected :=
      ideal.attached.connected
    rw [take_flush_store accepts connected, first,
      @take_flush_store ((resync.loaded follower epoch).inDatabase resync.before.role.database) epoch
        accepts connected] at same
    have there := congrArg (fun views => views[0]?.map (·[key]?)) same
    rw [live_flush_store _ positive, if_pos rfl] at there
    have here := live_flush_store (resync.loaded follower epoch).partitions positive
      resync.before.role.database key value resync.leader.clock.wall
    rw [if_neg other] at here
    cases there.trans here

end Resync

end Node
end ReplicaStore
