import ReplicaStore.Node.Basic

/-!
# Saving

Writing the databases to the node's storage, in the background or at once.
-/

namespace ReplicaStore

/-- The reports of a writer that is given these keyspaces at the millisecond `now`.
When storing fails on the way it gives up the partitions that are not written yet. -/
def Storage.reports (storage : Storage) (views : List Keyspace) (now : Int) : List Report :=
  let indices := List.range views.length
  match storage.breaksAfter with
  | none => indices.map .written ++ [.finished (.ok (Snapshot.image views now))]
  | some count =>
      (indices.take count).map .written ++ (indices.drop count).map .aborted ++
        [.finished (.error .storage)]

namespace Node

/-- Begins a snapshot in the background, unless another one is being written or merged
back. -/
def beginSnapshot? (node : Node) : Option Node :=
  if node.partitions.status = .normal then
    let partitions := node.partitions.freeze
    some { node with
      partitions
      coordinator := node.coordinator.snapshotStarted
      writing := some (node.storage.reports partitions.views node.clock.wall) }
  else none

/-- Why nothing was saved. -/
inductive SaveError where
  /-- A snapshot is being written in the background. -/
  | busy
  | failed
  deriving DecidableEq, Repr

/-- Saves at once.  The result is the snapshot, which has then been stored. -/
def save (node : Node) : Except SaveError Bytes × Node :=
  match node.partitions.status with
  | .normal | .moving =>
      let stopped := node.partitions.stop
      let resumed := { node with partitions := stopped.resume }
      if node.storage.breaksAfter.isNone then
        let payload := Snapshot.image stopped.views node.clock.wall
        (.ok payload,
          { resumed with
            lastSave := node.clock.wall / 1000
            storage := { node.storage with file := some payload } })
      else (.error .failed, resumed)
  | .frozen | .stopped => (.error .busy, node)

/-- Gets a snapshot on its way for the replicas that need one.  The one being written
will do if it was begun for replicas; otherwise they have to wait. -/
def scheduleFullSync (node : Node) : Node :=
  match node.partitions.status with
  | .frozen =>
      if node.coordinator.hasReplicaIn .awaitingSnapshot then
        { node with coordinator := node.coordinator.markAwaiting.2 }
      else node
  | .normal =>
      match node.beginSnapshot? with
      | some node => { node with coordinator := node.coordinator.markAwaiting.2 }
      | none => node
  | .moving | .stopped => node

end Node
end ReplicaStore
