import ReplicaStore.Command.Table
import ReplicaStore.Link.Dialogue
import ReplicaStore.Main
import ReplicaStore.Node.Timeline
import ReplicaStore.PartitionSet
import ReplicaStore.Proofs.Partition.Count
import ReplicaStore.Proofs.Partition.Tables
import ReplicaStore.Proofs.Node.Lifecycle
import ReplicaStore.Proofs.Node.Chain
import ReplicaStore.Proofs.Node.FanOut
import ReplicaStore.Proofs.Node.Resync
import ReplicaStore.Proofs.Node.Attendance
import ReplicaStore.Proofs.Node.Routing
import ReplicaStore.Proofs.Node.Standing
import ReplicaStore.Proofs.Stream.Delivery
import ReplicaStore.Proofs.Node.Course
import ReplicaStore.Proofs.Node.Progress
import ReplicaStore.Proofs.Node.Told
import ReplicaStore.Proofs.Stream.Pieces
import ReplicaStore.Proofs.Node.Mirror
import ReplicaStore.Proofs.Node.Serving
import ReplicaStore.Proofs.Node.Echo
import ReplicaStore.Proofs.Node.Calm
import ReplicaStore.Proofs.Node.Picture
import ReplicaStore.Proofs.Node.Sound
import ReplicaStore.Proofs.Node.Orderly
import ReplicaStore.Proofs.Command.Loading
import ReplicaStore.Proofs.Stream.Since
import ReplicaStore.Server.LeaderLink
import ReplicaStore.Settings.Load
import ReplicaStore.Snapshot.Reader
import ReplicaStore.Snapshot.Writer
import ReplicaStore.Stream.Coordinator
import ReplicaStore.Wire.Frame
import ReplicaStore.Proofs.Command.Conduct
import ReplicaStore.Proofs.Cluster.Basic
import ReplicaStore.Proofs.Cluster.History
import ReplicaStore.Proofs.Node.Restoring
import ReplicaStore.Proofs.Command.Blind
import ReplicaStore.Proofs.Node.Unseen
import ReplicaStore.Proofs.Command.Delayed
import ReplicaStore.Proofs.Node.Delayed
import ReplicaStore.Proofs.Cluster.Resuming
import ReplicaStore.Proofs.Command.Refusal
import ReplicaStore.Proofs.Node.Failing
import ReplicaStore.Proofs.Node.Attuned
import ReplicaStore.Proofs.Node.ReadOnly
import ReplicaStore.Proofs.Node.Idle
import ReplicaStore.Proofs.Node.Landing
import ReplicaStore.Proofs.Snapshot.Piecewise
import ReplicaStore.Proofs.Snapshot.Writing
import ReplicaStore.Proofs.Wire.Framing
import ReplicaStore.Proofs.Link.Answers
import ReplicaStore.Proofs.Server.Breaking
import ReplicaStore.Proofs.Node.Offsets
import ReplicaStore.Proofs.Command.Framed
import ReplicaStore.Proofs.Stream.Ring
import ReplicaStore.Proofs.Node.Merging
import ReplicaStore.Proofs.Node.Epochs
import ReplicaStore.Proofs.Node.Publishing
import ReplicaStore.Proofs.Link.Requests
import ReplicaStore.Proofs.Settings.Precedence
import ReplicaStore.Proofs.Node.Pacing
import ReplicaStore.Proofs.Node.Reporting
import ReplicaStore.Proofs.Node.Capacity
