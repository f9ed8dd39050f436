import ReplicaStore.Node.Events

/-!
# The course of time

What a node has set going comes back to it as events: the reports of a snapshot
writer, and the tasks it has told itself to do, once they are due.  Nothing of this
happens by itself; the steps here let it happen one event at a time.
-/

namespace ReplicaStore.Node

/-- The event of a merge, with a batch of the least keys. -/
def drainEvent (node : Node) (index : Nat) : Event :=
  .drain index
    (((node.partitions.get? index).map (·.batch node.settings.drainBatch)).getD [])

/-- The event that a task comes back as. -/
def taskEvent (node : Node) : Task → Event
  | .beginSnapshot => .beginSnapshot
  | .drain index => node.drainEvent index

/-- Lets milliseconds pass.  Tasks that become due are lined up. -/
def advance (node : Node) (milliseconds : Nat) : Node :=
  let now := node.clock.elapsed + milliseconds
  { node with
    clock := { node.clock with elapsed := now }
    timers := node.timers.filter (now < ·.due)
    tasks := node.tasks ++ (node.timers.filter (·.due ≤ now)).map (·.task) }

/-- Lets the snapshot writer make its next report.  A finished snapshot is stored. -/
def stepWriter? (node : Node) : Option (Report × Node) :=
  match node.writing with
  | none | some [] => none
  | some (report :: later) =>
      let node := match report with
        | .finished result =>
            { node with
              writing := none
              storage := { node.storage with
                file := result.toOption.orElse fun _ => node.storage.file } }
        | _ => { node with writing := some later }
      some (report, node.handle (.report report))

/-- Lets a snapshot writer that is running make up to `count` reports. -/
def stepWriter (node : Node) : Nat → List Report × Node
  | 0 => ([], node)
  | count + 1 =>
      match node.stepWriter? with
      | none => ([], node)
      | some (report, node) =>
          let (reports, node) := node.stepWriter count
          (report :: reports, node)

/-- Lets the snapshot writer come to its end. -/
def finishWriter (node : Node) : List Report × Node :=
  node.stepWriter ((node.writing.map (·.length)).getD 0)

/-- Does the tasks that are lined up, but not those they bring about. -/
def runTasks (node : Node) : List Task × Node :=
  let tasks := node.tasks
  (tasks, tasks.foldl (fun node task => node.handle (node.taskEvent task)) { node with tasks := [] })

/-- Lets everything that was set going come to its end, in at most `rounds` rounds, and
tells whether the databases are back to normal. -/
def settle (node : Node) : Nat → Bool × Node
  | 0 => (false, node)
  | rounds + 1 =>
      let node := node.finishWriter.2
      if node.partitions.status = .normal then (true, node)
      else ((node.advance (node.settings.drainInterval + 1)).runTasks.2).settle rounds

end ReplicaStore.Node
