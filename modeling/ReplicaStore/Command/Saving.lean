import ReplicaStore.Command.Basic
import ReplicaStore.Node.Saving

/-!
# Commands that save
-/

namespace ReplicaStore.Command

open CommandM

/-- Saves at once and gives the snapshot. -/
def saveNow : CommandM Bytes := do
  let (result, node) := (← node).save
  changeNode fun _ => node
  match result with
  | .ok payload => return payload
  | .error .busy => throw .saveInProgress
  | .error .failed => throw .saveFailed

/-- `SAVE`. -/
def save : Handler := fun _ => do
  let _ ← saveNow
  ok

/-- `BGSAVE [SCHEDULE]`. -/
def bgsave : Handler := fun arguments => do
  match arguments with
  | [] => pure ()
  | [option] => if Text.sameIgnoringCase option "schedule" then pure () else throw .badSyntax
  | _ => throw .badSyntax
  match (← node).beginSnapshot? with
  | some node =>
      changeNode fun _ => node
      return [.simple "Background saving started"]
  | none => throw .saveInProgress

end ReplicaStore.Command
