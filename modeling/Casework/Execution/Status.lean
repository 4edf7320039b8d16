import Casework.Error

/-!
# The life of an execution

* `ExecutionStatus` : running, or one of the three ways to be finished.
-/

namespace Casework

/-- Where an execution stands, as its host sees it. -/
inductive ExecutionStatus where
  /-- Dispatches steps or waits for a decision. -/
  | running
  /-- Reached a step that ends it. -/
  | completed
  /-- Ended with an error. -/
  | failed (text : String)
  /-- Stopped by its host. -/
  | cancelled
deriving DecidableEq, Repr

namespace ExecutionStatus

def isFinished : ExecutionStatus → Bool
  | .running => false
  | _ => true

def text : ExecutionStatus → String
  | .running => "running"
  | .completed => "completed"
  | .failed t => "failed: " ++ t
  | .cancelled => "cancelled"

def ofResult {α : Type} : Except Error α → ExecutionStatus
  | .ok _ => .completed
  | .error e => .failed e.message

end ExecutionStatus
end Casework
