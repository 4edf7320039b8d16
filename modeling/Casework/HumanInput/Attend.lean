import Casework.Execution.Host
import Casework.HumanInput.Handler

/-!
# Attending to an execution

* `Host.attend` : answers every interaction that an execution publishes, until it is finished.

An interaction counts as unanswered when the case has more activities than it had when the last
answer was sent, since every decision that is taken adds one.  Executions go on while an answer is
thought about, so it may come too late for the interaction that it was meant for.
-/

namespace Casework

/-- How attending to an execution ended. -/
inductive Attendance where
  /-- The execution is finished. -/
  | finished (status : ExecutionStatus)
  /-- No answer was found, or it could not be sent. -/
  | failed (e : Error)
  /-- Time is up. -/
  | pending
deriving DecidableEq, Repr

namespace Execution

/-- The interaction that is still to be answered, with its case. -/
def unanswered? (x : Execution) (answered : Nat) : Option (Case × Interaction) :=
  match x.published with
  | none => none
  | some k => if answered < k.activityCount then k.interaction.map fun i => (k, i) else none

end Execution

namespace Host

/-- Whether an execution has an interaction to be answered or is finished. -/
def needsAttention (i answered : Nat) (h : Host) : Bool :=
  (h.execution? i).any fun x => (x.unanswered? answered).isSome || x.isFinished

/-- Lets executions run while somebody takes some seconds to answer. -/
def pause (h : Host) : Nat → Host
  | 0 => h
  | seconds + 1 => (h.runUntil (h.readings.time + seconds + 1) fun _ => false).1

/-- Answers the interactions of an execution, `answered` being the number of activities at the last
answer, with time passing up to the limit. -/
def attendFrom {σ : Type} (limit : Nat) (i : Nat) (handler : Handler σ) (answered : Nat) (s : σ)
    (h : Host) : Host × σ × Attendance :=
  let (h, reached) := h.runUntil limit (needsAttention i answered)
  if !reached then (h, s, .pending)
  else
    match h.execution? i with
    | none => (h, s, .pending)
    | some x =>
        match x.unanswered? answered with
        | none => (h, s, .finished x.status)
        | some (k, interaction) =>
            let request := Request.ofInteraction k.caseId interaction
            -- The others do not stand still meanwhile.
            let h := h.pause (handler.pace request s)
            match _ha : handler.answer request s with
            | (.error e, s) => (h, s, .failed e)
            | (.ok response, s') =>
                match h.decide i response.value with
                | .error e => (h, s', .failed e)
                | .ok (h, _) => attendFrom limit i handler k.activityCount s' h
termination_by handler.supply s
decreasing_by exact handler.supply_lt (by assumption)

/-- Answers every interaction that an execution publishes, until it is finished. -/
def attend {σ : Type} (limit : Nat) (i : Nat) (handler : Handler σ) (s : σ) (h : Host) :
    Host × σ × Attendance :=
  h.attendFrom limit i handler 0 s

end Host
end Casework
