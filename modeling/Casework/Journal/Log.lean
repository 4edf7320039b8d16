import Casework.Journal.Store

/-!
# The log of an execution

The view that one execution has of its journal.  As long as entries of an earlier run remain,
look-ups are answered from them in order and nothing is looked up elsewhere; afterwards events are
recorded as they happen.

* `Log` : the case and the entries still to be replayed;
* `Log.hasNext`, `Log.tail` : the first of them, and the log without it;
* `Log.recallSignal`, `Log.recallActivity` : look-ups, which fail when the next entry is another;
* `Log.record` : appends an event;
* `Log.complete`, `Log.fail` : the end of the execution, recorded unless an earlier run did.
-/

namespace Casework

/-- One execution's view of its journal. -/
structure Log where
  caseId : String
  /-- Entries of an earlier run that are still to be replayed. -/
  pending : List JournalEntry := []
deriving DecidableEq, Repr

namespace Log

def isReplaying (l : Log) : Bool :=
  !l.pending.isEmpty

/-- Whether an entry of this kind is the next to be replayed. -/
def hasNext (log : Log) (kind : JournalEntry.Kind) : Bool :=
  log.pending.head?.any fun e => e.kind == kind

/-- The log without the entry that is the next to be replayed. -/
def tail (log : Log) : Log := { log with pending := log.pending.tail }

/-- The complaint that a replay reached a step for which the journal has another entry. -/
def divergence (stepId : String) (expected : JournalEntry.Kind) (found : JournalEntry) : Error :=
  let step :=
    match found.stepId? with
    | some s => " for step '" ++ s ++ "'"
    | none => ""
  .replayDivergence stepId
    ("expected " ++ expected.name ++ ", journal has " ++ found.kind.name ++ step)

/-- The signal an earlier run consumed at this step; none if the replay is over. -/
def recallSignal (l : Log) (stepId : String) : Except Error (Log × Option Signal) :=
  match l.pending with
  | [] => .ok (l, none)
  | .signalConsumed recorded signal :: rest =>
      if recorded = stepId then .ok ({ l with pending := rest }, some signal)
      else .error (divergence stepId .signalConsumed (.signalConsumed recorded signal))
  | e :: _ => .error (divergence stepId .signalConsumed e)

/-- The answer an earlier run got at this step; none if the replay is over. -/
def recallActivity (l : Log) (stepId : String) : Except Error (Log × Option (Value × Instant)) :=
  match l.pending with
  | [] => .ok (l, none)
  | .activityCompleted recorded output t :: rest =>
      if recorded = stepId then .ok ({ l with pending := rest }, some (output, t))
      else .error (divergence stepId .activityCompleted (.activityCompleted recorded output t))
  | e :: _ => .error (divergence stepId .activityCompleted e)

def record (l : Log) (j : Journal) (e : JournalEntry) : Except Error Journal :=
  j.append l.caseId e

/-- Records completion, unless an earlier run did. -/
def complete (l : Log) (j : Journal) (status : String) (t : Instant) :
    Except Error (Log × Journal) :=
  match l.pending with
  | .completed _ _ :: rest => .ok ({ l with pending := rest }, j)
  | _ => (l.record j (.completed status t)).map fun j => (l, j)

/-- Records failure, unless an earlier run did. -/
def fail (l : Log) (j : Journal) (e : Error) (t : Instant) : Except Error (Log × Journal) :=
  match l.pending with
  | .failed _ _ :: rest => .ok ({ l with pending := rest }, j)
  | _ => (l.record j (.failed e.message t)).map fun j => (l, j)

end Log
end Casework
