import Casework.Execution.Basic

/-!
# Appends

An atomic step that appends to the journal, in two halves.  An append to a file takes its time: the
entry is in the file before the execution knows of it, and whoever reads the file meanwhile, or
stops the execution, comes in between.

* `Execution.written?` : the entry that the next atomic step appends, if it appends one;
* `Execution.land` : the first half, after which the entry is in the journal;
* `Execution.conclude` : the second half, in which the execution goes on.

A step that appends nothing, or whose entry is refused, has no halves.
-/

namespace Casework
namespace Execution

def terminal (r : Readings) : Except Error Case → JournalEntry
  | .ok k => .completed k.status k.details.updatedAt
  | .error e => .failed e.message r.now

/-- The entry that the next atomic step appends to the journal. -/
def written? (r : Readings) (x : Execution) : Option JournalEntry :=
  match x.phase with
  | .starting => some x.startEntry
  | .visiting _ _ s _ (.decided signal) => some (.signalConsumed s.stepId signal)
  | .visiting _ _ s _ (.analysed a t) => some (.activityCompleted s.stepId (toValue a) t)
  | .closing result =>
      if x.context.log.hasNext (terminal r result).kind then none else some (terminal r result)
  | _ => none

/-- The ledger once the entry of the next atomic step is in the journal. -/
def land (r : Readings) (x : Execution) (l : Ledger) : Option Ledger :=
  (x.written? r).bind fun e => (l.record x.context.log e).toOption

def conclude (x : Execution) (l : Ledger) : Execution × Ledger :=
  match x.phase with
  | .starting => ({ x with phase := .opening }, l)
  | .visiting d n s e (.decided signal) =>
      ({ x with context := Visit.applyDecision x.context signal,
                phase := .visiting d n s e (Visit.leave s signal.value) },
        l.report (.one "case_decisions_total" [("step", s.stepId), ("value", signal.value)]))
  | .visiting d n s e (.analysed a t) =>
      ({ x with context := Visit.applyEnrichment (x.context.advanceClock t) a,
                phase := .visiting d n s e (Visit.leave s none) }, l)
  | .closing result =>
      -- A status that is final already is kept.
      ({ x with phase := .ended result
                status := if x.isFinished then x.status else .ofResult result },
        l.report (executionMetric result.isOk))
  | _ => (x, l)

end Execution
end Casework
