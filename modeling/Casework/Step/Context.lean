import Casework.Case.Changes
import Casework.Journal.Log
import Casework.Metric
import Casework.Settings.Basic
import Casework.Signal.Inbox

/-!
# What a step works on

* `Context` : the published case, the inbox, the journal view and the logical clock of one
  execution;
* `Ledger` : what all executions of a host write to;
* `Readings` : what a step reads off the outside world.

The logical clock begins at the start of the execution and moves only when a journaled event is
observed, never backwards.  So a replay finds the same times.
-/

namespace Casework

/-- What is read off the outside world when a step needs it. -/
structure Readings where
  /-- The real time. -/
  now : Instant
  /-- An id that was never used before. -/
  freshId : String
  /-- Seconds on the clock by which waiting is measured. -/
  time : Nat := 0
deriving DecidableEq, Repr, Inhabited

/-- What all executions of a host write to. -/
structure Ledger where
  journal : Journal
  /-- Reports, in the order in which they were made. -/
  metrics : List Metric := []
  /-- What collaborators were asked to analyse, in order. -/
  analysed : List CaseData := []

namespace Ledger

def report (l : Ledger) (m : Metric) : Ledger :=
  { l with metrics := l.metrics ++ [m] }

def noteAnalysis (l : Ledger) (d : CaseData) : Ledger :=
  { l with analysed := l.analysed ++ [d] }

def record (l : Ledger) (log : Log) (e : JournalEntry) : Except Error Ledger :=
  (log.record l.journal e).map fun j => { l with journal := j }

end Ledger

/-- What a step of one execution works on. -/
structure Context where
  caseId : String
  /-- The case as readers see it; none until it is opened. -/
  published : Option Case := none
  inbox : Inbox := {}
  log : Log
  /-- The logical clock. -/
  clock : Instant
deriving DecidableEq, Repr

namespace Context

/-- Changes the published case; nothing happens if there is none. -/
def update (c : Context) (f : Case → Case) : Context :=
  { c with published := c.published.map f }

def publish (c : Context) (k : Case) : Context :=
  { c with published := some k }

/-- Moves the logical clock to the time of an event, never backwards. -/
def advanceClock (c : Context) (t : Instant) : Context :=
  { c with clock := c.clock.latest t }

def clearInbox (c : Context) : Context :=
  { c with inbox := c.inbox.clear.1 }

@[simp] theorem published_update (c : Context) (f : Case → Case) :
    (c.update f).published = c.published.map f := rfl

@[simp] theorem inbox_update (c : Context) (f : Case → Case) : (c.update f).inbox = c.inbox := rfl

@[simp] theorem log_update (c : Context) (f : Case → Case) : (c.update f).log = c.log := rfl

@[simp] theorem published_advanceClock (c : Context) (t : Instant) :
    (c.advanceClock t).published = c.published := rfl

@[simp] theorem inbox_advanceClock (c : Context) (t : Instant) :
    (c.advanceClock t).inbox = c.inbox := rfl

/-- The clock never moves backwards. -/
theorem clock_le_advanceClock (c : Context) (t : Instant) : c.clock ≤ (c.advanceClock t).clock :=
  Instant.le_latest_left c.clock t

end Context
end Casework
