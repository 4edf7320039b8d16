import Casework.Execution.Settle

/-!
# Hosts

All executions that run over one engine and one journal, with the clock by which they wait.

* `Host` : the executions in the order in which they were started;
* `Host.ofSettings` : a host over directories;
* `Host.settle` : lets every execution run until it waits or is finished;
* `Host.elapse` : moves the clock;
* `Host.runUntil` : lets executions run, and time pass, until something is the case;
* `Host.signal`, `Host.cancel` : delivery to one execution, and its end.
-/

namespace Casework

/-- Executions over one engine and one journal. -/
structure Host where
  engine : Engine
  ledger : Ledger
  /-- In the order in which they were started. -/
  executions : List Execution := []
  /-- What the outside world shows. -/
  readings : Readings

namespace Host

def new (engine : Engine) (journal : Journal) (readings : Readings) : Host where
  engine := engine
  ledger := { journal := journal }
  readings := readings

/-- The journal in a directory, which is made if it is not there, or one in memory; and the tree
with that directory. -/
def openJournal (tree : FileTree) : Option String → Except Error (FileTree × Journal)
  | none => .ok (tree, .empty)
  | some path =>
      match tree.openFolder path with
      | .ok (tree, folder) => .ok (tree, .files folder)
      | .error cause => .error (.io cause)

/-- A host as settings ask for it: definitions and journals in directories of a tree. -/
def ofSettings (settings : EngineSettings) (tree : FileTree) (readings : Readings) :
    Except Error Host := do
  -- The way to the definitions may lead through the directory that is made for the journal.
  let (tree, journal) ← openJournal tree settings.journalPath
  pure (new ⟨.directory tree settings.definitionsPath, .builtin, settings⟩ journal readings)

def spawn (h : Host) (x : Execution) : Host × Nat :=
  ({ h with executions := h.executions ++ [x] }, h.executions.length)

def execution? (h : Host) (i : Nat) : Option Execution :=
  h.executions[i]?

def report (h : Host) (m : Metric) : Host :=
  { h with ledger := h.ledger.report m }

def withJournal (h : Host) (j : Journal) : Host :=
  { h with ledger := { h.ledger with journal := j } }

/-! ## Starting -/

def start (h : Host) (caseId name version : String) (payload : Value) : Host × Nat :=
  h.spawn (.fresh caseId name version payload h.readings.now)

/-- Goes on with the execution that the journal of a case tells of. -/
def resume (h : Host) (caseId : String) : Except Error (Host × Nat) :=
  (Execution.resume h.ledger.journal caseId).map h.spawn

/-! ## Running -/

def settleEach (g : Engine) (r : Readings) :
    List Execution → Ledger → List Execution × Ledger
  | [], l => ([], l)
  | x :: xs, l =>
      let (x, l) := x.settle g r l
      let (xs, l) := settleEach g r xs l
      (x :: xs, l)

/-- Lets every execution run until it waits or is finished. -/
def settle (h : Host) : Host :=
  let (xs, l) := settleEach h.engine h.readings h.executions h.ledger
  { h with executions := xs, ledger := l }

def atTime (h : Host) (time : Nat) : Host :=
  { h with readings := { h.readings with time := time } }

def elapse (h : Host) (seconds : Nat) : Host :=
  h.atTime (h.readings.time + seconds)

/-- Lets one execution run up to its next access to a file, its next wait or its end. -/
def sliceAt (g : Engine) (r : Readings) :
    List Execution → Nat → Ledger → List Execution × Ledger
  | [], _, l => ([], l)
  | x :: xs, 0, l =>
      let (x, l) := x.runSlice g r l
      (x :: xs, l)
  | x :: xs, i + 1, l =>
      let (xs, l) := sliceAt g r xs i l
      (x :: xs, l)

def runSlice (h : Host) (i : Nat) : Host :=
  let (xs, l) := sliceAt h.engine h.readings h.executions i h.ledger
  { h with executions := xs, ledger := l }

def isReady (h : Host) (i : Nat) : Bool :=
  h.executions[i]?.any fun x => x.isReady h.engine h.readings h.ledger

def workOf (g : Engine) : List Execution → Nat
  | [] => 0
  | x :: xs => x.work g + workOf g xs

def work (h : Host) : Nat :=
  workOf h.engine h.executions

/-- The one that runs has less ahead afterwards, and the others stay as they are. -/
theorem work_sliceAt_lt {g : Engine} {r : Readings} (xs : List Execution) (i : Nat) (l : Ledger)
    (h : xs[i]?.any (fun x => x.isReady g r l) = true) :
    workOf g (sliceAt g r xs i l).1 < workOf g xs := by
  induction xs generalizing i with
  | nil => simp at h
  | cons x xs ih =>
      cases i with
      | zero =>
          have := Execution.work_runSlice_lt (by simpa using h : x.isReady g r l = true)
          simp only [sliceAt, workOf]
          omega
      | succ i =>
          have := ih i (by simpa using h)
          simp only [sliceAt, workOf]
          omega

theorem work_runSlice_lt (h : Host) (i : Nat) (hr : h.isReady i = true) :
    (h.runSlice i).work < h.work :=
  work_sliceAt_lt h.executions i h.ledger hr

@[simp] theorem work_atTime (h : Host) (time : Nat) : (h.atTime time).work = h.work := rfl

def ready? (h : Host) : Option Nat :=
  (List.range h.executions.length).find? h.isReady

/-- The earliest time, not after the limit, at which an execution stops waiting. -/
def nextDeadline? (h : Host) (limit : Nat) : Option Nat :=
  ((h.executions.filterMap Execution.deadline?).filter fun d => d ≤ limit).min?

/-- The next execution to move and the time at which it does, now or at a deadline that is not
after the limit. -/
def nextMove? (h : Host) (limit : Nat) : Option (Nat × Nat) :=
  match h.ready? with
  | some i => some (i, h.readings.time)
  | none =>
      match h.nextDeadline? limit with
      -- Nothing moves before the next deadline, so the clock may jump to it.
      | some d => (h.atTime d).ready?.map fun i => (i, d)
      | none => none

/-- Lets executions run, and time pass up to the limit, until a condition holds.  The condition is
looked at whenever an execution waits or is about to use a file. -/
def runUntil (limit : Nat) (p : Host → Bool) (h : Host) : Host × Bool :=
  if p h then (h, true)
  else
    match h.nextMove? limit with
    | none => (h.atTime (max h.readings.time limit), false)
    | some (i, time) =>
        if _hr : (h.atTime time).isReady i = true then runUntil limit p ((h.atTime time).runSlice i)
        else (h, false)
termination_by h.work
decreasing_by exact work_runSlice_lt (h.atTime time) i (by assumption)

/-! ## One execution -/

def put (h : Host) (i : Nat) (x : Execution) : Host :=
  { h with executions := h.executions.set i x }

def signal (h : Host) (i : Nat) (s : Signal) : Except Error (Host × Disposition) :=
  match h.execution? i with
  | none => .error (.task "no such execution")
  | some x =>
      (x.deliver s).map fun (x, d) => ((h.put i x).report (Execution.deliveryMetric x.caseId d), d)

def decisionNow (h : Host) (value : String) : Signal :=
  .decision value h.readings.freshId h.readings.now

def decide (h : Host) (i : Nat) (value : String) : Except Error (Host × Disposition) :=
  h.signal i (h.decisionNow value)

def cancel (h : Host) (i : Nat) : Host :=
  match h.execution? i with
  | none => h
  | some x => h.put i x.cancel

end Host
end Casework
