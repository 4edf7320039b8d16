import Casework.Definition.Loader
import Casework.Execution.Status
import Casework.Step.Visit

/-!
# Executions

One execution interprets one definition for one case: it records its start, loads the definition,
opens the case, and walks from step to step until one ends it.

* `Engine` : what executions are interpreted with;
* `Execution` : the state of one, with `Execution.fresh` and `Execution.resume?` to make it;
* `Execution.advance` : its next atomic step;
* `Execution.settle` : all steps up to the next wait or the end;
* `Execution.deliver`, `Execution.cancel` : what a host may do to it.

An execution that is resumed walks the same way.  Its log answers look-ups from the entries of the
earlier run, so it arrives where that run stopped without waiting or asking anyone.
-/

namespace Casework

/-- What executions are interpreted with. -/
structure Engine where
  loader : Loader
  registry : Registry := Registry.builtin
  settings : EngineSettings := {}

/-- What an execution was started with. -/
structure Launch where
  processName : String
  processVersion : String
  payload : Value
  startedAt : Instant
  /-- Whether the start is still to be recorded. -/
  isFresh : Bool
deriving DecidableEq, Repr

inductive Phase where
  /-- About to record its start. -/
  | starting
  /-- About to load the definition and open the case. -/
  | opening
  /-- About to dispatch a step; some were dispatched before. -/
  | dispatching (d : Definition) (dispatched : Nat) (stepId : String)
  /-- In a step. -/
  | visiting (d : Definition) (dispatched : Nat) (step : StepDefinition) (executor : Executor)
      (visit : Visit)
  /-- About to record how it ended. -/
  | closing (result : Except Error Case)
  | ended (result : Except Error Case)

structure Execution where
  launch : Launch
  context : Context
  phase : Phase
  status : ExecutionStatus := .running

namespace Execution

def caseId (x : Execution) : String := x.context.caseId

def published (x : Execution) : Option Case := x.context.published

def isFinished (x : Execution) : Bool := x.status.isFinished

def launching (caseId : String) (launch : Launch) (entries : List JournalEntry) : Execution where
  launch := launch
  context := { caseId := caseId, log := ⟨caseId, entries⟩, clock := launch.startedAt }
  phase := if launch.isFresh then .starting else .opening

def fresh (caseId name version : String) (payload : Value) (now : Instant) : Execution :=
  launching caseId ⟨name, version, payload, now, true⟩ []

/-- The execution that a journal tells of; its first entry is the start. -/
def ofEntries (caseId : String) : List JournalEntry → Except Error Execution
  | .started _ name version payload time :: rest =>
      .ok (launching caseId ⟨name, version, payload, time, false⟩ rest)
  | e :: _ => .error (.journal (.wrongStart caseId e.kind.name))
  | [] => .error (.caseNotFound caseId)

/-- The execution to go on with after an earlier run of a case. -/
def resume (j : Journal) (caseId : String) : Except Error Execution := do
  let entries ← j.load caseId
  ofEntries caseId entries

/-! ## Atomic steps -/

def startEntry (x : Execution) : JournalEntry :=
  .started x.caseId x.launch.processName x.launch.processVersion x.launch.payload
    x.launch.startedAt

def start (x : Execution) (l : Ledger) : Execution × Ledger :=
  match l.record x.context.log x.startEntry with
  | .ok l => ({ x with phase := .opening }, l)
  | .error e => ({ x with phase := .closing (.error e) }, l)

/-- The definition and the payload that an execution walks with. -/
def prepare (g : Engine) (launch : Launch) : Except Error (Definition × CaseInput) := do
  let d ← g.loader.load launch.processName launch.processVersion
  if g.settings.validateOnLoad then
    g.registry.validate d
  match CaseInput.ofPayload launch.payload with
  | .ok input => pure (d, input)
  | .error f => throw (.json f)

def assignee (settings : EngineSettings) : Participant :=
  ⟨settings.assignee.name, settings.assignee.email⟩

def openCase (g : Engine) (x : Execution) : Execution :=
  match prepare g x.launch with
  | .error e => { x with phase := .closing (.error e) }
  | .ok (d, input) =>
      let opened := Case.openFrom x.caseId input (assignee g.settings) x.launch.startedAt
      { x with context := x.context.publish opened, phase := .dispatching d 0 d.initialStep }

def selectStep (g : Engine) (d : Definition) (stepId : String) :
    Except Error (StepDefinition × Executor) :=
  match d.step? stepId with
  | none => .error (.stepNotFound stepId)
  | some s => (g.registry.executorOf s).map fun e => (s, e)

/-- Dispatches a step, unless the limit is reached. -/
def dispatch (g : Engine) (d : Definition) (dispatched : Nat) (stepId : String) : Phase :=
  if g.settings.maxSteps ≤ dispatched then
    .closing (.error (.stepLimitExceeded g.settings.maxSteps))
  else
    match selectStep g d stepId with
    | .error e => .closing (.error e)
    | .ok (s, e) => .visiting d (dispatched + 1) s e .entering

def finalCase (c : Context) : Except Error Case :=
  match c.published with
  | some k => .ok k
  | none => .error (.caseNotFound c.caseId)

def stepMetric (s : StepDefinition) : Metric :=
  .duration "case_step_duration_ms" [("step", s.stepId), ("type", s.stepType)]

def proceed (c : Context) (l : Ledger) (d : Definition) (dispatched : Nat) (s : StepDefinition) :
    Except Error Outcome → Phase × Ledger
  | .error e => (.closing (.error e), l)
  | .ok (.next stepId) => (.dispatching d dispatched stepId, l.report (stepMetric s))
  | .ok .terminate => (.closing (finalCase c), l.report (stepMetric s))

def executionMetric (success : Bool) : Metric :=
  .duration "case_execution_duration_ms" [("success", if success then "true" else "false")]

/-- Records how the execution ended.  A failure to record completion becomes the result, one to
record failure is passed over. -/
def close (c : Context) (l : Ledger) (r : Readings) (result : Except Error Case) :
    Context × Ledger × Except Error Case :=
  match result with
  | .ok k =>
      match c.log.complete l.journal k.status k.details.updatedAt with
      | .ok (log, j) =>
          ({ c with log := log }, { l with journal := j }.report (executionMetric true), .ok k)
      -- A completion that nobody can find again is no completion.
      | .error e => (c, l, .error e)
  | .error e =>
      match c.log.fail l.journal e r.now with
      | .ok (log, j) =>
          ({ c with log := log }, { l with journal := j }.report (executionMetric false), .error e)
      -- The failure is the result, whether it could be recorded or not.
      | .error _ => (c, l.report (executionMetric false), .error e)

def finish (x : Execution) (l : Ledger) (r : Readings) (result : Except Error Case) :
    Execution × Ledger :=
  let (c, l, result) := close x.context l r result
  ({ x with context := c, phase := .ended result, status := .ofResult result }, l)

/-- The next atomic step of an execution; none if it is finished or waits. -/
def advance (g : Engine) (r : Readings) (x : Execution) (l : Ledger) :
    Option (Execution × Ledger) :=
  if x.isFinished then none
  else
    match x.phase with
    | .starting => some (x.start l)
    | .opening => some (x.openCase g, l)
    | .dispatching d n stepId => some ({ x with phase := dispatch g d n stepId }, l)
    | .visiting d n s _ (.left result) =>
        let (phase, l) := proceed x.context l d n s result
        some ({ x with phase := phase }, l)
    | .visiting d n s e v =>
        (v.advance g.settings e s r x.context l).map fun (c, l, v) =>
          ({ x with context := c, phase := .visiting d n s e v }, l)
    | .closing result => some (x.finish l r result)
    | .ended _ => none

/-! ## The host's part -/

/-- Delivers a signal, unless the execution is finished. -/
def deliver (x : Execution) (s : Signal) : Except Error (Execution × Disposition) :=
  if x.isFinished then .error (.notRunning (x.caseId ++ " (" ++ x.status.text ++ ")"))
  else
    let (inbox, disposition) := x.context.inbox.deliver s
    .ok ({ x with context := { x.context with inbox := inbox } }, disposition)

def deliveryMetric (caseId : String) : Disposition → Metric
  | .accepted => .one "case_signals_accepted_total" [("case_id", caseId)]
  | .dropped => .one "case_signals_dropped_total" [("case_id", caseId)]

/-- Stops an execution where it stands, unless it is finished. -/
def cancel (x : Execution) : Execution :=
  if x.isFinished then x else { x with status := .cancelled }

def result? (x : Execution) : Option (Except Error Case) :=
  match x.phase, x.status with
  | .ended result, _ => some result
  | _, .cancelled => some (.error .cancelled)
  | _, _ => none

def visit? (x : Execution) : Option Visit :=
  match x.phase with
  | .visiting _ _ _ _ v => some v
  | _ => none

def deadline? (x : Execution) : Option Nat :=
  if x.isFinished then none else x.visit?.bind Visit.deadline?

end Execution
end Casework
