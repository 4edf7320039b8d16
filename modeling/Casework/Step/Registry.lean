import Casework.Definition.Validation
import Casework.Step.Config
import Casework.Table

/-!
# The registry of executors

Which executor runs the steps of a type.  A walk through a process never looks at the type of a
step itself.

* `Enricher` : a collaborator that analyses the business data of a case;
* `Executor` : the executors there are;
* `Registry` : executors under the types of step they run;
* `Registry.validate` : the structural rules of a definition, and then, step by step, that its type
  is registered and its configuration is what the executor expects.
-/

namespace Casework

/-- A collaborator that analyses the business data of a case. -/
structure Enricher where
  analyse : CaseData → Except Error Enrichment

namespace Enricher

def fixed (e : Enrichment) : Enricher := ⟨fun _ => .ok e⟩

end Enricher

inductive Executor where
  /-- Publishes an interaction and waits for a decision. -/
  | humanInTheLoop
  /-- Writes the final status and ends the execution. -/
  | finalCommit
  /-- Asks a collaborator, if there is one, and goes on. -/
  | caseEnrichment (enricher : Option Enricher)

namespace Executor

/-- Checks the configuration of a step ahead of dispatch. -/
def validate (x : Executor) (s : StepDefinition) : Except Error Unit :=
  match x with
  | .humanInTheLoop => (s.config ReviewConfig.decoder).map fun _ => ()
  | .finalCommit => (s.config CommitConfig.decoder).map fun _ => ()
  | .caseEnrichment _ => .ok ()

/-- The executor that comes under a tag of its own, an enrichment without collaborator. -/
def ofTag? (tag : String) : Option Executor :=
  if tag = StepType.humanInTheLoop then some .humanInTheLoop
  else if tag = StepType.finalCommit then some .finalCommit
  else if tag = StepType.caseEnrichment then some (.caseEnrichment none)
  else none

end Executor

abbrev Registry := Table Executor

namespace Registry

def empty : Registry := []

def builtin : Registry :=
  [(StepType.humanInTheLoop, .humanInTheLoop), (StepType.finalCommit, .finalCommit),
    (StepType.caseEnrichment, .caseEnrichment none)]

def register (r : Registry) (stepType : String) (x : Executor) : Registry :=
  Table.insert r stepType x

/-- The registry with a collaborator behind the enrichment of cases. -/
def withEnricher (r : Registry) (e : Enricher) : Registry :=
  r.register StepType.caseEnrichment (.caseEnrichment (some e))

def executor? (r : Registry) (stepType : String) : Option Executor :=
  Table.get? r stepType

/-- The types of step with an executor, in ascending order. -/
def stepTypes (r : Registry) : List String :=
  Table.keys r

/-- The executor of a step, or the complaint that there is none. -/
def executorOf (r : Registry) (s : StepDefinition) : Except Error Executor :=
  match r.executor? s.stepType with
  | some x => .ok x
  | none => .error (.unknownStepType s.stepId s.stepType)

/-- Checks that a step has an executor, and its configuration. -/
def validateStep (r : Registry) (s : StepDefinition) : Except Error Unit := do
  let x ← r.executorOf s
  x.validate s

/-- Checks every step in order. -/
def validateSteps (r : Registry) : List StepDefinition → Except Error Unit
  | [] => .ok ()
  | s :: rest => do
      r.validateStep s
      validateSteps r rest

/-- Checks the structure of a definition, then its steps. -/
def validate (r : Registry) (d : Definition) : Except Error Unit := do
  d.validate
  r.validateSteps d.steps

end Registry
end Casework
