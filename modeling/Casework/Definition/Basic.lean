import Casework.Definition.Transition

/-!
# Process definitions

A process is plain data: an ordered list of steps, each with the type of its executor, a
configuration map and its transitions.

* `StepDefinition`, `Definition` : the data, with their form in documents;
* `Definition.step?` : the step under an id, the first one if an id is repeated;
* `StepDefinition.config` : the configuration read as the record an executor expects.
-/

namespace Casework

/-! ## Types of step with an executor of their own -/

namespace StepType

def humanInTheLoop : String := "human_in_the_loop"

def finalCommit : String := "final_commit"

def caseEnrichment : String := "case_enrichment"

end StepType

structure StepDefinition where
  stepId : String
  stepType : String
  /-- What the executor is told, in canonical form. -/
  configuration : Fields := []
  /-- Outgoing edges, in order. -/
  transitions : List Transition := []
deriving DecidableEq, Repr

namespace StepDefinition

def withConfig (s : StepDefinition) (key : String) (v : Value) : StepDefinition :=
  { s with configuration := Value.canonicalFields (s.configuration ++ [(key, v)]) }

def withTransition (s : StepDefinition) (t : Transition) : StepDefinition :=
  { s with transitions := s.transitions ++ [t] }

/-- The configuration as the record its executor expects. -/
def config {α : Type} (s : StepDefinition) (d : Decoder α) : Except Error α :=
  match d.decode (.obj s.configuration) with
  | .ok a => .ok a
  | .error f => .error (.invalidStepConfiguration s.stepId f)

def next (s : StepDefinition) (signal : Option String) : Except Error String :=
  Transition.resolve s.stepId s.transitions signal

def decoder : Decoder StepDefinition :=
  .record "StepDefinition" <|
    mk <$> Slots.required "step_id" Decoder.text ["id"]
      <*> Slots.required "step_type" Decoder.text ["type"]
      <*> Slots.withDefault "configuration" Decoder.table [] ["config"]
      <*> Slots.withDefault "transitions" Transition.decoder.list []

instance : ToValue StepDefinition :=
  ⟨fun s => .obj [
    ("step_id", toValue s.stepId),
    ("step_type", toValue s.stepType),
    ("configuration", .obj s.configuration),
    ("transitions", toValue s.transitions)]⟩

end StepDefinition

structure Definition where
  name : String
  version : String
  /-- The step an execution begins with. -/
  initialStep : String
  steps : List StepDefinition := []
deriving DecidableEq, Repr

namespace Definition

def withStep (d : Definition) (s : StepDefinition) : Definition :=
  { d with steps := d.steps ++ [s] }

def step? (d : Definition) (stepId : String) : Option StepDefinition :=
  d.steps.find? fun s => s.stepId == stepId

/-- The ids of all steps, in order. -/
def stepIds (d : Definition) : List String :=
  d.steps.map (·.stepId)

def decoder : Decoder Definition :=
  .record "ProcessDefinition" <|
    mk <$> Slots.required "name" Decoder.text ["process_name"]
      <*> Slots.required "version" Decoder.text ["process_version"]
      <*> Slots.required "initial_step" Decoder.text
      <*> Slots.required "steps" StepDefinition.decoder.list

instance : ToValue Definition :=
  ⟨fun d => .obj [
    ("name", toValue d.name),
    ("version", toValue d.version),
    ("initial_step", toValue d.initialStep),
    ("steps", toValue d.steps)]⟩

/-- What is found is a step of the process. -/
theorem mem_of_step? {d : Definition} {stepId : String} {s : StepDefinition}
    (h : d.step? stepId = some s) : s ∈ d.steps :=
  List.mem_of_find?_eq_some h

/-- Exactly the ids of the process are found. -/
theorem step?_isSome_iff {d : Definition} {stepId : String} :
    (d.step? stepId).isSome ↔ stepId ∈ d.stepIds := by
  simp [step?, stepIds]

end Definition
end Casework
