import Casework.Definition.Basic

/-!
# Validation of process definitions

The structural rules: at least one step, no repeated id, an initial step that exists, and on every
step at most one default transition and no transition to a step that does not exist.

* `Definition.fault?` : the first rule broken, in that order, the last two step by step;
* `Definition.validate` : the same as success or failure.

Whether the types of the steps are known is for the registry to say
(`Casework.Step.Registry.validate`).
-/

namespace Casework

/-- The first element that occurs before itself or among the ones already seen. -/
def firstRepeated (seen : List String) : List String → Option String
  | [] => none
  | x :: xs => if seen.contains x then some x else firstRepeated (x :: seen) xs

namespace StepDefinition

def defaults (s : StepDefinition) : List Transition :=
  s.transitions.filter Transition.isDefault

/-- The first transition to a step outside the given ones. -/
def dangling? (s : StepDefinition) (ids : List String) : Option Transition :=
  s.transitions.find? fun t => !ids.contains t.nextStep

def transitionFault? (s : StepDefinition) (ids : List String) : Option Error :=
  if 1 < s.defaults.length then some (.ambiguousDefaultTransition s.stepId)
  else (s.dangling? ids).map fun t => .danglingTransition s.stepId t.nextStep

end StepDefinition

namespace Definition

def fault? (d : Definition) : Option Error :=
  if d.steps.isEmpty then some (.emptyDefinition d.name)
  else
    match firstRepeated [] d.stepIds with
    | some id => some (.duplicateStep id)
    | none =>
        if d.stepIds.contains d.initialStep then
          d.steps.findSome? fun s => s.transitionFault? d.stepIds
        else some (.stepNotFound d.initialStep)

def validate (d : Definition) : Except Error Unit :=
  match d.fault? with
  | some e => .error e
  | none => .ok ()

end Definition
end Casework
