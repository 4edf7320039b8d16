import Casework.Execution.Basic

/-!
# An approval process — one step of each type

* `Definition.approval` : an analysis, a review that is repeated until it is approved, and a commit;
* `Engine.approving` : an engine that knows this process, with or without a collaborator.
-/

namespace Casework

namespace Definition

/-- An analysis, a review that is repeated until it is approved, and a commit. -/
def approval : Definition where
  name := "approval"
  version := "1"
  initialStep := "analysis"
  steps := [
    { stepId := "analysis", stepType := StepType.caseEnrichment
      transitions := [.defaultTo "review"] },
    { stepId := "review", stepType := StepType.humanInTheLoop
      configuration := [("prompt", .str "Approve?")]
      transitions := [.on "approve" "approved", .defaultTo "review"] },
    { stepId := "approved", stepType := StepType.finalCommit
      configuration := [("final_status", .str "Approved")] }]

end Definition

namespace Engine

def approving (enricher : Option Enricher) : Engine where
  loader := .memory [.approval]
  registry := Registry.builtin.register StepType.caseEnrichment (.caseEnrichment enricher)

theorem load_approval (enricher : Option Enricher) :
    (approving enricher).loader.load "approval" "1" = .ok .approval := by
  rfl

end Engine
end Casework
