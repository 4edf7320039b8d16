import Casework.Case.Basic

/-!
# Changes of a case

How a case is opened, and the few changes that an execution makes to it.  Every change moves the
time of the last update.

* `Case.openFrom` : the case as it is first published, with its creation event;
* `Case.append`, `Case.setStatus`, `Case.beginInteraction`, `Case.clearInteraction`, `Case.touch` :
  the changes;
* `Case.decide`, `Case.enrich` : what a decision and an analysis leave behind.
-/

namespace Casework
namespace Case

def systemEvent : String := "system_event"

def agentDecision : String := "agent_decision"

def aiAnalysis : String := "ai_analysis"

/-- The status label between creation and the first suspension. -/
def processingStatus : String := "Processing"

def activityCount (c : Case) : Nat := c.activities.length

def touch (c : Case) (time : Instant) : Case :=
  { c with details := { c.details with updatedAt := time } }

def nextActivity (c : Case) (kind sender text : String) (time : Instant) : Activity :=
  ⟨c.activityCount + 1, kind, sender, text, time⟩

def append (c : Case) (kind sender text : String) (time : Instant) : Case :=
  { c.touch time with activities := c.activities ++ [c.nextActivity kind sender text time] }

def setStatus (c : Case) (status : String) (time : Instant) : Case :=
  { c with details := { c.details with status := status, updatedAt := time } }

/-- Asks a reviewer: the interaction and the status label appear together. -/
def beginInteraction (c : Case) (i : Interaction) (status : String) (time : Instant) : Case :=
  { c.setStatus status time with interaction := some i }

def clearInteraction (c : Case) (time : Instant) : Case :=
  { c.touch time with interaction := none }

/-- Replaces what collaborators have said about the case. -/
def setEnrichment (c : Case) (e : Enrichment) : Case :=
  { c with details := { c.details with data := { c.details.data with enrichment := e } } }

def openFrom (caseId : String) (input : CaseInput) (assignee : Participant) (now : Instant) :
    Case :=
  let blank : Case := {
    details := {
      caseId := caseId
      title := input.displayTitle
      status := processingStatus
      assignee := assignee
      submitter := ⟨input.submitterDisplayName, input.submitterEmail⟩
      createdAt := now
      updatedAt := now
      data := ⟨input.amount, input.currency, input.category, .pending⟩ }
    activities := []
    interaction := none }
  blank.append systemEvent "System" ("Case created by " ++ input.submitterDisplayName ++ ".") now

/-- A reviewer's decision: an activity, and the end of the interaction. -/
def decide (c : Case) (value : String) (time : Instant) : Case :=
  (c.append agentDecision "Agent" ("Case marked as '" ++ value ++ "'.") time).clearInteraction time

/-- A collaborator's analysis: its three fields together, and an activity. -/
def enrich (c : Case) (e : Enrichment) (time : Instant) : Case :=
  (c.setEnrichment e).append aiAnalysis "AI Agent"
    ("Analysis complete. Risk Score: " ++ e.riskScore ++ ".") time

/-- Only appending changes the stream. -/
@[simp]
theorem activities_append (c : Case) (kind sender text : String) (time : Instant) :
    (c.append kind sender text time).activities =
      c.activities ++ [⟨c.activities.length + 1, kind, sender, text, time⟩] := rfl

@[simp]
theorem activities_touch (c : Case) (time : Instant) : (c.touch time).activities = c.activities :=
  rfl

@[simp]
theorem activities_setStatus (c : Case) (status : String) (time : Instant) :
    (c.setStatus status time).activities = c.activities := rfl

@[simp]
theorem activities_beginInteraction (c : Case) (i : Interaction) (status : String)
    (time : Instant) : (c.beginInteraction i status time).activities = c.activities := rfl

@[simp]
theorem activities_clearInteraction (c : Case) (time : Instant) :
    (c.clearInteraction time).activities = c.activities := rfl

@[simp]
theorem updatedAt_append (c : Case) (kind sender text : String) (time : Instant) :
    (c.append kind sender text time).details.updatedAt = time := rfl

end Case
end Casework
