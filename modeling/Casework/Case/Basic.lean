import Casework.Json.Decoder
import Casework.Time.Stamp

/-!
# Cases

The aggregate that an execution builds: headline fields, business data, an append-only activity
stream, and the interaction a reviewer is asked for while there is one.

* `Case` and its parts, each with its form in documents;
* `CaseInput` : the payload a case is opened from, with defaults for what it leaves out.
-/

namespace Casework

structure Participant where
  name : String
  email : Option String
deriving DecidableEq, Repr

namespace Participant

def decoder : Decoder Participant :=
  .record "CaseParticipant" <|
    mk <$> Slots.required "name" Decoder.text
      <*> Slots.withDefault "email" Decoder.text.option none

instance : ToValue Participant :=
  ⟨fun p => .obj [("name", toValue p.name), ("email", toValue p.email)]⟩

end Participant

/-- What a collaborator adds to the business data of a case. -/
structure Enrichment where
  summary : String
  policyCheck : String
  riskScore : String
deriving DecidableEq, Repr

namespace Enrichment

/-- What stands in a case until a collaborator was asked. -/
def pending : Enrichment where
  summary := "Initial analysis pending."
  policyCheck := "Awaiting AI policy check."
  riskScore := "Unknown"

def decoder : Decoder Enrichment :=
  .record "Enrichment" <|
    mk <$> Slots.required "ai_summary" Decoder.text
      <*> Slots.required "ai_policy_check" Decoder.text
      <*> Slots.required "ai_risk_score" Decoder.text

instance : ToValue Enrichment :=
  ⟨fun e => .obj [
    ("ai_summary", toValue e.summary),
    ("ai_policy_check", toValue e.policyCheck),
    ("ai_risk_score", toValue e.riskScore)]⟩

end Enrichment

structure CaseData where
  amount : Binary64
  currency : String
  category : String
  enrichment : Enrichment
deriving DecidableEq, Repr

namespace CaseData

def decoder : Decoder CaseData :=
  .record "CaseData" <|
    (fun amount currency category summary policyCheck riskScore =>
        ⟨amount, currency, category, ⟨summary, policyCheck, riskScore⟩⟩)
      <$> Slots.required "amount" Decoder.number
      <*> Slots.required "currency" Decoder.text
      <*> Slots.required "category" Decoder.text
      <*> Slots.required "ai_summary" Decoder.text
      <*> Slots.required "ai_policy_check" Decoder.text
      <*> Slots.required "ai_risk_score" Decoder.text

instance : ToValue CaseData :=
  ⟨fun d => .obj [
    ("amount", toValue d.amount),
    ("currency", toValue d.currency),
    ("category", toValue d.category),
    ("ai_summary", toValue d.enrichment.summary),
    ("ai_policy_check", toValue d.enrichment.policyCheck),
    ("ai_risk_score", toValue d.enrichment.riskScore)]⟩

end CaseData

/-- Identity and headline fields of a case. -/
structure CaseDetails where
  caseId : String
  title : String
  /-- A label in free text. -/
  status : String
  assignee : Participant
  submitter : Participant
  createdAt : Instant
  updatedAt : Instant
  data : CaseData
deriving DecidableEq, Repr

namespace CaseDetails

def decoder : Decoder CaseDetails :=
  .record "CaseDetails" <|
    mk <$> Slots.required "caseId" Decoder.text
      <*> Slots.required "caseTitle" Decoder.text
      <*> Slots.required "status" Decoder.text
      <*> Slots.required "assignee" Participant.decoder
      <*> Slots.required "submitter" Participant.decoder
      <*> Slots.required "createdAt" Instant.decoder
      <*> Slots.required "updatedAt" Instant.decoder
      <*> Slots.required "caseData" CaseData.decoder

instance : ToValue CaseDetails :=
  ⟨fun d => .obj [
    ("caseId", toValue d.caseId),
    ("caseTitle", toValue d.title),
    ("status", toValue d.status),
    ("assignee", toValue d.assignee),
    ("submitter", toValue d.submitter),
    ("createdAt", toValue d.createdAt),
    ("updatedAt", toValue d.updatedAt),
    ("caseData", toValue d.data)]⟩

end CaseDetails

structure Activity where
  /-- Counted from 1 within a case. -/
  id : Nat
  kind : String
  sender : String
  text : String
  timestamp : Instant
deriving DecidableEq, Repr

namespace Activity

def decoder : Decoder Activity :=
  .record "ActivityStreamItem" <|
    mk <$> Slots.required "id" (Decoder.count "u64")
      <*> Slots.required "type" Decoder.text
      <*> Slots.required "sender" Decoder.text
      <*> Slots.required "text" Decoder.text
      <*> Slots.required "timestamp" Instant.decoder

instance : ToValue Activity :=
  ⟨fun a => .obj [
    ("id", toValue a.id),
    ("type", toValue a.kind),
    ("sender", toValue a.sender),
    ("text", toValue a.text),
    ("timestamp", toValue a.timestamp)]⟩

end Activity

structure Action where
  label : String
  /-- The signal value that stands for the choice. -/
  value : String
  /-- A hint for presentation. -/
  style : String
deriving DecidableEq, Repr

namespace Action

def decoder : Decoder Action :=
  .record "ActionButton" <|
    mk <$> Slots.required "label" Decoder.text
      <*> Slots.required "value" Decoder.text
      <*> Slots.withDefault "style" Decoder.text "default"

instance : ToValue Action :=
  ⟨fun a => .obj [
    ("label", toValue a.label), ("value", toValue a.value), ("style", toValue a.style)]⟩

end Action

/-- What a suspended case asks a reviewer. -/
structure Interaction where
  id : String
  /-- The kind of widget. -/
  kind : String
  prompt : String
  /-- The choices offered, in order. -/
  actions : List Action
  /-- Where a decision is posted. -/
  submitUrl : String
deriving DecidableEq, Repr

namespace Interaction

/-- The choices of an interaction stand inside a record of their own. -/
def payloadDecoder : Decoder (List Action) :=
  .record "InteractionPayload" (Slots.required "actions" Action.decoder.list)

def decoder : Decoder Interaction :=
  .record "ActiveInteraction" <|
    mk <$> Slots.required "interactionId" Decoder.text
      <*> Slots.required "interactionType" Decoder.text
      <*> Slots.required "prompt" Decoder.text
      <*> Slots.required "payload" payloadDecoder
      <*> Slots.required "submitUrl" Decoder.text

instance : ToValue Interaction :=
  ⟨fun i => .obj [
    ("interactionId", toValue i.id),
    ("interactionType", toValue i.kind),
    ("prompt", toValue i.prompt),
    ("payload", .obj [("actions", toValue i.actions)]),
    ("submitUrl", toValue i.submitUrl)]⟩

end Interaction

/-- The aggregate that an execution builds and returns. -/
structure Case where
  details : CaseDetails
  activities : List Activity
  /-- What a reviewer is asked, while a step waits for a decision. -/
  interaction : Option Interaction
deriving DecidableEq, Repr

namespace Case

def decoder : Decoder Case :=
  .record "Case" <|
    mk <$> Slots.required "caseDetails" CaseDetails.decoder
      <*> Slots.required "activityStream" Activity.decoder.list
      <*> Slots.withDefault "activeInteraction" Interaction.decoder.option none

instance : ToValue Case :=
  ⟨fun c => .obj [
    ("caseDetails", toValue c.details),
    ("activityStream", toValue c.activities),
    ("activeInteraction", toValue c.interaction)]⟩

def caseId (c : Case) : String := c.details.caseId

def status (c : Case) : String := c.details.status

end Case

/-- The payload a case is opened from. -/
structure CaseInput where
  title : Option String
  submitterName : Option String
  submitterEmail : Option String
  amount : Binary64
  currency : String
  category : String
deriving DecidableEq, Repr

namespace CaseInput

def empty : CaseInput where
  title := none
  submitterName := none
  submitterEmail := none
  amount := .zero
  currency := "USD"
  category := "Uncategorized"

def decoder : Decoder CaseInput :=
  .record "CaseInput" <|
    mk <$> Slots.withDefault "title" Decoder.text.option none
      <*> Slots.withDefault "submitter_name" Decoder.text.option none
      <*> Slots.withDefault "submitter_email" Decoder.text.option none
      <*> Slots.withDefault "amount" Decoder.number empty.amount
      <*> Slots.withDefault "currency" Decoder.text empty.currency
      <*> Slots.withDefault "category" Decoder.text empty.category

instance : ToValue CaseInput :=
  ⟨fun i => .obj [
    ("title", toValue i.title),
    ("submitter_name", toValue i.submitterName),
    ("submitter_email", toValue i.submitterEmail),
    ("amount", toValue i.amount),
    ("currency", toValue i.currency),
    ("category", toValue i.category)]⟩

/-- Reads a payload; null stands for an empty one. -/
def ofPayload : Value → Except Fault CaseInput
  | .null => .ok empty
  | v => decoder.decode v

/-- The submitter's name, or `N/A`. -/
def submitterDisplayName (i : CaseInput) : String :=
  i.submitterName.getD "N/A"

def displayTitle (i : CaseInput) : String :=
  i.title.getD ("Expense from " ++ i.submitterDisplayName)

end CaseInput
end Casework
