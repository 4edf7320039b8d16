import Casework.Case.Basic
import Casework.Text.Blank
import Casework.Text.Digits

/-!
# Requests for a decision

* `Request` : what a reviewer is asked, with `Request.ofInteraction` for a published interaction;
* `Request.resolve` : the decision that an input stands for;
* `Response` : a decision as it is handed back.

An input is taken without the blanks around it.  It may be the value of an action, its label in
any case of the ASCII letters, or its position counted from 1.  Values and labels are looked for in
one pass, so the first action with either wins; a position counts only if there is none.  Where no
actions are offered any input stands for itself.
-/

namespace Casework

structure Request where
  /-- The interaction that is answered. -/
  id : String
  caseId : String
  prompt : String
  /-- The choices offered, in order. -/
  actions : List Action := []
  /-- Where a remote client would post the decision. -/
  submitUrl : Option String := none
  /-- How many seconds there are to answer. -/
  timeout : Option Nat := none
deriving DecidableEq, Repr

namespace Request

def new (caseId prompt : String) : Request where
  id := caseId
  caseId := caseId
  prompt := prompt

/-- The request for an interaction that a case has published. -/
def ofInteraction (caseId : String) (i : Interaction) : Request where
  id := i.id
  caseId := caseId
  prompt := i.prompt
  actions := i.actions
  submitUrl := some i.submitUrl

def withActions (r : Request) (actions : List Action) : Request :=
  { r with actions := r.actions ++ actions }

def withTimeout (r : Request) (seconds : Nat) : Request :=
  { r with timeout := some seconds }

def decoder : Decoder Request :=
  .record "HumanInputRequest" <|
    mk <$> Slots.required "request_id" Decoder.text
      <*> Slots.required "case_id" Decoder.text
      <*> Slots.required "prompt" Decoder.text
      <*> Slots.withDefault "actions" Action.decoder.list []
      <*> Slots.optional "submit_url" Decoder.text
      <*> Slots.optional "timeout_seconds" (Decoder.count "u64")

def entryFor {α : Type} [ToValue α] (key : String) : Option α → Fields
  | some a => [(key, toValue a)]
  | none => []

instance : ToValue Request :=
  ⟨fun r => .obj <| [
    ("request_id", toValue r.id),
    ("case_id", toValue r.caseId),
    ("prompt", toValue r.prompt),
    ("actions", toValue r.actions)]
      ++ entryFor "submit_url" r.submitUrl ++ entryFor "timeout_seconds" r.timeout⟩

/-! ## Resolution -/

/-- Whether two texts differ at most in the case of ASCII letters. -/
def sameLabel (a b : String) : Bool :=
  a.toList.map Char.toLower == b.toList.map Char.toLower

/-- Whether an input names an action, by its value or its label. -/
def names (input : String) (a : Action) : Bool :=
  a.value == input || sameLabel a.label input

/-- The greatest position that an input can stand for. -/
def maxPosition : Nat := 18446744073709551615

/-- The number that a numeral stands for, which may have a plus sign and leading zeros. -/
def position? (cs : List Char) : Option Nat :=
  let ds :=
    match cs with
    | '+' :: rest => rest
    | _ => cs
  if !ds.isEmpty && ds.all Char.isDigit then
    let n := Text.digitsValue ds
    if n ≤ maxPosition then some n else none
  else none

/-- The action at a position, counted from 1. -/
def actionAt? (actions : List Action) (input : String) : Option Action :=
  match position? input.toList with
  | some (n + 1) => actions[n]?
  | _ => none

/-- The choice that an input without blanks around it stands for. -/
def choose? (r : Request) (input : String) : Option String :=
  if input.isEmpty then none
  else if r.actions.isEmpty then some input
  else ((r.actions.find? (names input)).or (actionAt? r.actions input)).map (·.value)

def resolve (r : Request) (input : String) : Option String :=
  r.choose? (Text.trimmed input)

end Request

structure Response where
  /-- The request that is answered. -/
  requestId : String
  value : String
deriving DecidableEq, Repr

namespace Response

def decoder : Decoder Response :=
  .record "HumanInputResponse" <|
    mk <$> Slots.required "request_id" Decoder.text
      <*> Slots.required "response" Decoder.text

instance : ToValue Response :=
  ⟨fun r => .obj [("request_id", toValue r.requestId), ("response", toValue r.value)]⟩

end Response
end Casework
