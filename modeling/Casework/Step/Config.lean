import Casework.Case.Basic

/-!
# Configuration of steps

What the executors of the two configurable types of step expect to be told.

* `ReviewConfig` : for a step that waits for a decision;
* `CommitConfig` : for a step that ends the execution.
-/

namespace Casework

/-- The configuration of a step that waits for a decision. -/
structure ReviewConfig where
  /-- What the reviewer is asked. -/
  prompt : String
  /-- The choices offered, in order. -/
  actions : List Action := []
  /-- The kind of widget. -/
  interactionType : String := "action_buttons"
  /-- How long to wait, in place of the time that the settings give. -/
  timeout : Option Nat := none
deriving DecidableEq, Repr

namespace ReviewConfig

/-- Configurations of steps that wait for a decision, inside documents. -/
def decoder : Decoder ReviewConfig :=
  .record "HumanInTheLoopConfig" <|
    mk <$> Slots.required "prompt" Decoder.text
      <*> Slots.withDefault "actions" Action.decoder.list []
      <*> Slots.withDefault "interaction_type" Decoder.text "action_buttons"
      <*> Slots.withDefault "timeout_seconds" (Decoder.count "u64").option none

instance : ToValue ReviewConfig :=
  ⟨fun c => .obj [
    ("prompt", toValue c.prompt),
    ("actions", toValue c.actions),
    ("interaction_type", toValue c.interactionType),
    ("timeout_seconds", toValue c.timeout)]⟩

end ReviewConfig

/-- The configuration of a step that ends the execution. -/
structure CommitConfig where
  /-- The status label that the case is left with. -/
  finalStatus : String
deriving DecidableEq, Repr

namespace CommitConfig

/-- Configurations of steps that end the execution, inside documents. -/
def decoder : Decoder CommitConfig :=
  .record "FinalCommitConfig" (mk <$> Slots.required "final_status" Decoder.text)

instance : ToValue CommitConfig :=
  ⟨fun c => .obj [("final_status", toValue c.finalStatus)]⟩

end CommitConfig
end Casework
