import Casework.Json.Decoder

/-!
# Settings

What an installation chooses: how executions run, and how much is logged.

* `EngineSettings`, `LoggerSettings`, `Settings` : the choices, with a default for each;
* `Settings.violations` : the fields outside their range;
* `Telemetry` : what logging is set up from.
-/

namespace Casework

structure AssigneeSettings where
  name : String := "AI Triage"
  email : Option String := some "ai@caseflow.local"
deriving DecidableEq, Repr, Inhabited

namespace AssigneeSettings

def decoder : Decoder AssigneeSettings :=
  .record "AssigneeSettings" <|
    mk <$> Slots.required "name" Decoder.text
      <*> Slots.optional "email" Decoder.text

instance : ToValue AssigneeSettings :=
  ⟨fun a => .obj [("name", toValue a.name), ("email", toValue a.email)]⟩

end AssigneeSettings

structure EngineSettings where
  /-- The directory that definitions are read from. -/
  definitionsPath : String := "process_definitions"
  /-- Whether a definition is validated when an execution has loaded it. -/
  validateOnLoad : Bool := true
  /-- How many steps an execution dispatches at most. -/
  maxSteps : Nat := 500
  /-- How long a step waits for a decision; forever if missing. -/
  signalTimeout : Option Nat := none
  /-- The status label while a case waits for a decision. -/
  reviewStatus : String := "Pending Human Review"
  /-- What the address begins with to which decisions are posted. -/
  submitUrlBase : String := "/api/v1/cases"
  assignee : AssigneeSettings := {}
  /-- The directory of the journals; if missing they are kept in memory. -/
  journalPath : Option String := none
deriving DecidableEq, Repr, Inhabited

namespace EngineSettings

/-- Settings of executions inside documents; what is left out takes its default. -/
def decoder : Decoder EngineSettings :=
  let d : EngineSettings := {}
  .record "EngineSettings" <|
    mk <$> Slots.withDefault "definitions_path" Decoder.text d.definitionsPath
      <*> Slots.withDefault "validate_on_load" Decoder.flag d.validateOnLoad
      <*> Slots.withDefault "max_steps" (Decoder.count "usize") d.maxSteps
      <*> Slots.withDefault "signal_timeout_seconds" (Decoder.count "u64").option d.signalTimeout
      <*> Slots.withDefault "review_status" Decoder.text d.reviewStatus
      <*> Slots.withDefault "submit_url_base" Decoder.text d.submitUrlBase
      <*> Slots.withDefault "default_assignee" AssigneeSettings.decoder d.assignee
      <*> Slots.withDefault "journal_path" Decoder.text.option d.journalPath

instance : ToValue EngineSettings :=
  ⟨fun s => .obj [
    ("definitions_path", toValue s.definitionsPath),
    ("validate_on_load", toValue s.validateOnLoad),
    ("max_steps", toValue s.maxSteps),
    ("signal_timeout_seconds", toValue s.signalTimeout),
    ("review_status", toValue s.reviewStatus),
    ("submit_url_base", toValue s.submitUrlBase),
    ("default_assignee", toValue s.assignee),
    ("journal_path", toValue s.journalPath)]⟩

end EngineSettings

structure LoggerSettings where
  level : String := "info"
  /-- Whether log lines are colored. -/
  ansi : Bool := true
deriving DecidableEq, Repr, Inhabited

namespace LoggerSettings

def decoder : Decoder LoggerSettings :=
  let d : LoggerSettings := {}
  .record "LoggerSettings" <|
    mk <$> Slots.withDefault "level" Decoder.text d.level
      <*> Slots.withDefault "ansi" Decoder.flag d.ansi

instance : ToValue LoggerSettings :=
  ⟨fun l => .obj [("level", toValue l.level), ("ansi", toValue l.ansi)]⟩

end LoggerSettings

structure Telemetry where
  serviceName : String := "caseflow"
  level : String := "info"
  ansi : Bool := true
deriving DecidableEq, Repr

def LoggerSettings.telemetry (l : LoggerSettings) : Telemetry where
  level := l.level
  ansi := l.ansi

structure Settings where
  engine : EngineSettings := {}
  logger : LoggerSettings := {}
deriving DecidableEq, Repr, Inhabited

namespace Settings

def decoder : Decoder Settings :=
  .record "Settings" <|
    mk <$> Slots.withDefault "engine" EngineSettings.decoder {}
      <*> Slots.withDefault "logger" LoggerSettings.decoder {}

instance : ToValue Settings :=
  ⟨fun s => .obj [("engine", toValue s.engine), ("logger", toValue s.logger)]⟩

inductive Violation where
  /-- A number below the least one allowed. -/
  | range (field : String)
  /-- A text shorter than allowed. -/
  | length (field : String)
deriving DecidableEq, Repr

/-- The rules that are broken: at least one step, at least one second, a status label that is not
empty. -/
def violations (s : Settings) : List Violation :=
  (if s.engine.maxSteps < 1 then [.range "engine.max_steps"] else [])
    ++ (if s.engine.reviewStatus.isEmpty then [.length "engine.review_status"] else [])
    ++ (if s.engine.signalTimeout.any (· < 1) then [.range "engine.signal_timeout_seconds"] else [])

def isValid (s : Settings) : Bool :=
  s.violations.isEmpty

end Settings
end Casework
