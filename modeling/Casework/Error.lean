import Casework.Json.Fault

/-!
# Errors

Every way in which an operation on definitions, cases, journals and executions can fail.

* `Error` : the causes;
* `Error.message` : the wording of each;
* `Error.isDefinitionError` : whether the process definition is to blame;
* `Error.stepId?` : the step an error points at.
-/

namespace Casework

/-- Why a file could not be read or written. -/
inductive IoCause where
  | notFound
  | notDirectory
  | isDirectory
  | alreadyExists
  | nameTooLong
  | badName
  /-- A file whose bytes are no text. -/
  | notText
  /-- A cause outside the file system, in its own words. -/
  | other (text : String)
deriving DecidableEq, Repr

def IoCause.message : IoCause → String
  | .notFound => "No such file or directory (os error 2)"
  | .notDirectory => "Not a directory (os error 20)"
  | .isDirectory => "Is a directory (os error 21)"
  | .alreadyExists => "File exists (os error 17)"
  | .nameTooLong => "File name too long (os error 36)"
  | .badName => "file name contained an unexpected NUL byte"
  | .notText => "stream did not contain valid UTF-8"
  | .other text => text

inductive JournalFault where
  /-- A case id that names no file. -/
  | invalidCaseId (caseId : String)
  /-- A line that is no entry, counted among the lines that are not blank. -/
  | unreadableLine (file : String) (line : Nat)
  /-- A journal that does not begin with the start of its case. -/
  | wrongStart (caseId : String) (kind : String)
  /-- A cause of another kind, in its own words. -/
  | other (text : String)
deriving DecidableEq, Repr

def JournalFault.message : JournalFault → String
  | .invalidCaseId caseId => "invalid case id for journal: '" ++ caseId ++ "'"
  | .unreadableLine file line => file ++ ":" ++ toString line
  | .wrongStart caseId kind =>
      "journal of case " ++ caseId ++ " starts with " ++ kind ++ " instead of started"
  | .other text => text

inductive Error where
  /-- The current step is not in the definition. -/
  | stepNotFound (stepId : String)
  /-- No executor is registered for the type of a step. -/
  | unknownStepType (stepId stepType : String)
  /-- Neither a transition for the signal nor a default one. -/
  | noMatchingTransition (stepId : String) (signal : Option String)
  /-- A transition to a step that is not in the definition. -/
  | danglingTransition (stepId nextStep : String)
  /-- Two steps with one id. -/
  | duplicateStep (stepId : String)
  /-- A step with more than one default transition. -/
  | ambiguousDefaultTransition (stepId : String)
  /-- A step whose configuration does not have the shape its executor expects. -/
  | invalidStepConfiguration (stepId : String) (fault : Fault)
  /-- A definition without steps. -/
  | emptyDefinition (name : String)
  /-- No definition under this name and version. -/
  | definitionNotFound (name version : String)
  /-- A definition that could not be read. -/
  | definitionLoad (source : String)
  /-- More steps were dispatched than the settings allow. -/
  | stepLimitExceeded (limit : Nat)
  /-- The journal does not fit the step that the replay reached. -/
  | replayDivergence (stepId message : String)
  /-- The enrichment collaborator failed. -/
  | enrichment (text : String)
  /-- The host cancelled the execution. -/
  | cancelled
  /-- A finished execution reported failure. -/
  | executionFailed (text : String)
  /-- The execution could not be joined. -/
  | task (text : String)
  /-- No execution under this case id. -/
  | caseNotFound (caseId : String)
  /-- There is an execution under this case id already. -/
  | caseAlreadyExists (caseId : String)
  /-- The execution takes no more signals. -/
  | notRunning (text : String)
  /-- Settings that cannot be used. -/
  | config (text : String)
  /-- A journal that cannot be used. -/
  | journal (fault : JournalFault)
  /-- A file or stream that cannot be used. -/
  | io (cause : IoCause)
  /-- A document that is not what was expected. -/
  | json (fault : Fault)
  /-- A settings or definition text that is no document. -/
  | yaml (text : String)
deriving DecidableEq, Repr

namespace Error

def message : Error → String
  | .stepNotFound s => "Step not found: '" ++ s ++ "'"
  | .unknownStepType s t => "Unknown step type '" ++ t ++ "' on step '" ++ s ++ "'"
  | .noMatchingTransition s signal =>
      "No transition from step '" ++ s ++ "' matches signal " ++ Text.quoteOption signal
  | .danglingTransition s n => "Step '" ++ s ++ "' transitions to unknown step '" ++ n ++ "'"
  | .duplicateStep s => "Duplicate step id: '" ++ s ++ "'"
  | .ambiguousDefaultTransition s =>
      "Step '" ++ s ++ "' declares more than one default transition"
  | .invalidStepConfiguration s f => "Invalid configuration on step '" ++ s ++ "': " ++ f.message
  | .emptyDefinition n => "Process definition '" ++ n ++ "' has no steps"
  | .definitionNotFound n v => "Process definition not found: " ++ n ++ " v" ++ v
  | .definitionLoad source => "Failed to load process definition: " ++ source
  | .stepLimitExceeded limit => "Step limit of " ++ toString limit ++ " exceeded"
  | .replayDivergence s m => "Replay diverged at step '" ++ s ++ "': " ++ m
  | .enrichment t => "Enrichment failed: " ++ t
  | .cancelled => "Execution cancelled"
  | .executionFailed t => "Case execution failed: " ++ t
  | .task t => "Execution task error: " ++ t
  | .caseNotFound c => "Case not found: " ++ c
  | .caseAlreadyExists c => "Case already exists: " ++ c
  | .notRunning t => "Case is not running: " ++ t
  | .config t => "Config error: " ++ t
  | .journal f => "Journal error: " ++ f.message
  | .io cause => "IO error: " ++ cause.message
  | .json f => "JSON error: " ++ f.message
  | .yaml t => "YAML error: " ++ t

def isDefinitionError : Error → Bool
  | .stepNotFound _ | .unknownStepType _ _ | .noMatchingTransition _ _ | .danglingTransition _ _
  | .duplicateStep _ | .ambiguousDefaultTransition _ | .invalidStepConfiguration _ _
  | .emptyDefinition _ => true
  | _ => false

def stepId? : Error → Option String
  | .stepNotFound s | .unknownStepType s _ | .noMatchingTransition s _ | .danglingTransition s _
  | .duplicateStep s | .ambiguousDefaultTransition s | .invalidStepConfiguration s _
  | .replayDivergence s _ => some s
  | _ => none

end Error
end Casework
