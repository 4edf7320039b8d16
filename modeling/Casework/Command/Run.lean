import Casework.Command.Arguments
import Casework.HumanInput.Attend
import Casework.HumanInput.Console

/-!
# The program

Runs one process for one case at a terminal.

* `Command.prepare` : from the arguments to a host with the execution to attend to;
* `Command.conclude` : what is shown when the execution is finished;
* `Command.settingsFiles`, `Command.journalFile?`, `Command.definitionFiles` : the files it reads;
* `Command.run` : the whole program, from its arguments and what is typed to what it prints;
* `Failure` : why it ends without success.
-/

namespace Casework
namespace Command

/-! ## Failures -/

/-- Why the program ends without success. -/
inductive Failure where
  | settings (e : Error)
  /-- There is no journal to go on with. -/
  | noJournal
  | logging (e : Error)
  | engine (e : Error)
  | resuming (caseId : String) (e : Error)
  /-- The payload is no document. -/
  | payload
  /-- A decision was not found or not taken. -/
  | attending (e : Error)
  /-- The execution did not reach its end. -/
  | incomplete (caseId : String) (status : ExecutionStatus)
deriving DecidableEq, Repr

namespace Failure

def message : Failure → String
  | .settings _ => "failed to load settings"
  | .noJournal =>
      "--resume needs a journal: pass --journal or set engine.journal_path in the config"
  | .logging e => e.message
  | .engine _ => "failed to create process engine"
  | .resuming caseId _ => "failed to resume case " ++ caseId
  | .payload => "--payload is not valid JSON"
  | .attending e => e.message
  | .incomplete caseId status => "case " ++ caseId ++ " ended as " ++ status.text

def cause? : Failure → Option Error
  | .settings e | .engine e | .resuming _ e => some e
  | .noJournal | .payload | .logging _ | .attending _ | .incomplete _ _ => none

def complaint (f : Failure) : String :=
  let cause :=
    match f.cause? with
    | some e => "\n\nCaused by:\n    " ++ e.message
    | none => ""
  "Error: " ++ f.message ++ cause ++ "\n"

end Failure

/-! ## Preparation -/

/-- The settings with what the arguments put in place of them. -/
def overridden (a : Arguments) (s : Settings) : Settings :=
  { s with engine := { s.engine with
      definitionsPath := a.definitions.getD s.engine.definitionsPath
      journalPath := a.journal.or s.engine.journalPath } }

def settingsFor (env : Environment) (tree : FileTree) (a : Arguments) :
    Except Failure Settings := do
  let s ← (Settings.load tree env a.config).mapError .settings
  let s := overridden a s
  if a.resume && s.engine.journalPath.isNone then throw .noJournal
  (s.checkLogFilter env).mapError .logging
  pure s

def payloadOf (a : Arguments) : Except Failure Value :=
  match a.payload with
  | none => .ok .null
  | some text =>
      match Value.read? text with
      | some v => .ok v.canonical
      | none => .error .payload

/-- The case id that the arguments give, or a generated one. -/
def caseIdOf (a : Arguments) (freshId : String) : String :=
  a.caseId.getD ("case-" ++ freshId)

/-- Starts the execution, or goes on with it, and says which one it is. -/
def launch (a : Arguments) (caseId : String) (h : Host) : Except Failure (Host × Nat) :=
  if a.resume then (h.resume caseId).mapError (.resuming caseId)
  else do
    let payload ← payloadOf a
    pure (h.start caseId a.process a.version payload)

structure Prepared where
  host : Host
  /-- Which execution it is. -/
  place : Nat
  caseId : String

def prepare (env : Environment) (tree : FileTree) (r : Readings) (a : Arguments) :
    Except Failure Prepared := do
  let s ← settingsFor env tree a
  let h ← (Host.ofSettings s.engine tree r).mapError .engine
  let caseId := caseIdOf a r.freshId
  let (h, i) ← launch a caseId h
  pure ⟨h, i, caseId⟩

/-! ## What the program looks at -/

/-- The variables of the environment that make a difference. -/
def variableNames : List String :=
  [Arguments.configVariable, Environment.definitionsPath, Environment.journalPath,
    Environment.logFilter, "CLICOLOR_FORCE", "NO_COLOR", "CLICOLOR", "TERM", "CI"]

def settingsFiles (a : Arguments) : List String :=
  match a.config with
  | some path => [path]
  | none => Settings.standardPaths

def journalFile? (s : Settings) (caseId : String) : Option String :=
  s.engine.journalPath.bind fun directory =>
    if Journal.isFileId caseId then some (FileTree.join directory (Journal.fileName caseId))
    else none

/-- The files that the definition of an execution may come from. -/
def definitionFiles (p : Prepared) : List String :=
  match p.host.engine.loader, p.host.execution? p.place with
  | .directory _ path, some x =>
      (Loader.candidates x.launch.processName x.launch.processVersion).map (FileTree.join path)
  | _, _ => []

def journalText (h : Host) (caseId : String) : String :=
  match h.ledger.journal with
  | .memory _ => ""
  | .files folder => (folder.readText (Journal.fileName caseId)).toOption.getD ""

/-! ## What is shown -/

/-- Whether text is printed in styles: where that is forced, and at a terminal unless it is
forbidden. -/
def usesColor (env : Environment) (isTerminal : Bool) : Bool :=
  if (env.get? "CLICOLOR_FORCE").any (· ≠ "0") then true
  else if env.contains "NO_COLOR" then false
  else isTerminal && env.get? "CLICOLOR" ≠ some "0"

def heading (c : Console) (a : Arguments) (caseId : String) : String :=
  c.paint "1;32" "Case" ++ " " ++ c.paint "1" caseId ++ " (" ++ a.process ++ " v" ++ a.version
    ++ ")\n" ++ String.ofList (List.replicate 50 '=') ++ "\n"

def activityLine (c : Console) (a : Activity) : String :=
  c.paint "36" ("[" ++ a.kind ++ "]") ++ " " ++ c.paint "1" a.sender ++ ": " ++ a.text ++ "\n"

structure Ending where
  printed : String := ""
  /-- The case that is printed behind it. -/
  shown : Option Case := none
  failure : Option Failure := none

def conclude (c : Console) (x : Execution) : Ending :=
  match x.status, x.result? with
  | .completed, some (.ok k) => ⟨"\n" ++ c.paint "1;32" "Final case" ++ "\n", some k, none⟩
  | status, _ =>
      ⟨"\n" ++ c.paint "1;31" "Case did not complete:" ++ " " ++ status.text ++ "\n", x.published,
        some (.incomplete x.caseId status)⟩

def endingOf (c : Console) (x : Option Execution) : Attendance → Ending
  | .failed e => { failure := some (.attending e) }
  | .finished _ | .pending =>
      match x with
      | some x => conclude c x
      | none => {}

def caseText (k : Case) : String :=
  (toValue k).pretty ++ "\n"

/-! ## The whole program -/

/-- What the program prints and how it exits. -/
structure Transcript where
  /-- The output, without the lines about activities and the case at the end. -/
  printed : String := ""
  /-- The case at the end of the output. -/
  shown : Option Case := none
  /-- The output for errors. -/
  complaint : String := ""
  exitCode : Nat := 0

namespace Transcript

/-- The program refused its arguments, errors going to a terminal or not. -/
def ofUsageFault (env : Environment) (isTerminal : Bool) (f : UsageFault) : Transcript :=
  { complaint := Command.printed env isTerminal f.complaint, exitCode := 2 }

def ofHelp (env : Environment) (isTerminal : Bool) : Transcript :=
  { printed := Command.printed env isTerminal (help env) }

def ofEnding (printed : String) (e : Ending) : Transcript :=
  match e.failure with
  | some f => ⟨printed ++ e.printed, e.shown, f.complaint, 1⟩
  | none => ⟨printed ++ e.printed, e.shown, "", 0⟩

end Transcript

/-- Attends to what was prepared while these lines are typed. -/
def attend (c : Console) (limit : Nat) (a : Arguments) (p : Prepared) (typed : List String) :
    Transcript :=
  let (h, session, attendance) := p.host.attend limit p.place c.handler ⟨typed, ""⟩
  .ofEnding (heading c a p.caseId ++ session.printed)
    (endingOf c (h.execution? p.place) attendance)

/-- Runs the program on a list of words while these lines are typed, at a terminal or not. -/
def run (isTerminal : Bool) (env : Environment) (tree : FileTree) (r : Readings) (limit : Nat)
    (words typed : List String) : Transcript :=
  match Arguments.read env words with
  | .error f => .ofUsageFault env isTerminal f
  | .ok none => .ofHelp env isTerminal
  | .ok (some a) =>
      match prepare env tree r a with
      | .error f => .ofEnding "" { failure := some f }
      | .ok p => attend ⟨usesColor env isTerminal⟩ limit a p typed

end Command
end Casework
