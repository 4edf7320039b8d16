import Casework.Error
import Casework.Files.Tree
import Casework.Settings.Basic
import Casework.Settings.LogFilter
import Casework.Table
import Casework.Yaml.Document

/-!
# Where settings come from

A file, the environment, and defaults for the rest.

* `Settings.ofText` : the settings that a text holds;
* `Settings.load` : the settings of an installation: those of a file, with what the environment
  puts in place of them;
* `Settings.checkLogFilter` : whether logging can be set up.

Settings are checked whenever they change hands, so a file is refused for what it says even where
the environment would mend it.
-/

namespace Casework

abbrev Environment := Table String

namespace Environment

def definitionsPath : String := "CASEFLOW_DEFINITIONS_PATH"

def journalPath : String := "CASEFLOW_JOURNAL_PATH"

/-- The filter of log lines that goes before the one of the settings. -/
def logFilter : String := "RUST_LOG"

end Environment

namespace Settings

/-- The settings, if they keep all rules. -/
def checked (s : Settings) : Except Error Settings :=
  if s.isValid then .ok s else .error (.config "Invalid settings")

def ofText (text : String) : Except Error Settings :=
  match Yaml.decode? decoder text with
  | some s => s.checked
  | none => .error (.config "Failed to parse config file")

def ofFile (tree : FileTree) (path : String) : Except Error Settings :=
  match tree.readText path with
  | .ok text => ofText text
  | .error cause => .error (.config ("Failed to read config file: " ++ cause.message))

/-- Where settings are looked for if no file is named. -/
def standardPaths : List String :=
  ["caseflow.config.yaml", "config/caseflow.config.yaml", "../caseflow.config.yaml"]

/-- The settings of the named file, or of the first of the standard ones, or the defaults. -/
def ofFiles (tree : FileTree) : Option String → Except Error Settings
  | some path => ofFile tree path
  | none =>
      match standardPaths.find? tree.pathExists with
      | some path => ofFile tree path
      | none => .ok {}

/-- The settings with what the environment puts in place of them. -/
def overriddenBy (env : Environment) (s : Settings) : Settings :=
  { s with engine := { s.engine with
      definitionsPath := (env.get? Environment.definitionsPath).getD s.engine.definitionsPath
      journalPath := (env.get? Environment.journalPath).or s.engine.journalPath } }

def load (tree : FileTree) (env : Environment) (path : Option String) : Except Error Settings := do
  let s ← ofFiles tree path
  (s.overriddenBy env).checked

/-- Refuses settings with a log level that is no filter, unless the environment has a filter. -/
def checkLogFilter (env : Environment) (s : Settings) : Except Error Unit :=
  let level := s.logger.telemetry.level
  if (env.get? Environment.logFilter).any fun f => (LogFilter.fault? f).isNone then .ok ()
  else
    match LogFilter.fault? level with
    | none => .ok ()
    | some fault =>
        .error (.config ("invalid log level '" ++ level ++ "': " ++ fault.message))

end Settings
end Casework
