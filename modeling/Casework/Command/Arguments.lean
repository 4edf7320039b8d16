import Casework.Settings.Sources
import Casework.Text.Paint

/-!
# Arguments

What the program is asked to do, from the words behind its name.

* `Flag` : the options that take a value;
* `Arguments` : the choices that were made;
* `Arguments.read` : the choices of a list of words; no choices if help was asked for;
* `UsageFault` : why words are refused;
* `help`, `UsageFault.complaint` : what is printed, in the styles of `Emphasis`.

A value may stand behind an equals sign or be the next word.  In the second case it is judged when
the next option comes, so that a word that is no option is reported before.
-/

namespace Casework
namespace Command

inductive Flag where
  | config
  | definitions
  | journal
  | process
  | version
  | payload
  | caseId
deriving DecidableEq, Repr

namespace Flag

/-- All options that take a value, in the order in which help lists them. -/
def all : List Flag := [.config, .definitions, .journal, .process, .version, .payload, .caseId]

def name : Flag → String
  | .config => "config"
  | .definitions => "definitions"
  | .journal => "journal"
  | .process => "process"
  | .version => "version"
  | .payload => "payload"
  | .caseId => "case-id"

def valueName : Flag → String
  | .config => "CONFIG"
  | .definitions => "DEFINITIONS"
  | .journal => "JOURNAL"
  | .process => "PROCESS"
  | .version => "PROCESS_VERSION"
  | .payload => "PAYLOAD"
  | .caseId => "CASE_ID"

def text (f : Flag) : String := "--" ++ f.name ++ " <" ++ f.valueName ++ ">"

def isPath : Flag → Bool
  | .definitions | .journal => true
  | _ => false

def ofName? (name : String) : Option Flag :=
  all.find? fun f => f.name == name

end Flag

inductive UsageFault where
  /-- A word that is no option, or an option that there is not. -/
  | unexpected (word : String)
  /-- An option without its value. -/
  | missingValue (f : Flag)
  /-- An option that is given twice, as messages show it. -/
  | repeated (option : String)
  /-- A value for an option that takes none. -/
  | surplusValue (value option : String)
  /-- An option that another one needs. -/
  | missingOption (f : Flag)
deriving DecidableEq, Repr

/-- What parts of a message are emphasized as. -/
inductive Emphasis where
  /-- The word that the message begins with. -/
  | failure
  | heading
  /-- What can be typed as it stands. -/
  | literal
  /-- What is not as it should be. -/
  | wrong
  /-- What should be there. -/
  | wanted
deriving DecidableEq, Repr

def Emphasis.mark : Emphasis → String → String
  | .failure => Paint.layered ["1", "31"]
  | .heading => Paint.layered ["1", "4"]
  | .literal => Paint.layered ["1"]
  | .wrong => Paint.layered ["33"]
  | .wanted => Paint.layered ["32"]

def UsageFault.message : UsageFault → String
  | .unexpected word => "unexpected argument '" ++ Emphasis.wrong.mark word ++ "' found"
  | .missingValue f =>
      "a value is required for '" ++ Emphasis.wrong.mark f.text ++ "' but none was supplied"
  | .repeated option =>
      "the argument '" ++ Emphasis.wrong.mark option ++ "' cannot be used multiple times"
  | .surplusValue value option =>
      "unexpected value '" ++ Emphasis.wrong.mark value ++ "' for '"
        ++ Emphasis.literal.mark option ++ "' found; no more were expected"
  | .missingOption f =>
      "the following required arguments were not provided:\n  " ++ Emphasis.wanted.mark f.text

structure Arguments where
  config : Option String := none
  definitions : Option String := none
  journal : Option String := none
  process : String := "expense_approval"
  version : String := "1.0.0"
  payload : Option String := none
  caseId : Option String := none
  resume : Bool := false
deriving DecidableEq, Repr

/-! ## Reading words -/

structure Reading where
  values : List (Flag × String) := []
  resume : Bool := false
  /-- The last option, if its value is not judged yet, with the value if it was seen. -/
  pending : Option (Flag × Option String) := none
deriving Repr

namespace Reading

def resumeOption : String := "--resume"

def helpOption : String := "--help"

def set (r : Reading) (f : Flag) (value : String) : Except UsageFault Reading :=
  if (r.values.lookup f).isSome then .error (.repeated f.text)
  else if f.isPath && value.isEmpty then .error (.missingValue f)
  else .ok { r with values := (f, value) :: r.values }

def settle (r : Reading) : Except UsageFault Reading :=
  match r.pending with
  | none => .ok r
  | some (f, none) => .error (.missingValue f)
  | some (f, some value) => { r with pending := none }.set f value

/-- An option that takes a value, with the value behind its equals sign. -/
def takeFlag (r : Reading) (f : Flag) : Option String → Except UsageFault Reading
  | some value => do
      let r ← r.settle
      r.set f value
  | none => do
      let r ← r.settle
      pure { r with pending := some (f, none) }

def takeResume (r : Reading) : Except UsageFault Reading := do
  let r ← r.settle
  if r.resume then .error (.repeated resumeOption) else pure { r with resume := true }

def takeWord (r : Reading) (word : String) : Except UsageFault Reading :=
  match r.pending with
  -- The word is the value of the option before it.  It is judged later.
  | some (f, none) => .ok { r with pending := some (f, some word) }
  | _ => .error (.unexpected word)

/-- The name of an option and the value behind its equals sign. -/
def splitOption (cs : List Char) : String × Option String :=
  let name := String.ofList (cs.takeWhile (· ≠ '='))
  match cs.dropWhile (· ≠ '=') with
  | [] => (name, none)
  | _ :: value => (name, some (String.ofList value))

/-- Reads words; none if help is asked for. -/
def readWords (r : Reading) : List String → Except UsageFault (Option Reading)
  | [] => r.settle.map some
  | word :: rest =>
      match word.toList with
      | ['-', '-'] =>
          -- Behind two dashes every word is no option, and none is wanted.
          match rest with
          | [] => r.settle.map some
          | next :: _ => .error (.unexpected next)
      | '-' :: '-' :: cs =>
          let (name, value?) := splitOption cs
          match Flag.ofName? name, value? with
          | some f, value? => do
              let r ← r.takeFlag f value?
              readWords r rest
          | none, value? =>
              if name = "resume" then
                match value? with
                | some value => .error (.surplusValue value resumeOption)
                | none => do
                    let r ← r.takeResume
                    readWords r rest
              else if name = "help" then
                match value? with
                | some value => .error (.surplusValue value helpOption)
                | none => r.settle.map fun _ => none
              else .error (.unexpected ("--" ++ name))
      -- Letters behind the first are not looked at, since help ends the reading.
      | '-' :: 'h' :: _ => r.settle.map fun _ => none
      | '-' :: c :: _ => .error (.unexpected (String.ofList ['-', c]))
      | _ => do
          let r ← r.takeWord word
          readWords r rest

end Reading

namespace Arguments

/-- The variable of the environment that names the settings if no option does. -/
def configVariable : String := "CASEFLOW_CONFIG"

def ofReading (env : Environment) (r : Reading) : Arguments :=
  let default : Arguments := {}
  { config := (r.values.lookup .config).or (env.get? configVariable)
    definitions := r.values.lookup .definitions
    journal := r.values.lookup .journal
    process := (r.values.lookup .process).getD default.process
    version := (r.values.lookup .version).getD default.version
    payload := r.values.lookup .payload
    caseId := r.values.lookup .caseId
    resume := r.resume }

/-- The choices of a list of words; none if help is asked for. -/
def read (env : Environment) (words : List String) : Except UsageFault (Option Arguments) :=
  match Reading.readWords {} words with
  | .error fault => .error fault
  | .ok none => .ok none
  | .ok (some r) =>
      let a := ofReading env r
      if a.resume && a.caseId.isNone then .error (.missingOption .caseId) else .ok (some a)

end Arguments

/-! ## What is printed -/

def usage : String :=
  Emphasis.heading.mark "Usage:" ++ " " ++ Emphasis.literal.mark "caseflow" ++ " [OPTIONS]"

def Flag.explanation (env : Environment) : Flag → String
  | .config =>
      "Path to a caseflow.config.yaml [env: " ++ Arguments.configVariable ++ "="
        ++ (env.get? Arguments.configVariable).getD "" ++ "]"
  | .definitions => "Directory holding process definitions"
  | .journal => "Directory for execution journals"
  | .process => "Process name [default: " ++ ({} : Arguments).process ++ "]"
  | .version => "Process version [default: " ++ ({} : Arguments).version ++ "]"
  | .payload => "Initial case payload as JSON"
  | .caseId => "Case id; generated when omitted"

def explanationColumn : Nat := 35

/-- So many blanks. -/
def blanks (n : Nat) : String := String.ofList (List.replicate n ' ')

/-- An explanation, with every line but the first moved to its column. -/
def indented (explanation : String) : String :=
  ("\n" ++ blanks explanationColumn).intercalate (explanation.splitOn "\n")

/-- A line of help: options, what follows them, blanks up to the explanation, and that. -/
def helpLine (start : String) (options : List String) (value explanation : String) : String :=
  let width := start.length + (", ".intercalate options).length + value.length
  start ++ ", ".intercalate (options.map Emphasis.literal.mark) ++ value
    ++ blanks (explanationColumn - width) ++ indented explanation ++ "\n"

def help (env : Environment) : String :=
  "Caseflow - run a process definition against a case from the terminal\n\n"
    ++ usage ++ "\n\n" ++ Emphasis.heading.mark "Options:" ++ "\n"
    ++ String.join (Flag.all.map fun f =>
        helpLine "      " ["--" ++ f.name] (" <" ++ f.valueName ++ ">") (f.explanation env))
    ++ helpLine "      " [Reading.resumeOption] ""
        "Rebuild the case from its journal instead of starting it"
    ++ helpLine "  " ["-h", Reading.helpOption] "" "Print help"

def UsageFault.complaint (f : UsageFault) : String :=
  Emphasis.failure.mark "error:" ++ " " ++ f.message ++ "\n\n" ++ usage
    ++ "\n\nFor more information, try '" ++ Emphasis.literal.mark Reading.helpOption ++ "'.\n"

/-- Whether help and complaints keep their styles: never where that is forbidden, otherwise where
it is forced, and at a terminal that knows styles. -/
def keepsStyles (env : Environment) (isTerminal : Bool) : Bool :=
  let isGiven (name : String) : Bool := (env.get? name).any (· ≠ "")
  let knowsStyles := (env.get? "TERM").any (· ≠ "dumb")
  if isGiven "NO_COLOR" then false
  else if isGiven "CLICOLOR_FORCE" then true
  else if env.get? "CLICOLOR" = some "0" then false
  else isTerminal && (knowsStyles || env.contains "CLICOLOR" || env.contains "CI")

def printed (env : Environment) (isTerminal : Bool) (text : String) : String :=
  if keepsStyles env isTerminal then text else Paint.plain text

end Command
end Casework
