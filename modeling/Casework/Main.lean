import Casework.Command.Identifier
import Casework.Command.Run
import Std.Time.DateTime.Timestamp

/-!
# At a terminal

Runs the program on real files, a real clock and a real terminal.  All decisions are made by
`Casework.Command`; what stands here reads, prints and waits.

* `Terminal.capture` : puts files that are there into a tree;
* `Terminal.Session` : an execution that is attended to;
* `main` : the program.
-/

namespace Casework
namespace Terminal

/-! ## Readings -/

def realTime : IO Instant := do
  let t ← Std.Time.Timestamp.now
  pure ⟨t.val.second.val, t.val.nano.val.toNat⟩

def freshId : IO String := do
  pure (Identifier.ofBytes (← IO.getRandomBytes 16).toList)

/-- What the outside world shows, `start` being the moment that waiting is measured from. -/
def readings (start : Nat) : IO Readings := do
  pure ⟨← realTime, ← freshId, ((← IO.monoMsNow) - start) / 1000⟩

/-- The variables of the environment that make a difference. -/
def environment : IO Environment :=
  Command.variableNames.filterMapM fun name => do
    pure ((← IO.getEnv name).map fun value => (name, value))

/-! ## Files -/

/-- What is at a path, if there is something. -/
def readNode? (path : String) : IO (Option FileNode) := do
  try
    match String.fromUTF8? (← IO.FS.readBinFile path) with
    | some text => pure (some (.file (.text text)))
    | none => pure (some (.file .undecodable))
  catch
    | .noFileOrDirectory .. => pure none
    | .inappropriateType .. => pure (some (.directory []))
    | _ => pure (some (.file .undecodable))

/-- Makes a directory and those on the way to it.  Where that fails, opening the journal does. -/
def makeDirectory (path : String) : IO Unit := do
  try IO.FS.createDirAll path
  catch _ => pure ()

def emptyTree : IO FileTree := do
  let names := (FileTree.pathParts (← IO.currentDir).toString).filter (· ≠ "")
  pure ⟨Folder.putAt names (.directory []) [], names⟩

/-- The tree with those of some files that are there and not yet in it. -/
def capture (t : FileTree) (paths : List String) : IO FileTree :=
  paths.foldlM (fun t path => do
    if t.pathExists path then pure t
    else
      match ← readNode? path with
      | some node => pure (t.graft path node)
      | none => pure t) t

/-! ## Sessions -/

structure Session where
  console : Console
  prepared : Command.Prepared
  /-- The moment that waiting is measured from. -/
  start : Nat
  /-- The file of the journal, and what is in it. -/
  journal : Option (String × String)
  /-- How many activities were shown. -/
  shown : Nat := 0

namespace Session

def print (text : String) : IO Unit := do
  IO.print text
  (← IO.getStdout).flush

def execution? (s : Session) : Option Execution :=
  s.prepared.host.execution? s.prepared.place

def within (s : Session) (h : Host) : Session :=
  { s with prepared := { s.prepared with host := h } }

def save (s : Session) : IO Session := do
  match s.journal with
  | none => pure s
  | some (path, old) =>
      let text := Command.journalText s.prepared.host s.prepared.caseId
      if old.length < text.length then
        let file ← IO.FS.Handle.mk path .append
        file.putStr (text.drop old.length).toString
        file.flush
      pure { s with journal := some (path, text) }

def echo (s : Session) : IO Session := do
  let activities := ((s.execution?.bind Execution.published).map (·.activities)).getD []
  for a in activities.drop s.shown do
    print (Command.activityLine s.console a)
  pure { s with shown := max s.shown activities.length }

/-- Lets the execution run up to now or until a condition holds, and says whether it does. -/
def runUntil (s : Session) (p : Host → Bool) : IO (Session × Bool) := do
  let r ← readings s.start
  let (h, reached) := ({ s.prepared.host with readings := r }).runUntil r.time p
  let s ← (s.within h).save
  pure (← s.echo, reached)

/-- Reads lines up to the first one that a request resolves. -/
partial def readAnswer (s : Session) (r : Request) : IO (Except Error Response) := do
  print s.console.cursor
  let line ← try pure (Except.ok (← (← IO.getStdin).getLine)) catch _ => pure (.error ())
  match line with
  | .error () => pure (.error (.io .notText))
  | .ok line =>
      if line.isEmpty then pure (.error Console.closedError)
      else
        match r.resolve line with
        | some value => pure (.ok ⟨r.id, value⟩)
        | none => do
            print (s.console.complaint (Text.trimmed line))
            readAnswer s r

/-- Answers the interactions of the execution, `answered` being the number of activities at the
last answer. -/
partial def attend (s : Session) (answered : Nat) : IO (Session × Attendance) := do
  let (s, reached) ← s.runUntil (Host.needsAttention s.prepared.place answered)
  match reached, s.execution? with
  | true, some x =>
      match x.unanswered? answered with
      | none => pure (s, .finished x.status)
      | some (k, interaction) =>
          let request := Request.ofInteraction k.caseId interaction
          print (s.console.announcement request)
          match ← s.readAnswer request with
          | .error e => pure (s, .failed e)
          | .ok response =>
              let (s, _) ← s.runUntil fun _ => false
              match s.prepared.host.decide s.prepared.place response.value with
              | .error e => pure (s, .failed e)
              | .ok (h, _) => attend (s.within h) k.activityCount
  | _, _ =>
      IO.sleep 200
      attend s answered

end Session

/-- Shows how the program ended, and tells its exit code. -/
def finish (t : Command.Transcript) : IO UInt32 := do
  Session.print t.printed
  match t.shown with
  | some k => Session.print (Command.caseText k)
  | none => pure ()
  IO.eprint t.complaint
  pure t.exitCode.toUInt32

def refuse (f : Command.Failure) : IO UInt32 :=
  finish (.ofEnding "" { failure := some f })

def run (env : Environment) (a : Command.Arguments) : IO UInt32 := do
  let start ← IO.monoMsNow
  let r ← readings start
  let tree ← capture (← emptyTree) (Command.settingsFiles a)
  match Command.settingsFor env tree a with
  | .error f => refuse f
  | .ok settings =>
      let journal := Command.journalFile? settings (Command.caseIdOf a r.freshId)
      for directory in settings.engine.journalPath do
        makeDirectory directory
      -- The files that are read depend on what was read before, so they are captured by and by.
      let tree ← capture tree (settings.engine.journalPath.toList ++ journal.toList)
      match Command.prepare env tree r a with
      | .error f => refuse f
      | .ok p =>
          let tree ← capture tree (Command.definitionFiles p)
          match Command.prepare env tree r a with
          | .error f => refuse f
          | .ok p =>
              let console : Console :=
                ⟨Command.usesColor env (← (← IO.getStdout).isTty)⟩
              Session.print (Command.heading console a p.caseId)
              let written := Command.journalText p.host p.caseId
              let s : Session :=
                ⟨console, p, start, journal.map fun path => (path, written), 0⟩
              let (s, attendance) ← s.attend 0
              finish (.ofEnding "" (Command.endingOf console s.execution? attendance))

end Terminal
end Casework

open Casework in
def main (words : List String) : IO UInt32 := do
  let env ← Terminal.environment
  match Command.Arguments.read env words with
  | .error fault => Terminal.finish (.ofUsageFault env (← (← IO.getStderr).isTty) fault)
  | .ok none => Terminal.finish (.ofHelp env (← (← IO.getStdout).isTty))
  | .ok (some a) => Terminal.run env a
