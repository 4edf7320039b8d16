import Casework.Files.Tree
import Casework.Journal.Entry
import Casework.Json.Reader
import Casework.Json.Writer
import Casework.Table
import Casework.Text.Blank
import Casework.Text.Lines

/-!
# Journals

Append-only stores of entries, keyed by case id.

* `Journal` : entries kept in memory, or one file a case with one entry a line;
* `Journal.append`, `Journal.load`, `Journal.caseIds` : the operations.

In a file, lines of blanks count for nothing.  The number in the error about a line that is no
entry is counted among the other lines.
-/

namespace Casework

inductive Journal where
  | memory (cases : Table (List JournalEntry))
  /-- A directory with one file a case. -/
  | files (folder : Folder)

namespace Journal

def empty : Journal := .memory []

def isFiles : Journal → Bool
  | .memory _ => false
  | .files _ => true

/-- Whether a case id can name a file: it is not empty, has no separator and is no directory. -/
def isFileId (caseId : String) : Bool :=
  !(caseId.isEmpty || caseId.toList.any (fun c => c == '/' || c == '\\')
    || caseId == "." || caseId == "..")

def fileName (caseId : String) : String :=
  caseId ++ ".jsonl"

/-- The name of the file of a case, if its id can name one. -/
def fileName? (caseId : String) : Except Error String :=
  if isFileId caseId then .ok (fileName caseId) else .error (.journal (.invalidCaseId caseId))

def line (e : JournalEntry) : String :=
  (toValue e).compact ++ "\n"

def entryOfLine? (cs : List Char) : Option JournalEntry := do
  let v ← Value.read? (String.ofList cs)
  (JournalEntry.decoder.decode v).toOption

/-- Reads lines that are not blank, the first of which has the number `n`. -/
def entriesOfLines (file : String) (n : Nat) : List (List Char) → Except Error (List JournalEntry)
  | [] => .ok []
  | l :: ls =>
      match entryOfLine? l with
      | some e => (entriesOfLines file (n + 1) ls).map (e :: ·)
      | none => .error (.journal (.unreadableLine file n))

def entriesOfText (file text : String) : Except Error (List JournalEntry) :=
  entriesOfLines file 1 ((Text.lines text.toList).filter fun l => !l.all Text.isBlank)

def append (j : Journal) (caseId : String) (e : JournalEntry) : Except Error Journal :=
  match j with
  | .memory cases => .ok (.memory (cases.insert caseId ((cases.get? caseId).getD [] ++ [e])))
  | .files folder => do
      let name ← fileName? caseId
      match folder.appendText name (line e) with
      | .ok folder => pure (.files folder)
      | .error cause => .error (.io cause)

/-- All entries of a case, in the order in which they were appended. -/
def load (j : Journal) (caseId : String) : Except Error (List JournalEntry) :=
  match j with
  | .memory cases => .ok ((cases.get? caseId).getD [])
  | .files folder => do
      let name ← fileName? caseId
      match folder.readText name with
      | .ok text => entriesOfText name text
      -- A case without a file has no entries yet.
      | .error .notFound => pure []
      | .error cause => .error (.io cause)

/-- The case whose file has this name, if it is the file of a case: what precedes the last point,
unless that is nothing. -/
def caseIdOfFile? (name : String) : Option String :=
  let cs := name.toList.reverse
  let extension := cs.takeWhile (· ≠ '.')
  let stem := (cs.dropWhile (· ≠ '.')).drop 1
  if extension.reverse = "jsonl".toList ∧ stem ≠ [] then some (String.ofList stem.reverse)
  else none

/-- The ids of all cases with a journal, in ascending order. -/
def caseIds : Journal → List String
  | .memory cases => cases.keys
  | .files folder =>
      (folder.filterMap fun e => caseIdOfFile? e.1).mergeSort fun a b => decide (a ≤ b)

def appendAll (j : Journal) (caseId : String) : List JournalEntry → Except Error Journal
  | [] => .ok j
  | e :: es => do
      let j ← j.append caseId e
      appendAll j caseId es

end Journal
end Casework
