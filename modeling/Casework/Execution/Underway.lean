import Casework.Execution.Append
import Casework.Execution.Host

/-!
# Appends to files

A file takes a long line in pieces.  While one piece is written the other executions run, and an
execution that is stopped then leaves the rest unwritten: the file ends in half a line.

* `Journal.cut` : the first piece of a text and what is left of it;
* `Journal.write` : adds a piece to the file of a case;
* `Underway` : a host with the append that has the files;
* `Underway.glance` : what happens to it while somebody looks into a file;
* `Underway.conclude` : the append is brought to its end.

One append has the files at a time.
-/

namespace Casework

namespace Journal

/-- How many bytes go to a file at once. -/
def pieceSize : Nat := 2 * 1024 * 1024

def fitting (cs : List Char) : Nat :=
  (cs.foldl (fun (size, n) c =>
    -- What comes after a character that does not fit is left as well.
    if size + c.utf8Size ≤ pieceSize then (size + c.utf8Size, n + 1) else (pieceSize, n)) (0, 0)).2

def cut (text : String) : String × String :=
  let cs := text.toList
  let n := fitting cs
  (String.ofList (cs.take n), String.ofList (cs.drop n))

def write (j : Journal) (caseId text : String) : Except Error Journal :=
  match j with
  | .memory _ => .ok j
  | .files folder => do
      let name ← fileName? caseId
      match folder.appendText name text with
      | .ok folder => pure (.files folder)
      | .error cause => .error (.io cause)

end Journal

/-- The line that an execution is about to write to a file. -/
def Execution.line? (r : Readings) (x : Execution) (l : Ledger) : Option String :=
  if x.isFinished || !l.journal.isFiles || (x.land r l).isNone then none
  else (x.written? r).map Journal.line

/-- A host with the append that has the files. -/
structure Underway where
  host : Host
  /-- Whose append it is, and what is not in the file yet. -/
  append? : Option (Nat × String) := none

namespace Underway

/-- The first execution that is about to write to a file, with its line. -/
def next? (h : Host) : Option (Nat × String) :=
  (List.range h.executions.length).findSome? fun i => do
    let x ← h.execution? i
    -- Whoever is about to append to a file has settled up to there.
    let line ← x.line? h.readings h.ledger
    pure (i, line)

/-- The append that has the files, unless its execution was stopped. -/
def live? (u : Underway) : Option (Execution × Nat × String) := do
  let (i, rest) ← u.append?
  let x ← u.host.execution? i
  if x.isFinished then none else some (x, i, rest)

/-- A look into a file takes as long as opening the file of an append, or writing one piece. -/
def glance (u : Underway) : Underway :=
  match u.live? with
  | none => { u with append? := next? u.host }
  | some (x, i, text) =>
      let (piece, rest) := Journal.cut text
      match u.host.ledger.journal.write x.context.log.caseId piece with
      | .ok j => { host := u.host.withJournal j, append? := some (i, rest) }
      | .error _ => u

def conclude (u : Underway) : Host :=
  match u.live? with
  | none => u.host
  | some (x, i, rest) =>
      match u.host.ledger.journal.write x.context.log.caseId rest with
      | .ok j =>
          let (x, l) := x.conclude { u.host.ledger with journal := j }
          { u.host with ledger := l }.put i x
      | .error _ => u.host

end Underway
end Casework
