import Casework.HumanInput.Handler
import Casework.Text.Lines
import Casework.Text.Paint

/-!
# Answers from a terminal

* `Console` : prints requests and reads answers, with or without colors;
* `Console.attempt` : reads lines up to the first one that names an action;
* `Console.handler` : the same as a `Handler`.

A line that names no action is reported and the next one is read; a blank line only prompts again.
-/

namespace Casework

/-- A terminal that requests are put to. -/
structure Console where
  /-- Whether text is printed in styles. -/
  colored : Bool
deriving DecidableEq, Repr

namespace Console

/-- A text in a style, if there are any. -/
def paint (c : Console) (codes text : String) : String :=
  if c.colored then Paint.styled codes text else text

def rule : String := String.ofList (List.replicate 50 '─')

/-- The line of an action, `n` being its position. -/
def actionLine (c : Console) (n : Nat) (a : Action) : String :=
  let line := "  [" ++ toString n ++ "] " ++ a.label ++ " (" ++ a.value ++ ")"
  if a.style = "primary" then c.paint "32" line
  else if a.style = "danger" then c.paint "31" line
  else line

/-- The lines of the actions from position `n` on. -/
def actionLines (c : Console) : Nat → List Action → String
  | _, [] => ""
  | n, a :: rest => c.actionLine n a ++ "\n" ++ actionLines c (n + 1) rest

def timeoutNote (c : Console) (r : Request) : String :=
  match r.timeout with
  | some seconds => "\n" ++ c.paint "33" ("Timeout: " ++ toString seconds ++ " seconds")
  | none => ""

def render (c : Console) (r : Request) : String :=
  c.paint "1;34" ("DECISION NEEDED: case " ++ r.caseId) ++ "\n"
    ++ rule ++ "\n"
    ++ c.paint "1" r.prompt ++ "\n"
    ++ c.actionLines 1 r.actions
    ++ c.timeoutNote r

def announcement (c : Console) (r : Request) : String :=
  "\n" ++ c.render r ++ "\n"

def cursor (c : Console) : String :=
  c.paint "1;32" ">" ++ " "

def complaint (c : Console) (line : String) : String :=
  if line.isEmpty then ""
  else c.paint "31" ("'" ++ line ++ "' is not one of the offered actions") ++ "\n"

def timeoutNotice (c : Console) : String :=
  "\n" ++ c.paint "1;31" "Timeout waiting for input" ++ "\n"

structure Attempt where
  printed : String
  /-- Lines that were not read. -/
  rest : List String
  result : Except Error Response

def closedError : Error :=
  .io (.other "stdin closed while waiting for a decision")

def timeoutError : Error :=
  .io (.other "no response received within timeout period")

/-- Reads lines up to the first one that the request resolves. -/
def collect (c : Console) (r : Request) : List String → Attempt
  | [] => ⟨c.cursor, [], .error closedError⟩
  | line :: rest =>
      match r.resolve line with
      | some value => ⟨c.cursor, rest, .ok ⟨r.id, value⟩⟩
      | none =>
          let a := collect c r rest
          ⟨c.cursor ++ c.complaint (Text.trimmed line) ++ a.printed, a.rest, a.result⟩

/-- Puts a request to a terminal at which these lines are typed. -/
def attempt (c : Console) (r : Request) (lines : List String) : Attempt :=
  let a := c.collect r lines
  ⟨c.announcement r ++ a.printed, a.rest, a.result⟩

/-- Puts a request to a terminal at which nothing is typed in time. -/
def attemptInVain (c : Console) (r : Request) : Attempt :=
  ⟨c.announcement r ++ c.cursor ++ c.timeoutNotice, [], .error timeoutError⟩

def linesOf (typed : String) : List String :=
  (Text.lines typed.toList).map String.ofList

/-- An answer uses up a line at least. -/
theorem length_rest_collect_lt (c : Console) (r : Request) (lines : List String) {a : Response}
    (h : (c.collect r lines).result = .ok a) :
    (c.collect r lines).rest.length < lines.length := by
  induction lines with
  | nil => simp [collect] at h
  | cons line rest ih =>
      unfold collect at h ⊢
      split at h <;> simp_all
      omega

/-- What was typed and not yet read, and what was printed. -/
structure Session where
  lines : List String
  printed : String := ""
deriving DecidableEq, Repr

def handler (c : Console) : Handler Session where
  answer r s :=
    let a := c.attempt r s.lines
    (a.result, ⟨a.rest, s.printed ++ a.printed⟩)
  supply s := s.lines.length
  supply_lt {r s s' x} h := by
    simp only [Prod.mk.injEq] at h
    obtain ⟨hr, rfl⟩ := h
    exact c.length_rest_collect_lt r s.lines hr

end Console
end Casework
