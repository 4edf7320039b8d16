import Casework.Pattern.Escape
import Casework.Pattern.Shape

/-!
# Sets of characters in patterns

A set is written in brackets: `[a-z_]`.  It holds characters, ranges, escapes, sets that have a
name and other sets, and two sets can be put together by an operation: `[a-z&&[^aeiou]]`.

* `Modes.readSet?` : a set from behind its bracket.

Nothing is said of the characters in a set: only its shape is kept.
-/

namespace Casework
namespace Pattern

def setNames : List String :=
  ["alnum", "alpha", "ascii", "blank", "cntrl", "digit", "graph", "lower", "print", "punct",
   "space", "upper", "word", "xdigit"]

/-- Reads a set with a name from behind its bracket: whether it is turned around, and what
follows. -/
def readNamed? : List Char → Option (Bool × List Char)
  | ':' :: cs =>
      let negated := cs.head? = some '^'
      let cs := if negated then cs.drop 1 else cs
      let name := cs.takeWhile (· ≠ ':')
      match cs.drop name.length with
      | ':' :: ']' :: rest =>
          if setNames.contains (String.ofList name) then some (negated, rest) else none
      | _ => none
  | _ => none

/-- What an operation has on its left, together with the parts on its right. -/
def operand (left : Option Shape) (parts : List Shape) : Shape :=
  match left with
  | none => Shape.joined parts
  | some l => Shape.nested [l, Shape.joined parts]

/-- The mark behind the gaps that follow a hyphen.  A remark is passed over up to its first
character that is no blank. -/
def markBehindHyphen? (m : Modes) (cs : List Char) : Option Char :=
  if m.spaced then
    match Text.trimLeft cs with
    | '#' :: cs => (Text.trimLeft cs).head?
    | cs => cs.head?
  else cs.head?

namespace Modes

def allows (m : Modes) (c : Char) : Bool :=
  m.unicode || c.toNat < 0x80

/-- Reads a character or an escape in a set: the character, if it is one. -/
def readMember? (m : Modes) : List Char → Option (Option Char × List Char)
  | [] => none
  | c :: cs =>
      if c = '\\' then
        match m.readEscape? cs with
        | some (.literal c, cs) => if m.allows c then some (some c, cs) else none
        | some (.kind, cs) => some (none, cs)
        | some (.edge _, _) | none => none
      else if m.allows c then some (some c, cs)
      else none

def readRange? (m : Modes) (cs : List Char) : Option (List Char) := do
  let (first, cs) ← m.readMember? cs
  match m.skip cs with
  | '-' :: rest =>
      -- In front of these a hyphen is a character or an operation.
      if markBehindHyphen? m rest = some ']' || markBehindHyphen? m rest = some '-' then
        some ('-' :: rest)
      else
        let (last, rest) ← m.readMember? (m.skip rest)
        let first ← first
        let last ← last
        if first ≤ last then some rest else none
  | cs => some cs

/-- What follows the mark that turns a set around, if it may be there, and whether it is. -/
def readTurn? (m : Modes) (cs : List Char) : Option (List Char) :=
  match m.skip cs with
  | '^' :: cs => if m.unicode then some cs else none
  | cs => some cs

/-- Reads what is left of a set, some of whose parts have been read, `left` being the left side of
an operation.  At the start a hyphen is a character, and so is a bracket without hyphens before
it. -/
def readParts? (m : Modes) :
    Nat → Bool → Option Shape → List Shape → List Char → Option (Shape × List Char)
  | 0, _, _, _, _ => none
  | fuel + 1, atStart, left, parts, cs =>
      match m.skip cs with
      | [] => none
      | c :: cs =>
          if atStart && c = '-' then m.readParts? fuel true left (.atom :: parts) cs
          else if c = ']' then
            if atStart && parts.isEmpty then m.readParts? fuel false left [.atom] cs
            else some (operand left parts, cs)
          else if c = '[' then
            -- A bracket may begin the name of a class of characters, or a set inside this one.
            match readNamed? cs with
            | some (turned, cs) =>
                if turned && !m.unicode then none
                else m.readParts? fuel false left (.atom :: parts) cs
            | none => do
                let cs ← m.readTurn? cs
                let (inner, cs) ← m.readParts? fuel true none [] cs
                m.readParts? fuel false left (.nested [inner] :: parts) cs
          -- Two operators in a row take the parts so far as their left side.
          else if (c = '&' || c = '-' || c = '~') && cs.head? = some c then
            m.readParts? fuel false (some (operand left parts)) [] (cs.drop 1)
          else do
            let cs ← m.readRange? (c :: cs)
            m.readParts? fuel false left (.atom :: parts) cs

def readSet? (m : Modes) (cs : List Char) : Option (Shape × List Char) := do
  let cs ← m.readTurn? cs
  let (inner, cs) ← m.readParts? (cs.length + 1) true none [] cs
  pure (.nested [inner], cs)

end Modes
end Pattern
end Casework
