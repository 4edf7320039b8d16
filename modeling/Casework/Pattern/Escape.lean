import Casework.Text.Blank
import Casework.Text.Digits

/-!
# Escapes in patterns

What a backslash in a pattern makes of the characters behind it.

* `Modes` : how a pattern is read, which it can change itself;
* `Modes.skip` : what is behind the gaps, where gaps are allowed;
* `Escape`, `Modes.readEscape?` : escapes.

A pattern matches texts only, never halves of characters.  So with characters of one byte alone, a
pattern may not name a byte that is no character, nor all characters but some.
-/

namespace Casework
namespace Pattern

structure Modes where
  /-- Whether characters and words are those of any script. -/
  unicode : Bool
  /-- Whether blanks and remarks stand for nothing. -/
  spaced : Bool
deriving DecidableEq, Repr

inductive Escape where
  | literal (c : Char)
  /-- One of several characters. -/
  | kind
  /-- A place between characters, at an edge of a word or not. -/
  | edge (ofWord : Bool)
deriving DecidableEq, Repr

/-- Whether a character stands for itself behind a backslash: any of ASCII but letters, digits and
angle brackets. -/
def isQuotable (c : Char) : Bool :=
  c.toNat < 0x80 && !c.isAlphanum && c ≠ '<' && c ≠ '>'

/-- What follows blanks and remarks; a remark goes on to the end of its line. -/
def afterGaps (inRemark : Bool) : List Char → List Char
  | [] => []
  | c :: cs =>
      if inRemark then afterGaps (c ≠ '\n') cs
      else if Text.isBlank c then afterGaps false cs
      else if c = '#' then afterGaps true cs
      else c :: cs

namespace Modes

def initial : Modes := ⟨true, false⟩

/-- What follows the gaps, if gaps are allowed. -/
def skip (m : Modes) (cs : List Char) : List Char :=
  if m.spaced then afterGaps false cs else cs

/-- Reads a number of hexadecimal digits, which may have gaps between them. -/
def readHex? (m : Modes) : Nat → Nat → List Char → Option (Nat × List Char)
  | 0, value, cs => some (value, cs)
  | n + 1, value, cs =>
      match m.skip cs with
      | [] => none
      | c :: cs => do
          let d ← Text.hexDigit? c
          m.readHex? n (16 * value + d) cs

/-- How many digits follow the letter of a code point. -/
def codeLength (letter : Char) : Nat :=
  if letter = 'x' then 2 else if letter = 'u' then 4 else 8

/-- Reads the digits of a code point behind its letter. -/
def readCode? (m : Modes) (letter : Char) (cs : List Char) : Option (Escape × List Char) := do
  let (n, cs) ← m.readHex? (codeLength letter) 0 cs
  let c ← Text.characterOf? n
  -- With two digits it is a byte, if characters have one byte.
  if letter = 'x' && 0x80 ≤ n && !m.unicode then none else pure (.literal c, cs)

def readCategory? (m : Modes) (cs : List Char) : Option (Escape × List Char) :=
  match m.skip cs with
  | c :: cs => if m.unicode && "CLMNPSZ".toList.contains c.toUpper then some (.kind, cs) else none
  | [] => none

def readEscape? (m : Modes) : List Char → Option (Escape × List Char)
  | [] => none
  | c :: cs =>
      if c = 'x' || c = 'u' || c = 'U' then m.readCode? c cs
      else if c = 'p' || c = 'P' then m.readCategory? cs
      else if c = 'd' || c = 's' || c = 'w' then some (.kind, cs)
      else if c = 'D' || c = 'S' || c = 'W' then if m.unicode then some (.kind, cs) else none
      else if isQuotable c then some (.literal c, cs)
      else if c = 'a' then some (.literal '\x07', cs)
      else if c = 'f' then some (.literal '\x0c', cs)
      else if c = 't' then some (.literal '\t', cs)
      else if c = 'n' then some (.literal '\n', cs)
      else if c = 'r' then some (.literal '\r', cs)
      else if c = 'v' then some (.literal '\x0b', cs)
      else if c = 'A' || c = 'z' then some (.edge false, cs)
      else if c = 'b' || c = 'B' || c = '<' || c = '>' then some (.edge true, cs)
      else none

end Modes

end Pattern
end Casework
