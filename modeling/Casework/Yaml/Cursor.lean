/-!
# Reading positions

Characters of a settings or definition text, and where a reader stands in it.

* `Yaml.prepare?` : the characters, with every line end as one character;
* `Cursor` : what is left to read, with the line and column of the next character.
-/

namespace Casework
namespace Yaml

def isGap (c : Char) : Bool := c = ' ' || c = '\t'

def isLineEnd (c : Char) : Bool := c = '\n' || c = '\u2028' || c = '\u2029'

def isSpace (c : Char) : Bool := isGap c || isLineEnd c

def isAllowed (c : Char) : Bool :=
  let n := c.toNat
  n = 0x09 || n = 0x0A || n = 0x0D || (0x20 ≤ n && n ≤ 0x7E) || n = 0x85
    || (0xA0 ≤ n && n ≤ 0xFFFD) || 0x10000 ≤ n

/-- Turns every way to end a line, the two separators apart, into one character. -/
def unifyLineEnds : List Char → List Char
  | [] => []
  | '\r' :: '\n' :: cs => '\n' :: unifyLineEnds cs
  | '\r' :: cs => '\n' :: unifyLineEnds cs
  | '\u0085' :: cs => '\n' :: unifyLineEnds cs
  | c :: cs => c :: unifyLineEnds cs

/-- The characters of a text; none if one of them is not allowed. -/
def prepare? (text : String) : Option (List Char) :=
  if text.toList.all isAllowed then some (unifyLineEnds text.toList) else none

structure Cursor where
  rest : List Char
  line : Nat := 0
  column : Nat := 0
  /-- How many bytes were read, a line end counting as one. -/
  index : Nat := 0
deriving Repr

namespace Cursor

def head? (c : Cursor) : Option Char := c.rest.head?

def next (c : Cursor) : Cursor :=
  match c.rest with
  | [] => c
  | x :: xs =>
      if isLineEnd x then ⟨xs, c.line + 1, 0, c.index + 1⟩
      else ⟨xs, c.line, c.column + 1, c.index + x.utf8Size⟩

/-- Behind the next `n` characters. -/
def skip (c : Cursor) : Nat → Cursor
  | 0 => c
  | n + 1 => c.next.skip n

/-- At a later position, given by what is left to read there. -/
def moveTo (c : Cursor) (rest : List Char) : Cursor :=
  c.skip (c.rest.length - rest.length)

def skipWhile (c : Cursor) (p : Char → Bool) : Cursor :=
  c.moveTo (c.rest.dropWhile p)

def skipOrderMark (c : Cursor) : Cursor :=
  if c.column = 0 && c.head? = some '\uFEFF' then c.next else c

/-- Whether a character follows that ends a word, or none. -/
def endsWord (cs : List Char) : Bool := cs.head?.all isSpace

/-- Whether a mark of a document's start or end stands here: three dashes or points at the
beginning of a line. -/
def atDocumentMark (c : Cursor) : Bool :=
  c.column = 0 &&
    match c.rest with
    | a :: b :: d :: cs => a = b && b = d && (a = '-' || a = '.') && endsWord cs
    | _ => false

end Cursor
end Yaml
end Casework
