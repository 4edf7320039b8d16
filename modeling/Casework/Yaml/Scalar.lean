import Casework.Text.Digits
import Casework.Yaml.Cursor

/-!
# Scalars

The contents of plain, quoted and block scalars, as the reader finds them.

* `Cursor.plain?` : words on one or more lines, up to something that ends them;
* `Cursor.quoted?` : text between single or double quotes;
* `Cursor.block?` : the indented lines behind `|` or `>`.

Each answers none for text that is no scalar of its kind.
-/

namespace Casework
namespace Yaml

/-! ## Gaps between words -/

/-- What stands between two words: blanks on one line, or line ends. -/
structure Gap where
  blanks : List Char := []
  lineEnds : List Char := []
deriving Repr

/-- What a gap means: its blanks, or a blank for one line end and otherwise the line ends behind
the first. -/
def Gap.folded (g : Gap) : List Char :=
  match g.lineEnds with
  | [] => g.blanks
  | '\n' :: [] => [' ']
  | '\n' :: more => more
  | ends => ends

/-- Reads a gap.  A tab among the first `margin` characters of a line is refused. -/
def readGap (margin : Nat) : List Char → Nat → Gap → Option (Gap × List Char)
  | [], _, g => some (g, [])
  | c :: cs, column, g =>
      if isGap c then
        if g.lineEnds.isEmpty then
          readGap margin cs (column + 1) { g with blanks := g.blanks ++ [c] }
        else if c = '\t' && column < margin then none
        else readGap margin cs (column + 1) g
      else if isLineEnd c then readGap margin cs 0 ⟨[], g.lineEnds ++ [c]⟩
      else some (g, c :: cs)

/-! ## Plain scalars -/

def isFlowMark (c : Char) : Bool :=
  c = ',' || c = '[' || c = ']' || c = '{' || c = '}'

/-- The next word of a plain scalar.  A colon ends it before a blank; inside brackets their marks
do too, and a colon right before one of them is refused. -/
def plainWord (inFlow : Bool) : List Char → Option (List Char × List Char)
  | [] => some ([], [])
  | c :: cs =>
      if isSpace c then some ([], c :: cs)
      else if inFlow && c = ':' && cs.head?.any (fun d => isFlowMark d || d = '?') then none
      else if (c = ':' && Cursor.endsWord cs) || (inFlow && isFlowMark c) then some ([], c :: cs)
      else (plainWord inFlow cs).map fun (w, rest) => (c :: w, rest)

structure Plain where
  text : List Char
  cursor : Cursor
  /-- Whether the last gap, which is no part of the scalar, reaches over a line end. -/
  endsLine : Bool

def plainFrom (inFlow : Bool) (margin : Nat) : Nat → Cursor → Option Plain
  | 0, _ => none
  | fuel + 1, c =>
      if c.atDocumentMark || c.head? = some '#' then some ⟨[], c, false⟩
      else do
        let (word, rest) ← plainWord inFlow c.rest
        let c := c.moveTo rest
        if !(c.head?.any isSpace) then pure ⟨word, c, false⟩
        else
          let (gap, rest) ← readGap margin rest c.column {}
          let c := c.moveTo rest
          let multi := !gap.lineEnds.isEmpty
          -- A line that is indented less belongs to what is around the scalar.
          if !inFlow && c.column < margin then pure ⟨word, c, multi⟩
          else
            let more ← plainFrom inFlow margin fuel c
            -- A gap with no word behind it is no part of the scalar.
            if more.text.isEmpty then pure ⟨word, more.cursor, multi⟩
            else pure { more with text := word ++ gap.folded ++ more.text }

/-- Reads a plain scalar whose lines are indented by `margin` at least. -/
def Cursor.plain? (c : Cursor) (inFlow : Bool) (margin : Nat) : Option Plain :=
  plainFrom inFlow margin (c.rest.length + 1) c

/-! ## Quoted scalars -/

/-- The number that exactly `n` hexadecimal digits stand for. -/
def hexNumber? (n : Nat) (cs : List Char) : Option Nat :=
  if (cs.take n).length = n then
    (cs.take n).foldl (fun v c => do
      let v ← v
      let d ← Text.hexDigit? c
      pure (16 * v + d)) (some 0)
  else none

/-- The character that stands behind a backslash for another one. -/
def simpleEscape? : Char → Option Char
  | '0' => some '\x00'
  | 'a' => some '\x07'
  | 'b' => some '\x08'
  | 't' | '\t' => some '\t'
  | 'n' => some '\n'
  | 'v' => some '\x0b'
  | 'f' => some '\x0c'
  | 'r' => some '\r'
  | 'e' => some '\x1b'
  | ' ' => some ' '
  | '"' => some '"'
  | '/' => some '/'
  | '\\' => some '\\'
  | 'N' => some '\u0085'
  | '_' => some '\u00a0'
  | 'L' => some '\u2028'
  | 'P' => some '\u2029'
  | _ => none

/-- How many hexadecimal digits follow a letter behind a backslash. -/
def escapeDigits? : Char → Option Nat
  | 'x' => some 2
  | 'u' => some 4
  | 'U' => some 8
  | _ => none

/-- What was read of a quoted scalar up to a blank, a line end or the closing quote. -/
structure QuotedWord where
  text : List Char
  rest : List Char
  /-- Whether it ends with a line end behind a backslash. -/
  joined : Bool

def quotedWord (quote : Char) : Nat → List Char → Option QuotedWord
  | 0, _ => none
  | _, [] => some ⟨[], [], false⟩
  | fuel + 1, c :: cs =>
      let keep (x : Char) (rest : List Char) : Option QuotedWord :=
        (quotedWord quote fuel rest).map fun w => { w with text := x :: w.text }
      if isSpace c then some ⟨[], c :: cs, false⟩
      else if c = quote then
        match quote, cs with
        -- Between single quotes a quote is written twice.
        | '\'', '\'' :: rest => keep '\'' rest
        | _, _ => some ⟨[], c :: cs, false⟩
      else if c = '\\' && quote = '"' then
        match cs with
        | [] => none
        | e :: rest =>
            if isLineEnd e then some ⟨[], rest, true⟩
            else
              match simpleEscape? e, escapeDigits? e with
              | some x, _ => keep x rest
              | none, some n => do
                  let v ← hexNumber? n rest
                  let x ← Text.characterOf? v
                  keep x (rest.drop n)
              | none, none => none
      else keep c cs

def quotedFrom (quote : Char) : Nat → Cursor → Option (List Char × Cursor)
  | 0, _ => none
  | fuel + 1, c =>
      if c.atDocumentMark || c.rest.isEmpty then none
      else do
        let w ← quotedWord quote (c.rest.length + 1) c.rest
        let c := c.moveTo w.rest
        if c.head? = some quote then pure (w.text, c.next)
        else
          let start : Gap := if w.joined then ⟨[], ['\n']⟩ else {}
          let (gap, rest) ← readGap 0 c.rest c.column start
          let (more, c) ← quotedFrom quote fuel (c.moveTo rest)
          -- A line end behind a backslash vanishes with the blanks of the next line.
          let between := if w.joined then gap.lineEnds.drop 1 else gap.folded
          pure (w.text ++ between ++ more, c)

def Cursor.quoted? (c : Cursor) (quote : Char) : Option (List Char × Cursor) :=
  quotedFrom quote (c.rest.length + 1) c

/-! ## Block scalars -/

/-- What becomes of the line ends behind the last line. -/
inductive Chomping where
  /-- None is kept. -/
  | strip
  /-- One is kept. -/
  | clip
  /-- All are kept. -/
  | keep
deriving DecidableEq, Repr

/-- The marks of a block scalar, in either order: how it is chomped, and by how much its lines are
indented. -/
def blockMarks? (cs : List Char) : Option (Chomping × Option Nat × List Char) :=
  let chomping? : List Char → Option Chomping × List Char
    | '+' :: cs => (some .keep, cs)
    | '-' :: cs => (some .strip, cs)
    | cs => (none, cs)
  let indent? : List Char → Option (Option Nat × List Char)
    | d :: cs =>
        if d.isDigit then if d = '0' then none else some (some (Text.digitValue d), cs)
        else some (none, d :: cs)
    | [] => some (none, [])
  match chomping? cs with
  | (some k, cs) => (indent? cs).map fun (n, cs) => (k, n, cs)
  | (none, cs) => do
      let (n, cs) ← indent? cs
      match n with
      | none => pure (.clip, none, cs)
      | some n =>
          let (k, cs) := chomping? cs
          pure (k.getD .clip, some n, cs)

/-- What was read of the empty lines in front of a line of a block scalar. -/
structure Margin where
  lineEnds : List Char
  /-- The column of the greatest indentation. -/
  widest : Nat
  rest : List Char

/-- Reads empty lines and the indentation behind them, of `indent` blanks at most.  A tab inside it
is refused. -/
def readMargin (indent : Option Nat) : List Char → Nat → Nat → List Char → Option Margin
  | [], column, widest, ends => some ⟨ends, max widest column, []⟩
  | c :: cs, column, widest, ends =>
      let inside := indent.all (column < ·)
      if c = ' ' && inside then readMargin indent cs (column + 1) widest ends
      else if c = '\t' && inside then none
      else if isLineEnd c then readMargin indent cs 0 (max widest column) (ends ++ [c])
      else some ⟨ends, max widest column, c :: cs⟩

/-- What goes between two lines of a block scalar: the end of the first, unless it is folded into
a blank, and those of the empty lines. -/
def lineJoint (folds : Bool) (ends empties : List Char) (blankBefore blankHere : Bool) :
    List Char :=
  if folds && ends.head? = some '\n' && !blankBefore && !blankHere then
    if empties.isEmpty then [' '] else empties
  else ends ++ empties

/-- Reads the lines of a block scalar, `ends` being the end of the line before and `empties` those
of the empty lines since. -/
def blockLines (folds : Bool) (chomping : Chomping) (indent : Nat) :
    Nat → Cursor → List Char → List Char → Bool → Option (List Char × Cursor)
  | 0, _, _, _, _ => none
  | fuel + 1, c, ends, empties, blankBefore =>
      if c.column = indent && !c.rest.isEmpty then do
        let blankHere := c.head?.any isGap
        let joint := lineJoint folds ends empties blankBefore blankHere
        let line := c.rest.takeWhile fun x => !isLineEnd x
        let c := c.skip line.length
        let ends := (c.rest.take 1)
        let c := c.skip ends.length
        let m ← readMargin (some indent) c.rest c.column 0 []
        let (more, c) ← blockLines folds chomping indent fuel (c.moveTo m.rest) ends m.lineEnds
          blankHere
        pure (joint ++ line ++ more, c)
      else
        -- What is behind the last line is up to the chomping.
        let tail :=
          match chomping with
          | .strip => []
          | .clip => ends
          | .keep => ends ++ empties
        some (tail, c)

/-- Reads a block scalar from behind its first mark.  `parent` is the indentation of what it stands
in, counted from -1. -/
def Cursor.block? (c : Cursor) (folds : Bool) (parent : Int) : Option (List Char × Cursor) := do
  let (chomping, increment, rest) ← blockMarks? c.rest
  let c := (c.moveTo rest).skipWhile isGap
  let c := if c.head? = some '#' then c.skipWhile fun x => !isLineEnd x else c
  if !(c.head?.all isLineEnd) then none
  let c := c.next
  let given := increment.map fun n => if 0 ≤ parent then parent.toNat + n else n
  let m ← readMargin given c.rest c.column 0 []
  -- Without a mark the first line that is not empty shows the indentation.
  let indent := given.getD (max m.widest (max (parent + 1).toNat 1))
  blockLines folds chomping indent (c.rest.length + 1) (c.moveTo m.rest) [] m.lineEnds false

end Yaml
end Casework
