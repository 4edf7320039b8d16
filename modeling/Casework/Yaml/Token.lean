import Casework.Yaml.Tag

/-!
# Tokens

A text as the sequence of its tokens.  Indentation shows in tokens of its own: a collection begins
where a line is indented deeper than the one around it, and ends where one is less.

* `Token` : the tokens;
* `Reader` : where reading stands, with the open indentations and the places that may turn out to
  begin a key;
* `Token.read?` : all tokens of a text; none if it is no sequence of tokens.

That a scalar is a key shows only at the colon behind it.  Then the token for a key is put in front
of the scalar, which must stand on the same line and at most 1024 bytes before.
-/

namespace Casework
namespace Yaml

inductive ScalarStyle where
  | plain
  /-- Between single or double quotes. -/
  | quoted
  /-- In indented lines that are kept apart. -/
  | literal
  /-- In indented lines that are joined. -/
  | folded
deriving DecidableEq, Repr

inductive Token where
  /-- A version that the text claims to be written in. -/
  | versionDirective (major minor : Nat)
  /-- What an abbreviation stands for. -/
  | tagDirective (handle : String) (expansion : List UInt8)
  | documentStart
  | documentEnd
  | blockSequenceStart
  | blockMappingStart
  | blockEnd
  | flowSequenceStart
  | flowSequenceEnd
  | flowMappingStart
  | flowMappingEnd
  | blockEntry
  | flowEntry
  | key
  | value
  | alias (name : String)
  | anchor (name : String)
  | tag (mark : TagMark)
  | scalar (text : String) (style : ScalarStyle)
deriving DecidableEq, Repr

/-- A place that may turn out to begin a key. -/
structure KeyPlace where
  /-- Whether nothing but a key can stand there. -/
  required : Bool
  /-- How many tokens are in front. -/
  position : Nat
  line : Nat
  column : Nat
  index : Nat
deriving Repr

structure Reader where
  cursor : Cursor
  tokens : Array Token := #[]
  /-- How many brackets are open. -/
  flowLevel : Nat := 0
  /-- The column of the innermost open collection outside brackets; -1 if none is open. -/
  indent : Int := -1
  /-- The columns of the collections around it. -/
  indents : List Int := []
  /-- Whether a key may begin here. -/
  keyAllowed : Bool := true
  /-- The place, for each level of brackets, innermost first. -/
  places : List (Option KeyPlace) := [none]

namespace Reader

def emit (r : Reader) (t : Token) : Reader :=
  { r with tokens := r.tokens.push t }

def emitAt (r : Reader) (position : Nat) (t : Token) : Reader :=
  { r with tokens := r.tokens.extract 0 position ++ #[t]
      ++ r.tokens.extract position r.tokens.size }

/-- Moves behind the next `n` characters. -/
def skip (r : Reader) (n : Nat) : Reader :=
  { r with cursor := r.cursor.skip n }

def inFlow (r : Reader) : Bool := 0 < r.flowLevel

/-! ## Indentation -/

/-- Begins a collection at a column that is deeper than the one around it. -/
def openBlock (r : Reader) (column : Nat) (position : Nat) (t : Token) : Reader :=
  if !r.inFlow && r.indent < column then
    { r.emitAt position t with indent := column, indents := r.indent :: r.indents }
  else r

/-- Ends the collections of the given columns as long as they are deeper than `column`. -/
def closeBlocksFrom (column : Int) : Reader → List Int → Reader
  | r, [] => r
  | r, i :: rest =>
      if column < r.indent then
        closeBlocksFrom column { r.emit .blockEnd with indent := i, indents := rest } rest
      else r

def closeBlocks (r : Reader) (column : Int) : Reader :=
  if r.inFlow then r else closeBlocksFrom column r r.indents

/-! ## Keys -/

def isFresh (r : Reader) (k : KeyPlace) : Bool :=
  k.line = r.cursor.line && r.cursor.index ≤ k.index + 1024

/-- Gives up places that are too far away; none if one of them needed its key. -/
def dropStale (r : Reader) : Option Reader :=
  if r.places.any fun p => p.any fun k => !r.isFresh k && k.required then none
  else some { r with places := r.places.map fun p => p.filter r.isFresh }

/-- Gives up the place of this level; none if it needed its key. -/
def dropPlace (r : Reader) : Option Reader :=
  match r.places with
  | some k :: rest => if k.required then none else some { r with places := none :: rest }
  | _ => some r

def notePlace (r : Reader) : Option Reader :=
  if r.keyAllowed then do
    let required := !r.inFlow && r.indent = r.cursor.column
    let r ← r.dropPlace
    let k : KeyPlace :=
      ⟨required, r.tokens.size, r.cursor.line, r.cursor.column, r.cursor.index⟩
    pure { r with places := some k :: r.places.drop 1 }
  else some r

/-! ## Marks -/

def readDocumentMark (r : Reader) (t : Token) : Option Reader := do
  let r ← (r.closeBlocks (-1)).dropPlace
  pure (({ r with keyAllowed := false }.skip 3).emit t)

def readOpening (r : Reader) (t : Token) : Option Reader := do
  let r ← r.notePlace
  pure (({ r with
    flowLevel := r.flowLevel + 1, places := none :: r.places, keyAllowed := true }.skip 1).emit t)

def readClosing (r : Reader) (t : Token) : Option Reader := do
  let r ← r.dropPlace
  let r :=
    if r.inFlow then { r with flowLevel := r.flowLevel - 1, places := r.places.drop 1 } else r
  pure (({ r with keyAllowed := false }.skip 1).emit t)

def readFlowEntry (r : Reader) : Option Reader := do
  let r ← r.dropPlace
  pure (({ r with keyAllowed := true }.skip 1).emit .flowEntry)

def readBlockEntry (r : Reader) : Option Reader := do
  if !r.inFlow && !r.keyAllowed then none
  let r := r.openBlock r.cursor.column r.tokens.size .blockSequenceStart
  let r ← r.dropPlace
  pure (({ r with keyAllowed := true }.skip 1).emit .blockEntry)

def readKey (r : Reader) : Option Reader := do
  if !r.inFlow && !r.keyAllowed then none
  let r := r.openBlock r.cursor.column r.tokens.size .blockMappingStart
  let r ← r.dropPlace
  pure (({ r with keyAllowed := !r.inFlow }.skip 1).emit .key)

def readValue (r : Reader) : Option Reader := do
  let r ←
    match r.places with
    | some k :: rest =>
        -- The scalar in front was a key: its token goes before it, that of the mapping before both.
        let r := (r.emitAt k.position .key).openBlock k.column k.position .blockMappingStart
        some { r with places := none :: rest, keyAllowed := false }
    | _ =>
        if !r.inFlow && !r.keyAllowed then none
        else
          let r := r.openBlock r.cursor.column r.tokens.size .blockMappingStart
          some { r with keyAllowed := !r.inFlow }
  pure ((r.skip 1).emit .value)

/-! ## Names and tags -/

def followsName (c : Char) : Bool :=
  isSpace c || c = '?' || c = ':' || c = ',' || c = ']' || c = '}' || c = '%' || c = '@' || c = '`'

def readName (r : Reader) (t : String → Token) : Option Reader := do
  let r ← r.notePlace
  let r := { r with keyAllowed := false }.skip 1
  let name := r.cursor.rest.takeWhile isNameChar
  let r := r.skip name.length
  if name.isEmpty || !(r.cursor.head?.all followsName) then none
  pure (r.emit (t (String.ofList name)))

def readTag (r : Reader) : Option Reader := do
  let r ← r.notePlace
  let (mark, rest) ←
    match r.cursor.rest with
    | '!' :: '<' :: cs => TagMark.readVerbatim? cs
    | _ :: cs => TagMark.readShort? cs
    | [] => none
  -- Inside brackets a comma may follow at once.
  let c := r.cursor.moveTo rest
  if !(c.head?.all fun x => isSpace x || (r.inFlow && x = ',')) then none
  pure ({ r with keyAllowed := false, cursor := c }.emit (.tag mark))

/-! ## Directives -/

def readNumber (cs : List Char) : Option (Nat × List Char) :=
  let ds := cs.takeWhile Char.isDigit
  if ds.isEmpty || 9 < ds.length then none
  else some (Text.digitsValue ds, cs.drop ds.length)

/-- A version, as in `1.2`. -/
def readVersion (cs : List Char) : Option (Token × List Char) := do
  let (major, cs) ← readNumber (cs.dropWhile isGap)
  match cs with
  | '.' :: cs => do
      let (minor, cs) ← readNumber cs
      pure (.versionDirective major minor, cs)
  | _ => none

def readTagDirective (cs : List Char) : Option (Token × List Char) :=
  match cs.dropWhile isGap with
  | '!' :: cs => do
      let name := cs.takeWhile isNameChar
      let (handle, cs) ←
        match cs.drop name.length with
        | '!' :: cs => some ('!' :: (name ++ ['!']), cs)
        | cs => if name.isEmpty then some (['!'], cs) else none
      if !(cs.head?.any isGap) then none
      let cs := cs.dropWhile isGap
      let (uri, cs) ← Tag.readUri? Tag.isUriChar (cs.length + 1) cs
      if uri.isEmpty || !Cursor.endsWord cs then none
      pure (.tagDirective (String.ofList handle) (Tag.part uri), cs)
  | _ => none

def readDirective (r : Reader) : Option Reader := do
  let r ← (r.closeBlocks (-1)).dropPlace
  let cs := r.cursor.rest.drop 1
  let name := String.ofList (cs.takeWhile isNameChar)
  let cs := cs.dropWhile isNameChar
  if !Cursor.endsWord cs then none
  let (t, cs) ←
    if name = "YAML" then readVersion cs
    else if name = "TAG" then readTagDirective cs
    else none
  let c := (r.cursor.moveTo cs).skipWhile isGap
  let c := if c.head? = some '#' then c.skipWhile fun x => !isLineEnd x else c
  if !(c.head?.all isLineEnd) then none
  pure ({ r with keyAllowed := false, cursor := c.next }.emit t)

/-! ## Scalars -/

def readBlockScalar (r : Reader) (style : ScalarStyle) : Option Reader := do
  let r ← r.dropPlace
  let (text, c) ← r.cursor.next.block? (style = .folded) r.indent
  pure ({ r with keyAllowed := true, cursor := c }.emit (.scalar (String.ofList text) style))

def readQuoted (r : Reader) (quote : Char) : Option Reader := do
  let r ← r.notePlace
  let (text, c) ← r.cursor.next.quoted? quote
  pure ({ r with keyAllowed := false, cursor := c }.emit (.scalar (String.ofList text) .quoted))

def readPlain (r : Reader) : Option Reader := do
  let r ← r.notePlace
  let p ← r.cursor.plain? r.inFlow (r.indent + 1).toNat
  pure ({ r with keyAllowed := p.endsLine, cursor := p.cursor }.emit
    (.scalar (String.ofList p.text) .plain))

/-! ## The next token -/

/-- Skips byte order marks at the beginning of a line, blanks, comments and line ends in front of a
token. -/
def skipToToken : Nat → Reader → Reader
  | 0, r => r
  | fuel + 1, r =>
      -- A tab where a key may begin would look like indentation.
      let mayTab := r.inFlow || !r.keyAllowed
      let c := r.cursor.skipOrderMark.skipWhile fun x => x = ' ' || (mayTab && x = '\t')
      let c := if c.head? = some '#' then c.skipWhile fun x => !isLineEnd x else c
      if c.head?.any isLineEnd then
        skipToToken fuel { r with cursor := c.next, keyAllowed := r.keyAllowed || !r.inFlow }
      else { r with cursor := c }

/-- Whether a plain scalar may begin with a character, others following. -/
def beginsPlain (inFlow : Bool) (c : Char) (rest : List Char) : Bool :=
  let mark := "-?:,[]{}#&*!|>'\"%@`".toList.contains c
  !(isSpace c || mark) || (c = '-' && !(rest.head?.any isGap))
    || (!inFlow && (c = '?' || c = ':') && !Cursor.endsWord rest)

/-- Reads the token that begins with a character, others following. -/
def readToken (r : Reader) (x : Char) (rest : List Char) : Option Reader :=
  let c := r.cursor
  -- The order is that of the indicators: what could be the beginning of plain text comes last.
  if c.column = 0 && x = '%' then r.readDirective
  else if c.atDocumentMark then
    r.readDocumentMark (if x = '-' then .documentStart else .documentEnd)
  else if x = '[' then r.readOpening .flowSequenceStart
  else if x = '{' then r.readOpening .flowMappingStart
  else if x = ']' then r.readClosing .flowSequenceEnd
  else if x = '}' then r.readClosing .flowMappingEnd
  else if x = ',' then r.readFlowEntry
  else if x = '-' && Cursor.endsWord rest then r.readBlockEntry
  else if x = '?' && (r.inFlow || Cursor.endsWord rest) then r.readKey
  else if x = ':' && (r.inFlow || Cursor.endsWord rest) then r.readValue
  else if x = '*' then r.readName .alias
  else if x = '&' then r.readName .anchor
  else if x = '!' then r.readTag
  else if x = '|' && !r.inFlow then r.readBlockScalar .literal
  else if x = '>' && !r.inFlow then r.readBlockScalar .folded
  else if x = '\'' || x = '"' then r.readQuoted x
  else if beginsPlain r.inFlow x rest then r.readPlain
  else none

def readAll : Nat → Reader → Option Reader
  | 0, _ => none
  | fuel + 1, r => do
      let r ← (skipToToken (r.cursor.rest.length + 1) r).dropStale
      let r := r.closeBlocks r.cursor.column
      match r.cursor.rest with
      | [] => (r.closeBlocks (-1)).dropPlace
      | x :: rest => do
          let r ← r.readToken x rest
          readAll fuel r

end Reader

/-- All tokens of a text; none if it is no sequence of tokens. -/
def Token.read? (text : String) : Option (List Token) := do
  let cs ← prepare? text
  let r ← Reader.readAll (cs.length + 1) { cursor := { rest := cs } }
  pure r.tokens.toList

end Yaml
end Casework
