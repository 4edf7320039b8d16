import Casework.Yaml.Scalar

/-!
# Tags

What a node says about its kind, in front of its content: `!!int`, `!invoice` or
`!<tag:yaml.org,2002:int>`.

* `Tag` : a tag that is written out;
* `Tag.isPrivate`, `Tag.isLocal` : tags that belong to an application;
* `TagMark` : a tag as it is written, with an abbreviation in front;
* `Tag.readUri?`, `TagMark.readVerbatim?`, `TagMark.readShort?` : reading.

A percent sign and two hexadecimal digits stand for a byte.  Escaped bytes must look like those of
a character, but nobody checks that there is such a character, so a tag is made of bytes and need
not be a text.  A zero byte ends each part of a tag.
-/

namespace Casework
namespace Yaml

def isNameChar (c : Char) : Bool :=
  c.isAlphanum || c = '_' || c = '-'

structure Tag where
  bytes : List UInt8
deriving DecidableEq, Repr

/-- A tag as it is written: the abbreviation in front, and the rest. -/
structure TagMark where
  handle : String
  suffix : List UInt8
deriving DecidableEq, Repr

namespace Tag

def ofString (name : String) : Tag := ⟨name.toUTF8.toList⟩

def mark : UInt8 := 0x21

/-- The tag that asks for a scalar to be read as if it had none. -/
def none : Tag := ⟨[mark]⟩

def isPrivate (t : Tag) : Bool :=
  t.bytes.head? = some mark

/-- Whether a tag names a kind of one application, which a text does. -/
def isLocal (t : Tag) : Bool :=
  t.isPrivate && (String.fromUTF8? (ByteArray.mk (t.bytes.drop 1).toArray)).isSome

/-! ## Escapes -/

/-- How many bytes follow the first one of a character; none if no character begins with it. -/
def followers? (b : UInt8) : Option Nat :=
  if b < 0x80 then some 0
  else if b < 0xC0 then .none
  else if b < 0xE0 then some 1
  else if b < 0xF0 then some 2
  else if b < 0xF8 then some 3
  else .none

/-- The byte that a percent sign and two digits stand for. -/
def readEscape? : List Char → Option (UInt8 × List Char)
  | '%' :: cs => (hexNumber? 2 cs).map fun n => (n.toUInt8, cs.drop 2)
  | _ => .none

/-- So many escaped bytes that may follow the first one of a character. -/
def readFollowers? : Nat → List Char → Option (List UInt8 × List Char)
  | 0, cs => some ([], cs)
  | n + 1, cs => do
      let (b, cs) ← readEscape? cs
      if b < 0x80 || 0xC0 ≤ b then .none
      let (bs, cs) ← readFollowers? n cs
      pure (b :: bs, cs)

def readEscaped? (cs : List Char) : Option (List UInt8 × List Char) := do
  let (b, cs) ← readEscape? cs
  let n ← followers? b
  let (bs, cs) ← readFollowers? n cs
  pure (b :: bs, cs)

/-! ## Characters of a tag -/

/-- Whether a character may stand in the suffix of a tag. -/
def isTagChar (c : Char) : Bool :=
  isNameChar c || ";/?:@&=+$.!~*'()".toList.contains c

/-- Whether a character may stand in a tag that is written out. -/
def isUriChar (c : Char) : Bool :=
  isTagChar c || c = ',' || c = '[' || c = ']'

/-- Reads the characters of a tag, all of which are ASCII. -/
def readUri? (p : Char → Bool) : Nat → List Char → Option (List UInt8 × List Char)
  | fuel + 1, c :: cs =>
      if c = '%' then do
        let (bytes, rest) ← readEscaped? (c :: cs)
        let (more, rest) ← readUri? p fuel rest
        pure (bytes ++ more, rest)
      else if p c then do
        let (more, rest) ← readUri? p fuel cs
        pure (c.toNat.toUInt8 :: more, rest)
      else some ([], c :: cs)
  | _, cs => some ([], cs)

def part (bytes : List UInt8) : List UInt8 :=
  bytes.takeWhile (· ≠ 0)

def nameBytes (name : List Char) : List UInt8 :=
  name.map fun c => c.toNat.toUInt8

/-- The tag that a suffix stands for behind what its abbreviation stands for. -/
def join (expansion suffix : List UInt8) : Tag :=
  ⟨expansion ++ suffix⟩

end Tag

namespace TagMark

/-- Reads a tag that is written out, from behind its angle bracket. -/
def readVerbatim? (cs : List Char) : Option (TagMark × List Char) := do
  let (uri, rest) ← Tag.readUri? Tag.isUriChar (cs.length + 1) cs
  match uri, rest with
  | _ :: _, '>' :: rest => some (⟨"", Tag.part uri⟩, rest)
  | _, _ => none

/-- Reads a tag behind its exclamation mark.  Nothing but the mark makes the tag that stands for
none. -/
def readShort? (cs : List Char) : Option (TagMark × List Char) :=
  let name := cs.takeWhile isNameChar
  match cs.drop name.length with
  | '!' :: rest => do
      let (suffix, rest) ← Tag.readUri? Tag.isTagChar (rest.length + 1) rest
      if suffix.isEmpty then none
      else some (⟨String.ofList ('!' :: (name ++ ['!'])), Tag.part suffix⟩, rest)
  | rest => do
      let (more, rest) ← Tag.readUri? Tag.isTagChar (rest.length + 1) rest
      let suffix := Tag.part (Tag.nameBytes name ++ more)
      if suffix.isEmpty then some (⟨"", Tag.none.bytes⟩, rest) else some (⟨"!", suffix⟩, rest)

end TagMark
end Yaml
end Casework
