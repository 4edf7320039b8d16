import Casework.Pattern.Sets
import Casework.Text.Letters

/-!
# Reading patterns

A pattern is a choice between sequences of parts: characters, sets, groups, edges, and parts that
are repeated.

* `Opening`, `State.readOpening?` : what stands behind a parenthesis;
* `State.read?` : the parts of a pattern or of a group;
* `shape?` : the shape of a pattern, if it can be read;
* `fault?` : why a pattern cannot be used, if it cannot.

Modes can be changed in a pattern.  A change lasts to the end of the group that it is in, and it is
no part that could be repeated.
-/

namespace Casework
namespace Pattern

/-! ## Groups -/

/-- What is between a reader and the end of a pattern. -/
structure State where
  rest : List Char
  modes : Modes
  /-- The names of groups so far. -/
  names : List (List Char)
deriving DecidableEq, Repr

inductive Opening where
  /-- A change of modes, and nothing else in the group. -/
  | change
  | group
deriving DecidableEq, Repr

def isName : List Char → Bool
  | [] => false
  | c :: cs =>
      (c = '_' || Text.isLetter c)
        && cs.all fun c => c = '_' || c = '.' || c = '[' || c = ']' || Text.isAlphanumeric c

/-- Whether a text lists modes: each once, and those behind the hyphen are turned off. -/
def isModeList (cs : List Char) : Bool :=
  cs.all "imsUuRx-".toList.contains && cs.Nodup && cs.getLast? ≠ some '-'

def switched (letter : Char) (cs : List Char) (was : Bool) : Bool :=
  if (cs.takeWhile (· ≠ '-')).contains letter then true else was && !cs.contains letter

def Modes.changed (m : Modes) (cs : List Char) : Modes :=
  ⟨switched 'u' cs m.unicode, switched 'x' cs m.spaced⟩

namespace State

/-- Reads the name of a group from behind its angle bracket. -/
def readName? (st : State) (cs : List Char) : Option State :=
  let name := cs.takeWhile (· ≠ '>')
  match cs.drop name.length with
  | '>' :: rest =>
      if isName name && !st.names.contains name then
        some { st with rest, names := name :: st.names }
      else none
  | _ => none

def readModes? (st : State) (cs : List Char) : Option (Opening × State) :=
  let list := cs.takeWhile fun c => c ≠ ':' && c ≠ ')'
  let after : State := { st with modes := st.modes.changed list, rest := cs.drop (list.length + 1) }
  if !isModeList list then none
  else
    match cs.drop list.length with
    | ':' :: _ => some (.group, after)
    | ')' :: _ => if list.isEmpty then none else some (.change, after)
    | _ => none

/-- Reads what stands behind a parenthesis.  No group can look ahead or behind. -/
def readOpening? (st : State) : Option (Opening × State) :=
  match st.modes.skip st.rest with
  | '?' :: cs =>
      match cs with
      | 'P' :: '<' :: cs => (st.readName? cs).map fun st => (.group, st)
      | '<' :: cs => (st.readName? cs).map fun st => (.group, st)
      | cs => st.readModes? cs
  | rest => some (.group, { st with rest })

end State

/-! ## Parts -/

inductive Part where
  | change
  | piece (s : Shape)
deriving DecidableEq, Repr

def Part.shape : Part → Shape
  | .change => .atom
  | .piece s => s

/-- The shape of a sequence of parts, the last one first. -/
def sequence (parts : List Part) : Shape :=
  Shape.joined (parts.map Part.shape)

/-- What follows the mark that makes a repetition as short as can be. -/
def afterShortest : List Char → List Char
  | '?' :: cs => cs
  | cs => cs

/-- Reads a character, an escape or a mark outside of sets. -/
def Modes.readPiece? (m : Modes) : List Char → Option (Shape × List Char)
  | [] => none
  | c :: cs =>
      if c = '\\' then
        (m.readEscape? cs).map fun
          | (.edge true, cs) => (if m.unicode then .wordEdge else .atom, cs)
          | (_, cs) => (.atom, cs)
      -- A number of repetitions would end with the brace that ends the pattern.
      else if c = '\x7b' then none
      else if c = '.' && !m.unicode then none
      else some (.atom, cs)

namespace State

/-- Reads up to the end of a group or of the pattern, some of whose sequences have been read, and
some parts of the next one. -/
def read? : Nat → List Shape → List Part → State → Option (Shape × State)
  | 0, _, _, _ => none
  | fuel + 1, sequences, parts, st =>
      match st.modes.skip st.rest with
      | [] => some (Shape.joined (sequence parts :: sequences), { st with rest := [] })
      | c :: cs =>
          if c = ')' then
            some (Shape.joined (sequence parts :: sequences), { st with rest := c :: cs })
          else if c = '|' then
            read? fuel (sequence parts :: sequences) [] { st with rest := cs }
          else if c = '(' then do
            match ← readOpening? { st with rest := cs } with
            | (.change, inner) => read? fuel sequences (.change :: parts) inner
            | (.group, inner) =>
                let (s, inner) ← read? fuel [] [] inner
                match inner.rest with
                | [] => none
                | _ :: rest =>
                    read? fuel sequences (.piece (.nested [s]) :: parts)
                      { inner with rest, modes := st.modes }
          else if c = '[' then do
            let (s, rest) ← st.modes.readSet? cs
            read? fuel sequences (.piece s :: parts) { st with rest }
          else if c = '?' || c = '*' || c = '+' then
            match parts with
            | .piece s :: parts =>
                read? fuel sequences (.piece (.nested [s]) :: parts)
                  { st with rest := afterShortest cs }
            | _ => none
          else do
            let (s, rest) ← st.modes.readPiece? (c :: cs)
            read? fuel sequences (.piece s :: parts) { st with rest }

end State

/-- The shape of a pattern, if it can be read. -/
def shape? (cs : List Char) : Option Shape := do
  let (s, st) ← State.read? (cs.length + 1) [] [] ⟨cs, .initial, []⟩
  if st.rest.isEmpty then pure s else none

/-- Why a text is no pattern that can be used, if it is none. -/
def fault? (cs : List Char) : Option Fault :=
  match shape? cs with
  | none => some .malformed
  | some s => s.fault?

end Pattern
end Casework
