import Casework.Yaml.Token

/-!
# Nodes

The tree that a text stands for.

* `Node` : scalars, sequences, mappings and aliases;
* `Document` : the tree with the nodes that aliases stand for;
* `Document.ofTokens?` : the only document among the tokens; none if they are not in order.

A node with an anchor gets the number of names that were given before, and an alias has the number
that its name has then.  A name that is given again counts once, so a number can be given twice;
it stands for the node that began last.
-/

namespace Casework
namespace Yaml

inductive Node where
  | scalar (text : String) (style : ScalarStyle) (tag : Option Tag)
  | sequence (items : List Node) (tag : Option Tag)
  | mapping (entries : List (Node × Node)) (tag : Option Tag)
  /-- The node with a number. -/
  | alias (number : Nat)
deriving Repr, Inhabited

namespace Node

def nothing : Node := .scalar "" .plain none

/-- What is left of the tokens, and what names stand for. -/
structure Remaining where
  tokens : List Token
  /-- The numbers of names. -/
  numbers : List (String × Nat) := []
  /-- The numbers of the nodes with an anchor, the latest first. -/
  anchored : List Nat := []
  /-- The nodes with an anchor that are complete, by how many began before. -/
  complete : List (Nat × Node) := []
  /-- Abbreviations of tags. -/
  handles : List (String × List UInt8) := []

/-- Takes tokens in order, or fails. -/
abbrev Build := StateT Remaining Option

namespace Build

def peek : Build (Option Token) := do
  return (← get).tokens.head?

def drop : Build Unit :=
  modify fun s => { s with tokens := s.tokens.drop 1 }

def expect (t : Token) : Build Unit := do
  if (← peek) = some t then drop else failure

/-- Passes over a token if it comes, and says whether it does. -/
def skipIf (t : Token) : Build Bool := do
  if (← peek) = some t then
    drop
    return true
  else return false

def sees (ts : List Token) : Build Bool := do
  return (← peek).any ts.contains

/-- Begins a node with an anchor, and says how many began before. -/
def beginAnchored (name : String) : Build Nat := do
  let s ← get
  let others := s.numbers.filter fun e => e.1 != name
  set { s with
    numbers := (name, s.numbers.length) :: others
    anchored := s.numbers.length :: s.anchored }
  return s.anchored.length

def endAnchored (place : Nat) (n : Node) : Build Unit :=
  modify fun s => { s with complete := (place, n) :: s.complete }

def aliasNamed (name : String) : Build Node := do
  match (← get).numbers.lookup name with
  | some number => return .alias number
  | none => failure

def expand (t : TagMark) : Build Tag := do
  if t.handle.isEmpty then return ⟨t.suffix⟩
  else
    match (← get).handles.lookup t.handle with
    | some e => return .join e t.suffix
    | none => failure

def properties : Build (Option String × Option Tag) := do
  match ← peek with
  | some (.anchor a) =>
      drop
      match ← peek with
      | some (.tag t) =>
          drop
          return (some a, some (← expand t))
      | _ => return (some a, none)
  | some (.tag t) =>
      drop
      let tag ← expand t
      match ← peek with
      | some (.anchor a) =>
          drop
          return (some a, some tag)
      | _ => return (none, some tag)
  | _ => return (none, none)

end Build

open Build

inductive Place where
  /-- Outside brackets. -/
  | block
  /-- Outside brackets, where dashes need no deeper indentation. -/
  | blockEntry
  /-- Inside brackets. -/
  | flow
deriving DecidableEq

mutual

def node (place : Place) : Nat → Build Node
  | 0 => failure
  | fuel + 1 => do
      match ← peek with
      | some (.alias a) =>
          drop
          aliasNamed a
      | _ =>
          let (anchor, tag) ← properties
          match anchor with
          | none => content place tag.isSome tag fuel
          | some a =>
              let began ← beginAnchored a
              let n ← content place true tag fuel
              endAnchored began n
              return n

/-- A node without its properties.  Where there are some, it may be missing. -/
def content (place : Place) (mayMiss : Bool) (tag : Option Tag) : Nat → Build Node
  | 0 => failure
  | fuel + 1 => do
      match ← peek, place with
      | some .blockEntry, .blockEntry => return .sequence (← dashes true fuel) tag
      | some (.scalar text style), _ =>
          drop
          return .scalar text style (tag.filter (· ≠ .none))
      | some .flowSequenceStart, _ =>
          drop
          return .sequence (← flowItems true fuel) tag
      | some .flowMappingStart, _ =>
          drop
          return .mapping (← flowEntries true fuel) tag
      | some .blockSequenceStart, .block | some .blockSequenceStart, .blockEntry =>
          drop
          return .sequence (← dashes false fuel) tag
      | some .blockMappingStart, .block | some .blockMappingStart, .blockEntry =>
          drop
          return .mapping (← blockEntries fuel) tag
      | _, _ => if mayMiss then return .scalar "" .plain tag else failure

def nodeUnless (place : Place) (ends : List Token) : Nat → Build Node
  | 0 => failure
  | fuel + 1 => do
      if ← sees ends then return nothing
      node place fuel

/-- Items behind dashes, up to the end of the collection or, if it has no end of its own, up to
something else. -/
def dashes (bare : Bool) : Nat → Build (List Node)
  | 0 => failure
  | fuel + 1 => do
      if ← skipIf .blockEntry then
        let ends : List Token :=
          if bare then [.blockEntry, .key, .value, .blockEnd] else [.blockEntry, .blockEnd]
        let n ← nodeUnless .block ends fuel
        return n :: (← dashes bare fuel)
      else if bare then return []
      else
        expect .blockEnd
        return []

def blockEntries : Nat → Build (List (Node × Node))
  | 0 => failure
  | fuel + 1 => do
      let ends : List Token := [.key, .value, .blockEnd]
      if ← skipIf .key then
        let k ← nodeUnless .blockEntry ends fuel
        let v ← if ← skipIf .value then nodeUnless .blockEntry ends fuel else pure nothing
        return (k, v) :: (← blockEntries fuel)
      else
        expect .blockEnd
        return []

/-- Items of a sequence inside brackets.  A key among them makes a mapping of one entry.  If nothing
stands between the mark of the key and the next mark, that one is passed over. -/
def flowItems (first : Bool) : Nat → Build (List Node)
  | 0 => failure
  | fuel + 1 => do
      if ← skipIf .flowSequenceEnd then return []
      unless first do expect .flowEntry
      -- A key in brackets without braces stands for a mapping with this one entry.
      if ← skipIf .key then
        let k ←
          if ← sees [.value, .flowEntry, .flowSequenceEnd] then
            drop
            pure nothing
          else node .flow fuel
        let v ←
          if ← skipIf .value then nodeUnless .flow [.flowEntry, .flowSequenceEnd] fuel
          else pure nothing
        return .mapping [(k, v)] none :: (← flowItems false fuel)
      else if ← skipIf .flowSequenceEnd then return []
      else
        let n ← node .flow fuel
        return n :: (← flowItems false fuel)

def flowEntries (first : Bool) : Nat → Build (List (Node × Node))
  | 0 => failure
  | fuel + 1 => do
      if ← skipIf .flowMappingEnd then return []
      unless first do expect .flowEntry
      if ← skipIf .key then
        let k ← nodeUnless .flow [.value, .flowEntry, .flowMappingEnd] fuel
        let v ←
          if ← skipIf .value then nodeUnless .flow [.flowEntry, .flowMappingEnd] fuel
          else pure nothing
        return (k, v) :: (← flowEntries false fuel)
      else if ← skipIf .flowMappingEnd then return []
      else
        let k ← node .flow fuel
        return (k, nothing) :: (← flowEntries false fuel)

end

/-! ## Documents -/

def standardHandles : List (String × List UInt8) :=
  [("!", Tag.none.bytes), ("!!", (Tag.ofString "tag:yaml.org,2002:").bytes)]

/-- Directives in front of a document: one version at most, each abbreviation once. -/
def directives : Nat → Bool → Build Unit
  | 0, _ => failure
  | fuel + 1, versioned => do
      match ← peek with
      | some (.versionDirective major minor) =>
          if versioned || major ≠ 1 || (minor ≠ 1 && minor ≠ 2) then failure
          drop
          directives fuel true
      | some (.tagDirective handle expansion) =>
          if ((← get).handles.lookup handle).isSome then failure
          modify fun s => { s with handles := (handle, expansion) :: s.handles }
          drop
          directives fuel versioned
      | _ => return ()

def seesDirective : Build Bool := do
  match ← peek with
  | some (.versionDirective _ _) | some (.tagDirective _ _) => return true
  | _ => return false

/-- The root of the only document; none if there is no document or nothing in it. -/
def document (fuel : Nat) : Build (Option Node) := do
  if (← peek).isNone then return none
  let directed ← seesDirective
  let marked ← sees [.documentStart]
  directives fuel false
  modify fun s => { s with handles := s.handles ++ standardHandles }
  if !(directed || marked) then return some (← node .block fuel)
  expect .documentStart
  let upcoming ← peek
  let next ← sees [.documentStart, .documentEnd]
  let directedNext ← seesDirective
  if upcoming.isNone || next || directedNext then return none
  return some (← node .block fuel)

def ending (ts : List Token) : Bool :=
  ts.all fun t => t = .documentEnd

mutual

/-- How many parts a node has: one for a scalar or an alias, two for a collection and those of what
is in it. -/
def size : Node → Nat
  | .scalar _ _ _ | .alias _ => 1
  | .sequence items _ => 2 + sizeOfItems items
  | .mapping entries _ => 2 + sizeOfEntries entries

def sizeOfItems : List Node → Nat
  | [] => 0
  | n :: rest => n.size + sizeOfItems rest

def sizeOfEntries : List (Node × Node) → Nat
  | [] => 0
  | (k, v) :: rest => k.size + v.size + sizeOfEntries rest

end

/-- The nodes that numbers stand for, the one that began last first. -/
def targets (s : Remaining) : List (Nat × Node) :=
  go s.anchored
where
  /-- The nodes with these numbers, the latest first. -/
  go : List Nat → List (Nat × Node)
    | [] => []
    | number :: earlier =>
        match s.complete.lookup earlier.length with
        | some n => (number, n) :: go earlier
        | none => go earlier

end Node

/-- A document: its root, if there is something in it, and what numbers stand for. -/
structure Document where
  root : Option Node
  targets : List (Nat × Node)

/-- The only document among the tokens; none if the tokens are not in order or there are several
documents. -/
def Document.ofTokens? (ts : List Token) : Option Document := do
  let (root, left) ← (Node.document (4 * ts.length + 8)).run { tokens := ts }
  if Node.ending left.tokens then some ⟨root, Node.targets left⟩ else none

end Yaml
end Casework
