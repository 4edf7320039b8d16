import Casework.Json.Decoder
import Casework.Yaml.Core
import Casework.Yaml.Node

/-!
# Nodes under a shape

Scalars carry no type of their own: `1.0` is a text where a text is wanted and a number where a
number is.  So a node becomes a document value only under the shape that a decoder expects.

* `Schema.core`, `Schema.mayBeNull` : a shape without the leave to be null, and that leave;
* `Node.scalarValue?` : a scalar under a shape;
* `Node.value` : a node under a shape, with the nodes that aliases stand for;
* `Document.value?` : a document under a shape; none if it does not fit.

Entries of a record that belong to no field are left out unseen.  Aliases are followed a hundred
times for every part of a document at most, so a small text cannot stand for a huge value.
-/

namespace Casework

namespace Schema

/-- The shape without the leave to be null. -/
def core : Schema → Schema
  | .option inner => inner.core
  | s => s

/-- Whether null fits the shape. -/
def mayBeNull : Schema → Bool
  | .option _ => true
  | _ => false

def field? (fields : List (List String × Schema)) (name : String) : Option Schema :=
  (fields.find? fun f => f.1.contains name).map (·.2)

end Schema

namespace Yaml

/-! ## Tags -/

namespace CoreTag

/-- The tag of null. -/
def null : Tag := .ofString "tag:yaml.org,2002:null"

def flag : Tag := .ofString "tag:yaml.org,2002:bool"

def integer : Tag := .ofString "tag:yaml.org,2002:int"

def real : Tag := .ofString "tag:yaml.org,2002:float"

end CoreTag

def isLocalTag (tag : Option Tag) : Bool :=
  tag.any Tag.isLocal

namespace Node

/-! ## Scalars -/

/-- Whether a scalar is read by the rules for plain ones where the kind with this tag is wanted. -/
def readsAs (wanted : Tag) (style : ScalarStyle) (tag : Option Tag) : Bool :=
  style = .plain || (style = .literal && tag = some wanted)

def freeScalar? (text : String) (style : ScalarStyle) (tag : Option Tag) : Option Value :=
  if isLocalTag tag then none
  else if tag = some CoreTag.null then if Core.isNull text then some .null else none
  else if tag = some CoreTag.flag then (Core.flag? text).map .bool
  else if tag = some CoreTag.integer then (Core.integerValue? text).join
  else if tag = some CoreTag.real then Core.realValue? text
  else if tag.all Tag.isPrivate && style = .plain then Core.value? text
  else some (.str text)

/-- Whether a scalar stands for null where null may stand; none if its tag says so and its text
does not. -/
def missing? (text : String) (style : ScalarStyle) (tag : Option Tag) : Option Bool :=
  if style ≠ .plain then some false
  else if tag = some CoreTag.null then if Core.isNull text then some true else none
  else if tag.isSome then some false
  else some (text.isEmpty || Core.isNull text)

/-- A scalar under a shape that is not null.  One that is empty stands for an empty collection. -/
def presentScalar? (s : Schema) (text : String) (style : ScalarStyle) (tag : Option Tag) :
    Option Value :=
  let isEmpty := text.isEmpty && style = .plain
  match s with
  | .text => some (.str text)
  | .flag => if readsAs CoreTag.flag style tag then (Core.flag? text).map .bool else none
  | .count =>
      if readsAs CoreTag.integer style tag then
        match Core.integer? text with
        | some n => if !text.startsWith "-" && Core.isNarrow n then some (.int n) else none
        | none => none
      else none
  | .number =>
      if readsAs CoreTag.real style tag then (Core.real? text).map .float else none
  | .free => freeScalar? text style tag
  | .list _ => if isEmpty then some (.arr []) else none
  | .table | .record _ => if isEmpty then some (.obj []) else none
  | .option _ => none

def scalarValue? (s : Schema) (text : String) (style : ScalarStyle) (tag : Option Tag) :
    Option Value :=
  if s.mayBeNull then
    match missing? text style tag with
    | none => none
    | some true => some .null
    | some false => presentScalar? s.core text style tag
  else presentScalar? s text style tag

/-! ## Aliases -/

/-- Reads nodes while so many aliases may still be followed, or fails. -/
abbrev Reading := StateT Nat Option

/-- The node itself, or what it stands for if it is an alias. -/
def follow (targets : List (Nat × Node)) : Node → Reading Node
  | .alias number => do
      match ← get, targets.lookup number with
      | left + 1, some n =>
          set left
          return n
      | _, _ => failure
  | n => return n

/-! ## Collections -/

def keyText (targets : List (Nat × Node)) (n : Node) : Reading String := do
  match ← follow targets n with
  | .scalar text _ _ => return text
  | _ => failure

/-- The entries of a mapping, their values read one by one. -/
def entriesWith (key : Node → Reading String) (f : Node → Reading Value) :
    List (Node × Node) → Reading Fields
  | [] => return []
  | (k, v) :: rest => do
      let name ← key k
      let value ← f v
      return (name, value) :: (← entriesWith key f rest)

/-- The entries of a mapping that belong to fields of a record. -/
def fieldsWith (key : Node → Reading String) (f : Schema → Node → Reading Value)
    (fields : List (List String × Schema)) : List (Node × Node) → Reading Fields
  | [] => return []
  | (k, v) :: rest => do
      let name ← key k
      match Schema.field? fields name with
      -- What belongs to no field is not looked at, so it may be anything.
      | none => fieldsWith key f fields rest
      | some s =>
          let value ← f s v
          return (name, value) :: (← fieldsWith key f fields rest)

/-- A node under a shape, with at most `depth` collections nested in each other. -/
def value (targets : List (Nat × Node)) : Nat → Schema → Node → Reading Value
  | 0, s, n => do
      match ← follow targets n with
      | .scalar text style tag => liftM (scalarValue? s text style tag)
      | _ => failure
  | depth + 1, s, n => do
      match ← follow targets n, s.core with
      | .scalar text style tag, _ => liftM (scalarValue? s text style tag)
      | .sequence items _, .list inner => return .arr (← items.mapM (value targets depth inner))
      | .sequence items tag, .free =>
          if isLocalTag tag then failure
          else return .arr (← items.mapM (value targets depth .free))
      | .mapping entries _, .record fields =>
          return .obj (← fieldsWith (keyText targets) (value targets depth) fields entries)
      | .mapping entries _, .table =>
          return .obj (← entriesWith (keyText targets) (value targets depth .free) entries)
      | .mapping entries tag, .free =>
          if isLocalTag tag then failure
          else return .obj (← entriesWith (keyText targets) (value targets depth .free) entries)
      | _, _ => failure

end Node

namespace Document

def nestingLimit : Nat := 128

/-- How many aliases may be followed for every part of a document. -/
def aliasLimit : Nat := 100

/-- A document under a shape; one without anything in it stands for what an empty scalar does. -/
def value? (d : Document) (s : Schema) : Option Value :=
  let root := d.root.getD .nothing
  (Node.value d.targets nestingLimit s root).run' (aliasLimit * root.size)

end Document
end Yaml
end Casework
