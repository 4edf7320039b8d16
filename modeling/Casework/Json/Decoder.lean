import Casework.Json.Fault

/-!
# Decoding records

A `Decoder` turns a document value into a typed one and says which shape it expects, so that the
same decoder can be applied to documents whose scalars carry no type (`Casework.Yaml.Conform`).

* `Schema` : shapes;
* `Decoder` : a shape with its reading, and the decoders of scalars, sequences and free values;
* `Slots` : the fields of a record, combined as an applicative functor;
* `Decoder.record` : a record from a map of its fields, or from a sequence of them in order.

The entries of a map are judged in the order in which they stand: the first entry at fault is
reported, and only if there is none the first field, in order of declaration, that has no entry.
Entries that belong to no field are ignored.
-/

namespace Casework

inductive Schema where
  | text
  | flag
  | count
  | number
  | free
  | table
  | option (inner : Schema)
  | list (inner : Schema)
  /-- Each field has the spellings of its name and a shape. -/
  | record (fields : List (List String × Schema))
deriving Repr, Inhabited

/-- A reading of document values, with the shape it expects. -/
structure Decoder (α : Type) where
  schema : Schema
  decode : Value → Except Fault α

namespace Decoder

def text : Decoder String where
  schema := .text
  decode
    | .str s => .ok s
    | v => .error (.wrongType v "a string")

def flag : Decoder Bool where
  schema := .flag
  decode
    | .bool b => .ok b
    | v => .error (.wrongType v "a boolean")

def count (typeName : String) : Decoder Nat where
  schema := .count
  decode
    | .int n => if 0 ≤ n then .ok n.toNat else .error (.wrongValue (.int n) typeName)
    | v => .error (.wrongType v typeName)

/-- A binary64 number; an integer is rounded to the nearest one. -/
def number : Decoder Binary64 where
  schema := .number
  decode
    | .int n => .ok (Binary64.ofInt n)
    | .float x => .ok x
    | v => .error (.wrongType v "f64")

def free : Decoder Value where
  schema := .free
  decode v := .ok v.canonical

def table : Decoder Fields where
  schema := .table
  decode
    | .obj fields => .ok (Value.canonicalFields fields)
    | v => .error (.wrongType v "a map")

/-- A value, or null for none. -/
def option {α : Type} (d : Decoder α) : Decoder (Option α) where
  schema := .option d.schema
  decode
    | .null => .ok none
    | v => (d.decode v).map some

/-- Decodes the elements of a sequence in order. -/
def items {α : Type} (d : Decoder α) : List Value → Except Fault (List α)
  | [] => .ok []
  | v :: rest => do
      let a ← d.decode v
      let as ← items d rest
      pure (a :: as)

def list {α : Type} (d : Decoder α) : Decoder (List α) where
  schema := .list d.schema
  decode
    | .arr vs => d.items vs
    | v => .error (.wrongType v "a sequence")

def map {α β : Type} (f : α → β) (d : Decoder α) : Decoder β where
  schema := d.schema
  decode v := (d.decode v).map f

end Decoder

/-! ## The fields of a record -/

/-- Where the fields of a record are read from. -/
inductive Source where
  /-- A map, by name. -/
  | entries (fields : Fields)
  /-- A sequence, by position; the text says what was expected when it is too short. -/
  | elements (items : List Value) (expected : String)

/-- What reading some of the fields came to. -/
structure Findings (α : Type) where
  /-- The earliest entry at fault, with its position. -/
  fault : Option (Nat × Fault)
  /-- The first field without an entry that needs one. -/
  missing : Option Fault
  /-- The fields, if nothing is at fault or missing. -/
  found : Option α

namespace Findings

def earlier : Option (Nat × Fault) → Option (Nat × Fault) → Option (Nat × Fault)
  | none, b => b
  | a, none => a
  | some a, some b => if b.1 < a.1 then some b else some a

def of {α : Type} (a : α) : Findings α := ⟨none, none, some a⟩

def lacking {α : Type} (f : Fault) : Findings α := ⟨none, some f, none⟩

/-- The findings of two groups of fields, the first one declared before the second. -/
def combine {α β : Type} (a : Findings (α → β)) (b : Findings α) : Findings β where
  fault := earlier a.fault b.fault
  missing := a.missing.or b.missing
  found := a.found.bind fun f => b.found.map f

def toExcept {α : Type} (a : Findings α) (otherwise : Fault) : Except Fault α :=
  match a.fault, a.missing, a.found with
  | some (_, f), _, _ => .error f
  | none, some f, _ => .error f
  | none, none, some v => .ok v
  | none, none, none => .error otherwise

end Findings

/-- Some consecutive fields of a record. -/
structure Slots (α : Type) where
  /-- Spellings and shape of each field. -/
  shapes : List (List String × Schema)
  /-- Reads the fields, the first of which has the given index. -/
  read : Source → Nat → Findings α

namespace Slots

instance : Functor Slots where
  map f s := ⟨s.shapes, fun src i =>
    let r := s.read src i
    ⟨r.fault, r.missing, r.found.map f⟩⟩

instance : Pure Slots where
  pure a := ⟨[], fun _ _ => .of a⟩

instance : Seq Slots where
  seq f x := ⟨f.shapes ++ (x ()).shapes, fun src i =>
    (f.read src i).combine ((x ()).read src (i + f.shapes.length))⟩

/-- The entries under one of the given names, each with its position. -/
def entriesUnder (names : List String) : Nat → Fields → List (Nat × Value)
  | _, [] => []
  | n, (k, v) :: rest =>
      if names.contains k then (n, v) :: entriesUnder names (n + 1) rest
      else entriesUnder names (n + 1) rest

/-- A field decoded from its entry at position `n`. -/
def decodeAt {α : Type} (d : Decoder α) (n : Nat) (v : Value) : Findings α :=
  match d.decode v with
  | .ok a => .of a
  | .error f => ⟨some (n, f), none, none⟩

/-- A field under its name or one of the aliases.  `absent` is what its absence from a map comes
to, `short` what its absence from the end of a sequence does. -/
def field {α : Type} (name : String) (aliases : List String) (d : Decoder α)
    (absent : Findings α) (short : Option α) : Slots α where
  shapes := [(name :: aliases, d.schema)]
  read
    | .entries fields, _ =>
        match entriesUnder (name :: aliases) 0 fields with
        | [] => absent
        | (n, v) :: more =>
            let first := decodeAt d n v
            match more with
            | [] => first
            | (m, _) :: _ =>
                ⟨Findings.earlier first.fault (some (m, .duplicateField name)), none, none⟩
    | .elements items expected, i =>
        match items[i]?, short with
        | some v, _ => decodeAt d i v
        | none, some a => .of a
        | none, none => .lacking (.wrongLength i expected)

def required {α : Type} (name : String) (d : Decoder α) (aliases : List String := []) : Slots α :=
  field name aliases d (.lacking (.missingField name)) none

/-- A field that is `none` when a map has no entry for it; a sequence must have its element. -/
def optional {α : Type} (name : String) (d : Decoder α) (aliases : List String := []) :
    Slots (Option α) :=
  field name aliases d.option (.of none) none

def withDefault {α : Type} (name : String) (d : Decoder α) (default : α)
    (aliases : List String := []) : Slots α :=
  field name aliases d (.of default) (some default)

end Slots

namespace Decoder

/-- "`n` elements", in words of a message. -/
def elementsText (n : Nat) : String :=
  toString n ++ (if n = 1 then " element" else " elements")

/-- What a sequence of `n` fields is expected to be. -/
def expectedSequence (title : String) (n : Nat) : String :=
  title ++ " with " ++ elementsText n

/-- A record from a map of its fields, or from a sequence of them.  `surplus` says what was
expected of a sequence that is too long. -/
def recordWith {α : Type} (title : String) (surplus : String) (s : Slots α) : Decoder α where
  schema := .record s.shapes
  decode
    | .obj fields => (s.read (.entries fields) 0).toExcept (.wrongType (.obj fields) title)
    | .arr vs => do
        let expected := expectedSequence title s.shapes.length
        let a ← (s.read (.elements vs expected) 0).toExcept (.wrongType (.arr vs) title)
        if s.shapes.length < vs.length then .error (.wrongLength vs.length surplus) else .ok a
    | v => .error (.wrongType v title)

/-- A record that messages call `struct name`. -/
def record {α : Type} (name : String) (s : Slots α) : Decoder α :=
  recordWith ("struct " ++ name) "fewer elements in array" s

end Decoder
end Casework
