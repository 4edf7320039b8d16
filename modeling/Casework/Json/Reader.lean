import Casework.Decimal.Reading
import Casework.Json.Value
import Casework.Text.Digits

/-!
# Reading documents

The reader of the document notation: `Value.read?` takes a whole text to its value, or to `none`
when the text is no document.  A number is an integer when it has neither fraction nor exponent,
is not `-0` and fits 64 bits (signed below zero, unsigned above); any other number is a binary64
number, and one beyond the finite range is refused.  At most 127 sequences and maps may be nested.

Every function takes the characters still to be read and returns what it leaves.
-/

namespace Casework
namespace Value
namespace Reader

/-- The four characters that may stand between the parts of a document. -/
def isGap (c : Char) : Bool :=
  c == ' ' || c == '\n' || c == '\t' || c == '\r'

def skipGap (cs : List Char) : List Char :=
  cs.dropWhile isGap

def hexUnit? (a b c d : Char) : Option Nat := do
  let a ← Text.hexDigit? a
  let b ← Text.hexDigit? b
  let c ← Text.hexDigit? c
  let d ← Text.hexDigit? d
  pure (((a * 16 + b) * 16 + c) * 16 + d)

/-- The character that a letter behind a backslash stands for. -/
def unescape? : Char → Option Char
  | '"' => some '"'
  | '\\' => some '\\'
  | '/' => some '/'
  | 'b' => some '\x08'
  | 'f' => some '\x0c'
  | 'n' => some '\n'
  | 'r' => some '\r'
  | 't' => some '\t'
  | _ => none

/-- The rest of a text behind its opening quote, up to the closing one.  Control characters must
be escaped, and a character beyond 16 bits is written as a pair of surrogates or as itself. -/
def readText : List Char → Option (List Char × List Char)
  | [] => none
  | '"' :: rest => some ([], rest)
  | '\\' :: 'u' :: a :: b :: c :: d :: rest => do
      let u ← hexUnit? a b c d
      match Text.characterOf? u with
      | some ch =>
          let (cs, rest) ← readText rest
          pure (ch :: cs, rest)
      | none =>
          -- Half of a pair; the other half must follow.
          match rest with
          | '\\' :: 'u' :: e :: f :: g :: h :: rest => do
              let v ← hexUnit? e f g h
              if 0xD800 ≤ u ∧ u < 0xDC00 ∧ 0xDC00 ≤ v ∧ v < 0xE000 then
                let ch ← Text.characterOf? (0x10000 + (u - 0xD800) * 0x400 + (v - 0xDC00))
                let (cs, rest) ← readText rest
                pure (ch :: cs, rest)
              else none
          | _ => none
  | '\\' :: c :: rest => do
      let ch ← unescape? c
      let (cs, rest) ← readText rest
      pure (ch :: cs, rest)
  | c :: rest =>
      if c == '\\' || c.toNat < 0x20 then none
      else do
        let (cs, rest) ← readText rest
        pure (c :: cs, rest)

/-- Takes digits as long as the number they spell fits 64 bits; how many were taken. -/
def absorb (significand taken : Nat) : List Char → Nat × Nat
  | [] => (significand, taken)
  | c :: rest =>
      let next := 10 * significand + Text.digitValue c
      if next < Nat.pow 2 64 then absorb next (taken + 1) rest else (significand, taken)

def exponentSign : List Char → Bool × List Char
  | '-' :: rest => (true, rest)
  | '+' :: rest => (false, rest)
  | rest => (false, rest)

/-- The exponent part, if there is one: its value, and what follows it. -/
def readExponent (cs : List Char) : Option (Option Int × List Char) :=
  match cs with
  | c :: rest =>
      if c == 'e' || c == 'E' then
        let (negative, rest) := exponentSign rest
        let ds := rest.takeWhile Char.isDigit
        if ds.isEmpty then none
        else
          let n : Int := Text.digitsValue ds
          some (some (if negative then -n else n), rest.dropWhile Char.isDigit)
      else some (none, cs)
  | [] => some (none, [])

/-- The fraction digits, if there is a point, and what follows them. -/
def readFraction (cs : List Char) : Option (Option (List Char) × List Char) :=
  match cs with
  | '.' :: rest =>
      let ds := rest.takeWhile Char.isDigit
      if ds.isEmpty then none else some (some ds, rest.dropWhile Char.isDigit)
  | _ => some (none, cs)

/-- The binary64 number with these digits before and after the point. -/
def realNumber (negative : Bool) (whole fraction : List Char) (e : Int) : Option Binary64 := do
  let (s, k) := absorb 0 0 whole
  let (s, l) := absorb s 0 fraction
  let x ← Decimal.scaled s ((whole.length : Int) - k - l + e)
  pure (if negative then x.neg else x)

def wholeNumber (negative : Bool) (ds : List Char) : Option Value :=
  let n := Text.digitsValue ds
  if negative then
    if 0 < n ∧ n ≤ Nat.pow 2 63 then some (.int (-n)) else (realNumber true ds [] 0).map .float
  else if n < Nat.pow 2 64 then some (.int n)
  else (realNumber false ds [] 0).map .float

def readNumber (cs : List Char) : Option (Value × List Char) := do
  let (negative, cs) :=
    match cs with
    | '-' :: rest => (true, rest)
    | _ => (false, cs)
  let whole := cs.takeWhile Char.isDigit
  let rest := cs.dropWhile Char.isDigit
  if whole.isEmpty || (whole.head? == some '0' && 1 < whole.length) then none
  let (fraction, rest) ← readFraction rest
  let (e, rest) ← readExponent rest
  let v ←
    if fraction.isNone && e.isNone then wholeNumber negative whole
    else (realNumber negative whole (fraction.getD []) (e.getD 0)).map .float
  pure (v, rest)

/-- The rest of a text behind the given word, if it starts with it. -/
def afterWord? (word cs : List Char) : Option (List Char) :=
  if word.isPrefixOf cs then some (cs.drop word.length) else none

mutual

/-- A value, with at most `depth` further levels inside it. -/
def readValue : Nat → Nat → List Char → Option (Value × List Char)
  | 0, _, _ => none
  | fuel + 1, depth, cs =>
      match skipGap cs with
      | '"' :: rest => (readText rest).map fun (s, rest) => (.str (String.ofList s), rest)
      | '[' :: rest =>
          -- The limit is on what is opened, so it is looked at before anything inside is.
          if depth = 0 then none
          else
            match skipGap rest with
            | ']' :: rest => some (.arr [], rest)
            | rest => (readItems fuel (depth - 1) rest).map fun (vs, rest) => (.arr vs, rest)
      | '{' :: rest =>
          if depth = 0 then none
          else
            match skipGap rest with
            | '}' :: rest => some (.obj [], rest)
            | rest => (readFields fuel (depth - 1) rest).map fun (fs, rest) => (.obj fs, rest)
      | 'n' :: rest => (afterWord? "ull".toList rest).map fun rest => (.null, rest)
      | 't' :: rest => (afterWord? "rue".toList rest).map fun rest => (.bool true, rest)
      | 'f' :: rest => (afterWord? "alse".toList rest).map fun rest => (.bool false, rest)
      | rest => readNumber rest

/-- The elements of a sequence up to its closing bracket, at least one. -/
def readItems : Nat → Nat → List Char → Option (List Value × List Char)
  | 0, _, _ => none
  | fuel + 1, depth, cs => do
      let (v, rest) ← readValue fuel depth cs
      match skipGap rest with
      | ']' :: rest => pure ([v], rest)
      | ',' :: rest =>
          let (vs, rest) ← readItems fuel depth rest
          pure (v :: vs, rest)
      | _ => none

/-- The entries of a map up to its closing brace, at least one. -/
def readFields : Nat → Nat → List Char → Option (List (String × Value) × List Char)
  | 0, _, _ => none
  | fuel + 1, depth, cs =>
      match skipGap cs with
      | '"' :: rest => do
          let (k, rest) ← readText rest
          match skipGap rest with
          | ':' :: rest =>
              let (v, rest) ← readValue fuel depth rest
              match skipGap rest with
              | '}' :: rest => pure ([(String.ofList k, v)], rest)
              | ',' :: rest =>
                  let (fs, rest) ← readFields fuel depth rest
                  pure ((String.ofList k, v) :: fs, rest)
              | _ => none
          | _ => none
      | _ => none

end

end Reader

/-- How many sequences and maps may be nested in a document. -/
def nestingLimit : Nat := 127

/-- The value of a document.  Each call of the reader takes a character or opens a level, so twice
the length of the text is enough fuel. -/
def read? (text : String) : Option Value :=
  let cs := text.toList
  match Reader.readValue (2 * cs.length + 2) nestingLimit cs with
  | some (v, rest) => if (Reader.skipGap rest).isEmpty then some v else none
  | none => none

end Value
end Casework
