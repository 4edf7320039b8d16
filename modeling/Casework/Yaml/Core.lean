import Casework.Decimal.Reading
import Casework.Json.Value
import Casework.Text.Digits

/-!
# Plain scalars

What a scalar without quotes stands for: the core rules of the notation, by which `5` is a number,
`true` a truth value and `yes` a text.

* `Core.isNull`, `Core.flag?`, `Core.integer?`, `Core.real?` : the spellings of each kind;
* `Core.value?` : the value of a plain scalar, the kinds tried in this order.

Digits behind a superfluous zero are no number but a text, so that `007` keeps its zeros.
-/

namespace Casework
namespace Yaml
namespace Core

/-- Whether a text spells null. -/
def isNull (s : String) : Bool :=
  ["null", "Null", "NULL", "~"].contains s

def flag? (s : String) : Option Bool :=
  if ["true", "True", "TRUE"].contains s then some true
  else if ["false", "False", "FALSE"].contains s then some false
  else none

/-! ## Integers -/

/-- The number that digits spell behind those of `n`. -/
def digitsFrom? (base : Nat) : Nat → List Char → Option Nat
  | n, [] => some n
  | n, c :: cs => do
      let d ← Text.hexDigit? c
      if d < base then digitsFrom? base (base * n + d) cs else none

/-- The number that digits spell, at least one. -/
def digits? (base : Nat) (cs : List Char) : Option Nat :=
  if cs.isEmpty then none else digitsFrom? base 0 cs

def hasSuperfluousZero (cs : List Char) : Bool :=
  cs.head? = some '0' && 1 < cs.length && cs.all Char.isDigit

def magnitude? : List Char → Option Nat
  | '0' :: 'x' :: ds => digits? 16 ds
  | '0' :: 'o' :: ds => digits? 8 ds
  | '0' :: 'b' :: ds => digits? 2 ds
  | ds => if hasSuperfluousZero ds then none else digits? 10 ds

def integer? (s : String) : Option Int :=
  match s.toList with
  | '-' :: cs => (magnitude? cs).map fun n => -(n : Int)
  | '+' :: cs => (magnitude? cs).map fun n => (n : Int)
  | cs => (magnitude? cs).map fun n => (n : Int)

/-! ## Real numbers -/

/-- The exponent behind a number; zero if none is written. -/
def exponent? : List Char → Option Int
  | [] => some 0
  | c :: cs =>
      if c = 'e' || c = 'E' then
        match cs with
        | '-' :: ds => (digits? 10 ds).map fun n => -(n : Int)
        | '+' :: ds => (digits? 10 ds).map fun n => (n : Int)
        | ds => (digits? 10 ds).map fun n => (n : Int)
      else none

/-- A decimal number without sign: digits before or behind the point, or both. -/
def decimal? (cs : List Char) : Option Binary64 := do
  let whole := cs.takeWhile Char.isDigit
  let rest := cs.dropWhile Char.isDigit
  let (fraction, rest) :=
    match rest with
    | '.' :: ds => (ds.takeWhile Char.isDigit, ds.dropWhile Char.isDigit)
    | _ => ([], rest)
  let significand ← digits? 10 (whole ++ fraction)
  let e ← exponent? rest
  let x := Decimal.nearest significand (e - fraction.length)
  if x.isFinite then some x else none

/-- Whether a text spells a number that is infinite or none at all. -/
def isExtreme (s : String) : Bool :=
  [".inf", ".Inf", ".INF", "+.inf", "+.Inf", "+.INF", "-.inf", "-.Inf", "-.INF",
    ".nan", ".NaN", ".NAN"].contains s

def real? (s : String) : Option Binary64 :=
  match s.toList with
  | '-' :: cs => (decimal? cs).map Binary64.neg
  | '+' :: cs => decimal? cs
  | cs => decimal? cs

/-! ## Values -/

/-- Whether an integer fits 64 bits, signed below zero and unsigned above. -/
def isNarrow (n : Int) : Bool := -9223372036854775808 ≤ n && n ≤ 18446744073709551615

/-- Whether an integer fits 128 bits, signed below zero and unsigned above. -/
def isWide (n : Int) : Bool :=
  -170141183460469231731687303715884105728 ≤ n && n ≤ 340282366920938463463374607431768211455

/-- Whether a text is made of digits, behind a sign or not, with a superfluous zero. -/
def isPaddedNumber (s : String) : Bool :=
  match s.toList with
  | '-' :: cs => hasSuperfluousZero cs
  | '+' :: cs => hasSuperfluousZero cs
  | cs => hasSuperfluousZero cs

/-- The value of a number's text: infinite numbers and the like have none but null. -/
def realValue? (s : String) : Option Value :=
  if isExtreme s then some .null else (real? s).map .float

/-- The value of an integer's text.  One of more than 64 bits that fits 128 is refused. -/
def integerValue? (s : String) : Option (Option Value) :=
  match integer? s with
  | none => none
  | some n => if isNarrow n then some (some (.int n)) else if isWide n then some none else none

/-- The value of a plain scalar; none if it is an integer that cannot be kept. -/
def value? (s : String) : Option Value :=
  if s.isEmpty || isNull s then some .null
  else
    match flag? s with
    | some b => some (.bool b)
    | none =>
        match integerValue? s with
        | some v => v
        | none =>
            match if isPaddedNumber s then none else realValue? s with
            | some v => some v
            | none => some (.str s)

end Core
end Yaml
end Casework
