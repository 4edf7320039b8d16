import Casework.Decimal.Shortest

/-!
# Laying out a number

How the selected digits become text is a matter of the output format.  One record holds the
decisions, and two formats are fixed here.

* `NumberLayout` : the decisions;
* `NumberLayout.document` : numbers inside a document and inside messages about one, `750.0`,
  `1e+16`;
* `NumberLayout.plain` : values of metrics, `750`, never with an exponent.
-/

namespace Casework

/-- The decisions of an output format for binary64 numbers. -/
structure NumberLayout where
  /-- Least exponent of the leading digit that is written positionally; all if missing. -/
  positionalFrom : Option Int
  /-- Greatest exponent of the leading digit that is written positionally; all if missing. -/
  positionalUpTo : Option Int
  /-- Integral values keep a fraction: `12.0`. -/
  pointZero : Bool
  /-- Which of two equally near decimals is written. -/
  tie : Decimal.Tie
deriving DecidableEq, Repr

namespace NumberLayout

/-- Numbers of a document: fewest digits, positional from 10^-5 up to below 10^16, always with a
point or an exponent, and the exponent signed. -/
def document : NumberLayout where
  positionalFrom := some (-5)
  positionalUpTo := some 15
  pointZero := true
  tie := .toEven

/-- Metric values: fewest digits, always positional, integral values without a point. -/
def plain : NumberLayout where
  positionalFrom := none
  positionalUpTo := none
  pointZero := false
  tie := .upwards

/-- Whether a leading digit of exponent `e` is written positionally. -/
def isPositional (l : NumberLayout) (e : Int) : Bool :=
  l.positionalFrom.all (· ≤ e) && l.positionalUpTo.all (e ≤ ·)

/-- Digits with the point in its place: after, inside or before them. -/
def positional (l : NumberLayout) (d : Decimal) : List Char :=
  let ds := Nat.toDigits 10 d.digits
  if 0 ≤ d.exponent then
    ds ++ List.replicate d.exponent.toNat '0' ++ (if l.pointZero then ['.', '0'] else [])
  else
    let places := (-d.exponent).toNat
    if places < ds.length then
      ds.take (ds.length - places) ++ '.' :: ds.drop (ds.length - places)
    else '0' :: '.' :: (List.replicate (places - ds.length) '0' ++ ds)

/-- One digit, the others behind a point, and the exponent with its sign. -/
def scientific (d : Decimal) : List Char :=
  let ds := Nat.toDigits 10 d.digits
  let e := d.leadingExponent
  let es := Nat.toDigits 10 e.natAbs
  let fraction := if ds.length = 1 then [] else '.' :: ds.drop 1
  ds.take 1 ++ fraction ++ 'e' :: (if e < 0 then '-' else '+') :: es

def render (l : NumberLayout) (x : Binary64) : String :=
  if x.isFinite then
    let d := x.magnitude.shortest l.tie
    let body := if l.isPositional d.leadingExponent then l.positional d else scientific d
    String.ofList (if x.isNegative then '-' :: body else body)
  else if x.fractionField ≠ 0 then "NaN"
  else if x.isNegative then "-inf" else "inf"

end NumberLayout
end Casework
