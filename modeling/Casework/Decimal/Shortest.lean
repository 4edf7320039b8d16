import Casework.Decimal.Binary64

/-!
# The shortest decimal that reads back

Among all decimals that round to a given binary64 value this module selects one with the fewest
digits and, of those, one nearest to the value.  All arithmetic is exact, over naturals.

* `Decimal` : `digits * 10 ^ exponent`;
* `Magnitude.contains` : the decimals that read back, that is the rounding interval;
* `Magnitude.shortest` : the selection, with a rule for the tie between two equally near ones.

Seventeen digits are always enough, so the search over lengths is bounded; should it find nothing,
the value itself is written out exactly.
-/

namespace Casework

/-- The number `digits * 10 ^ exponent`. -/
structure Decimal where
  digits : Nat
  exponent : Int
deriving DecidableEq, Repr

namespace Decimal

/-- Which of two equally near neighbours is taken. -/
inductive Tie where
  | toEven
  | upwards
deriving DecidableEq, Repr

/-- Moves trailing zeros of the digits into the exponent. -/
def strip : Nat → Decimal → Decimal
  | 0, d => d
  | fuel + 1, d =>
      if d.digits ≠ 0 ∧ d.digits % 10 = 0 then strip fuel ⟨d.digits / 10, d.exponent + 1⟩ else d

/-- The exponent of the leading digit in scientific notation. -/
def leadingExponent (d : Decimal) : Int :=
  d.exponent + ((Nat.toDigits 10 d.digits).length : Int) - 1

end Decimal

namespace Binary64
namespace Magnitude

/-- Compares `a * 10 ^ i` with `n * 2 ^ j`, exactly. -/
def compareScaled (a : Nat) (i : Int) (n : Nat) (j : Int) : Ordering :=
  compare (a * Nat.pow 10 i.toNat * Nat.pow 2 (-j).toNat)
    (n * Nat.pow 2 j.toNat * Nat.pow 10 (-i).toNat)

/-- Whether a decimal lies among the reals that round to this value.  The ends, halfway to the two
neighbours, belong to it exactly when the significand is even. -/
def contains (x : Magnitude) (d : Decimal) : Bool :=
  -- In quarters of a unit, since the lower neighbour may be half as far away.
  let low := if x.narrowBelow then 4 * x.m - 1 else 4 * x.m - 2
  let high := 4 * x.m + 2
  let closed := x.m % 2 == 0
  let atLow := compareScaled d.digits d.exponent low (x.q - 2)
  let atHigh := compareScaled d.digits d.exponent high (x.q - 2)
  (atLow == .gt || (closed && atLow == .eq)) && (atHigh == .lt || (closed && atHigh == .eq))

/-- The value as a fraction of naturals in units of `10 ^ g`. -/
def fraction (x : Magnitude) (g : Int) : Nat × Nat :=
  (x.m * Nat.pow 2 x.q.toNat * Nat.pow 10 (-g).toNat, Nat.pow 2 (-x.q).toNat * Nat.pow 10 g.toNat)

/-- The least `j` with `a < b * 10 ^ j`, counting from `start` for at most `fuel` steps. -/
def leastPower (a b : Nat) : Nat → Nat → Nat
  | 0, start => start
  | fuel + 1, start => if a < b * Nat.pow 10 start then start else leastPower a b fuel (start + 1)

/-- The least `k` with value below `10 ^ k`. -/
def scale (x : Magnitude) : Int :=
  let (num, den) := x.fraction 0
  if den ≤ num then (leastPower num den 400 1 : Int)
  else 1 - (leastPower (den - 1) num 400 1 : Int)

/-- The neighbour of the value that reads back on the grid `10 ^ g`, the nearer one if both do. -/
def onGrid (x : Magnitude) (tie : Decimal.Tie) (g : Int) : Option Decimal :=
  let (num, den) := x.fraction g
  let a := num / den
  let below : Decimal := ⟨a, g⟩
  let above : Decimal := ⟨a + 1, g⟩
  match x.contains below, x.contains above with
  | false, false => none
  | true, false => some below
  | false, true => some above
  | true, true =>
      match compare (2 * num) ((2 * a + 1) * den) with
      | .lt => some below
      | .gt => some above
      | .eq =>
          match tie with
          | .upwards => some above
          | .toEven => some (if a % 2 = 0 then below else above)

def exact (x : Magnitude) : Decimal :=
  ⟨x.m * Nat.pow 2 x.q.toNat * Nat.pow 5 (-x.q).toNat, min x.q 0⟩

/-- The shortest decimal that reads back, nearest to the value among those; zero for zero. -/
def shortest (x : Magnitude) (tie : Decimal.Tie) : Decimal :=
  if x.m = 0 then ⟨0, 0⟩
  else
    let k := x.scale
    let found := (List.range 17).findSome? fun (n : Nat) => x.onGrid tie (k - ((n : Int) + 1))
    Decimal.strip 800 (found.getD x.exact)

end Magnitude
end Binary64
end Casework
