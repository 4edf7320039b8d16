/-!
# Binary floating-point numbers

Amounts and free-form numbers with a fraction are kept as the 64 bits of their binary64 value, so
that equality is decidable and nothing is lost between reading and writing.

* `Binary64` : the bits;
* `Binary64.magnitude` : the finite value without its sign, as `m * 2 ^ q`;
* `Binary64.ofRatio` : the nearest value to a quotient of naturals, ties to even;
* `Binary64.ofInt`, `Binary64.times`, `Binary64.divided` : integers, products and quotients.
-/

namespace Casework

/-- A binary64 number, given by its bits. -/
structure Binary64 where
  bits : UInt64
deriving DecidableEq, Repr

namespace Binary64

def toFloat (x : Binary64) : Float := Float.ofBits x.bits

def zero : Binary64 := ⟨0⟩

def infinity : Binary64 := ⟨0x7FF0000000000000⟩

instance : Inhabited Binary64 := ⟨zero⟩

def isNegative (x : Binary64) : Bool := x.bits >>> 63 == 1

def neg (x : Binary64) : Binary64 := ⟨x.bits ^^^ 0x8000000000000000⟩

def exponentField (x : Binary64) : Nat := ((x.bits >>> 52) &&& 0x7FF).toNat

def fractionField (x : Binary64) : Nat := (x.bits &&& 0xFFFFFFFFFFFFF).toNat

def isFinite (x : Binary64) : Bool := x.exponentField != 0x7FF

/-- A finite value without its sign: `m * 2 ^ q`.  `narrowBelow` marks the least value of a binade,
whose lower neighbour is half as far away as its upper one. -/
structure Magnitude where
  m : Nat
  q : Int
  narrowBelow : Bool
deriving DecidableEq, Repr

/-- The magnitude that the exponent and fraction bits stand for. -/
def magnitude (x : Binary64) : Magnitude :=
  let e := x.exponentField
  let f := x.fractionField
  if e = 0 then ⟨f, -1074, false⟩ else ⟨Nat.pow 2 52 + f, (e : Int) - 1075, f = 0 ∧ 1 < e⟩

/-! ## Rounding -/

/-- The fraction `num / den` in units of `2 ^ q`. -/
def inUnits (num den : Nat) (q : Int) : Nat × Nat :=
  (num * Nat.pow 2 (-q).toNat, den * Nat.pow 2 q.toNat)

/-- The exponent of the last bit of the number nearest to `num / den`: there are 53 bits in front of
it, or the number is below the normal range. -/
def lastBit (num den : Nat) : Int :=
  let q : Int := (num.log2 : Int) - den.log2 - 53
  let (n, d) := inUnits num den q
  max (-1074) (if d * Nat.pow 2 53 ≤ n then q + 1 else q)

/-- The integer nearest to `n / d`; of two equally near ones the even one. -/
def roundedQuotient (n d : Nat) : Nat :=
  match compare (2 * (n % d)) d with
  | .lt => n / d
  | .gt => n / d + 1
  | .eq => n / d + n / d % 2

/-- The number nearest to `num / den`; of two equally near ones the even one.  What is beyond the
finite range is infinite. -/
def ofRatio (num den : Nat) : Binary64 :=
  if num = 0 then zero
  else
    let q := lastBit num den
    let (n, d) := inUnits num den q
    -- A significand that is rounded up to 54 bits carries into the exponent.
    let bits := (q + 1074).toNat * Nat.pow 2 52 + roundedQuotient n d
    if bits < infinity.bits.toNat then ⟨UInt64.ofNat bits⟩ else infinity

/-- The number nearest to `num / den * 2 ^ q`. -/
def ofScaledRatio (num den : Nat) (q : Int) : Binary64 :=
  let (n, d) := inUnits num den (-q)
  ofRatio n d

/-- The number nearest to an integer; of two equally near ones the even one. -/
def ofInt (n : Int) : Binary64 :=
  let m := ofRatio n.natAbs 1
  if n < 0 then m.neg else m

/-- The product of two finite numbers that are not negative, rounded. -/
def times (x y : Binary64) : Binary64 :=
  ofScaledRatio (x.magnitude.m * y.magnitude.m) 1 (x.magnitude.q + y.magnitude.q)

/-- The quotient of two finite numbers that are not negative, rounded. -/
def divided (x y : Binary64) : Binary64 :=
  ofScaledRatio x.magnitude.m y.magnitude.m (x.magnitude.q - y.magnitude.q)

def hex (x : Binary64) : String :=
  let ds := Nat.toDigits 16 x.bits.toNat
  String.ofList (List.replicate (16 - ds.length) '0' ++ ds)

end Binary64
end Casework
