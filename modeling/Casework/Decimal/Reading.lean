import Casework.Decimal.Binary64

/-!
# Reading decimals

Two readings of a decimal as a binary64 number.

* `Decimal.nearest` : the nearest binary64 number, ties to even;
* `Decimal.scaled` : the reading of document texts.  The leading digits that fit 64 bits are
  rounded once and scaled once by a power of ten, which is exact for short numbers and may be off
  in the last bit for long ones; a result beyond the finite range is refused.
-/

namespace Casework
namespace Decimal

/-- The nearest binary64 number to `m * 10 ^ e`, ties to even.  Exponents far outside the range
of the format give infinity or zero at once. -/
def nearest (m : Nat) (e : Int) : Binary64 :=
  let size : Int := ((Nat.toDigits 10 m).length : Int) + e
  if m = 0 ∨ size < -400 then Binary64.zero
  else if 400 < size then Binary64.infinity
  else if e < 0 then Binary64.ofRatio m (Nat.pow 10 e.natAbs)
  else Binary64.ofRatio (m * Nat.pow 10 e.natAbs) 1

/-- The number nearest to `10 ^ k`. -/
def powerOfTen (k : Nat) : Binary64 :=
  Binary64.ofRatio (Nat.pow 10 k) 1

/-- Divides by `10 ^ 308` as often as the exponent asks for, then scales once.  Zero stays zero
under every exponent. -/
def scaleDown : Nat → Binary64 → Nat → Binary64
  | 0, x, _ => x
  | fuel + 1, x, k =>
      if k ≤ 308 then x.divided (powerOfTen k)
      -- No further division changes zero, and the exponent may be huge.
      else if x = Binary64.zero then x
      else scaleDown fuel (x.divided (powerOfTen 308)) (k - 308)

/-- The significand rounded to a binary64 number and scaled by `10 ^ e`; `none` when the result
leaves the finite range. -/
def scaled (significand : Nat) (e : Int) : Option Binary64 :=
  let x := Binary64.ofRatio significand 1
  if e < 0 then some (scaleDown 4 x e.natAbs)
  else if significand = 0 then some Binary64.zero
  else if 308 < e then none
  else
    let r := x.times (powerOfTen e.toNat)
    if r.isFinite then some r else none

end Decimal
end Casework
