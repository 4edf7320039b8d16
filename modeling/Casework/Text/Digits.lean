/-!
# Digits

Digits as numbers, and numbers below 256 as hexadecimal digits.

* `Text.digitValue`, `Text.digitsValue` : decimal digits;
* `Text.hexDigit?`, `Text.hexPair` : hexadecimal digits;
* `Text.characterOf?` : the character with a code point.

The functions on decimal digits are for characters that are known to be some.
-/

namespace Casework
namespace Text

def digitValue (c : Char) : Nat :=
  c.toNat - '0'.toNat

def digitsValue (ds : List Char) : Nat :=
  ds.foldl (fun n c => 10 * n + digitValue c) 0

/-- The value of a hexadecimal digit, if it is one. -/
def hexDigit? (c : Char) : Option Nat :=
  if c.isDigit then some (digitValue c)
  else if 'a' ≤ c ∧ c ≤ 'f' then some (c.toNat - 'a'.toNat + 10)
  else if 'A' ≤ c ∧ c ≤ 'F' then some (c.toNat - 'A'.toNat + 10)
  else none

/-- The two lower-case hexadecimal digits of a number below 256. -/
def hexPair (n : Nat) : List Char :=
  [(n / 16).digitChar, (n % 16).digitChar]

/-- The character with a code point, if there is one. -/
def characterOf? (n : Nat) : Option Char :=
  if n.isValidChar then some (Char.ofNat n) else none

@[simp]
theorem digitsValue_nil : digitsValue [] = 0 := rfl

end Text
end Casework
