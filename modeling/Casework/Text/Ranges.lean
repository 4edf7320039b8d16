/-!
# Ranges of code points

* `withinRanges` : bisection in ranges that ascend and lie apart;
* `inRanges` : whether a character is in one of them.
-/

namespace Casework
namespace Text

/-- Bisection in `ranges[lo ..< hi]`; `steps` bounds the number of halvings. -/
def withinRanges (ranges : Array (Nat × Nat)) (n : Nat) : Nat → Nat → Nat → Bool
  | 0, _, _ => false
  | steps + 1, lo, hi =>
      if lo < hi then
        let mid := (lo + hi) / 2
        match ranges[mid]? with
        | some (first, last) =>
            if n < first then withinRanges ranges n steps lo mid
            else if last < n then withinRanges ranges n steps (mid + 1) hi
            else true
        | none => false
      else false

def inRanges (ranges : Array (Nat × Nat)) (c : Char) : Bool :=
  withinRanges ranges c.toNat ranges.size 0 ranges.size

end Text
end Casework
