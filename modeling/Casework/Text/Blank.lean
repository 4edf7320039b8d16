/-!
# White space

The 25 characters with the property White_Space, and the two cuts built on it.

* `isBlank` : the property;
* `trimLeft`, `trimRight`, `trim` : a text without blanks at its start, its end, or both.
-/

namespace Casework
namespace Text

/-- Closed ranges of the white space characters, ascending and apart. -/
def blankRanges : List (Nat × Nat) :=
  [(0x09, 0x0D), (0x20, 0x20), (0x85, 0x85), (0xA0, 0xA0), (0x1680, 0x1680), (0x2000, 0x200A),
   (0x2028, 0x2029), (0x202F, 0x202F), (0x205F, 0x205F), (0x3000, 0x3000)]

def isBlank (c : Char) : Bool :=
  blankRanges.any fun r => r.1 ≤ c.toNat && c.toNat ≤ r.2

def trimLeft (cs : List Char) : List Char :=
  cs.dropWhile isBlank

def trimRight (cs : List Char) : List Char :=
  (cs.reverse.dropWhile isBlank).reverse

def trim (cs : List Char) : List Char :=
  trimRight (trimLeft cs)

/-- `trim` on strings. -/
def trimmed (s : String) : String :=
  String.ofList (trim s.toList)

def allBlank (s : String) : Bool :=
  s.toList.all isBlank

@[simp]
theorem trimLeft_nil : trimLeft [] = [] := rfl

@[simp]
theorem trim_nil : trim [] = [] := rfl

/-- After the cut on the left no blank stands first. -/
theorem head?_trimLeft_not_blank (cs : List Char) :
    ∀ c ∈ (trimLeft cs).head?, isBlank c = false := by
  induction cs with
  | nil => simp
  | cons c cs ih =>
      by_cases h : isBlank c
      · simpa [trimLeft, List.dropWhile, h] using ih
      · simp [trimLeft, List.dropWhile, h]

end Text
end Casework
