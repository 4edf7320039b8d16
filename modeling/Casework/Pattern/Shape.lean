/-!
# Shapes of patterns

What has to be known of a pattern to tell whether it can be used, apart from whether it can be
read.

* `Shape` : how deep a pattern is nested, and whether it asks for the edges of words;
* `Shape.nested`, `Shape.joined` : shapes put together;
* `Fault`, `Shape.fault?` : why a pattern cannot be used.

A pattern is run byte by byte, and whether a word ends between two characters beyond ASCII cannot
be told from one byte.
-/

namespace Casework
namespace Pattern

/-- What is known of a pattern that has been read. -/
structure Shape where
  /-- How many parts lie around the innermost one. -/
  depth : Nat
  /-- Whether it asks for an edge of words of any script. -/
  asksForWords : Bool
deriving DecidableEq, Repr

namespace Shape

def atom : Shape := ⟨0, false⟩

def wordEdge : Shape := ⟨0, true⟩

def sum (parts : List Shape) : Shape :=
  ⟨parts.foldr (fun p n => max p.depth n) 0, parts.any Shape.asksForWords⟩

def nested (parts : List Shape) : Shape :=
  ⟨(sum parts).depth + 1, (sum parts).asksForWords⟩

/-- These parts as one, which needs a part around them only if there are several. -/
def joined : List Shape → Shape
  | [] => atom
  | [p] => p
  | ps => nested ps

end Shape

inductive Fault where
  /-- It cannot be read, or is nested too deep. -/
  | malformed
  /-- It asks for the edges of words of any script. -/
  | wordEdge
deriving DecidableEq, Repr

def Fault.message : Fault → String
  | .malformed => "error building NFA"
  | .wordEdge =>
      "unsupported regex feature for DFAs: cannot build DFAs for regexes with Unicode word "
        ++ "boundaries; switch to ASCII word boundaries, or heuristically enable Unicode word "
        ++ "boundaries or use a different regex engine"

def depthLimit : Nat := 250

/-- Why a pattern of a shape cannot be used, if it cannot. -/
def Shape.fault? (s : Shape) : Option Fault :=
  if depthLimit < s.depth then some .malformed
  else if s.asksForWords then some .wordEdge
  else none

namespace Shape

end Shape
end Pattern
end Casework
