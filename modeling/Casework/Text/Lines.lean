/-!
# Lines

* `Text.lines` : a text cut behind its line ends, the ends left out.
-/

namespace Casework
namespace Text

/-- The lines of a text.  What follows the last line end is a line unless it is empty. -/
def lines : List Char → List (List Char)
  | [] => []
  | c :: cs =>
      if c = '\n' then [] :: lines cs
      else
        match lines cs with
        | [] => [[c]]
        | l :: ls => (c :: l) :: ls

/-- A line that is ended stands for itself in front of what follows. -/
theorem lines_append (l : List Char) (h : '\n' ∉ l) (rest : List Char) :
    lines (l ++ '\n' :: rest) = l :: lines rest := by
  induction l with
  | nil => simp [lines]
  | cons c l ih =>
      have hc : c ≠ '\n' := fun e => h (by simp [e])
      have hl : '\n' ∉ l := fun m => h (by simp [m])
      simp [lines, hc, ih hl]

end Text
end Casework
