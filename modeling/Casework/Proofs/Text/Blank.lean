import Casework.Text.Blank
import Mathlib.Data.List.TakeWhile

/-!
# White space — what is left of a text without the blanks around it

* `Text.Bare` : a text with no blank at either end;
* `Text.trim_surrounded` : blanks around a text make no difference;
* `Text.trim_of_bare` : a text with no blank at either end is left as it is.
-/

namespace Casework
namespace Text

variable {before after cs : List Char}

structure Bare (cs : List Char) : Prop where
  head : ∀ c ∈ cs.head?, isBlank c = false
  last : ∀ c ∈ cs.getLast?, isBlank c = false

theorem bare_iff : Bare cs ↔
    cs.head?.all (fun c => !isBlank c) = true ∧ cs.getLast?.all (fun c => !isBlank c) = true := by
  simp only [Option.all_eq_true, Bool.not_eq_true']
  exact ⟨fun h => ⟨h.head, h.last⟩, fun h => ⟨h.1, h.2⟩⟩

instance (cs : List Char) : Decidable (Bare cs) :=
  decidable_of_iff' _ bare_iff

theorem trimLeft_append (blank : ∀ c ∈ before, isBlank c = true) (cs : List Char) :
    trimLeft (before ++ cs) = trimLeft cs :=
  List.dropWhile_append_of_pos blank

theorem trimRight_append (blank : ∀ c ∈ after, isBlank c = true) (cs : List Char) :
    trimRight (cs ++ after) = trimRight cs := by
  have hreverse : ∀ c ∈ after.reverse, isBlank c = true := by
    intro c hc
    exact blank c (List.mem_reverse.1 hc)
  simp only [trimRight, List.reverse_append, List.dropWhile_append_of_pos hreverse]

/-- Blanks around a text make no difference. -/
theorem trim_surrounded (hbefore : ∀ c ∈ before, isBlank c = true)
    (hafter : ∀ c ∈ after, isBlank c = true) (cs : List Char) :
    trim (before ++ cs ++ after) = trim cs := by
  have hleft : trimLeft (before ++ cs ++ after) = trimLeft (cs ++ after) := by
    rw [List.append_assoc, trimLeft_append hbefore]
  cases hcs : trimLeft cs with
  | nil =>
      -- Nothing but blanks, so the cut on the left goes on behind the text.
      have hall : ∀ c ∈ cs, isBlank c = true := List.dropWhile_eq_nil_iff.1 hcs
      have hblank : ∀ c ∈ cs ++ after, isBlank c = true := by
        intro c hc
        rcases List.mem_append.1 hc with hc | hc
        · exact hall c hc
        · exact hafter c hc
      have hempty : trimLeft (cs ++ after) = [] := List.dropWhile_eq_nil_iff.2 hblank
      simp only [trim, hleft, hempty, hcs]
  | cons first rest =>
      have happend : trimLeft (cs ++ after) = trimLeft cs ++ after := by
        have hne : (cs.dropWhile isBlank).isEmpty = false := by
          change (trimLeft cs).isEmpty = false
          simp [hcs]
        simp [trimLeft, List.dropWhile_append, hne]
      calc
        trim (before ++ cs ++ after) = trimRight (trimLeft cs ++ after) := by
          rw [trim, hleft, happend]
        _ = trim cs := trimRight_append hafter _

theorem trim_of_bare (h : Bare cs) : trim cs = cs := by
  have hdrop : ∀ {ds : List Char}, (∀ c ∈ ds.head?, isBlank c = false) →
      ds.dropWhile isBlank = ds := by
    intro ds hhead
    cases ds with
    | nil => rfl
    | cons c ds => exact List.dropWhile_cons_of_neg (by simp [hhead c rfl])
  have hleft : trimLeft cs = cs := hdrop h.head
  have hlast : ∀ c ∈ cs.reverse.head?, isBlank c = false := by
    rw [List.head?_reverse]
    exact h.last
  rw [trim, hleft, trimRight, hdrop hlast, List.reverse_reverse]

/-- Nothing is left exactly of blanks. -/
theorem trim_eq_nil_iff : trim cs = [] ↔ ∀ c ∈ cs, isBlank c = true := by
  constructor
  · intro h
    cases hcs : trimLeft cs with
    | nil => exact List.dropWhile_eq_nil_iff.1 hcs
    | cons first rest =>
        -- The first character is no blank, so the cut on the right stops there at the latest.
        have hfirst : isBlank first = false := head?_trimLeft_not_blank cs first (by simp [hcs])
        rw [trim, hcs, trimRight, List.reverse_eq_nil_iff, List.dropWhile_eq_nil_iff] at h
        have hblank := h first (by simp)
        rw [hfirst] at hblank
        cases hblank
  · intro blank
    have hleft : trimLeft cs = [] := List.dropWhile_eq_nil_iff.2 blank
    rw [trim, hleft]
    rfl

end Text
end Casework
