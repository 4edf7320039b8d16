import Casework.HumanInput.Console
import Casework.Proofs.Text.Blank

/-!
# Terminals — which line answers a request

Requests that are put to one terminal share what is typed.  Each takes the first line that names one
of its actions, with all the lines before it, and leaves the rest to the next request.

* `Text.IsLines` : the lines that a text is made of;
* `Handler.answers` : requests that are answered one after another;
* `Console.Served` : which lines they take, what they are answered and what is printed;
* `Console.collect_skip`, `Console.exists_first_named` : lines that name nothing are reported and
  passed over, up to the first one that names an action;
* `first_named_line` : the requests of a terminal are served.
-/

namespace Casework

/-! ## Lines of a text -/

namespace Text

/-- The lines of a text.  Each has its end, but the last one need not if it is not empty. -/
inductive IsLines : List (List Char) → List Char → Prop
  | nil : IsLines [] []
  | unended {l : List Char} (nonempty : l ≠ []) (one : '\n' ∉ l) : IsLines [l] l
  | ended {l cs : List Char} {ls : List (List Char)} (one : '\n' ∉ l) (rest : IsLines ls cs) :
      IsLines (l :: ls) (l ++ '\n' :: cs)

/-- The splitter finds the lines of a text. -/
theorem isLines_lines (cs : List Char) : IsLines (lines cs) cs := by
  induction cs with
  | nil => exact .nil
  | cons c cs ih =>
      by_cases hc : c = '\n'
      · subst hc
        have hlines : lines ('\n' :: cs) = [] :: lines cs := by simp [lines]
        rw [hlines]
        exact .ended (l := []) (by simp) ih
      · rw [lines, if_neg hc]
        -- The character joins the first line of what follows it.
        cases hrest : lines cs with
        | nil =>
            rw [hrest] at ih
            cases ih
            exact .unended (by simp) (by simp [Ne.symm hc])
        | cons l ls =>
            rw [hrest] at ih
            cases ih with
            | unended nonempty one => exact .unended (by simp) (by simp [Ne.symm hc, one])
            | ended one rest => exact .ended (l := c :: l) (by simp [Ne.symm hc, one]) rest

/-- What stands behind the first lines of a text has the remaining lines. -/
theorem IsLines.exists_rest {first last : List (List Char)} {cs : List Char}
    (h : IsLines (first ++ last) cs) :
    ∃ before after, cs = before ++ after ∧ IsLines first before ∧ IsLines last after := by
  induction first generalizing cs with
  | nil => exact ⟨[], cs, rfl, .nil, h⟩
  | cons l first ih =>
      generalize hls : l :: first ++ last = ls at h
      cases h with
      | nil => simp at hls
      | unended nonempty one =>
          simp only [List.cons_append, List.cons.injEq, List.append_eq_nil_iff] at hls
          rcases hls with ⟨rfl, rfl, rfl⟩
          exact ⟨l, [], by simp, .unended nonempty one, .nil⟩
      | @ended l' cs' ls' one rest =>
          simp only [List.cons_append, List.cons.injEq] at hls
          rcases hls with ⟨rfl, rfl⟩
          rcases ih rest with ⟨before, after, rfl, hfirst, hlast⟩
          exact ⟨l ++ '\n' :: before, after, by simp, .ended one hfirst, hlast⟩

end Text

def Handler.answers {σ : Type} (h : Handler σ) :
    List Request → σ → List (Except Error Response) × σ
  | [], s => ([], s)
  | r :: rs, s =>
      let (result, s) := h.answer r s
      let (results, s) := h.answers rs s
      (result :: results, s)

namespace Console

variable {c : Console} {r : Request} {line : String} {skipped lines : List String} {v : String}

/-- What is printed while lines are passed over: each has its cursor, and one that is not blank is
reported. -/
def reports (c : Console) (skipped : List String) : String :=
  String.join <| skipped.map fun line =>
    c.cursor ++
      if Text.allBlank line then ""
      else c.paint "31" ("'" ++ Text.trimmed line ++ "' is not one of the offered actions") ++ "\n"

/-- Requests are served one after another from the same lines. -/
inductive Served (c : Console) :
    List Request → List String → List (Except Error Response) → String → List String → Prop
  | done {lines : List String} : Served c [] lines [] "" lines
  /-- The request takes the first line that it resolves, and all the lines before. -/
  | answered {r : Request} {rs : List Request} {skipped rest last : List String}
      {line value printed : String} {results : List (Except Error Response)}
      (unnamed : ∀ l ∈ skipped, r.resolve l = none) (named : r.resolve line = some value)
      (later : Served c rs rest results printed last) :
      Served c (r :: rs) (skipped ++ line :: rest) (.ok ⟨r.id, value⟩ :: results)
        (c.announcement r ++ c.reports skipped ++ c.cursor ++ printed) last
  /-- The request resolves no line, and takes them all. -/
  | closed {r : Request} {rs : List Request} {lines last : List String} {printed : String}
      {results : List (Except Error Response)} (unnamed : ∀ l ∈ lines, r.resolve l = none)
      (later : Served c rs [] results printed last) :
      Served c (r :: rs) lines
        (.error (.io (.other "stdin closed while waiting for a decision")) :: results)
        (c.announcement r ++ c.reports lines ++ c.cursor ++ printed) last

/-! ## One request -/

theorem isEmpty_trimmed (line : String) : (Text.trimmed line).isEmpty = Text.allBlank line := by
  rw [Bool.eq_iff_iff, String.isEmpty_iff, Text.trimmed, Text.allBlank, List.all_eq_true,
    ← Text.trim_eq_nil_iff]
  exact String.ofList_eq_empty_iff

/-- There is one report for each line that was passed over. -/
theorem reports_cons (c : Console) (line : String) (skipped : List String) :
    c.reports (line :: skipped) =
      c.cursor ++ c.complaint (Text.trimmed line) ++ c.reports skipped := by
  simp [reports, complaint, isEmpty_trimmed]

/-- Lines that name nothing are reported and passed over. -/
theorem collect_skip (unnamed : ∀ l ∈ skipped, r.resolve l = none) (lines : List String) :
    c.collect r (skipped ++ lines) =
      ⟨c.reports skipped ++ (c.collect r lines).printed, (c.collect r lines).rest,
        (c.collect r lines).result⟩ := by
  induction skipped with
  | nil => simp [reports]
  | cons line skipped ih =>
      have hline : r.resolve line = none := unnamed line List.mem_cons_self
      have hrest := ih fun l hl => unnamed l (List.mem_cons_of_mem _ hl)
      simp only [List.cons_append, collect, hline, hrest, reports_cons, String.append_assoc]

/-- A line that names an action ends the request, and the lines behind it are kept. -/
theorem collect_named (named : r.resolve line = some v) (lines : List String) :
    c.collect r (line :: lines) = ⟨c.cursor, lines, .ok ⟨r.id, v⟩⟩ := by
  simp [collect, named]

/-- There is a first line that the request resolves, or it resolves none. -/
theorem exists_first_named (r : Request) (lines : List String) :
    (∀ l ∈ lines, r.resolve l = none) ∨ ∃ skipped line rest v,
      lines = skipped ++ line :: rest ∧ (∀ l ∈ skipped, r.resolve l = none) ∧
        r.resolve line = some v := by
  induction lines with
  | nil => exact .inl (by simp)
  | cons line lines ih =>
      cases hline : r.resolve line with
      | some v => exact .inr ⟨[], line, lines, v, rfl, by simp, hline⟩
      | none =>
          rcases ih with hnone | ⟨skipped, named, rest, v, rfl, hskipped, hnamed⟩
          · exact .inl (by simpa [hline] using hnone)
          · have hpassed : ∀ l ∈ line :: skipped, r.resolve l = none := by
              simpa [hline] using hskipped
            exact .inr ⟨line :: skipped, named, rest, v, rfl, hpassed, hnamed⟩

/-- A request takes all lines and is told that there are no more, or the first line that it resolves
with all the lines before. -/
theorem attempt_cases (c : Console) (r : Request) (lines : List String) :
    ((∀ l ∈ lines, r.resolve l = none) ∧ c.attempt r lines =
        ⟨c.announcement r ++ c.reports lines ++ c.cursor, [], .error closedError⟩) ∨
      ∃ skipped line rest v, lines = skipped ++ line :: rest ∧
        (∀ l ∈ skipped, r.resolve l = none) ∧ r.resolve line = some v ∧
        c.attempt r lines =
          ⟨c.announcement r ++ c.reports skipped ++ c.cursor, rest, .ok ⟨r.id, v⟩⟩ := by
  rcases exists_first_named r lines with hnone | ⟨skipped, line, rest, v, rfl, hskipped, hline⟩
  · -- All lines are passed over, and what is left is empty.
    left
    have hcollect := collect_skip (c := c) hnone []
    rw [List.append_nil] at hcollect
    exact ⟨hnone, by simp [attempt, hcollect, collect, String.append_assoc]⟩
  · right
    refine ⟨skipped, line, rest, v, rfl, hskipped, hline, ?_⟩
    simp [attempt, collect_skip hskipped, collect_named hline, String.append_assoc]

/-! ## All of them -/

/-- Requests are put one after the other, each to the lines that the former one left. -/
theorem answers_cons {a : Attempt} {s : Session} (h : c.attempt r s.lines = a)
    (rs : List Request) :
    c.handler.answers (r :: rs) s =
      (a.result :: (c.handler.answers rs ⟨a.rest, s.printed ++ a.printed⟩).1,
        (c.handler.answers rs ⟨a.rest, s.printed ++ a.printed⟩).2) := by
  subst h
  rfl

/-- Any number of requests is served in order. -/
theorem exists_served (c : Console) (rs : List Request) (s : Session) :
    ∃ results printed last, c.handler.answers rs s = (results, ⟨last, s.printed ++ printed⟩) ∧
      c.Served rs s.lines results printed last := by
  induction rs generalizing s with
  | nil => exact ⟨[], "", s.lines, by simp [Handler.answers], .done⟩
  | cons r rs ih =>
      -- What this request leaves unread is what the later ones are served from.
      rcases attempt_cases c r s.lines with
        ⟨hnone, hattempt⟩ | ⟨skipped, line, rest, v, hlines, hskipped, hline, hattempt⟩
      · rcases ih ⟨[], s.printed ++ (c.announcement r ++ c.reports s.lines ++ c.cursor)⟩ with
          ⟨results, printed, last, hlater, hserved⟩
        refine ⟨_, _, _, ?_, .closed hnone hserved⟩
        rw [answers_cons hattempt, hlater]
        simp [closedError, String.append_assoc]
      · rcases ih ⟨rest, s.printed ++ (c.announcement r ++ c.reports skipped ++ c.cursor)⟩ with
          ⟨results, printed, last, hlater, hserved⟩
        rw [hlines]
        refine ⟨_, _, _, ?_, .answered hskipped hline hserved⟩
        rw [answers_cons hattempt, hlater]
        simp [String.append_assoc]

/-- What is left over stands behind what the requests have taken. -/
theorem Served.exists_taken {rs : List Request} {last : List String}
    {results : List (Except Error Response)} {printed : String}
    (h : c.Served rs lines results printed last) : ∃ taken, lines = taken ++ last := by
  induction h with
  | done => exact ⟨[], rfl⟩
  | @answered r rs skipped rest last line value printed results unnamed named later ih =>
      rcases ih with ⟨taken, rfl⟩
      exact ⟨skipped ++ line :: taken, by simp⟩
  | @closed r rs lines last printed results unnamed later ih =>
      rcases ih with ⟨taken, htaken⟩
      have hlast : last = [] := (List.append_eq_nil_iff.1 htaken.symm).2
      exact ⟨lines, by simp [hlast]⟩

end Console

open Text in
/-- The requests that are put to a terminal are served one after another from the lines of what is
typed.  Each takes the first line that it resolves and answers with its own id and what the line
stands for; the lines before are taken too, and reported once unless they are blank.  A request that
resolves none of the remaining lines takes them all and is told that there are no more.  What is then
left unread is the end of the text. -/
theorem first_named_line (c : Console) (typed : String) (rs : List Request) :
    IsLines ((Console.linesOf typed).map String.toList) typed.toList ∧
      ∃ results printed last,
        c.handler.answers rs ⟨Console.linesOf typed, ""⟩ = (results, ⟨last, printed⟩) ∧
        c.Served rs (Console.linesOf typed) results printed last ∧
        ∃ read unread, typed.toList = read ++ unread ∧
          IsLines (last.map String.toList) unread := by
  have hlines : IsLines ((Console.linesOf typed).map String.toList) typed.toList := by
    have hmap : (Console.linesOf typed).map String.toList = lines typed.toList := by
      simp [Console.linesOf, Function.comp_def]
    rw [hmap]
    exact isLines_lines typed.toList
  rcases c.exists_served rs ⟨Console.linesOf typed, ""⟩ with
    ⟨results, printed, last, hanswers, hserved⟩
  -- What is taken and what is left are lines of one text, so the text itself is cut between them.
  rcases hserved.exists_taken with ⟨taken, htaken⟩
  have hsplit := hlines
  simp only at htaken
  rw [htaken, List.map_append] at hsplit
  rcases hsplit.exists_rest with ⟨read, unread, htyped, -, hunread⟩
  rw [String.empty_append] at hanswers
  exact ⟨hlines, results, printed, last, hanswers, hserved, read, unread, htyped, hunread⟩

example :
    let r : Request := { Request.new "case-1" "Approve?" with
      actions := [⟨"Approve", "approved", "primary"⟩, ⟨"Reject", "rejected", "danger"⟩] }
    ((⟨false⟩ : Console).handler.answers [r, r, r]
        ⟨Console.linesOf "maybe\n \n2\nAPPROVE", ""⟩).1 =
      [.ok ⟨"case-1", "rejected"⟩, .ok ⟨"case-1", "approved"⟩, .error Console.closedError] := by
  rfl

end Casework
