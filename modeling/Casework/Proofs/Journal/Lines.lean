import Casework.Journal.Store
import Casework.Proofs.Json.Plain

/-!
# Lines — what is written for an entry, and what is read from it

The line of an entry is one line and not blank, whatever texts stand in the entry.  So the lines
that were written one after the other are found again as such.

* `JournalEntry.ReadsBack` : an entry that is read back from its line;
* `Journal.lineText` : the line of an entry without its end;
* `Journal.lines_written` : the lines of a text that begins with the lines of entries;
* `Journal.entriesOfText_written` : the entries that were written are read.
-/

namespace Casework

namespace Journal

/-- What stands in the line of an entry, without the end of the line. -/
def lineText (e : JournalEntry) : List Char :=
  (toValue e).compact.toList

end Journal

/-- Whether an entry is read back from the line that is written for it. -/
def JournalEntry.ReadsBack (e : JournalEntry) : Prop :=
  Journal.entryOfLine? (Journal.lineText e) = some e

namespace Journal

variable {e : JournalEntry} {es : List JournalEntry} {file : String}

theorem toList_line (e : JournalEntry) : (line e).toList = lineText e ++ ['\n'] := by
  simp [line, lineText]

/-- The line of an entry has no line end inside. -/
theorem newline_not_mem_lineText (e : JournalEntry) : '\n' ∉ lineText e :=
  (Value.isPlain_compact (toValue e)).newline_not_mem

/-- The line of an entry begins with a brace. -/
theorem exists_lineText_eq (e : JournalEntry) : ∃ cs, lineText e = '{' :: cs := by
  have hobject : ∃ fields, toValue e = Value.obj fields := ⟨_, rfl⟩
  obtain ⟨fields, hfields⟩ := hobject
  refine ⟨(String.intercalate "," (Value.compactFields fields)).toList ++ ['}'], ?_⟩
  rw [lineText, hfields, Value.compact, String.toList_append, String.toList_append]
  rfl

/-- The line of an entry is not blank. -/
theorem lineText_not_blank (e : JournalEntry) : (lineText e).all Text.isBlank = false := by
  obtain ⟨cs, hcs⟩ := exists_lineText_eq e
  have hbrace : Text.isBlank '{' = false := by decide
  simp [hcs, hbrace]

/-! ## Lines that were written -/

theorem toList_join_cons (e : JournalEntry) (es : List JournalEntry) :
    (String.join ((e :: es).map line)).toList =
      lineText e ++ '\n' :: (String.join (es.map line)).toList := by
  simp [toList_line]

/-- Lines that were written are found again in front of what follows. -/
theorem lines_written (es : List JournalEntry) (rest : List Char) :
    Text.lines ((String.join (es.map line)).toList ++ rest) =
      es.map lineText ++ Text.lines rest := by
  induction es with
  | nil => simp
  | cons e es ih =>
      rw [toList_join_cons, List.append_assoc, List.cons_append,
        Text.lines_append _ (newline_not_mem_lineText e), ih]
      rfl

/-- No written line is passed over. -/
theorem filter_written (es : List JournalEntry) :
    ((es.map lineText).filter fun l => !l.all Text.isBlank) = es.map lineText := by
  apply List.filter_eq_self.2
  intro l hl
  obtain ⟨e, -, rfl⟩ := List.mem_map.1 hl
  simp [lineText_not_blank e]

/-- Lines are read one after the other, and numbered on. -/
theorem entriesOfLines_append (file : String) (n : Nat) (ls ls' : List (List Char)) :
    entriesOfLines file n (ls ++ ls') =
      (entriesOfLines file n ls).bind fun es =>
        (entriesOfLines file (n + es.length) ls').map (es ++ ·) := by
  induction ls generalizing n with
  | nil =>
      cases h : entriesOfLines file n ls' <;> simp [entriesOfLines, h, Except.bind, Except.map]
  | cons l ls ih =>
      rw [List.cons_append, entriesOfLines, entriesOfLines]
      cases entryOfLine? l with
      | none => rfl
      | some e =>
          simp only [ih (n + 1)]
          cases entriesOfLines file (n + 1) ls with
          | error fault => rfl
          | ok es =>
              simp only [Except.bind, Except.map, List.length_cons, Nat.add_comm es.length 1,
                ← Nat.add_assoc]
              cases entriesOfLines file (n + 1 + es.length) ls' <;> rfl

theorem entriesOfLines_one (file : String) (n : Nat) (l : List Char) :
    entriesOfLines file n [l] =
      match entryOfLine? l with
      | some e => .ok [e]
      | none => .error (.journal (.unreadableLine file n)) := by
  rw [entriesOfLines]
  cases entryOfLine? l <;> rfl

/-- Written lines are read back if each entry is. -/
theorem entriesOfLines_written (file : String) (n : Nat) (readable : ∀ e ∈ es, e.ReadsBack) :
    entriesOfLines file n (es.map lineText) = .ok es := by
  induction es generalizing n with
  | nil => rfl
  | cons e es ih =>
      have he : entryOfLine? (lineText e) = some e := readable e (by simp)
      have hrest := ih (n + 1) fun e' he' => readable e' (by simp [he'])
      rw [List.map_cons, entriesOfLines, he]
      simp only [hrest]
      rfl

/-- The entries that were written are read. -/
theorem entriesOfText_written (file : String) (readable : ∀ e ∈ es, e.ReadsBack) :
    entriesOfText file (String.join (es.map line)) = .ok es := by
  have hlines := lines_written es []
  rw [List.append_nil, Text.lines, List.append_nil] at hlines
  rw [entriesOfText, hlines, filter_written]
  exact entriesOfLines_written file 1 readable

end Journal
end Casework
