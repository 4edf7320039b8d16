import Casework.Proofs.Journal.Unended

/-!
# Damage — what is said of a file that cannot be read

The reader of a file passes over blank lines and stops at the first other line that is no entry.  It
counts the lines that it has not passed over, so the number in its complaint falls behind the number
of the line in the file by the blank lines in front.

* `Journal.entriesOfLines_eq_ok_iff`, `Journal.entriesOfLines_eq_error_iff` : reading shown lines;
* `Journal.Damaged` : the first line of a text that is neither blank nor an entry;
* `Journal.entriesOfText_eq_ok_iff`, `Journal.entriesOfText_eq_error_iff` : reading a text;
* `load_blames` : what is loaded from a file, or which number the complaint has;
* `blank_line_uncounted` : a file in which that is not the number of the line.
-/

namespace Casework
namespace Journal

variable {file text : String} {n : Nat} {ls before : List (List Char)} {l : List Char}
variable {es : List JournalEntry} {fault : Error}

def isBlankLine (l : List Char) : Bool :=
  l.all Text.isBlank

def shownLines (text : String) : List (List Char) :=
  (Text.lines text.toList).filter fun l => !isBlankLine l

/-- Whether this line of a text is the first that is neither blank nor an entry, behind these. -/
structure Damaged (text : String) (before : List (List Char)) (l : List Char) : Prop where
  place : ∃ after, Text.lines text.toList = before ++ l :: after
  sound : ∀ m ∈ before, isBlankLine m = false → ∃ e, entryOfLine? m = some e
  shown : isBlankLine l = false
  unreadable : entryOfLine? l = none

/-! ## Lines that are shown -/

/-- Lines are read if every one of them is an entry, and then as these. -/
theorem entriesOfLines_eq_ok_iff :
    entriesOfLines file n ls = .ok es ↔ ls.map entryOfLine? = es.map some := by
  -- Along the lines, whatever number the first of them has.
  induction ls generalizing n es with
  | nil =>
      cases es <;> simp [entriesOfLines]
  | cons l ls ih =>
      cases hentry : entryOfLine? l with
      | none =>
          cases es <;> simp [entriesOfLines, hentry]
      | some e =>
          cases es with
          | nil =>
              cases hrest : entriesOfLines file (n + 1) ls <;>
                simp [entriesOfLines, hentry, hrest, Except.map]
          | cons e' es =>
              have htail : entriesOfLines file (n + 1) ls = .ok es ↔
                  ls.map entryOfLine? = es.map some := ih
              cases hrest : entriesOfLines file (n + 1) ls with
              | error fault =>
                  simp [hrest] at htail
                  simp [entriesOfLines, hentry, hrest, Except.map, htail]
              | ok rest =>
                  simp [hrest] at htail
                  simp [entriesOfLines, hentry, hrest, Except.map, ← htail]

/-- Reading stops at the first line that is no entry, and blames it by its number. -/
theorem entriesOfLines_eq_error_iff :
    entriesOfLines file n ls = .error fault ↔
      ∃ before l after, ls = before ++ l :: after ∧
        (∀ m ∈ before, ∃ e, entryOfLine? m = some e) ∧ entryOfLine? l = none ∧
          fault = .journal (.unreadableLine file (n + before.length)) := by
  -- Both ways go along the lines, once over all of them and once over those before the bad one.
  constructor
  · intro h
    induction ls generalizing n with
    | nil => cases h
    | cons l ls ih =>
        rw [entriesOfLines] at h
        cases hentry : entryOfLine? l with
        | none =>
            rw [hentry] at h
            have hfault : fault = .journal (.unreadableLine file n) := (Except.error.inj h).symm
            exact ⟨[], l, ls, rfl, by simp, hentry, by simpa using hfault⟩
        | some e =>
            rw [hentry] at h
            have hrest : entriesOfLines file (n + 1) ls = .error fault := by
              cases hrest : entriesOfLines file (n + 1) ls with
              | ok es => simp [hrest, Except.map] at h
              | error fault' => simpa [hrest, Except.map] using h
            obtain ⟨before, l', after, rfl, hbefore, hl', hfault⟩ := ih hrest
            refine ⟨l :: before, l', after, rfl, ?_, hl', ?_⟩
            · intro m hm
              rcases List.mem_cons.1 hm with rfl | hlater
              · exact ⟨e, hentry⟩
              · exact hbefore m hlater
            · rw [hfault, List.length_cons, Nat.add_right_comm, Nat.add_assoc]
  · rintro ⟨before, l, after, rfl, hbefore, hl, rfl⟩
    induction before generalizing n with
    | nil =>
        simp [entriesOfLines, hl]
    | cons m before ih =>
        obtain ⟨e, hentry⟩ := hbefore m (by simp)
        have hrest := ih (n := n + 1) fun m' hm' => hbefore m' (by simp [hm'])
        have hnumber : n + 1 + before.length = n + (m :: before).length := by
          rw [List.length_cons]
          omega
        simp [entriesOfLines, hentry, hrest, Except.map, hnumber]

/-- Lines are some entries if every one of them is an entry. -/
theorem exists_map_eq_some_iff :
    (∃ es : List JournalEntry, ls.map entryOfLine? = es.map some) ↔
      ∀ l ∈ ls, ∃ e, entryOfLine? l = some e := by
  constructor
  · rintro ⟨es, hes⟩ l hl
    have hmem : entryOfLine? l ∈ es.map some := by
      rw [← hes]
      exact List.mem_map_of_mem hl
    obtain ⟨e, -, he⟩ := List.mem_map.1 hmem
    exact ⟨e, he.symm⟩
  · intro h
    induction ls with
    | nil => exact ⟨[], rfl⟩
    | cons l ls ih =>
        obtain ⟨e, he⟩ := h l (by simp)
        obtain ⟨es, hes⟩ := ih fun m hm => h m (by simp [hm])
        exact ⟨e :: es, by simp [he, hes]⟩

/-! ## A text -/

/-- Only the lines that are not blank are read. -/
theorem entriesOfText_eq (file text : String) :
    entriesOfText file text = entriesOfLines file 1 (shownLines text) := rfl

/-- A text is read if every line that is not blank is an entry, and then as these. -/
theorem entriesOfText_eq_ok_iff :
    entriesOfText file text = .ok es ↔ (shownLines text).map entryOfLine? = es.map some := by
  rw [entriesOfText_eq]
  exact entriesOfLines_eq_ok_iff

/-- A text is read exactly if each of its lines that is not blank is an entry. -/
theorem exists_entriesOfText_iff :
    (∃ es, entriesOfText file text = .ok es) ↔
      ∀ l ∈ Text.lines text.toList, isBlankLine l = false → ∃ e, entryOfLine? l = some e := by
  simp only [entriesOfText_eq_ok_iff, exists_map_eq_some_iff, shownLines, List.mem_filter,
    Bool.not_eq_true', and_imp]

/-- Every line is shown or blank. -/
theorem length_eq_shown_add_blank (before : List (List Char)) :
    (before.filter fun m => !isBlankLine m).length + before.countP isBlankLine =
      before.length := by
  have hparts := List.length_eq_countP_add_countP isBlankLine (l := before)
  have hshown : before.countP (fun m => !isBlankLine m) =
      before.countP fun m => decide (¬isBlankLine m = true) :=
    List.countP_congr fun m _ => by simp
  rw [← List.countP_eq_length_filter, hshown, Nat.add_comm]
  exact hparts.symm

/-- A text that is not read is blamed for its first damaged line.  Together with the blank lines in
front, the number in the complaint is that of the line in the text. -/
theorem entriesOfText_eq_error_iff :
    entriesOfText file text = .error fault ↔
      ∃ before l n, Damaged text before l ∧
        n + before.countP isBlankLine = before.length + 1 ∧
          fault = .journal (.unreadableLine file n) := by
  rw [entriesOfText_eq, entriesOfLines_eq_error_iff]
  constructor
  · rintro ⟨shown, l, after, hshown, hsound, hunreadable, rfl⟩
    -- The lines in front are those that are shown, with the blank ones put in again.
    obtain ⟨before, rest, hlines, hbefore, hrest⟩ := List.filter_eq_append_iff.1 hshown
    obtain ⟨blank, after', rfl, hblank, hl, -⟩ := List.filter_eq_cons_iff.1 hrest
    have hnone : (blank.filter fun m => !isBlankLine m) = [] := List.filter_eq_nil_iff.2 hblank
    have hfront : ((before ++ blank).filter fun m => !isBlankLine m) = shown := by
      rw [List.filter_append, hbefore, hnone, List.append_nil]
    have hcount := length_eq_shown_add_blank (before ++ blank)
    rw [hfront] at hcount
    refine ⟨before ++ blank, l, 1 + shown.length,
      ⟨⟨after', ?_⟩, ?_, by simpa using hl, hunreadable⟩, by omega, rfl⟩
    · rw [hlines, List.append_assoc]
    · intro m hm hvisible
      apply hsound m
      rw [← hfront, List.mem_filter]
      exact ⟨hm, by simp [hvisible]⟩
  · rintro ⟨before, l, n, damaged, hnumber, rfl⟩
    obtain ⟨after, hlines⟩ := damaged.place
    have hcount := length_eq_shown_add_blank before
    have hsame : n = 1 + (before.filter fun m => !isBlankLine m).length := by omega
    refine ⟨before.filter fun m => !isBlankLine m, l, after.filter fun m => !isBlankLine m, ?_, ?_,
      damaged.unreadable, by rw [hsame]⟩
    · rw [shownLines, hlines, List.filter_append,
        List.filter_cons_of_pos (by simp [damaged.shown])]
    · intro m hm
      obtain ⟨hmem, hvisible⟩ := List.mem_filter.1 hm
      exact damaged.sound m hmem (by simpa using hvisible)

end Journal

open Journal

/-- The file of a case is loaded if and only if every line of it that is not blank is an entry, and
then as exactly these entries in their order.  Otherwise the complaint is about the first line that
is neither; its number is that of the line in the file less the blank lines in front. -/
theorem load_blames {folder : Folder} {caseId text : String} (named : isFileId caseId = true)
    (there : folder.readText (fileName caseId) = .ok text) :
    ((∃ es, (Journal.files folder).load caseId = .ok es) ↔
      ∀ l ∈ Text.lines text.toList, isBlankLine l = false → ∃ e, entryOfLine? l = some e) ∧
    (∀ es, (Journal.files folder).load caseId = .ok es ↔
      (shownLines text).map entryOfLine? = es.map some) ∧
    ∀ fault, (Journal.files folder).load caseId = .error fault ↔
      ∃ before l n, Damaged text before l ∧
        n + before.countP isBlankLine = before.length + 1 ∧
          fault = .journal (.unreadableLine (fileName caseId) n) := by
  have hload : (Journal.files folder).load caseId = entriesOfText (fileName caseId) text := by
    rw [load_files named, there]
  rw [hload]
  refine ⟨exists_entriesOfText_iff, ?_, ?_⟩
  · intro es
    exact entriesOfText_eq_ok_iff
  · intro fault
    exact entriesOfText_eq_error_iff

/-! ## Files with blank lines -/

/-- A file whose second line is an entry and whose fourth line is none; the others are blank. -/
def gappedText : String :=
  "\n" ++ twoLinesText ++ "\n \r\n\x7b"

theorem damaged_gappedText :
    Damaged gappedText [[], twoLinesText.toList, [' ', '\r']] ['\x7b'] where
  place := ⟨[], by decide +kernel⟩
  sound := by
    intro m hm hshown
    rcases List.mem_cons.1 hm with rfl | hm
    · cases hshown
    rcases List.mem_cons.1 hm with rfl | hm
    · exact ⟨twoLines, entryOfLine?_twoLinesText⟩
    obtain rfl := List.mem_singleton.1 hm
    cases hshown
  shown := by decide
  unreadable := by rfl

/-- Two blank lines stand in front of the line that is blamed, the fourth one of the file. -/
theorem load_blames_gapped :
    isFileId "c1" = true ∧
      Folder.readText [("c1.jsonl", .file (.text gappedText))] (fileName "c1") =
        .ok gappedText ∧
      (oneFile gappedText).load "c1" = .error (.journal (.unreadableLine "c1.jsonl" 2)) := by
  refine ⟨isFileId_c1, readText_oneFile gappedText, ?_⟩
  have hblamed := (load_blames isFileId_c1 (readText_oneFile gappedText)).2.2
  exact (hblamed _).2 ⟨_, _, 2, damaged_gappedText, by decide +kernel, rfl⟩

/-- The second line of a file is the first that is damaged, but the complaint is about a line 1. -/
theorem blank_line_uncounted :
    Damaged "\n\x7b" [[]] ['\x7b'] ∧
      (oneFile "\n\x7b").load "c1" = .error (.journal (.unreadableLine "c1.jsonl" 1)) := by
  have hdamaged : Damaged "\n\x7b" [[]] ['\x7b'] :=
    ⟨⟨[], by decide⟩, by simp [isBlankLine], by decide, by rfl⟩
  refine ⟨hdamaged, ?_⟩
  rw [load_oneFile]
  exact entriesOfText_eq_error_iff.2 ⟨_, _, 1, hdamaged, by decide, rfl⟩

end Casework
