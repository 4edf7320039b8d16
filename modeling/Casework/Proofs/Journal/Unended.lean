import Casework.Proofs.Journal.Contents
import Casework.Proofs.Journal.Refinement
import Casework.Proofs.Json.Extension

/-!
# Unended — appending to a file whatever it ends with

A file may end within a line, because it was cut short or because someone edited it.  The reader
takes what stands there for a line, but the writer does not end that line before it adds its own.

* `Text.unended` : what follows the last line end of a text;
* `Journal.openEnd` : the unended line in the file of a case;
* `Journal.entriesOfText_append` : the entries of a text to which the line of an entry was added;
* `Journal.restores_files` : a file that is ended gives back what is added;
* `load_append` : what is loaded after an append to a readable file, whatever the file ends with;
* `unended_entry_lost` : a readable file that an append makes unreadable.
-/

namespace Casework

namespace Text

def unended : List Char → List Char
  | [] => []
  | c :: cs => if '\n' ∈ c :: cs then unended cs else c :: cs

/-- A text without line ends is not ended. -/
theorem unended_of_not_mem {cs : List Char} (h : '\n' ∉ cs) : unended cs = cs := by
  cases cs with
  | nil => rfl
  | cons c cs => rw [unended, if_neg h]

theorem newline_not_mem_unended (cs : List Char) : '\n' ∉ unended cs := by
  induction cs with
  | nil => simp [unended]
  | cons c cs ih =>
      rw [unended]
      split
      · exact ih
      · assumption

theorem lines_of_not_mem {cs : List Char} (h : '\n' ∉ cs) (hne : cs ≠ []) : lines cs = [cs] := by
  induction cs with
  | nil => exact absurd rfl hne
  | cons c cs ih =>
      obtain ⟨hc, hcs⟩ := not_or.1 (fun hmem => h (List.mem_cons.2 hmem))
      rw [lines, if_neg (Ne.symm hc)]
      cases cs with
      | nil => rfl
      | cons c' cs =>
          rw [ih hcs (by simp)]

/-- The lines that are ended stay as they are, whatever follows. -/
theorem exists_lines_append (cs : List Char) :
    ∃ ls, (ls = [] ↔ '\n' ∉ cs) ∧ ∀ rest, lines (cs ++ rest) = ls ++ lines (unended cs ++ rest) := by
  induction cs with
  | nil => exact ⟨[], by simp, fun rest => rfl⟩
  | cons c cs ih =>
      obtain ⟨ls, hls, hlines⟩ := ih
      by_cases hc : c = '\n'
      · subst hc
        refine ⟨[] :: ls, by simp, fun rest => ?_⟩
        simp [lines, unended, hlines]
      · by_cases hmem : '\n' ∈ cs
        · -- The character belongs to the first of the ended lines.
          obtain ⟨l, ls', rfl⟩ := List.exists_cons_of_ne_nil fun heq => hls.1 heq hmem
          refine ⟨(c :: l) :: ls', by simp [hmem], fun rest => ?_⟩
          simp [lines, unended, hc, hmem, hlines]
        · refine ⟨[], by simp [hmem, Ne.symm hc], fun rest => ?_⟩
          rw [unended_of_not_mem (by simp [hmem, Ne.symm hc])]
          rfl

end Text

namespace Journal

variable {folder : Folder} {caseId file : String} {s : String} {e : JournalEntry}
variable {es : List JournalEntry} {j : Journal} {cs : List Char}

def openEnd (folder : Folder) (caseId : String) : List Char :=
  match folder.readText (fileName caseId) with
  | .ok s => Text.unended s.toList
  | .error _ => []

/-! ## One line -/

/-- The line of an entry goes on no number, so that it may stand behind one. -/
theorem apart_lineText (e : JournalEntry) : Value.Reader.Apart (lineText e) := by
  obtain ⟨cs, hcs⟩ := exists_lineText_eq e
  rw [hcs]
  intro c hc
  cases hc
  decide

/-- The line of an entry does not consist of gaps. -/
theorem skipGap_lineText (e : JournalEntry) : Value.Reader.skipGap (lineText e) ≠ [] := by
  obtain ⟨cs, hcs⟩ := exists_lineText_eq e
  have hbrace : Value.Reader.isGap '{' = false := by decide
  simp [hcs, Value.Reader.skipGap, hbrace]

theorem entryOfLine?_eq_none (h : Value.read? (String.ofList cs) = none) :
    entryOfLine? cs = none := by
  rw [entryOfLine?, h]
  rfl

/-- A gap in front of the line of an entry makes no difference. -/
theorem entryOfLine?_gap_lineText (hgap : cs.all Value.Reader.isGap = true)
    (readable : e.ReadsBack) : entryOfLine? (cs ++ lineText e) = some e := by
  obtain ⟨v, hread, hentry⟩ := Option.bind_eq_some_iff.1 readable
  rw [entryOfLine?, Value.read?_gap_append hgap hread]
  exact hentry

/-- A line of blanks that are no gaps spoils the entry behind it. -/
theorem entryOfLine?_blank_lineText (blank : cs.all Text.isBlank = true)
    (hgap : cs.all Value.Reader.isGap = false) (e : JournalEntry) :
    entryOfLine? (cs ++ lineText e) = none :=
  entryOfLine?_eq_none (Value.read?_blank_append_eq_none blank hgap _)

/-- Two entries in one line are none. -/
theorem entryOfLine?_entry_lineText {e' : JournalEntry} (h : entryOfLine? cs = some e')
    (e : JournalEntry) : entryOfLine? (cs ++ lineText e) = none := by
  obtain ⟨v, hread, -⟩ := Option.bind_eq_some_iff.1 h
  exact entryOfLine?_eq_none
    (Value.read?_append_eq_none (apart_lineText e) (skipGap_lineText e) hread)

/-- Every gap is blank, but not the other way round. -/
theorem isBlank_of_isGap {c : Char} (h : Value.Reader.isGap c = true) : Text.isBlank c = true := by
  simp only [Value.Reader.isGap, Bool.or_eq_true, beq_iff_eq] at h
  rcases h with ((rfl | rfl) | rfl) | rfl <;> decide

/-! ## One file -/

theorem lines_line {cs : List Char} (h : '\n' ∉ cs) (e : JournalEntry) :
    Text.lines (cs ++ (line e).toList) = [cs ++ lineText e] := by
  rw [toList_line, ← List.append_assoc, Text.lines_append _ ?_ [], Text.lines]
  rw [List.mem_append]
  rintro (hcs | hline)
  · exact h hcs
  · exact newline_not_mem_lineText e hline

/-- What is left open is read as a line of its own, unless it is blank. -/
theorem filter_lines_unended {cs : List Char} (h : '\n' ∉ cs) :
    ((Text.lines cs).filter fun l => !l.all Text.isBlank) =
      if cs.all Text.isBlank then [] else [cs] := by
  cases cs with
  | nil => rfl
  | cons c more =>
      rw [Text.lines_of_not_mem h (by simp)]
      cases hblank : (c :: more).all Text.isBlank <;> simp [hblank]

theorem all_isBlank_of_all_isGap (h : cs.all Value.Reader.isGap = true) :
    cs.all Text.isBlank = true :=
  List.all_eq_true.2 fun c hc => isBlank_of_isGap (List.all_eq_true.1 h c hc)

/-- The lines that are ended are read first, then the open end: alone if it is not blank, or in
one line with the entry that is added. -/
theorem exists_entries_ended (file s : String) :
    ∃ ended : Except Error (List JournalEntry),
      (entriesOfText file s = ended.bind fun es =>
        (entriesOfLines file (1 + es.length)
          (if (Text.unended s.toList).all Text.isBlank then []
            else [Text.unended s.toList])).map (es ++ ·)) ∧
      ∀ e, entriesOfText file (s ++ line e) = ended.bind fun es =>
        (entriesOfLines file (1 + es.length) [Text.unended s.toList ++ lineText e]).map
          (es ++ ·) := by
  obtain ⟨ls, -, hlines⟩ := Text.exists_lines_append s.toList
  have hfree := Text.newline_not_mem_unended s.toList
  refine ⟨entriesOfLines file 1 (ls.filter fun l => !l.all Text.isBlank), ?_, fun e => ?_⟩
  · have hbefore := hlines []
    rw [List.append_nil, List.append_nil] at hbefore
    rw [entriesOfText, hbefore, List.filter_append, filter_lines_unended hfree,
      entriesOfLines_append]
  · have hshown : (Text.unended s.toList ++ lineText e).all Text.isBlank = false := by
      rw [List.all_append, lineText_not_blank, Bool.and_false]
    have hafter := hlines (line e).toList
    rw [lines_line hfree] at hafter
    rw [entriesOfText, String.toList_append, hafter, List.filter_append, entriesOfLines_append]
    simp only [List.filter_cons, hshown, Bool.not_false, if_pos, List.filter_nil]

/-- The line of an entry goes to the end of the text.  If the text ends within a line, the two are
one line, which is an entry only if nothing but a gap stood there. -/
theorem entriesOfText_append (h : entriesOfText file s = .ok es) (readable : e.ReadsBack) :
    entriesOfText file (s ++ line e) =
      if (Text.unended s.toList).all Value.Reader.isGap then .ok (es ++ [e])
      else .error (.journal (.unreadableLine file
        (if (Text.unended s.toList).all Text.isBlank then es.length + 1 else es.length))) := by
  obtain ⟨ended, hbefore, hafter⟩ := exists_entries_ended file s
  rw [hbefore] at h
  rw [hafter e]
  cases ended with
  | error fault => cases h
  | ok es' =>
      simp only [Except.bind, entriesOfLines_one] at h ⊢
      cases hblank : (Text.unended s.toList).all Text.isBlank with
      | true =>
          simp only [hblank, if_pos, entriesOfLines, Except.map, List.append_nil] at h
          cases h
          cases hgap : (Text.unended s.toList).all Value.Reader.isGap with
          | true => simp [entryOfLine?_gap_lineText hgap readable, Except.map]
          | false => simp [entryOfLine?_blank_lineText hblank hgap e, Except.map, Nat.add_comm]
      | false =>
          have hgap : (Text.unended s.toList).all Value.Reader.isGap = false := by
            rw [Bool.eq_false_iff]
            intro hgap
            rw [all_isBlank_of_all_isGap hgap] at hblank
            cases hblank
          simp only [hblank, Bool.false_eq_true, if_false, entriesOfLines_one] at h
          cases hentry : entryOfLine? (Text.unended s.toList) with
          | none => simp [hentry, Except.map] at h
          | some e' =>
              -- The last entry that was read is lost together with the one that is added.
              simp only [hentry, Except.map] at h
              cases h
              simp [entryOfLine?_entry_lineText hentry e, hgap, Except.map, Nat.add_comm]

/-! ## One append -/

theorem readText_put_self (named : nameFault? (fileName caseId) = none) (folder : Folder)
    (s : String) :
    Folder.readText (folder.put (fileName caseId) (.file (.text s))) (fileName caseId) =
      .ok s := by
  rw [Folder.readText_of_file named (Folder.get?_put_self _ _ _)]

/-- After an append the text of the file is what it was, with the new line behind it. -/
theorem load_of_taken (loads : (Journal.files folder).load caseId = .ok es)
    (taken : (Journal.files folder).append caseId e = .ok j) :
    ∃ s, entriesOfText (fileName caseId) s = .ok es ∧
      openEnd folder caseId = Text.unended s.toList ∧
      j.load caseId = entriesOfText (fileName caseId) (s ++ line e) := by
  obtain ⟨hid, folder', htext, rfl⟩ := append_files taken
  obtain ⟨hnamed, hcontents⟩ := Folder.of_appendText htext
  rw [load_files hid] at loads ⊢
  rw [openEnd]
  rcases hcontents with ⟨hnone, rfl⟩ | ⟨s, hs, rfl⟩ | ⟨hbytes, -⟩
  · -- The file is made by the append.
    rw [Folder.readText_of_none hnamed hnone] at loads ⊢
    rw [readText_put_self hnamed]
    cases loads
    exact ⟨"", entriesOfText_empty _, rfl, by rw [String.empty_append]⟩
  · rw [Folder.readText_of_file hnamed hs] at loads ⊢
    rw [readText_put_self hnamed]
    exact ⟨s, loads, rfl, rfl⟩
  · rw [Folder.readText_of_file hnamed hbytes] at loads
    cases loads

/-- A directory gives back an entry that can be read, if nothing but gaps stands behind the last
line end of the file. -/
theorem restores_files (ended : (openEnd folder caseId).all Value.Reader.isGap = true)
    (readable : e.ReadsBack) : (Journal.files folder).Restores caseId e := by
  intro j taken es loads
  obtain ⟨s, hs, hend, hload⟩ := load_of_taken loads taken
  rw [hend] at ended
  rw [hload, entriesOfText_append hs readable, if_pos ended]

end Journal

open Journal

/-- What is loaded after an append to a file that could be read.  The entries that were there and
the new one are, if the file ends with a line end, with a gap behind it, or is not there; otherwise
nothing is loaded any more, and the complaint is about the line that the new entry went to. -/
theorem load_append {folder : Folder} {caseId : String} {e : JournalEntry} {j : Journal}
    {es : List JournalEntry} (loads : (Journal.files folder).load caseId = .ok es)
    (taken : (Journal.files folder).append caseId e = .ok j) (readable : e.ReadsBack) :
    j.load caseId =
      if (openEnd folder caseId).all Value.Reader.isGap then .ok (es ++ [e])
      else .error (.journal (.unreadableLine (fileName caseId)
        (if (openEnd folder caseId).all Text.isBlank then es.length + 1 else es.length))) := by
  obtain ⟨s, hs, hend, hload⟩ := load_of_taken loads taken
  rw [hload, hend]
  exact entriesOfText_append hs readable

namespace Journal

/-- The journal with one file, of the case `"c1"`. -/
def oneFile (text : String) : Journal := .files [("c1.jsonl", .file (.text text))]

theorem isFileId_c1 : isFileId "c1" = true := by decide

theorem fileName_c1 : fileName "c1" = "c1.jsonl" := by rfl

theorem nameFault?_c1 : nameFault? "c1.jsonl" = none := by decide

theorem readText_oneFile (text : String) :
    Folder.readText [("c1.jsonl", .file (.text text))] (fileName "c1") = .ok text := by
  simp [Folder.readText, Folder.lookup, fileName_c1, nameFault?_c1, Folder.get?]

theorem load_oneFile (text : String) :
    (oneFile text).load "c1" = entriesOfText "c1.jsonl" text := by
  rw [oneFile, load_files isFileId_c1, readText_oneFile]
  rfl

theorem append_oneFile (text : String) (e : JournalEntry) :
    (oneFile text).append "c1" e = .ok (oneFile (text ++ line e)) := by
  simp [oneFile, append, fileName?, isFileId_c1, Folder.appendText, Folder.lookup, fileName_c1,
    nameFault?_c1, Folder.get?, Folder.put, bind, Except.bind, pure, Except.pure]

theorem entryOfLine?_twoLinesText : entryOfLine? twoLinesText.toList = some twoLines := by
  rw [← lineText_twoLines]
  exact readsBack_twoLines

end Journal

/-- An entry goes behind a line of which only blanks are there. -/
theorem load_append_gap :
    (oneFile "\r\n \t").load "c1" = .ok [] ∧
      (oneFile ("\r\n \t" ++ line twoLines)).load "c1" = .ok [twoLines] := by
  have hload : (oneFile "\r\n \t").load "c1" = .ok [] := by
    rw [load_oneFile]
    rfl
  have hread : openEnd [("c1.jsonl", .file (.text "\r\n \t"))] "c1" = [' ', '\t'] := by
    rw [openEnd, readText_oneFile]
    rfl
  refine ⟨hload, ?_⟩
  have happended := load_append hload (append_oneFile "\r\n \t" twoLines) readsBack_twoLines
  rw [hread] at happended
  exact happended

/-- A file that can be read and ends with an entry, but not with a line end: after an append nothing
of it is loaded. -/
theorem unended_entry_lost :
    (oneFile twoLinesText).load "c1" = .ok [twoLines] ∧ twoLines.ReadsBack ∧
      (oneFile twoLinesText).append "c1" twoLines =
        .ok (oneFile (twoLinesText ++ line twoLines)) ∧
      (oneFile (twoLinesText ++ line twoLines)).load "c1" =
        .error (.journal (.unreadableLine "c1.jsonl" 1)) := by
  have hload : (oneFile twoLinesText).load "c1" = .ok [twoLines] := by
    have hlines : ((Text.lines twoLinesText.toList).filter fun l => !l.all Text.isBlank) =
        [twoLinesText.toList] := by
      decide +kernel
    rw [load_oneFile, entriesOfText, hlines, entriesOfLines_one, entryOfLine?_twoLinesText]
  refine ⟨hload, readsBack_twoLines, append_oneFile _ _, ?_⟩
  have hunended : Text.unended twoLinesText.toList = twoLinesText.toList := by
    decide +kernel
  have hblank : twoLinesText.toList.all Text.isBlank = false := by
    decide +kernel
  have hgap : twoLinesText.toList.all Value.Reader.isGap = false := by
    decide +kernel
  rw [load_oneFile] at hload ⊢
  rw [entriesOfText_append hload readsBack_twoLines, hunended, hgap, hblank]
  rfl

end Casework
