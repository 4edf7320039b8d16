import Casework.Execution.Host
import Casework.Proofs.Files.Opening
import Casework.Proofs.Journal.Contents
import Casework.Proofs.Journal.Lines

/-!
# Refinement — a journal in files answers like one in memory

Whoever asks a journal cannot tell whether it is kept in memory or in files, nor whether the
directory was opened again in between.

* `Journal.Call`, `Journal.Reply`, `Journal.call` : what callers ask and what they are answered;
* `Journal.appended`, `Journal.IsDue` : the answer that the calls before it call for;
* `Journal.Reopened` : a journal over the files that another one left;
* `Journal.Serves` : calls and their answers, the journal reopened in between at will;
* `Journal.image` : the directory that a journal in memory corresponds to;
* `files_refine_memory` : the answers are those of a journal in memory, and they are due.
-/

namespace Casework

namespace Table

variable {α : Type}

/-- The keys after an insertion are the old ones and the new one. -/
theorem mem_keys_insert (t : Table α) (key id : String) (a : α) :
    id ∈ (t.insert key a).map Prod.fst ↔ id = key ∨ id ∈ t.map Prod.fst := by
  induction t with
  | nil => simp [insert]
  | cons entry rest ih =>
      obtain ⟨k, b⟩ := entry
      by_cases hk : k = key
      · subst hk
        simp [insert]
      · simp only [insert, if_neg hk, List.map_cons, List.mem_cons, ih]
        exact or_left_comm

theorem mem_insert {t : Table α} {key : String} {a : α} {entry : String × α}
    (h : entry ∈ t.insert key a) : entry = (key, a) ∨ entry ∈ t := by
  induction t with
  | nil => exact .inl (List.mem_singleton.1 h)
  | cons first rest ih =>
      obtain ⟨k, b⟩ := first
      by_cases hk : k = key
      · rw [insert, if_pos hk] at h
        rcases List.mem_cons.1 h with hnew | hold
        · exact .inl hnew
        · exact .inr (List.mem_cons_of_mem _ hold)
      · rw [insert, if_neg hk] at h
        rcases List.mem_cons.1 h with rfl | hrest
        · exact .inr List.mem_cons_self
        · rcases ih hrest with hnew | hold
          · exact .inl hnew
          · exact .inr (List.mem_cons_of_mem _ hold)

/-- Keys stay distinct. -/
theorem nodup_keys_insert (t : Table α) (key : String) (a : α) (h : (t.map Prod.fst).Nodup) :
    ((t.insert key a).map Prod.fst).Nodup := by
  induction t with
  | nil => simp [insert]
  | cons entry rest ih =>
      obtain ⟨k, b⟩ := entry
      obtain ⟨hfresh, hrest⟩ := List.nodup_cons.1 h
      by_cases hk : k = key
      · subst hk
        simpa [insert] using h
      · rw [insert, if_neg hk, List.map_cons, List.nodup_cons]
        refine ⟨?_, ih hrest⟩
        rw [mem_keys_insert]
        rintro (heq | hmem)
        · exact hk heq
        · exact hfresh hmem

end Table

namespace Journal

/-! ## Calls -/

inductive Call where
  | append (caseId : String) (e : JournalEntry)
  | load (caseId : String)
  | caseIds

inductive Reply where
  | taken (outcome : Except Error Unit)
  | loaded (entries : Except Error (List JournalEntry))
  | listed (ids : List String)

def call (j : Journal) : Call → Journal × Reply
  | .append caseId e =>
      match j.append caseId e with
      | .ok j => (j, .taken (.ok ()))
      | .error fault => (j, .taken (.error fault))
  | .load caseId => (j, .loaded (j.load caseId))
  | .caseIds => (j, .listed j.caseIds)

def replies (j : Journal) : List Call → List Reply
  | [] => []
  | c :: calls => (j.call c).2 :: replies (j.call c).1 calls

/-- The entries that calls append to a case, in order. -/
def appended (calls : List Call) (caseId : String) : List JournalEntry :=
  calls.filterMap fun
    | .append id e => if id = caseId then some e else none
    | _ => none

/-- Whether an answer is the one that is due after some calls: what is appended is taken, what was
appended to a case is loaded, and the cases with entries are listed in ascending order. -/
def IsDue (before : List Call) : Call → Reply → Prop
  | .append _ _, reply => reply = .taken (.ok ())
  | .load caseId, reply => reply = .loaded (.ok (appended before caseId))
  | .caseIds, reply => ∃ ids, reply = .listed ids ∧ ids.Pairwise (· < ·) ∧
      ∀ id, id ∈ ids ↔ appended before id ≠ []

/-- Whether a call is about a case that a journal in a directory accepts, and hands over an entry
that is read back. -/
def Call.IsSound : Call → Prop
  | .append caseId e => (Journal.files []).Accepts caseId ∧ e.ReadsBack
  | .load caseId => (Journal.files []).Accepts caseId
  | .caseIds => True

/-- Whether a journal is what opening a directory gives in which another one left its files. -/
inductive Reopened : Journal → Journal → Prop
  | again {t t' : FileTree} {path : String} {folder : Folder} {j : Journal}
      (proper : ∀ n ∈ t.workingDirectory, FileTree.IsName n)
      (left : t.resolve path = .ok (.directory folder))
      (opened : Host.openJournal t (some path) = .ok (t', j)) : Reopened (.files folder) j

/-- Whether calls may be answered so by a journal that may be reopened at any time. -/
inductive Serves : Journal → List Call → List Reply → Prop
  | done (j : Journal) : Serves j [] []
  | call {j : Journal} {c : Call} {calls : List Call} {replies : List Reply}
      (rest : Serves (j.call c).1 calls replies) : Serves j (c :: calls) ((j.call c).2 :: replies)
  | reopened {j j' : Journal} {calls : List Call} {replies : List Reply} (h : Reopened j j')
      (rest : Serves j' calls replies) : Serves j calls replies

variable {cases : Table (List JournalEntry)} {caseId : String} {e : JournalEntry}
variable {es : List JournalEntry} {c : Call} {before calls : List Call} {rs : List Reply}

/-- The replies of a journal are replies to the calls that it serves. -/
theorem serves_replies (j : Journal) (calls : List Call) : Serves j calls (replies j calls) := by
  induction calls generalizing j with
  | nil => exact .done j
  | cons c calls ih => exact .call (ih _)

/-- Reopening changes nothing. -/
theorem Reopened.eq {j j' : Journal} (h : Reopened j j') : j' = j := by
  cases h with
  | again proper left opened =>
      have hfolder := FileTree.openFolder_of_resolve proper left
      simp only [Host.openJournal, hfolder] at opened
      cases opened
      rfl

theorem pathParts_one : FileTree.pathParts "j" = ["j"] := by
  unfold FileTree.pathParts String.splitOn
  rw [if_neg (by decide), String.splitOnAux, if_neg (by decide +kernel),
    if_neg (by decide +kernel), String.splitOnAux, if_pos (by decide +kernel)]
  decide +kernel

/-- Every directory can be opened again, for instance next to the root. -/
theorem reopened_self (folder : Folder) : Reopened (.files folder) (.files folder) := by
  have hleft : FileTree.resolve ⟨[("j", .directory folder)], []⟩ "j" =
      .ok (.directory folder) := by
    have hsound : FileTree.pathFault? "j" = none := by decide +kernel
    have hname : nameFault? "j" = none := by decide
    simp [FileTree.resolve, hsound, pathParts_one, FileTree.walk, Folder.lookup, Folder.get?, hname]
  have hopened := FileTree.openFolder_of_resolve (t := ⟨[("j", .directory folder)], []⟩)
    (by simp) hleft
  exact .again (t := ⟨[("j", .directory folder)], []⟩) (by simp) hleft
    (by rw [Host.openJournal, hopened])

/-! ## In memory -/

/-- Whether a table holds what some calls have appended. -/
structure Recalls (cases : Table (List JournalEntry)) (before : List Call) : Prop where
  entries : ∀ id, (cases.get? id).getD [] = appended before id
  listed : ∀ id, id ∈ cases.map Prod.fst ↔ appended before id ≠ []
  distinct : (cases.map Prod.fst).Nodup

theorem recalls_nil : Recalls [] [] where
  entries _ := rfl
  listed := by simp [appended]
  distinct := List.nodup_nil

theorem appended_concat_self (before : List Call) (caseId : String) (e : JournalEntry) :
    appended (before ++ [.append caseId e]) caseId = appended before caseId ++ [e] := by
  simp [appended]

theorem appended_concat_of_ne {other : String} (h : other ≠ caseId) (before : List Call)
    (e : JournalEntry) : appended (before ++ [.append caseId e]) other = appended before other := by
  simp [appended, Ne.symm h]

/-- An entry that is put into memory is recalled. -/
theorem Recalls.insert (h : Recalls cases before) (caseId : String) (e : JournalEntry) :
    Recalls (cases.insert caseId ((cases.get? caseId).getD [] ++ [e]))
      (before ++ [.append caseId e]) where
  entries := by
    intro id
    by_cases hid : id = caseId
    · subst hid
      rw [Table.get?_insert_self, appended_concat_self, h.entries]
      rfl
    · rw [Table.get?_insert_of_ne _ _ hid, appended_concat_of_ne hid, h.entries]
  listed := by
    intro id
    rw [Table.mem_keys_insert]
    by_cases hid : id = caseId
    · subst hid
      simp [appended_concat_self]
    · rw [appended_concat_of_ne hid, h.listed]
      simp [hid]
  distinct := Table.nodup_keys_insert _ _ _ h.distinct

/-- A journal in memory gives the answer that is due. -/
theorem recalls_call (h : Recalls cases before) (c : Call) :
    IsDue before c ((Journal.memory cases).call c).2 ∧
      ∃ cases', ((Journal.memory cases).call c).1 = .memory cases' ∧
        Recalls cases' (before ++ [c]) := by
  -- Only an append changes what is recalled.
  cases c with
  | append caseId e => exact ⟨rfl, _, rfl, h.insert caseId e⟩
  | load caseId =>
      refine ⟨?_, cases, rfl, ?_⟩
      · simp [call, load, IsDue, h.entries]
      · exact ⟨by simpa [appended] using h.entries, by simpa [appended] using h.listed, h.distinct⟩
  | caseIds =>
      refine ⟨⟨cases.keys, rfl, ?_, ?_⟩, cases, rfl, ?_⟩
      · have hsorted : cases.keys.Pairwise (· ≤ ·) := pairwise_caseIds (.memory cases)
        have hdistinct : cases.keys.Nodup :=
          (List.mergeSort_perm _ _).nodup_iff.2 h.distinct
        refine hsorted.imp₂ ?_ hdistinct
        intro a b hle hne
        exact String.not_le.1 fun hge => hne (String.le_antisymm hle hge)
      · intro id
        rw [Table.keys, List.mem_mergeSort]
        exact h.listed id
      · exact ⟨by simpa [appended] using h.entries, by simpa [appended] using h.listed, h.distinct⟩

/-- In memory every reply is what is due after the calls before it. -/
theorem due_of_recalls (h : Recalls cases before) (calls : List Call) :
    ∀ (i : Nat) c, calls[i]? = some c → ∃ reply, (replies (.memory cases) calls)[i]? = some reply ∧
      IsDue (before ++ calls.take i) c reply := by
  induction calls generalizing cases before with
  | nil => simp
  | cons first rest ih =>
      obtain ⟨hdue, cases', hnext, hrecalls⟩ := recalls_call h first
      intro i c hc
      cases i with
      | zero =>
          obtain rfl : first = c := by simpa using hc
          exact ⟨_, rfl, by simpa using hdue⟩
      | succ i =>
          obtain ⟨reply, hreply, hlater⟩ := ih hrecalls i c (by simpa using hc)
          refine ⟨reply, ?_, by simpa using hlater⟩
          rw [replies, hnext]
          simpa using hreply

/-! ## In files -/

/-- The directory that holds what a journal in memory holds. -/
def image (cases : Table (List JournalEntry)) : Folder :=
  cases.map fun c => (fileName c.1, .file (.text (String.join (c.2.map line))))

/-- Whether the cases of a table can be kept in files, and their entries be read from there. -/
def Keepable (cases : Table (List JournalEntry)) : Prop :=
  ∀ c ∈ cases, isFileId c.1 = true ∧ ∀ e ∈ c.2, e.ReadsBack

/-- The directory that stands for a table has one file for each case. -/
theorem get?_image (cases : Table (List JournalEntry)) (caseId : String) :
    (image cases).get? (fileName caseId) =
      (cases.get? caseId).map fun es => .file (.text (String.join (es.map line))) := by
  induction cases with
  | nil => rfl
  | cons entry rest ih =>
      obtain ⟨id, es⟩ := entry
      by_cases hid : id = caseId
      · subst hid
        simp [image, Folder.get?, Table.get?]
      · have hname : fileName id ≠ fileName caseId := fun heq => hid (fileName_injective heq)
        have hfolder : Folder.get? (image rest) (fileName caseId) =
            Folder.get? (image ((id, es) :: rest)) (fileName caseId) := by
          simp [image, Folder.get?, hname]
        rw [← hfolder, ih, Table.get?_cons, if_neg hid]

/-- Files and cases keep their places in the same way. -/
theorem put_image (cases : Table (List JournalEntry)) (caseId : String) (es : List JournalEntry) :
    (image cases).put (fileName caseId) (.file (.text (String.join (es.map line)))) =
      image (cases.insert caseId es) := by
  induction cases with
  | nil => rfl
  | cons entry rest ih =>
      obtain ⟨id, held⟩ := entry
      by_cases hid : id = caseId
      · subst hid
        simp [image, Folder.put, Table.insert]
      · have hname : fileName id ≠ fileName caseId := fun heq => hid (fileName_injective heq)
        rw [Table.insert, if_neg hid]
        simp only [image, List.map_cons, Folder.put, if_neg hname]
        exact congrArg _ ih

/-- To append to this directory is to put the entry into the table. -/
theorem appendText_image (named : nameFault? (fileName caseId) = none) (e : JournalEntry) :
    (image cases).appendText (fileName caseId) (line e) =
      .ok (image (cases.insert caseId ((cases.get? caseId).getD [] ++ [e]))) := by
  have hget := get?_image cases caseId
  rw [← put_image]
  unfold Folder.appendText Folder.lookup
  rw [named, hget]
  cases cases.get? caseId with
  | none => simp
  | some es => simp [String.join_append]

theorem append_image (accepts : (Journal.files []).Accepts caseId) (e : JournalEntry) :
    (Journal.files (image cases)).append caseId e =
      .ok (.files (image (cases.insert caseId ((cases.get? caseId).getD [] ++ [e])))) := by
  obtain ⟨hid, hnamed, -⟩ := accepts
  simp [append, fileName?, hid, appendText_image hnamed, bind, Except.bind, pure, Except.pure]

/-- A case is loaded from the directory as it is from the table, if its entries are read back. -/
theorem load_image (accepts : (Journal.files []).Accepts caseId) (keepable : Keepable cases) :
    (Journal.files (image cases)).load caseId = .ok ((cases.get? caseId).getD []) := by
  obtain ⟨hid, hnamed, -⟩ := accepts
  have hget := get?_image cases caseId
  rw [load_files hid]
  cases hentries : cases.get? caseId with
  | none =>
      rw [hentries] at hget
      rw [Folder.readText_of_none hnamed hget]
      rfl
  | some es =>
      rw [hentries] at hget
      have hreadable : ∀ e ∈ es, e.ReadsBack := by
        obtain ⟨entry, hfind, hes⟩ := Option.map_eq_some_iff.1 hentries
        subst hes
        exact (keepable entry (List.mem_of_find?_eq_some hfind)).2
      rw [Folder.readText_of_file hnamed hget]
      exact entriesOfText_written (fileName caseId) hreadable

/-- Both list the same cases. -/
theorem caseIds_image (keepable : Keepable cases) :
    (Journal.files (image cases)).caseIds = (Journal.memory cases).caseIds := by
  have hids : (image cases).filterMap (fun entry => caseIdOfFile? entry.1) =
      cases.map Prod.fst := by
    induction cases with
    | nil => rfl
    | cons entry rest ih =>
        have hentry := caseIdOfFile?_fileName (keepable entry List.mem_cons_self).1
        have hrest := ih fun c hc => keepable c (List.mem_cons_of_mem _ hc)
        simp only [image] at hrest
        simp [image, hentry, hrest]
  simp only [caseIds, hids, Table.keys]

/-- Entries that are read back keep a table keepable. -/
theorem Keepable.insert (keepable : Keepable cases) (hid : isFileId caseId = true)
    (readable : e.ReadsBack) :
    Keepable (cases.insert caseId ((cases.get? caseId).getD [] ++ [e])) := by
  intro c hc
  rcases Table.mem_insert hc with rfl | hold
  · refine ⟨hid, ?_⟩
    intro e' he'
    rcases List.mem_append.1 he' with hheld | hnew
    · cases hentries : cases.get? caseId with
      | none => simp [hentries] at hheld
      | some es =>
          obtain ⟨entry, hfind, rfl⟩ := Option.map_eq_some_iff.1 hentries
          rw [hentries] at hheld
          exact (keepable entry (List.mem_of_find?_eq_some hfind)).2 e' hheld
    · obtain rfl := List.mem_singleton.1 hnew
      exact readable
  · exact keepable c hold

/-- A sound call is answered alike, and the directory goes on as the image of the table. -/
theorem call_image (keepable : Keepable cases) (sound : c.IsSound) :
    ∃ cases' reply, (Journal.memory cases).call c = (.memory cases', reply) ∧
      (Journal.files (image cases)).call c = (.files (image cases'), reply) ∧
        Keepable cases' := by
  cases c with
  | append caseId e =>
      obtain ⟨haccepts, hreadable⟩ := sound
      refine ⟨_, _, rfl, ?_, keepable.insert haccepts.1 hreadable⟩
      simp [call, append_image haccepts]
  | load caseId =>
      refine ⟨cases, _, rfl, ?_, keepable⟩
      have hload := load_image sound keepable
      simp only [call, hload]
      rfl
  | caseIds =>
      refine ⟨cases, _, rfl, ?_, keepable⟩
      simp only [call, caseIds_image keepable]

/-- A directory serves what memory serves, by induction on the calls. -/
theorem eq_replies_of_serves {j : Journal} (h : Serves j calls rs) (hj : j = .files (image cases))
    (keepable : Keepable cases) (sound : ∀ c ∈ calls, c.IsSound) :
    rs = replies (.memory cases) calls := by
  induction h generalizing cases with
  | done j => rfl
  | @call j c calls rs rest ih =>
      subst hj
      obtain ⟨cases', reply, hmemory, hfiles, hkeepable⟩ :=
        call_image keepable (sound c (by simp))
      rw [replies, hmemory, hfiles]
      congr 1
      exact ih (by rw [hfiles]) hkeepable fun c' hc' => sound c' (by simp [hc'])
  | reopened h rest ih => exact ih (h.eq.trans hj) keepable sound

theorem replies_image (keepable : Keepable cases) (sound : ∀ c ∈ calls, c.IsSound) :
    replies (.files (image cases)) calls = replies (.memory cases) calls :=
  eq_replies_of_serves (serves_replies _ _) rfl keepable sound

end Journal

open Journal

/-- A journal in a directory that was empty at first gives the answers of a journal in memory, and
no others, however often it is reopened; and these are the answers that are due. -/
theorem files_refine_memory (calls : List Journal.Call) (sound : ∀ c ∈ calls, c.IsSound) :
    (∀ rs, Serves (.files []) calls rs ↔ rs = replies .empty calls) ∧
    ∀ (i : Nat) c, calls[i]? = some c → ∃ reply, (replies .empty calls)[i]? = some reply ∧
      IsDue (calls.take i) c reply := by
  have hkeepable : Keepable [] := by
    intro c hc
    cases hc
  constructor
  · intro rs
    constructor
    · intro hserves
      exact eq_replies_of_serves hserves rfl hkeepable sound
    · rintro rfl
      have hsame := replies_image hkeepable sound
      rw [Journal.empty, ← hsame]
      exact serves_replies _ _
  · exact due_of_recalls recalls_nil calls

/-! ## A text of two lines -/

namespace Journal

def twoLines : JournalEntry := .failed "two\nlines" ⟨0, 0⟩

def twoLinesText : String :=
  "\x7b\"event\":\"failed\",\"error\":\"two\\nlines\",\"at\":\"1970-01-01T00:00:00Z\"\x7d"

def twoLinesValue : Value :=
  .obj [("event", .str "failed"), ("error", .str "two\nlines"), ("at", .str "1970-01-01T00:00:00Z")]

theorem lineText_twoLines : lineText twoLines = twoLinesText.toList := by
  decide +kernel

theorem read_twoLinesText : Value.read? twoLinesText = some twoLinesValue := by
  cbv

theorem decode_twoLinesValue : JournalEntry.decoder.decode twoLinesValue = .ok twoLines := by
  rfl

theorem readsBack_twoLines : twoLines.ReadsBack := by
  rw [JournalEntry.ReadsBack, lineText_twoLines, entryOfLine?, String.ofList_toList,
    read_twoLinesText, Option.bind_eq_bind, Option.bind_some, decode_twoLinesValue]
  rfl

end Journal

/-- A text of two lines goes into one line of a file whose name ends twice in the same way. -/
theorem files_refine_memory_twoLines :
    Serves (.files []) [.append ".a.jsonl" twoLines, .load ".a.jsonl", .load "b c"]
      [.taken (.ok ()), .loaded (.ok [twoLines]), .loaded (.ok [])] := by
  have hdotted : (Journal.files []).Accepts ".a.jsonl" :=
    ⟨by decide, by decide, by simp [Folder.get?]⟩
  have hspaced : (Journal.files []).Accepts "b c" :=
    ⟨by decide, by decide, by simp [Folder.get?]⟩
  have hrefines :=
    files_refine_memory [.append ".a.jsonl" twoLines, .load ".a.jsonl", .load "b c"] ?_
  · exact (hrefines.1 _).2 rfl
  · intro c hc
    simp only [List.mem_cons, List.not_mem_nil, or_false] at hc
    rcases hc with rfl | rfl | rfl
    · exact ⟨hdotted, readsBack_twoLines⟩
    · exact hdotted
    · exact hspaced

end Casework
