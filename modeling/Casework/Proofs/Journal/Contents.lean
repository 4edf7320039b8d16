import Casework.Proofs.Journal.Keeping

/-!
# Contents — what a journal holds of one case

* `Journal.Holds` : the entries of a case, as they are kept in memory or written in its file;
* `Journal.holds_append`, `Journal.holds_append_of_ne` : one append, seen from its case and from
  the others;
* `Journal.accepts_of_append`, `Journal.accepts_of_append_of_ne` : a case to which something was
  appended takes whatever comes, and an append to one case opens no other;
* `Journal.load_of_holds_nil` : a case of which nothing is held is loaded as such;
* `Journal.mem_caseIds_of_loads`, `Journal.pairwise_caseIds` : what is loaded is listed, in order.
-/

namespace Casework

namespace Folder

/-- Other names keep their entries. -/
theorem get?_put_of_ne (f : Folder) {name other : String} (node : FileNode) (h : other ≠ name) :
    (f.put name node).get? other = f.get? other := by
  have hne : name ≠ other := fun heq => h heq.symm
  induction f with
  | nil => simp [put, get?, hne]
  | cons entry rest ih =>
      rcases entry with ⟨n, old⟩
      have hrest : Folder.get? (Folder.put rest name node) other = Folder.get? rest other := ih
      by_cases hn : n = name
      · simp [put, get?, hn, hne]
      · by_cases ho : n = other
        · have hother : other ≠ name := h
          simp [put, get?, ho, hother]
        · simpa [put, get?, hn, ho] using hrest

theorem nameFault?_ne_notFound (name : String) : nameFault? name ≠ some .notFound := by
  unfold nameFault?
  split
  · simp
  · split <;> simp

/-- Text is added to a file that is not there or that holds text; other bytes swallow it. -/
theorem of_appendText {f f' : Folder} {name text : String} (h : f.appendText name text = .ok f') :
    nameFault? name = none ∧
      ((f.get? name = none ∧ f' = f.put name (.file (.text text))) ∨
        (∃ s, f.get? name = some (.file (.text s)) ∧ f' = f.put name (.file (.text (s ++ text)))) ∨
        (f.get? name = some (.file .undecodable) ∧ f' = f)) := by
  unfold appendText lookup at h
  cases hname : nameFault? name with
  | some cause =>
      have hcause : cause ≠ .notFound := by
        intro heq
        exact nameFault?_ne_notFound name (by rw [hname, heq])
      cases cause <;> simp [hname] at h hcause
  | none =>
      refine ⟨rfl, ?_⟩
      cases hnode : f.get? name with
      | none => exact .inl ⟨rfl, by simpa [hname, hnode] using h.symm⟩
      | some node =>
          cases node with
          | directory entries => simp [hname, hnode] at h
          | file content =>
              cases content with
              | undecodable => exact .inr (.inr ⟨rfl, by simpa [hname, hnode] using h.symm⟩)
              | text s => exact .inr (.inl ⟨s, rfl, by simpa [hname, hnode] using h.symm⟩)

theorem readText_of_none {f : Folder} {name : String} (named : nameFault? name = none)
    (h : f.get? name = none) : f.readText name = .error .notFound := by
  simp [readText, lookup, named, h]

theorem readText_of_file {f : Folder} {name : String} {content : FileContent}
    (named : nameFault? name = none) (h : f.get? name = some (.file content)) :
    f.readText name =
      match content with
      | .text s => .ok s
      | .undecodable => .error .notText := by
  cases content <;> simp [readText, lookup, named, h]

/-- Other files keep their texts. -/
theorem get?_of_appendText {f f' : Folder} {name text other : String}
    (h : f.appendText name text = .ok f') (hne : other ≠ name) : f'.get? other = f.get? other := by
  rcases (of_appendText h).2 with ⟨-, rfl⟩ | ⟨s, -, rfl⟩ | ⟨-, rfl⟩
  · exact get?_put_of_ne f _ hne
  · exact get?_put_of_ne f _ hne
  · rfl

end Folder

namespace Journal

variable {j j' : Journal} {caseId other : String} {es : List JournalEntry} {e : JournalEntry}

/-- Different cases have different files. -/
theorem fileName_injective (h : fileName caseId = fileName other) : caseId = other := by
  have hlists : caseId.toList ++ ".jsonl".toList = other.toList ++ ".jsonl".toList := by
    have htoList := congrArg String.toList h
    simpa [fileName] using htoList
  have hsame : caseId.toList = other.toList := List.append_cancel_right hlists
  exact String.toList_inj.1 hsame

/-- Whether a journal holds these entries of a case and no others. -/
def Holds (caseId : String) (es : List JournalEntry) : Journal → Prop
  | .memory cases => (cases.get? caseId).getD [] = es
  | .files folder =>
      match folder.get? (fileName caseId) with
      | none => es = []
      | some node => node = .file (.text (String.join (es.map line)))

/-- In memory an entry is put behind those of its case. -/
theorem append_memory {cases : Table (List JournalEntry)}
    (h : (Journal.memory cases).append caseId e = .ok j') :
    j' = .memory (cases.insert caseId ((cases.get? caseId).getD [] ++ [e])) := by
  simpa [append] using h.symm

/-- In a directory its line is put at the end of a file. -/
theorem append_files {folder : Folder} (h : (Journal.files folder).append caseId e = .ok j') :
    isFileId caseId = true ∧ ∃ folder', folder.appendText (fileName caseId) (line e) = .ok folder' ∧
      j' = .files folder' := by
  simp only [append, fileName?] at h
  cases hid : isFileId caseId with
  | false => simp [hid, bind, Except.bind] at h
  | true =>
      cases happend : folder.appendText (fileName caseId) (line e) with
      | error cause => simp [hid, happend, bind, Except.bind] at h
      | ok folder' =>
          have hj : Journal.files folder' = j' := by
            simpa [hid, happend, bind, Except.bind, pure, Except.pure] using h
          exact ⟨rfl, folder', rfl, hj.symm⟩

theorem load_files (hid : isFileId caseId = true) (folder : Folder) :
    (Journal.files folder).load caseId =
      match folder.readText (fileName caseId) with
      | .ok text => entriesOfText (fileName caseId) text
      | .error .notFound => .ok []
      | .error cause => .error (.io cause) := by
  rw [load, fileName?, if_pos hid]
  rfl

/-- A case holds one more entry after an append. -/
theorem holds_append (h : j.Holds caseId es) (happend : j.append caseId e = .ok j') :
    j'.Holds caseId (es ++ [e]) := by
  cases j with
  | memory cases =>
      have hes : (cases.get? caseId).getD [] = es := h
      rw [append_memory happend]
      simp [Holds, Table.get?_insert_self, hes]
  | files folder =>
      rcases append_files happend with ⟨-, folder', htext, rfl⟩
      simp only [Holds] at h ⊢
      rcases (Folder.of_appendText htext).2 with ⟨hnode, rfl⟩ | ⟨s, hnode, rfl⟩ | ⟨hnode, rfl⟩
      · have hnil : es = [] := by simpa [hnode] using h
        simp [Folder.get?_put_self, hnil, String.join]
      · have hs : s = String.join (es.map line) := by simpa [hnode] using h
        simp [Folder.get?_put_self, hs]
      · simp [hnode] at h

/-- The other cases hold what they held. -/
theorem holds_append_of_ne (h : j.Holds other es) (hne : other ≠ caseId)
    (happend : j.append caseId e = .ok j') : j'.Holds other es := by
  cases j with
  | memory cases =>
      have hother := Table.get?_insert_of_ne cases ((cases.get? caseId).getD [] ++ [e]) hne
      rw [append_memory happend]
      simpa [Holds, hother] using h
  | files folder =>
      rcases append_files happend with ⟨-, folder', htext, rfl⟩
      have hname : fileName other ≠ fileName caseId := fun heq => hne (fileName_injective heq)
      have hsame := Folder.get?_of_appendText htext hname
      simpa [Holds, hsame] using h

/-- A case to which something was appended takes whatever comes. -/
theorem accepts_of_append (h : j.append caseId e = .ok j') : j.Accepts caseId := by
  cases j with
  | memory cases => trivial
  | files folder =>
      rcases append_files h with ⟨hid, folder', htext, -⟩
      rcases Folder.of_appendText htext with ⟨hname, hnode | ⟨s, hnode, -⟩ | hnode⟩
      · exact ⟨hid, hname, by simp [hnode.1]⟩
      · exact ⟨hid, hname, by simp [hnode]⟩
      · exact ⟨hid, hname, by simp [hnode.1]⟩

/-- An append to one case opens no other. -/
theorem accepts_of_append_of_ne (h : j'.Accepts other) (hne : other ≠ caseId)
    (happend : j.append caseId e = .ok j') : j.Accepts other := by
  cases j with
  | memory cases => trivial
  | files folder =>
      rcases append_files happend with ⟨-, folder', htext, rfl⟩
      have hname : fileName other ≠ fileName caseId := fun heq => hne (fileName_injective heq)
      have hsame := Folder.get?_of_appendText htext hname
      rcases h with ⟨hid, hfault, hdirectory⟩
      exact ⟨hid, hfault, by simpa [hsame] using hdirectory⟩

/-- An empty file holds no entries. -/
theorem entriesOfText_empty (file : String) : entriesOfText file "" = .ok [] := by
  rfl

/-- A case of which nothing is held is loaded as such, if it can be loaded. -/
theorem load_of_holds_nil (h : j.Holds caseId []) (hload : j.load caseId = .ok es) : es = [] := by
  cases j with
  | memory cases =>
      have hnil : (cases.get? caseId).getD [] = [] := h
      simpa [load, hnil] using hload.symm
  | files folder =>
      simp only [Holds] at h
      simp only [load, fileName?] at hload
      cases hid : isFileId caseId with
      | false => simp [hid, bind, Except.bind] at hload
      | true =>
          -- A file of which nothing is held is missing, empty or unreadable for another reason.
          have hread : folder.readText (fileName caseId) = .error .notFound ∨
              folder.readText (fileName caseId) = .ok "" ∨
              ∃ cause, cause ≠ .notFound ∧
                folder.readText (fileName caseId) = .error cause := by
            unfold Folder.readText Folder.lookup
            cases hname : nameFault? (fileName caseId) with
            | some cause =>
                right
                right
                refine ⟨cause, ?_, rfl⟩
                intro heq
                exact Folder.nameFault?_ne_notFound (fileName caseId) (by rw [hname, heq])
            | none =>
                cases hnode : folder.get? (fileName caseId) with
                | none => exact .inl rfl
                | some node =>
                    have hempty : node = .file (.text "") := by simpa [hnode, String.join] using h
                    subst hempty
                    exact .inr (.inl rfl)
          rcases hread with hmissing | hempty | ⟨cause, hcause, hfault⟩
          · simpa [hid, hmissing, bind, Except.bind, pure, Except.pure] using hload.symm
          · simpa [hid, hempty, entriesOfText_empty, bind, Except.bind] using hload.symm
          · cases cause <;> simp [hid, hfault, bind, Except.bind] at hload hcause

/-! ## The listing -/

/-- The name of the file of a case tells which case it is. -/
theorem caseIdOfFile?_fileName (h : isFileId caseId = true) :
    caseIdOfFile? (fileName caseId) = some caseId := by
  have hreverse : (fileName caseId).toList.reverse =
      ['l', 'n', 'o', 's', 'j', '.'] ++ caseId.toList.reverse := by
    simp [fileName]
  have hnonempty : caseId ≠ "" := by
    rintro rfl
    simp [isFileId] at h
  have hstem : caseId.toList.reverse ≠ [] := by
    intro hnil
    apply hnonempty
    simpa using hnil
  unfold caseIdOfFile?
  rw [hreverse]
  simp [hstem]

/-- A case with entries that can be loaded is listed. -/
theorem mem_caseIds_of_loads (h : j.load caseId = .ok (e :: es)) : caseId ∈ j.caseIds := by
  cases j with
  | memory cases =>
      have hentries : (cases.get? caseId).getD [] = e :: es := by simpa [load] using h
      cases hget : cases.get? caseId with
      | none => simp [hget] at hentries
      | some held =>
          rcases Option.map_eq_some_iff.1 hget with ⟨entry, hfind, -⟩
          have hkey : entry.1 = caseId := by simpa using List.find?_some hfind
          have hmem : entry ∈ cases := List.mem_of_find?_eq_some hfind
          simp only [caseIds, Table.keys, List.mem_mergeSort, List.mem_map]
          exact ⟨entry, hmem, hkey⟩
  | files folder =>
      simp only [load, fileName?] at h
      cases hid : isFileId caseId with
      | false => simp [hid, bind, Except.bind] at h
      | true =>
          -- Without a file the case would have been loaded as empty.
          have hfound : ∃ node, folder.get? (fileName caseId) = some node := by
            cases hget : folder.get? (fileName caseId) with
            | some node => exact ⟨node, rfl⟩
            | none =>
                cases hfault : nameFault? (fileName caseId) with
                | none =>
                    simp [hid, Folder.readText, Folder.lookup, hget, hfault, bind, Except.bind, pure,
                      Except.pure] at h
                | some cause =>
                    have hcause : cause ≠ .notFound := by
                      rintro rfl
                      exact Folder.nameFault?_ne_notFound _ hfault
                    cases cause <;>
                      simp [hid, Folder.readText, Folder.lookup, hget, hfault, bind,
                        Except.bind] at h hcause
          rcases hfound with ⟨node, hnode⟩
          rcases Option.map_eq_some_iff.1 hnode with ⟨entry, hfind, -⟩
          have hname : entry.1 = fileName caseId := by simpa using List.find?_some hfind
          have hmem : entry ∈ folder := List.mem_of_find?_eq_some hfind
          simp only [caseIds, List.mem_mergeSort, List.mem_filterMap]
          exact ⟨entry, hmem, by rw [hname]; exact caseIdOfFile?_fileName hid⟩

/-- Cases are listed in the order of their ids. -/
theorem pairwise_caseIds (j : Journal) : j.caseIds.Pairwise (· ≤ ·) := by
  have hsorted : ∀ ids : List String,
      (ids.mergeSort fun a b => decide (a ≤ b)).Pairwise (· ≤ ·) := by
    intro ids
    have htrans : ∀ a b c : String, decide (a ≤ b) = true → decide (b ≤ c) = true →
        decide (a ≤ c) = true := by
      intro a b c hab hbc
      simp only [decide_eq_true_eq] at hab hbc ⊢
      exact String.le_trans hab hbc
    have htotal : ∀ a b : String, (decide (a ≤ b) || decide (b ≤ a)) = true := by
      intro a b
      simpa using String.le_total a b
    simpa using List.pairwise_mergeSort htrans htotal ids
  cases j with
  | memory cases => exact hsorted _
  | files folder => exact hsorted _

end Journal
end Casework
