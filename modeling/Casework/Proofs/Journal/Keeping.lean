import Casework.Journal.Log

/-!
# Keeping journals — what is relied on when an entry is handed over

* `Journal.Accepts` : every append to a case succeeds.  A journal in memory accepts every case, one
  in a directory those whose file can be written;
* `Journal.Keeps` : one entry is taken and found again, after the entries that were there;
* `Journal.Restores` : it is found again if it is taken, and may be refused.

`Accepts` is kept by appending, so it holds all along a run if it holds at its beginning.
-/

namespace Casework

namespace Folder

theorem get?_put_self (f : Folder) (name : String) (node : FileNode) :
    (f.put name node).get? name = some node := by
  induction f with
  | nil =>
      simp [put, get?]
  | cons entry rest ih =>
      rcases entry with ⟨n, old⟩
      by_cases h : n = name
      · simp [put, get?, h]
      · have hrest : Folder.get? (Folder.put rest name node) name = some node := ih
        simpa [put, get?, h] using hrest

end Folder

namespace Journal

def Accepts (caseId : String) : Journal → Prop
  | .memory _ => True
  | .files folder =>
      isFileId caseId = true ∧ nameFault? (fileName caseId) = none ∧
        ∀ entries, folder.get? (fileName caseId) ≠ some (.directory entries)

/-- Whether an entry of a case is taken and found again, after the entries that were there. -/
def Keeps (caseId : String) (e : JournalEntry) (j : Journal) : Prop :=
  ∃ j', j.append caseId e = .ok j' ∧
    ∀ es, j.load caseId = .ok es → j'.load caseId = .ok (es ++ [e])

/-- A journal that accepts a case takes every entry of it, and accepts it after that. -/
theorem append_of_accepts {j : Journal} {caseId : String} (h : j.Accepts caseId)
    (e : JournalEntry) : ∃ j', j.append caseId e = .ok j' ∧ j'.Accepts caseId := by
  cases j with
  | memory cases =>
      exact ⟨_, rfl, trivial⟩
  | files folder =>
      obtain ⟨hid, hname, hdir⟩ := h
      have hwritable : ∃ folder', folder.appendText (fileName caseId) (line e) = .ok folder' ∧
          ∀ entries, folder'.get? (fileName caseId) ≠ some (.directory entries) := by
        unfold Folder.appendText Folder.lookup
        rw [hname]
        cases hnode : folder.get? (fileName caseId) with
        | none =>
            -- The file is made by the first append.
            refine ⟨_, rfl, ?_⟩
            intro entries
            simp [Folder.get?_put_self]
        | some node =>
            cases node with
            | directory entries =>
                exact absurd hnode (hdir entries)
            | file content =>
                cases content with
                | undecodable =>
                    -- The line goes to its end all the same, and nobody can tell.
                    exact ⟨folder, rfl, hdir⟩
                | text s =>
                    refine ⟨_, rfl, ?_⟩
                    intro entries
                    simp [Folder.get?_put_self]
      obtain ⟨folder', happend, hdir'⟩ := hwritable
      refine ⟨.files folder', ?_, hid, hname, hdir'⟩
      simp [append, fileName?, hid, happend, bind, Except.bind, pure, Except.pure]

/-- A journal in memory gives back what was appended. -/
theorem keeps_memory (cases : Table (List JournalEntry)) (caseId : String) (e : JournalEntry) :
    (Journal.memory cases).Keeps caseId e := by
  refine ⟨_, rfl, ?_⟩
  intro es hload
  have hes : (cases.get? caseId).getD [] = es := by
    simpa [load] using hload
  simp [load, Table.get?_insert_self, hes]

/-- Whether an entry of a case, if it is taken, is found again after the entries that were there. -/
def Restores (caseId : String) (e : JournalEntry) (j : Journal) : Prop :=
  ∀ j', j.append caseId e = .ok j' →
    ∀ es, j.load caseId = .ok es → j'.load caseId = .ok (es ++ [e])

/-- An entry that is kept is found again. -/
theorem Keeps.restores {j : Journal} {caseId : String} {e : JournalEntry}
    (h : j.Keeps caseId e) : j.Restores caseId e := by
  intro j' happend
  obtain ⟨j₁, happend₁, hload⟩ := h
  cases happend.symm.trans happend₁
  exact hload

end Journal
end Casework
