import Casework.Files.Tree

/-!
# Opening — directories that are there already

`FileTree.openFolder` makes the directories on the way that are missing.  If a path leads to a
directory, it makes none and gives that directory.

Looking up and making go along a path side by side: the one remembers the directories on the way,
the other their names.

* `FileTree.Stands` : names from the root on lead to these directories, and at last to this node;
* `FileTree.makeFolders_of_walk` : where a walk leads, nothing is made;
* `FileTree.openFolder_of_resolve` : opening a directory that is there.
-/

namespace Casework

namespace Folder

theorem nodeAt?_cons_of_ne {f : Folder} {name : String} {rest : List String} (h : rest ≠ []) :
    f.nodeAt? (name :: rest) =
      match f.get? name with
      | some (.directory inner) => nodeAt? rest inner
      | _ => none := by
  cases rest with
  | nil => exact absurd rfl h
  | cons n rest => rfl

/-- One name further is one look-up in the directory that was reached. -/
theorem nodeAt?_concat {f inner : Folder} {names : List String}
    (h : f.nodeAt? names = some (.directory inner)) (name : String) :
    f.nodeAt? (names ++ [name]) = inner.get? name := by
  induction names generalizing f with
  | nil =>
      cases h
      rfl
  | cons n rest ih =>
      rw [List.cons_append, nodeAt?_cons_of_ne (by simp)]
      cases rest with
      | nil =>
          have hget : f.get? n = some (.directory inner) := h
          rw [hget]
          rfl
      | cons m rest =>
          rw [nodeAt?_cons_of_ne (by simp)] at h
          cases hget : f.get? n with
          | none => simp [hget] at h
          | some node =>
              cases node with
              | file content => simp [hget] at h
              | directory sub =>
                  rw [hget] at h
                  exact ih h

end Folder

namespace FileTree

def IsName (part : String) : Prop :=
  part ≠ "" ∧ part ≠ "." ∧ part ≠ ".."

/-- Whether these names, the nearest first, lead from the root through these directories to a
node. -/
inductive Stands (root : Folder) : List String → List Folder → FileNode → Prop
  | root : Stands root [] [] (.directory root)
  | entry {above : List String} {folders : List Folder} {entries : Folder} {name : String}
      {node : FileNode} (before : Stands root above folders (.directory entries))
      (h : entries.get? name = some node) :
      Stands root (name :: above) (entries :: folders) node

variable {root : Folder} {above : List String} {folders : List Folder} {here final : FileNode}
variable {entries folder : Folder} {part : String} {rest : List String}

/-- A walk stands at the node that its names lead to. -/
theorem Stands.nodeAt? (h : Stands root above folders here) :
    root.nodeAt? above.reverse = some here := by
  induction h with
  | root => rfl
  | @entry above folders entries name node before h ih =>
      rw [List.reverse_cons, Folder.nodeAt?_concat ih, h]

/-- Going up one directory leaves one name out, unless this is the root. -/
theorem Stands.up (h : Stands root above folders here) :
    (above = [] ∧ folders = [] ∧ here = .directory root) ∨
      ∃ name rest parent up, above = name :: rest ∧ folders = parent :: up ∧
        Stands root rest up (.directory parent) := by
  cases h with
  | root => exact .inl ⟨rfl, rfl, rfl⟩
  | entry before h => exact .inr ⟨_, _, _, _, rfl, rfl, before⟩

/-- What is looked up has a sound name and is an entry of the directory. -/
theorem get?_of_lookup {name : String} {node : FileNode}
    (h : Folder.lookup entries name = .ok node) :
    nameFault? name = none ∧ entries.get? name = some node := by
  unfold Folder.lookup at h
  cases hfault : nameFault? name with
  | some cause => simp [hfault] at h
  | none =>
      cases hget : entries.get? name with
      | none => simp [hfault, hget] at h
      | some found =>
          rw [hfault, hget] at h
          cases h
          exact ⟨rfl, rfl⟩

/-! ## Side by side -/

/-- A name leads to the entry under it. -/
theorem walk_of_name (name : IsName part) :
    walk folders (.directory entries) (part :: rest) =
      match Folder.lookup entries part with
      | .error cause => .error cause
      | .ok node => walk (entries :: folders) node rest := by
  obtain ⟨hempty, hpoint, hpoints⟩ := name
  cases hlookup : Folder.lookup entries part <;> simp [walk, hempty, hpoint, hpoints, hlookup]

/-- Whoever goes on from a file does not reach a directory. -/
theorem walk_file_ne_directory {content : FileContent} (parts : List String) :
    walk folders (.file content) parts ≠ .ok (.directory folder) := by
  cases parts with
  | nil =>
      intro h
      cases h
  | cons part rest =>
      intro h
      cases h

/-- The names of the way to the working directory are walked like the parts of a path. -/
theorem exists_stands_of_walk {names parts : List String} (hnames : ∀ n ∈ names, IsName n)
    (stands : Stands root above folders here)
    (h : walk folders here (names ++ parts) = .ok final) :
    ∃ folders' here', Stands root (names.reverse ++ above) folders' here' ∧
      walk folders' here' parts = .ok final := by
  induction names generalizing above folders here with
  | nil => exact ⟨folders, here, stands, h⟩
  | cons name rest ih =>
      cases here with
      | file content => cases h
      | directory entries =>
          rw [List.cons_append, walk_of_name (hnames name (by simp))] at h
          cases hlookup : Folder.lookup entries name with
          | error cause => simp [hlookup] at h
          | ok node =>
              rw [hlookup] at h
              have hnext := stands.entry (get?_of_lookup hlookup).2
              obtain ⟨folders', here', hstands, hwalk⟩ :=
                ih (fun n hn => hnames n (by simp [hn])) hnext h
              exact ⟨folders', here', by simpa using hstands, hwalk⟩

/-- Where a walk leads to a directory, no directory has to be made. -/
theorem makeFolders_of_walk {parts : List String} (stands : Stands root above folders here)
    (h : walk folders here parts = .ok (.directory folder)) :
    makeFolders above parts root = .ok (root, folder) := by
  -- By the parts of the path, with the place where the walk stands by then.
  induction parts generalizing above folders here with
  | nil =>
      cases h
      have hnode := stands.nodeAt?
      simp [makeFolders, hnode]
  | cons part rest ih =>
      cases here with
      | file content => cases h
      | directory entries =>
          by_cases hstay : part = "" ∨ part = "."
          · have hwalk : walk folders (.directory entries) rest = .ok (.directory folder) := by
              simpa [walk, hstay] using h
            simpa [makeFolders, hstay] using ih stands hwalk
          · by_cases hup : part = ".."
            · subst hup
              rcases stands.up with
                ⟨rfl, rfl, hroot⟩ | ⟨name, names, parent, up, rfl, rfl, hparent⟩
              · have hwalk : walk [] (.directory entries) rest = .ok (.directory folder) := by
                  simpa [walk] using h
                simpa [makeFolders] using ih stands hwalk
              · have hwalk : walk up (.directory parent) rest = .ok (.directory folder) := by
                  simpa [walk] using h
                simpa [makeFolders] using ih hparent hwalk
            · have hname : IsName part :=
                ⟨fun hempty => hstay (.inl hempty), fun hpoint => hstay (.inr hpoint), hup⟩
              rw [walk_of_name hname] at h
              cases hlookup : Folder.lookup entries part with
              | error cause => simp [hlookup] at h
              | ok node =>
                  rw [hlookup] at h
                  obtain ⟨hfault, hget⟩ := get?_of_lookup hlookup
                  have hnext := stands.entry hget
                  have hnode := hnext.nodeAt?
                  cases node with
                  | file content => exact absurd h (walk_file_ne_directory rest)
                  | directory inner =>
                      rw [makeFolders, if_neg hstay, if_neg hup]
                      simp only [hfault, hnode]
                      exact ih hnext h

/-- A directory that is there is opened as it is, and the tree stays as it was. -/
theorem openFolder_of_resolve {t : FileTree} {path : String}
    (hnames : ∀ n ∈ t.workingDirectory, IsName n)
    (h : t.resolve path = .ok (.directory folder)) : t.openFolder path = .ok (t, folder) := by
  unfold resolve at h
  have hsound : pathFault? path = none := by
    cases hfault : pathFault? path with
    | none => rfl
    | some cause => simp [hfault] at h
  have hnonempty : path.isEmpty = false := by
    cases hempty : path.isEmpty with
    | false => rfl
    | true => simp [pathFault?, hempty] at hsound
  have hmade : makeFolders (if path.startsWith "/" then [] else t.workingDirectory.reverse)
      (pathParts path) t.root = .ok (t.root, folder) := by
    rw [hsound] at h
    by_cases habsolute : path.startsWith "/" = true
    · rw [if_pos habsolute] at h ⊢
      exact makeFolders_of_walk .root h
    · rw [if_neg habsolute] at h ⊢
      obtain ⟨folders, here, hstands, hwalk⟩ := exists_stands_of_walk hnames .root h
      exact makeFolders_of_walk (by simpa using hstands) hwalk
  unfold openFolder
  simp only [hnonempty, Bool.false_eq_true, if_false, hsound, hmade]

end FileTree
end Casework
