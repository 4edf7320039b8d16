import Casework.Definition.Loader

/-!
# Loading — how the definition that is loaded relates to the one that was asked for

A loader in memory looks for a name and a version.  In a directory the two make up the stem of a
file name, and what the file says of its own name and version is not looked at.

* `Loader.Holds` : the text that a directory holds for a stem;
* `Loader.load_directory_eq_ok_iff` : loading from a directory depends on the stem alone;
* `Loader.IsPlain`, `Loader.eq_of_fileStem_eq` : names and versions that have a stem of their own;
* `Loader.loads_by_stem` : what can be said of the definition that is loaded;
* `Loader.other_definition_loaded` : it need not be the one that was asked for.
-/

namespace Casework
namespace Loader

variable {name version : String} {d : Definition}

/-! ## In memory -/

theorem load_memory_eq_ok_iff {ds : List Definition} :
    (memory ds).load name version = .ok d ↔ find? ds name version = some d := by
  unfold load
  dsimp only
  cases find? ds name version <;> simp

/-- What is found in memory is what was looked for. -/
theorem identity_of_find? {ds : List Definition} (h : find? ds name version = some d) :
    d ∈ ds ∧ d.name = name ∧ d.version = version := by
  have hsame : d.name = name ∧ d.version = version := by simpa using List.find?_some h
  exact ⟨List.mem_of_find?_eq_some h, hsame⟩

/-! ## In a directory -/

/-- The text that a directory holds for a stem: that of the file with the first ending, or, if there
is no such file, of the one with the second. -/
inductive Holds (tree : FileTree) (path stem : String) : String → Prop
  | first {text : String} (h : tree.readText (FileTree.join path (stem ++ ".yml")) = .ok text) :
      Holds tree path stem text
  | second {text : String}
      (absent : tree.readText (FileTree.join path (stem ++ ".yml")) = .error .notFound)
      (h : tree.readText (FileTree.join path (stem ++ ".yaml")) = .ok text) :
      Holds tree path stem text

variable {tree : FileTree} {path : String}

/-- A file that cannot be found is passed over; one that is found decides. -/
theorem loadFirst_eq_ok_iff {file : String} {rest : List String} :
    loadFirst tree path name version (file :: rest) = .ok d ↔
      (∃ text, tree.readText (FileTree.join path file) = .ok text ∧
        Yaml.decode? Definition.decoder text = some d) ∨
      tree.readText (FileTree.join path file) = .error .notFound ∧
        loadFirst tree path name version rest = .ok d := by
  rw [loadFirst]
  cases hread : tree.readText (FileTree.join path file) with
  | error cause => cases cause <;> simp
  | ok text => cases hdecode : Yaml.decode? Definition.decoder text <;> simp [hdecode]

/-- What is loaded from a directory is what the text for the stem says. -/
theorem load_directory_eq_ok_iff :
    (directory tree path).load name version = .ok d ↔
      ∃ text, Holds tree path (fileStem name version) text ∧
        Yaml.decode? Definition.decoder text = some d := by
  have hload : (directory tree path).load name version =
      loadFirst tree path name version
        [fileStem name version ++ ".yml", fileStem name version ++ ".yaml"] := rfl
  have hnone : loadFirst tree path name version [] ≠ .ok d := by simp [loadFirst]
  rw [hload, loadFirst_eq_ok_iff, loadFirst_eq_ok_iff]
  constructor
  · rintro (⟨text, hread, hdecode⟩ | ⟨habsent, ⟨text, hread, hdecode⟩ | ⟨-, hrest⟩⟩)
    · exact ⟨text, .first hread, hdecode⟩
    · exact ⟨text, .second habsent hread, hdecode⟩
    · exact absurd hrest hnone
  · rintro ⟨text, holds, hdecode⟩
    cases holds with
    | first hread => exact .inl ⟨text, hread, hdecode⟩
    | second habsent hread => exact .inr ⟨habsent, .inl ⟨text, hread, hdecode⟩⟩

/-! ## Stems -/

def stemChar (c : Char) : Char :=
  if c = '.' then '_' else c

theorem toList_fileStem (name version : String) :
    (fileStem name version).toList =
      name.toList.map stemChar ++ '_' :: 'v' :: version.toList.map stemChar := by
  have hmark : "_v".toList.map stemChar = ['_', 'v'] := by decide
  unfold fileStem
  rw [String.toList_ofList, String.toList_append, String.toList_append]
  change ((name.toList ++ "_v".toList) ++ version.toList).map stemChar = _
  rw [List.map_append, List.map_append, hmark, List.append_assoc]
  rfl

/-- The last mark of the version parts a stem in one way. -/
theorem parts_of_stem {front back front' back' : List Char}
    (h : front ++ '_' :: 'v' :: back = front' ++ '_' :: 'v' :: back') (hback : 'v' ∉ back)
    (hback' : 'v' ∉ back') : front = front' ∧ back = back' := by
  -- If one front is longer, the mark behind it stands inside the back of the other.
  have hshorter : ∀ {a b : List Char}, 'v' ∉ b → ∀ middle,
      '_' :: 'v' :: b = middle ++ '_' :: 'v' :: a → middle = [] := by
    intro a b hb middle hmiddle
    match middle with
    | [] => rfl
    | [_] =>
        have htail := (List.cons.inj hmiddle).2
        have hmark : 'v' = '_' := (List.cons.inj htail).1
        exact absurd hmark (by decide)
    | _ :: _ :: rest =>
        have htail := (List.cons.inj (List.cons.inj hmiddle).2).2
        exact absurd (by simp [htail]) hb
  rcases List.append_eq_append_iff.1 h with ⟨middle, hfront, hmiddle⟩ | ⟨middle, hfront, hmiddle⟩
  · have hnone := hshorter hback middle hmiddle
    subst hnone
    exact ⟨by simpa using hfront.symm, by simpa using hmiddle⟩
  · have hnone := hshorter hback' middle hmiddle
    subst hnone
    exact ⟨by simpa using hfront, by simpa using hmiddle.symm⟩

/-- Names without points, and versions without underscores and without the letter that marks them
off. -/
structure IsPlain (name version : String) : Prop where
  name : '.' ∉ name.toList
  version : '_' ∉ version.toList ∧ 'v' ∉ version.toList

/-- Names without points are their own stems. -/
theorem map_stemChar_of_plain {cs : List Char} (h : '.' ∉ cs) : cs.map stemChar = cs := by
  have hsame : ∀ c ∈ cs, stemChar c = c := by
    intro c hc
    refine if_neg ?_
    rintro rfl
    exact h hc
  simpa using List.map_congr_left hsame

/-- Without underscores the points can be told again. -/
theorem eq_of_map_stemChar {cs cs' : List Char} (h : cs.map stemChar = cs'.map stemChar)
    (hcs : '_' ∉ cs) (hcs' : '_' ∉ cs') : cs = cs' := by
  have hback : ∀ {ds : List Char}, '_' ∉ ds →
      (ds.map stemChar).map (fun c => if c = '_' then '.' else c) = ds := by
    intro ds hds
    have hsame : ∀ c ∈ ds, (if stemChar c = '_' then '.' else stemChar c) = c := by
      intro c hc
      by_cases hpoint : c = '.'
      · simp [stemChar, hpoint]
      · have hother : c ≠ '_' := by
          rintro rfl
          exact hds hc
        simp [stemChar, hpoint, hother]
    rw [List.map_map]
    exact (List.map_congr_left hsame).trans (List.map_id ds)
  rw [← hback hcs, h, hback hcs']

/-- The letter that marks the version comes from no other character. -/
theorem marked_stemChar {cs : List Char} (h : 'v' ∉ cs) : 'v' ∉ cs.map stemChar := by
  intro hmem
  obtain ⟨c, hc, hv⟩ := List.mem_map.1 hmem
  by_cases hpoint : c = '.'
  · simp [stemChar, hpoint] at hv
  · have hsame : c = 'v' := by simpa [stemChar, hpoint] using hv
    exact h (hsame ▸ hc)

/-- Plain names and versions have a stem of their own. -/
theorem eq_of_fileStem_eq {name' version' : String}
    (h : fileStem name version = fileStem name' version') (plain : IsPlain name version)
    (plain' : IsPlain name' version') : name = name' ∧ version = version' := by
  have hchars := congrArg String.toList h
  rw [toList_fileStem, toList_fileStem] at hchars
  obtain ⟨hname, hversion⟩ := parts_of_stem hchars (marked_stemChar plain.version.2)
    (marked_stemChar plain'.version.2)
  rw [map_stemChar_of_plain plain.name, map_stemChar_of_plain plain'.name] at hname
  exact ⟨String.ext hname,
    String.ext (eq_of_map_stemChar hversion plain.version.1 plain'.version.1)⟩

/-! ## What is loaded -/

/-- A definition that is loaded from memory is the one that was asked for.  From a directory it is
what the text for the stem says, whatever other names and versions have that stem; among plain ones
it is the one that was asked for exactly if it is kept under its own stem. -/
theorem loads_by_stem (name version : String) (d : Definition) :
    (∀ ds, (memory ds).load name version = .ok d →
      d ∈ ds ∧ d.name = name ∧ d.version = version) ∧
    (∀ tree path, (directory tree path).load name version = .ok d ↔
      ∃ text, Holds tree path (fileStem name version) text ∧
        Yaml.decode? Definition.decoder text = some d) ∧
    (∀ tree path name' version', fileStem name' version' = fileStem name version →
      ((directory tree path).load name' version' = .ok d ↔
        (directory tree path).load name version = .ok d)) ∧
    ∀ tree path, (directory tree path).load name version = .ok d →
      IsPlain name version → IsPlain d.name d.version →
        (d.name = name ∧ d.version = version ↔
          fileStem d.name d.version = fileStem name version) := by
  refine ⟨?_, ?_, ?_, ?_⟩
  · intro ds h
    exact identity_of_find? (load_memory_eq_ok_iff.1 h)
  · intro tree path
    exact load_directory_eq_ok_iff
  · intro tree path name' version' h
    rw [load_directory_eq_ok_iff, load_directory_eq_ok_iff, h]
  · intro tree path _ plain plain'
    constructor
    · rintro ⟨hname, hversion⟩
      rw [hname, hversion]
    · intro h
      exact eq_of_fileStem_eq h plain' plain

/-! ## A directory with one process -/

def oneProcess : FileTree where
  root := [("p_v1_0.yml", .file (.text "name: p\nversion: '1.0'\ninitial_step: a\nsteps: []\n"))]

theorem readText_oneProcess :
    oneProcess.readText "p_v1_0.yml" =
      .ok "name: p\nversion: '1.0'\ninitial_step: a\nsteps: []\n" := by
  have hparts : FileTree.pathParts "p_v1_0.yml" = ["p_v1_0.yml"] := by
    unfold FileTree.pathParts String.splitOn
    rw [if_neg (by decide)]
    iterate 10 rw [String.splitOnAux, if_neg (by decide +kernel), if_neg (by decide +kernel)]
    rw [String.splitOnAux, if_pos (by decide +kernel)]
    decide +kernel
  have hsound : FileTree.pathFault? "p_v1_0.yml" = none := by decide +kernel
  have hname : nameFault? "p_v1_0.yml" = none := by decide +kernel
  simp [FileTree.readText, FileTree.resolve, hsound, hparts, FileTree.walk, Folder.lookup,
    Folder.get?, hname, oneProcess]

/-- It is loaded under every pair with its stem. -/
theorem load_oneProcess (name version : String)
    (file : FileTree.join "" (fileStem name version ++ ".yml") = "p_v1_0.yml") :
    (directory oneProcess "").load name version = .ok ⟨"p", "1.0", "a", []⟩ :=
  load_directory_eq_ok_iff.2
    ⟨_, .first (file ▸ readText_oneProcess), by decide +kernel⟩

/-- Whoever asks for version 1.0 gets it. -/
theorem loads_by_stem_oneProcess :
    ∃ d, (directory oneProcess "").load "p" "1.0" = .ok d ∧ IsPlain "p" "1.0" ∧
      IsPlain d.name d.version ∧ fileStem d.name d.version = fileStem "p" "1.0" ∧
        d.name = "p" ∧ d.version = "1.0" := by
  have hload := load_oneProcess "p" "1.0" (by decide +kernel)
  have hplain : IsPlain "p" "1.0" := ⟨by decide, by decide⟩
  have hkept := (loads_by_stem "p" "1.0" ⟨"p", "1.0", "a", []⟩).2.2.2 _ _ hload hplain hplain
  exact ⟨_, hload, hplain, hplain, rfl, hkept.2 rfl⟩

/-- Whoever asks for a version 1_0 gets version 1.0 as well. -/
theorem other_definition_loaded :
    ∃ d, (directory oneProcess "").load "p" "1_0" = .ok d ∧
      (directory oneProcess "").load "p" "1.0" = .ok d ∧ ¬(d.name = "p" ∧ d.version = "1_0") :=
  ⟨_, load_oneProcess "p" "1_0" (by decide +kernel), load_oneProcess "p" "1.0" (by decide +kernel),
    by decide⟩

end Loader
end Casework
