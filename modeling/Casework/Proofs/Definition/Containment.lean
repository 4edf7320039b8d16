import Casework.Proofs.Definition.Loading
import Casework.Proofs.Files.Below

/-!
# Containment — the files that a definition can come from

Points become underscores in the name of a definition's file, so nothing in a name or a version goes
up from the directory of the definitions.  A name that begins with a slash is another matter: its
file is an absolute path, and the directory plays no part in it.

* `Loader.descending_of_mem_candidates` : no file that is tried goes up;
* `Loader.load_congr`, `Loader.load_absolute` : what loading depends on;
* `Loader.loads_below` : the files that are tried are below the directory, unless the name is
  absolute;
* `Loader.loaded_from_elsewhere` : a definition that is loaded from outside an empty directory.
-/

namespace Casework
namespace Loader

open FileTree

variable {name version file : String}

/-! ## The files that are tried -/

/-- A file that is tried has the stem and one of two endings. -/
theorem exists_ending_of_mem_candidates (h : file ∈ candidates name version) :
    ∃ ending ∈ [['y', 'm', 'l'], ['y', 'a', 'm', 'l']],
      file.toList = (fileStem name version).toList ++ '.' :: ending := by
  have hfile : file = fileStem name version ++ ".yml" ∨ file = fileStem name version ++ ".yaml" := by
    simpa [candidates] using h
  rcases hfile with rfl | rfl
  · exact ⟨['y', 'm', 'l'], by simp, by simp⟩
  · exact ⟨['y', 'a', 'm', 'l'], by simp, by simp⟩

/-- No character of a stem is a point. -/
theorem stemChar_ne_point (c : Char) : stemChar c ≠ '.' := by
  unfold stemChar
  split
  · decide
  · assumption

/-- So a stem has no extension and is no step upwards. -/
theorem point_not_mem_fileStem (name version : String) :
    '.' ∉ (fileStem name version).toList := by
  have hmap : ∀ cs : List Char, '.' ∉ cs.map stemChar := by
    intro cs hmem
    obtain ⟨c, -, hc⟩ := List.mem_map.1 hmem
    exact stemChar_ne_point c hc
  have hmark : '.' ≠ '_' ∧ '.' ≠ 'v' := by decide
  simp [toList_fileStem, hmap, hmark]

/-- No file that is tried goes up: its only point is that of its ending. -/
theorem descending_of_mem_candidates (h : file ∈ candidates name version) :
    ".." ∉ pathParts file := by
  intro hup
  obtain ⟨ending, hending, hfile⟩ := exists_ending_of_mem_candidates h
  have hstem : (fileStem name version).toList.count '.' = 0 :=
    List.count_eq_zero.2 (point_not_mem_fileStem name version)
  have hone : ending.count '.' = 0 := by
    have hnone : ∀ e ∈ [['y', 'm', 'l'], ['y', 'a', 'm', 'l']], e.count '.' = 0 := by decide
    exact hnone ending hending
  have htwo : ("..".toList).count '.' ≤ file.toList.count '.' :=
    (sublist_of_mem_pathParts hup).count_le '.'
  have hpoints : ("..".toList).count '.' = 2 := by decide
  rw [hpoints, hfile, List.count_append, List.count_cons_self, hstem, hone] at htwo
  omega

/-- A file that is tried has a name. -/
theorem leading_of_mem_candidates (h : file ∈ candidates name version) : names file ≠ [] := by
  obtain ⟨ending, hending, hfile⟩ := exists_ending_of_mem_candidates h
  have hm : 'm' ∈ ending := by
    have hall : ∀ e ∈ [['y', 'm', 'l'], ['y', 'a', 'm', 'l']], 'm' ∈ e := by decide
    exact hall ending hending
  have hletters : 'm' ∈ file.toList := by simp [hfile, hm]
  obtain ⟨part, hpart, hletter⟩ := exists_part_of_mem hletters (by decide)
  apply List.ne_nil_of_mem (a := part)
  refine List.mem_filter.2 ⟨hpart, ?_⟩
  -- A part with a letter is no part that stays where it is.
  have hempty : part ≠ "" := by
    rintro rfl
    exact absurd hletter (by decide)
  have hpoint : part ≠ "." := by
    rintro rfl
    exact absurd hletter (by decide)
  simp [hempty, hpoint]

/-- A file that is tried is an absolute path exactly if the name is. -/
theorem startsWith_of_mem_candidates (h : file ∈ candidates name version) :
    file.startsWith "/" = name.startsWith "/" := by
  obtain ⟨ending, -, hfile⟩ := exists_ending_of_mem_candidates h
  rw [startsWith_slash_eq, startsWith_slash_eq, hfile, toList_fileStem]
  cases name.toList with
  | nil => rfl
  | cons c cs =>
      by_cases hpoint : c = '.'
      · simp [stemChar, hpoint]
      · simp [stemChar, hpoint]

/-! ## What loading depends on -/

/-- A directory is looked through for the two candidates in turn. -/
theorem load_directory (t : FileTree) (root name version : String) :
    (directory t root).load name version =
      loadFirst t root name version (candidates name version) :=
  rfl

/-- Loading takes from a tree only what the files that are tried hold. -/
theorem loadFirst_congr {t t' : FileTree} {root root' : String} {files : List String}
    (paths : ∀ file ∈ files, join root file = join root' file)
    (texts : ∀ file ∈ files, t.readText (join root file) = t'.readText (join root file)) :
    loadFirst t root name version files = loadFirst t' root' name version files := by
  induction files with
  | nil => rfl
  | cons file rest ih =>
      have hrest := ih (fun f hf => paths f (List.mem_cons_of_mem file hf))
        fun f hf => texts f (List.mem_cons_of_mem file hf)
      have htext := texts file List.mem_cons_self
      have hpath := paths file List.mem_cons_self
      rw [loadFirst, loadFirst, htext, hpath, hrest]

/-- What is loaded under a relative name depends on the directory alone. -/
theorem load_congr {t t' : FileTree} {root : String} (relative : name.startsWith "/" = false)
    (same : t.resolve (asFolder root) = t'.resolve (asFolder root)) :
    (directory t root).load name version = (directory t' root).load name version := by
  rw [load_directory, load_directory]
  apply loadFirst_congr
  · intro file _
    rfl
  · intro file hfile
    have hrelative : file.startsWith "/" = false :=
      (startsWith_of_mem_candidates hfile).trans relative
    exact readText_join_congr hrelative (descending_of_mem_candidates hfile) same

/-- The files of an absolute name are absolute paths. -/
theorem join_absolute (absolute : name.startsWith "/" = true) (root : String)
    (h : file ∈ candidates name version) : join root file = file := by
  have hfile : file.startsWith "/" = true := (startsWith_of_mem_candidates h).trans absolute
  simp [join, hfile]

/-- What is loaded under an absolute name does not depend on the directory. -/
theorem load_absolute (absolute : name.startsWith "/" = true) (t : FileTree)
    (root root' : String) :
    (directory t root).load name version = (directory t root').load name version := by
  have hpaths : ∀ file ∈ candidates name version, join root file = join root' file := by
    intro file hfile
    rw [join_absolute absolute root hfile, join_absolute absolute root' hfile]
  rw [load_directory, load_directory]
  apply loadFirst_congr hpaths
  intro file hfile
  rw [hpaths file hfile]

/-- The files that are tried for a relative name are below the directory, and loading depends on
nothing else, whatever separators and points the name and the version have.  Those that are tried for
an absolute name are absolute paths, and the directory makes no difference. -/
theorem loads_below (name version : String) :
    (name.startsWith "/" = false →
      (∀ root, ∀ file ∈ candidates name version, IsBelow root (join root file)) ∧
      ∀ (t t' : FileTree) root, t.resolve (asFolder root) = t'.resolve (asFolder root) →
        (directory t root).load name version = (directory t' root).load name version) ∧
    (name.startsWith "/" = true →
      (∀ root, ∀ file ∈ candidates name version,
        join root file = file ∧ file.startsWith "/" = true) ∧
      ∀ (t : FileTree) root root',
        (directory t root).load name version = (directory t root').load name version) := by
  -- Whether the root counts depends on the first character of the name, as the stem begins with it.
  constructor
  · intro relative
    refine ⟨?_, fun t t' root same => load_congr relative same⟩
    intro root file hfile
    have hrelative : file.startsWith "/" = false :=
      (startsWith_of_mem_candidates hfile).trans relative
    exact isBelow_join hrelative (descending_of_mem_candidates hfile)
      (leading_of_mem_candidates hfile) root
  · intro absolute
    refine ⟨?_, fun t root root' => load_absolute absolute t root root'⟩
    intro root file hfile
    exact ⟨join_absolute absolute root hfile, (startsWith_of_mem_candidates hfile).trans absolute⟩

/-! ## A definition beside an empty directory -/

/-- An empty directory for definitions, and what is beside it. -/
def emptyBeside (others : Folder) : FileTree where
  root := ("definitions", .directory []) :: others

theorem resolve_emptyBeside (others : Folder) :
    (emptyBeside others).resolve (asFolder "definitions") = .ok (.directory []) := by
  have hparts : pathParts "definitions" = ["definitions"] := by
    rw [pathParts_eq]
    decide
  have hsound : pathFault? "definitions" = none := by decide
  have hname : nameFault? "definitions" = none := by decide
  simp [asFolder, resolve, hsound, hparts, walk, Folder.lookup, Folder.get?, hname, emptyBeside]

def definitionFile : String × FileNode :=
  ("p_v1.yml", .file (.text "name: p\nversion: '1'\ninitial_step: a\nsteps: []\n"))

/-- Points do not lead out of the directory: it is as if there were no definition beside it. -/
theorem loads_below_emptyBeside :
    ("../p").startsWith "/" = false ∧ ("/p").startsWith "/" = true ∧
      IsBelow "definitions" (join "definitions" "__/p_v1.yml") ∧
      (directory (emptyBeside [definitionFile]) "definitions").load "../p" "1" =
        (directory (emptyBeside []) "definitions").load "../p" "1" ∧
      join "definitions" "/p_v1.yml" = "/p_v1.yml" := by
  have hrelative : ("../p").startsWith "/" = false := by
    rw [startsWith_slash_eq]
    decide
  have habsolute : ("/p").startsWith "/" = true := by
    rw [startsWith_slash_eq]
    decide
  obtain ⟨hbelow, hsame⟩ := (loads_below "../p" "1").1 hrelative
  obtain ⟨helsewhere, -⟩ := (loads_below "/p" "1").2 habsolute
  refine ⟨hrelative, habsolute, hbelow _ _ (by decide), ?_, (helsewhere _ _ (by decide)).1⟩
  exact hsame _ _ _ ((resolve_emptyBeside _).trans (resolve_emptyBeside _).symm)

/-- Under an absolute name it is the definition beside the empty directory that is loaded. -/
theorem loaded_from_elsewhere :
    (emptyBeside [definitionFile]).resolve (asFolder "definitions") = .ok (.directory []) ∧
      (directory (emptyBeside [definitionFile]) "definitions").load "/p" "1" =
        .ok ⟨"p", "1", "a", []⟩ ∧
      "/p_v1.yml" ∈ candidates "/p" "1" ∧
      ¬IsBelow "definitions" (join "definitions" "/p_v1.yml") := by
  have habsolute : ("/p_v1.yml").startsWith "/" = true := by
    rw [startsWith_slash_eq]
    decide
  -- A path that is joined with an absolute one is dropped.
  have hjoin : join "definitions" "/p_v1.yml" = "/p_v1.yml" := by simp [join, habsolute]
  refine ⟨resolve_emptyBeside _, ?_, by decide, ?_⟩
  · have hparts : pathParts "/p_v1.yml" = ["", "p_v1.yml"] := by
      rw [pathParts_eq]
      decide
    have hsound : pathFault? "/p_v1.yml" = none := by decide
    have hname : nameFault? "p_v1.yml" = none := by decide
    have hread : (emptyBeside [definitionFile]).readText (join "definitions" "/p_v1.yml") =
        .ok "name: p\nversion: '1'\ninitial_step: a\nsteps: []\n" := by
      simp [hjoin, readText, resolve, hsound, hparts, habsolute, walk, Folder.lookup, Folder.get?,
        hname, emptyBeside, definitionFile]
    have hstem : fileStem "/p" "1" ++ ".yml" = "/p_v1.yml" := by decide
    exact load_directory_eq_ok_iff.2 ⟨_, .first (hstem ▸ hread), by decide +kernel⟩
  · intro hbelow
    have hroot : ("definitions").startsWith "/" = false := by
      rw [startsWith_slash_eq]
      decide
    have hstart := hbelow.start
    rw [hjoin, habsolute, hroot] at hstart
    exact absurd hstart (by decide)

end Loader
end Casework
