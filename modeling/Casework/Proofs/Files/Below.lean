import Casework.Files.Tree
import Mathlib.Data.String.Basic

/-!
# Below — paths that stay inside a directory

A path that is joined to a directory goes on from there, unless it is absolute.  If none of its parts
goes up, nothing outside the directory can make a difference to what it leads to.

* `FileTree.pathParts_slash` : two paths with a slash between them have the parts of both;
* `FileTree.walk_append` : parts that do not go up are followed from wherever the others lead;
* `FileTree.names`, `FileTree.IsBelow` : a path that is, name for name, below another;
* `FileTree.isBelow_join` : joined paths are below the first of them;
* `FileTree.resolve_join` : they lead where the second path leads from what is at the first.
-/

namespace Casework
namespace FileTree

/-! ## Parts of a path -/

section Parts

open String

/-- The cut goes on behind some slashes; what was passed since the last one begins a part. -/
theorem splitOnAux_slash (passed part rest : List Char) (acc : List String) :
    splitOnAux (ofList (passed ++ part ++ rest)) "/" ⟨utf8Len passed⟩
        ⟨utf8Len passed + utf8Len part⟩ 0 acc =
      acc.reverse ++ (List.splitOnPPrepend (· == '/') rest part.reverse).map ofList := by
  -- By what is left to be read, while the part and what was passed before it grow.
  induction rest generalizing passed part acc with
  | nil =>
      have hend : Pos.Raw.atEnd (ofList (passed ++ part ++ []))
          ⟨utf8Len passed + utf8Len part⟩ = true := by
        simpa [utf8Len_append] using (atEnd_of_valid (passed ++ part) []).2 rfl
      rw [splitOnAux, if_pos hend, extract_of_valid passed part []]
      simp
  | cons c rest ih =>
      have hgo : ¬Pos.Raw.atEnd (ofList (passed ++ part ++ c :: rest))
          ⟨utf8Len passed + utf8Len part⟩ = true := by
        simpa [utf8Len_append] using (atEnd_of_valid (passed ++ part) (c :: rest)).not.2 (by simp)
      have hget : Pos.Raw.get (ofList (passed ++ part ++ c :: rest))
          ⟨utf8Len passed + utf8Len part⟩ = c := by
        simpa [utf8Len_append] using get_of_valid (passed ++ part) (c :: rest)
      have hnext : Pos.Raw.next (ofList (passed ++ part ++ c :: rest))
          ⟨utf8Len passed + utf8Len part⟩ = ⟨utf8Len passed + utf8Len part + c.utf8Size⟩ := by
        simpa [utf8Len_append] using next_of_valid (passed ++ part) c rest
      have hslash : Pos.Raw.get "/" 0 = '/' := by decide
      rw [splitOnAux, if_neg hgo, hget, hslash]
      by_cases hc : c = '/'
      · -- The part ends here, and the next one begins behind the slash.
        subst hc
        have hover : Pos.Raw.next "/" 0 = ⟨1⟩ := by decide
        have hdone : Pos.Raw.atEnd "/" ⟨1⟩ = true := by decide
        have hback : Pos.Raw.unoffsetBy ⟨utf8Len passed + utf8Len part + ('/').utf8Size⟩ ⟨1⟩ =
            ⟨utf8Len passed + utf8Len part⟩ := rfl
        have hrest := ih (passed ++ part ++ ['/']) [] (ofList part :: acc)
        simp only [beq_self_eq_true, if_true, hover, hdone, hnext, hback]
        rw [extract_of_valid passed part ('/' :: rest)]
        simpa [utf8Len_append, List.splitOnPPrepend_cons_eq_if, Nat.add_assoc] using hrest
      · have hstay : Pos.Raw.unoffsetBy ⟨utf8Len passed + utf8Len part⟩ 0 =
            ⟨utf8Len passed + utf8Len part⟩ := rfl
        have hother : (c == '/') = false := by simpa using hc
        have hrest := ih passed (part ++ [c]) acc
        simp only [hother, Bool.false_eq_true, if_false, hstay, hnext]
        simpa [utf8Len_append, List.splitOnPPrepend_cons_eq_if, hc, Nat.add_assoc] using hrest

end Parts

/-- The parts of a path are what stands between its slashes. -/
theorem pathParts_eq (path : String) :
    pathParts path = (path.toList.splitOnP (· == '/')).map String.ofList := by
  have hsplit := splitOnAux_slash [] [] path.toList []
  have hslash : ("/" == "") = false := by decide
  rw [pathParts, String.splitOn, hslash]
  simpa using hsplit

/-- Two paths with a slash between them have the parts of both. -/
theorem pathParts_slash (a b : String) :
    pathParts (a ++ "/" ++ b) = pathParts a ++ pathParts b := by
  have hchars : (a ++ "/" ++ b).toList = a.toList ++ '/' :: b.toList := by simp
  rw [pathParts_eq, pathParts_eq, pathParts_eq, hchars, List.splitOnP_append_cons _ _ rfl,
    List.map_append]

theorem pathParts_empty : pathParts "" = [""] := by
  rw [pathParts_eq]
  rfl

theorem pathParts_ne_nil (path : String) : pathParts path ≠ [] := by
  rw [pathParts_eq]
  simp

/-- The parts of a path and the slashes between them are the path. -/
theorem flatten_splitOnPPrepend (cs part : List Char) :
    (cs.splitOnPPrepend (· == '/') part).flatten =
      part.reverse ++ cs.filter fun c => !(c == '/') := by
  induction cs generalizing part with
  | nil => simp
  | cons c cs ih =>
      rw [List.splitOnPPrepend_cons_eq_if]
      by_cases hc : c = '/'
      · have hrest := ih []
        simp only [List.splitOnPPrepend_nil_right] at hrest
        simp [hc, hrest]
      · simp [hc, ih]

/-- The parts of a path have all its characters but the slashes. -/
theorem flatten_pathParts (path : String) :
    ((pathParts path).map String.toList).flatten =
      path.toList.filter fun c => !(c == '/') := by
  have hparts := flatten_splitOnPPrepend path.toList []
  rw [pathParts_eq, List.map_map]
  simpa [Function.comp_def] using hparts

/-- The characters of a part stand in the path, in that order. -/
theorem sublist_of_mem_pathParts {part path : String} (h : part ∈ pathParts path) :
    part.toList.Sublist path.toList := by
  have hmem : part.toList ∈ (pathParts path).map String.toList := List.mem_map_of_mem h
  have hflat := List.sublist_flatten_of_mem hmem
  rw [flatten_pathParts] at hflat
  exact hflat.trans List.filter_sublist

/-- Every character but a slash stands in some part. -/
theorem exists_part_of_mem {path : String} {c : Char} (h : c ∈ path.toList) (hc : c ≠ '/') :
    ∃ part ∈ pathParts path, c ∈ part.toList := by
  have hmem : c ∈ ((pathParts path).map String.toList).flatten := by
    rw [flatten_pathParts]
    simp [h, hc]
  simpa using hmem

/-! ## Going on from where a path leads -/

section Walks

variable {above above' : List Folder} {here : FileNode} {parts ps qs : List String}

/-- There is no way on from a file. -/
theorem walk_file {content : FileContent} (h : parts ≠ []) :
    walk above (.file content) parts = .error .notDirectory := by
  cases parts with
  | nil => exact absurd rfl h
  | cons part rest => rfl

/-- Whoever does not go up does not look at the directories on the way. -/
theorem walk_above (descending : ".." ∉ parts) (above above' : List Folder) (here : FileNode) :
    walk above here parts = walk above' here parts := by
  induction parts generalizing above above' here with
  | nil => rfl
  | cons part rest ih =>
      obtain ⟨hpart, hrest⟩ := not_or.1 fun h => descending (List.mem_cons.2 h)
      cases here with
      | file content => rfl
      | directory entries =>
          by_cases hstay : part = "" ∨ part = "."
          · simpa [walk, hstay] using ih hrest above above' (.directory entries)
          · cases hlookup : Folder.lookup entries part with
            | error cause => simp [walk, hstay, Ne.symm hpart, hlookup]
            | ok node =>
                have hnode := ih hrest (entries :: above) (entries :: above') node
                simpa [walk, hstay, Ne.symm hpart, hlookup] using hnode

/-- Parts that do not go up are followed from wherever the parts in front of them lead. -/
theorem walk_append (descending : ".." ∉ qs) (above : List Folder) (here : FileNode)
    (ps : List String) :
    walk above here (ps ++ qs) = (walk above here ps).bind fun node => walk [] node qs := by
  induction ps generalizing above here with
  | nil => exact walk_above descending above [] here
  | cons part rest ih =>
      cases here with
      | file content => rfl
      | directory entries =>
          by_cases hstay : part = "" ∨ part = "."
          · simpa [walk, hstay] using ih above (.directory entries)
          · by_cases hup : part = ".."
            · cases above with
              | nil => simpa [walk, hup] using ih [] (.directory entries)
              | cons parent above => simpa [walk, hup] using ih above (.directory parent)
            · cases hlookup : Folder.lookup entries part with
              | error cause => simp [walk, hstay, hup, hlookup, Except.bind]
              | ok node => simpa [walk, hstay, hup, hlookup] using ih (entries :: above) node

/-- Parts that stay where they are make no difference if others follow. -/
theorem walk_staying {stay : List String} (staying : ∀ part ∈ stay, part = "" ∨ part = ".")
    (more : qs ≠ []) (here : FileNode) :
    ((walk [] here stay).bind fun node => walk [] node qs) = walk [] here qs := by
  induction stay with
  | nil => rfl
  | cons part rest ih =>
      cases here with
      | file content =>
          rw [walk_file (by simp), walk_file more]
          rfl
      | directory entries =>
          have hrest := ih fun part' hpart' => staying part' (by simp [hpart'])
          simpa [walk, staying part (by simp)] using hrest

/-- Parts that stay do not matter, and below a directory its ancestors do not matter. -/
theorem walk_append_staying {stay : List String}
    (staying : ∀ part ∈ stay, part = "" ∨ part = ".") (descending : ".." ∉ qs) (more : qs ≠ [])
    (above : List Folder) (here : FileNode) (ps : List String) :
    walk above here (ps ++ qs) =
      (walk above here (ps ++ stay)).bind fun node => walk [] node qs := by
  have hstay : ".." ∉ stay := by
    intro h
    rcases staying ".." h with hempty | hpoint
    · exact absurd hempty (by decide)
    · exact absurd hpoint (by decide)
  rw [walk_append descending, walk_append hstay]
  cases walk above here ps with
  | error cause => rfl
  | ok node => exact (walk_staying staying more node).symm

end Walks

/-! ## Joined paths -/

/-- The path that a directory is looked up under; the empty one stands for the working directory. -/
def asFolder (path : String) : String :=
  if path.isEmpty then "." else path

/-- The names on a path, without the parts that stay where they are. -/
def names (path : String) : List String :=
  (pathParts path).filter fun part => !(part == "" || part == ".")

/-- Whether a path is, name for name, below another and does not go up from there. -/
structure IsBelow (root path : String) : Prop where
  start : path.startsWith "/" = root.startsWith "/"
  way : ∃ inner, names path = names root ++ inner ∧ inner ≠ [] ∧ ".." ∉ inner

variable {t t' : FileTree} {base file : String}

/-- An absolute path begins with a slash. -/
theorem startsWith_slash_eq (path : String) :
    path.startsWith "/" = (path.toList.head? == some '/') := by
  have hprefix : path.startsWith "/" = true ↔ ['/'] <+: path.toList :=
    String.startsWith_string_iff
  rw [Bool.eq_iff_iff, hprefix]
  cases path.toList with
  | nil => simp
  | cons c cs =>
      have hcons : ['/'] <+: c :: cs ↔ '/' = c := by simp [List.cons_prefix_cons]
      rw [hcons]
      simpa using eq_comm

theorem startsWith_slash_append {a : String} (h : a.isEmpty = false) (b : String) :
    (a ++ b).startsWith "/" = a.startsWith "/" := by
  have hne : a.toList ≠ [] := by
    intro hnil
    have hempty : a = "" := String.toList_injective hnil
    simp [hempty] at h
  rw [startsWith_slash_eq, startsWith_slash_eq, String.toList_append,
    List.head?_append_of_ne_nil _ hne]

theorem exists_eq_of_endsWith_slash {path : String} (h : path.endsWith "/" = true) :
    ∃ front, path = front ++ "/" := by
  have hsuffix : path.toSlice.endsWith "/" = true := h
  rw [String.Slice.endsWith_string_iff, String.copy_toSlice] at hsuffix
  obtain ⟨cs, hcs⟩ := hsuffix
  refine ⟨String.ofList cs, String.toList_injective ?_⟩
  rw [String.toList_append, String.toList_ofList]
  exact hcs.symm

/-- What is joined follows behind the directory. -/
theorem exists_join_eq (relative : file.startsWith "/" = false) (h : base.isEmpty = false) :
    ∃ rest, join base file = base ++ rest := by
  unfold join
  rw [if_neg (by simp [relative, h])]
  split
  · exact ⟨file, rfl⟩
  · exact ⟨"/" ++ file, by rw [String.append_assoc]⟩

/-- A relative file does not change whether a path starts at the root. -/
theorem startsWith_join (relative : file.startsWith "/" = false) (base : String) :
    (join base file).startsWith "/" = (asFolder base).startsWith "/" := by
  cases hempty : base.isEmpty with
  | true =>
      have hpoint : (".").startsWith "/" = false := by
        rw [startsWith_slash_eq]
        decide
      simp [join, asFolder, hempty, relative, hpoint]
  | false =>
      obtain ⟨rest, hrest⟩ := exists_join_eq relative hempty
      simp [asFolder, hempty, hrest, startsWith_slash_append hempty]

/-- The parts of a joined path, and of the directory up to parts that stay where they are. -/
theorem exists_parts_join (relative : file.startsWith "/" = false) (base : String) :
    ∃ ps stay, pathParts (asFolder base) = ps ++ stay ∧
      (∀ part ∈ stay, part = "" ∨ part = ".") ∧
        pathParts (join base file) = ps ++ pathParts file := by
  cases hempty : base.isEmpty with
  | true =>
      refine ⟨[], ["."], ?_, by simp, ?_⟩
      · rw [asFolder, if_pos hempty, pathParts_eq]
        decide
      · simp [join, hempty, relative]
  | false =>
      have hfolder : asFolder base = base := by simp [asFolder, hempty]
      rw [hfolder]
      unfold join
      rw [if_neg (by simp [relative, hempty])]
      split
      · next hends =>
          -- The slash at the end of the directory is the one between the two paths.
          obtain ⟨front, rfl⟩ := exists_eq_of_endsWith_slash hends
          refine ⟨pathParts front, [""], ?_, by simp, ?_⟩
          · have hslash := pathParts_slash front ""
            rwa [String.append_empty, pathParts_empty] at hslash
          · exact pathParts_slash front file
      · exact ⟨pathParts base, [], by simp, by simp, pathParts_slash base file⟩

/-- A path that can lead somewhere begins with one that can. -/
theorem pathFault?_of_append {a b : String} (nonempty : a.isEmpty = false)
    (h : pathFault? (a ++ b) = none) : pathFault? a = none := by
  have hall : (a ++ b).toList.contains '\x00' = false ∧ (a ++ b).utf8ByteSize < 4096 := by
    unfold pathFault? at h
    split_ifs at h with hempty hzero hlong
    exact ⟨by simpa using hzero, by omega⟩
  obtain ⟨hzero, hshort⟩ := hall
  rw [String.utf8ByteSize_append] at hshort
  have hlong : ¬4096 ≤ a.utf8ByteSize := by omega
  simp_all [pathFault?]

/-- A path that is sound behind a directory is sound up to it. -/
theorem pathFault?_asFolder (relative : file.startsWith "/" = false)
    (h : pathFault? (join base file) = none) : pathFault? (asFolder base) = none := by
  cases hempty : base.isEmpty with
  | true =>
      rw [asFolder, if_pos hempty]
      decide
  | false =>
      obtain ⟨rest, hrest⟩ := exists_join_eq relative hempty
      have hfolder : asFolder base = base := by simp [asFolder, hempty]
      rw [hfolder]
      exact pathFault?_of_append hempty (hrest ▸ h)

/-- A joined path that does not go up leads where its second part leads from what is at the first,
whatever lies around that. -/
theorem resolve_join (relative : file.startsWith "/" = false)
    (descending : ".." ∉ pathParts file) (t : FileTree) (base : String) :
    t.resolve (join base file) =
      match pathFault? (join base file) with
      | some cause => .error cause
      | none => (t.resolve (asFolder base)).bind fun node => walk [] node (pathParts file) := by
  obtain ⟨ps, stay, hfolder, hstay, hjoin⟩ := exists_parts_join relative base
  unfold resolve
  cases hfault : pathFault? (join base file) with
  | some cause => rfl
  | none =>
      simp only [pathFault?_asFolder relative hfault, startsWith_join relative, hfolder, hjoin,
        ← List.append_assoc]
      exact walk_append_staying hstay descending (pathParts_ne_nil file) _ _ _

/-- What is read from a joined path does not depend on what lies around the directory. -/
theorem readText_join_congr (relative : file.startsWith "/" = false)
    (descending : ".." ∉ pathParts file)
    (same : t.resolve (asFolder base) = t'.resolve (asFolder base)) :
    t.readText (join base file) = t'.readText (join base file) := by
  have hresolve : t.resolve (join base file) = t'.resolve (join base file) := by
    rw [resolve_join relative descending, resolve_join relative descending, same]
  rw [readText, readText, hresolve]

/-- A directory named with a slash at its end has the same names. -/
theorem names_asFolder (path : String) : names (asFolder path) = names path := by
  unfold asFolder
  split
  · next hempty =>
      have hpath : path = "" := by simpa using hempty
      rw [hpath, names, names, pathParts_eq, pathParts_eq]
      decide
  · rfl

/-- A joined path is below the directory if it leads on without going up. -/
theorem isBelow_join (relative : file.startsWith "/" = false)
    (descending : ".." ∉ pathParts file) (leading : names file ≠ []) (base : String) :
    IsBelow base (join base file) where
  start := by
    rw [startsWith_join relative, asFolder]
    split
    · next hempty =>
        have hbase : base = "" := by simpa using hempty
        rw [hbase, startsWith_slash_eq, startsWith_slash_eq]
        decide
    · rfl
  way := by
    obtain ⟨ps, stay, hfolder, hstay, hjoin⟩ := exists_parts_join relative base
    have hnone : (stay.filter fun part => !(part == "" || part == ".")) = [] := by
      apply List.filter_eq_nil_iff.2
      intro part hpart
      rcases hstay part hpart with rfl | rfl <;> decide
    refine ⟨names file, ?_, leading, ?_⟩
    · rw [← names_asFolder base, names, names, hjoin, hfolder, List.filter_append,
        List.filter_append, hnone, List.append_nil]
      rfl
    · intro hup
      exact descending (List.mem_filter.1 hup).1

end FileTree
end Casework
