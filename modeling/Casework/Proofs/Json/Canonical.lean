import Casework.Json.Value

/-!
# Canonical form — free-form values as they are kept

* `Fields.Ordered` : entries in ascending order of their keys;
* `Value.canonical_canonical`, `Value.canonicalFields_canonicalFields` : the canonical form of a
  canonical form is itself.
-/

namespace Casework

namespace Fields

variable {fields : Fields} {key : String} {v : Value}

/-- Whether the keys ascend, each of them once. -/
def Ordered (fields : Fields) : Prop :=
  fields.Pairwise fun a b => a.1 < b.1

/-- Keys are ordered totally. -/
theorem lt_of_not_lt_of_ne {a b : String} (h : ¬ a < b) (hne : b ≠ a) : b < a := by
  apply Classical.byContradiction
  intro hnot
  exact hne (String.le_antisymm (String.not_lt.1 h) (String.not_lt.1 hnot))

theorem mem_insertSorted {f : String × Value} (h : f ∈ insertSorted key v fields) :
    f = (key, v) ∨ f ∈ fields := by
  induction fields with
  | nil => exact .inl (List.mem_singleton.1 h)
  | cons g rest ih =>
      obtain ⟨k, w⟩ := g
      by_cases hlt : key < k
      · rw [insertSorted, if_pos hlt] at h
        exact List.mem_cons.1 h
      · rw [insertSorted, if_neg hlt] at h
        rcases List.mem_cons.1 h with rfl | hrest
        · exact .inr List.mem_cons_self
        · exact (ih hrest).imp id (List.mem_cons_of_mem _)

/-- A key is missing if every entry has another one. -/
theorem hasKey_eq_false_iff : hasKey fields key = false ↔ ∀ f ∈ fields, f.1 ≠ key := by
  simp [hasKey]

/-- An entry under a new key is put in its place. -/
theorem ordered_insertSorted (h : Ordered fields) (fresh : hasKey fields key = false) (v : Value) :
    Ordered (insertSorted key v fields) := by
  rw [hasKey_eq_false_iff] at fresh
  induction fields with
  | nil => exact List.pairwise_singleton _ _
  | cons g rest ih =>
      obtain ⟨k, w⟩ := g
      obtain ⟨hfirst, hrest⟩ := List.pairwise_cons.1 h
      by_cases hlt : key < k
      · rw [insertSorted, if_pos hlt]
        refine List.pairwise_cons.2 ⟨?_, h⟩
        intro f hf
        rcases List.mem_cons.1 hf with rfl | hmem
        · exact hlt
        · exact String.lt_trans hlt (hfirst f hmem)
      · rw [insertSorted, if_neg hlt]
        refine List.pairwise_cons.2 ⟨?_, ih hrest fun f hf => fresh f (List.mem_cons_of_mem _ hf)⟩
        intro f hf
        rcases mem_insertSorted hf with rfl | hmem
        · exact lt_of_not_lt_of_ne hlt (fresh (k, w) List.mem_cons_self)
        · exact hfirst f hmem

/-- An entry in front of greater keys stays there. -/
theorem insertSorted_of_lt (h : ∀ f ∈ fields, key < f.1) :
    insertSorted key v fields = (key, v) :: fields := by
  cases fields with
  | nil => rfl
  | cons g rest =>
      obtain ⟨k, w⟩ := g
      rw [insertSorted, if_pos (h (k, w) List.mem_cons_self)]

end Fields

open Fields

namespace Value

variable {fields : Casework.Fields}

/-- The entries of a canonical map ascend. -/
theorem ordered_canonicalFields (fields : Casework.Fields) : Ordered (canonicalFields fields) := by
  induction fields with
  | nil => exact List.Pairwise.nil
  | cons f rest ih =>
      obtain ⟨k, v⟩ := f
      rw [canonicalFields]
      split
      · exact ih
      · next hfresh => exact ordered_insertSorted ih (by simpa using hfresh) _

/-- The values of the canonical form are canonical forms of values. -/
theorem exists_of_mem_canonicalFields {f : String × Value} (h : f ∈ canonicalFields fields) :
    ∃ g ∈ fields, f.2 = g.2.canonical := by
  induction fields with
  | nil => cases h
  | cons g rest ih =>
      obtain ⟨k, v⟩ := g
      rw [canonicalFields] at h
      have hlater : f ∈ canonicalFields rest → ∃ g ∈ (k, v) :: rest, f.2 = g.2.canonical := by
        intro hmem
        rcases ih hmem with ⟨g, hg, hvalue⟩
        exact ⟨g, List.mem_cons_of_mem _ hg, hvalue⟩
      split at h
      · exact hlater h
      · rcases mem_insertSorted h with rfl | hmem
        · exact ⟨(k, v), List.mem_cons_self, rfl⟩
        · exact hlater hmem

/-- Ordered entries with canonical values are in canonical form. -/
theorem canonicalFields_of_ordered (ordered : Ordered fields)
    (h : ∀ f ∈ fields, f.2.canonical = f.2) : canonicalFields fields = fields := by
  induction fields with
  | nil => rfl
  | cons f rest ih =>
      obtain ⟨k, v⟩ := f
      obtain ⟨hfirst, hrest⟩ := List.pairwise_cons.1 ordered
      have hsame := ih hrest fun f hf => h f (List.mem_cons_of_mem _ hf)
      have hfresh : hasKey rest k = false := by
        rw [hasKey_eq_false_iff]
        rintro f hf rfl
        exact String.lt_irrefl _ (hfirst f hf)
      have hvalue : v.canonical = v := h (k, v) List.mem_cons_self
      rw [canonicalFields]
      rw [hsame, hfresh, hvalue]
      exact insertSorted_of_lt hfirst

mutual

/-- The canonical form of a canonical form is itself. -/
theorem canonical_canonical : ∀ v : Value, v.canonical.canonical = v.canonical
  | .null | .bool _ | .int _ | .float _ | .str _ => rfl
  | .arr items => by
      rw [canonical, canonical, canonicalItems_canonicalItems items]
  | .obj fields => by
      rw [canonical, canonical, canonicalFields_canonicalFields fields]

/-- To sort twice is to sort once, element by element. -/
theorem canonicalItems_canonicalItems :
    ∀ items : List Value, canonicalItems (canonicalItems items) = canonicalItems items
  | [] => rfl
  | v :: rest => by
      rw [canonicalItems, canonicalItems, canonical_canonical v,
        canonicalItems_canonicalItems rest]

theorem canonical_of_mem :
    ∀ fields : List (String × Value), ∀ f ∈ fields, f.2.canonical.canonical = f.2.canonical
  | [] => by simp
  | (_, v) :: rest => List.forall_mem_cons.2 ⟨canonical_canonical v, canonical_of_mem rest⟩

/-- To sort the entries of a map twice is to sort them once. -/
theorem canonicalFields_canonicalFields (fields : List (String × Value)) :
    canonicalFields (canonicalFields fields) = canonicalFields fields := by
  have hvalues := canonical_of_mem fields
  refine canonicalFields_of_ordered (ordered_canonicalFields fields) ?_
  intro f hf
  rcases exists_of_mem_canonicalFields hf with ⟨g, hg, hvalue⟩
  rw [hvalue]
  exact hvalues g hg

end

end Value
end Casework
