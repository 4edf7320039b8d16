import Casework.Json.Writer

/-!
# Plain texts — what documents on one line are made of

A document that is written on one line holds no control characters, whatever stands in its texts:
they are escaped there, and nothing else would bring one.

* `Text.IsPlain` : texts without control characters;
* `Text.isPlain_append`, `Text.isPlain_intercalate` : how they are put together;
* `Value.Writer.isPlain_quoted`, `NumberLayout.isPlain_render` : texts between quotes, and numbers;
* `Value.isPlain_compact` : documents.
-/

namespace Casework
namespace Text

def IsPlain (cs : List Char) : Prop :=
  ∀ c ∈ cs, 0x20 ≤ c.toNat

instance (cs : List Char) : Decidable (IsPlain cs) :=
  decidable_of_iff (cs.all fun c => decide (0x20 ≤ c.toNat)) (by simp [IsPlain])

variable {cs ds : List Char}

theorem isPlain_append (hcs : IsPlain cs) (hds : IsPlain ds) : IsPlain (cs ++ ds) := by
  intro c hc
  rcases List.mem_append.1 hc with hleft | hright
  · exact hcs c hleft
  · exact hds c hright

theorem isPlain_cons {c : Char} (hc : 0x20 ≤ c.toNat) (hcs : IsPlain cs) : IsPlain (c :: cs) := by
  intro d hd
  rcases List.mem_cons.1 hd with rfl | htail
  · exact hc
  · exact hcs d htail

theorem isPlain_nil : IsPlain [] := by
  intro c hc
  cases hc

/-- A part of a plain text is plain. -/
theorem IsPlain.subset (h : IsPlain ds) (hsub : cs ⊆ ds) : IsPlain cs :=
  fun c hc => h c (hsub hc)

/-- A plain text is one line. -/
theorem IsPlain.newline_not_mem (h : IsPlain cs) : '\n' ∉ cs := by
  intro hmem
  have hbound := h '\n' hmem
  revert hbound
  decide

/-- A join of plain texts by a plain text is plain. -/
theorem isPlain_intercalate (sep : String) (hsep : IsPlain sep.toList) {parts : List String}
    (hparts : ∀ s ∈ parts, IsPlain s.toList) : IsPlain (String.intercalate sep parts).toList := by
  induction parts with
  | nil => exact isPlain_nil
  | cons s rest ih =>
      have hs : IsPlain s.toList := hparts s (by simp)
      have hrest := ih fun s' hs' => hparts s' (by simp [hs'])
      cases rest with
      | nil =>
          rw [String.intercalate_singleton]
          exact hs
      | cons s' rest =>
          rw [String.intercalate_cons_cons, String.toList_append, String.toList_append]
          exact isPlain_append (isPlain_append hs hsep) hrest

/-! ## Digits -/

theorem le_toNat_of_isDigit {c : Char} (h : c.isDigit = true) : 0x20 ≤ c.toNat := by
  simp only [Char.isDigit, Bool.and_eq_true, decide_eq_true_eq] at h
  have hfirst : 48 ≤ c.val.toNat := UInt32.le_iff_toNat_le.1 h.1
  show 32 ≤ c.val.toNat
  omega

theorem isPlain_toDigits (n : Nat) : IsPlain (Nat.toDigits 10 n) := by
  intro c hc
  exact le_toNat_of_isDigit (Nat.isDigit_of_mem_toDigits (by decide) (by decide) hc)

theorem isPlain_repr (n : Nat) : IsPlain n.repr.toList := by
  show IsPlain (String.ofList (Nat.toDigits 10 n)).toList
  rw [String.toList_ofList]
  exact isPlain_toDigits n

theorem isPlain_toString (n : Int) : IsPlain (toString n).toList := by
  cases n with
  | ofNat m => exact isPlain_repr m
  | negSucc m =>
      show IsPlain ("-" ++ (m + 1).repr).toList
      rw [String.toList_append]
      exact isPlain_append (by decide) (isPlain_repr (m + 1))

/-- A control character is written by two digits. -/
theorem isPlain_hexPair {n : Nat} (h : n < 0x20) : IsPlain (hexPair n) := by
  have hall : ∀ m < 0x20, IsPlain (hexPair m) := by decide
  exact hall n h

end Text

open Text

namespace NumberLayout

/-- A number that is written positionally is plain. -/
theorem isPlain_positional (l : NumberLayout) (d : Decimal) : IsPlain (l.positional d) := by
  have hdigits : IsPlain (Nat.toDigits 10 d.digits) := isPlain_toDigits d.digits
  have hzeros : ∀ n, IsPlain (List.replicate n '0') := by
    intro n c hc
    obtain rfl := List.eq_of_mem_replicate hc
    decide
  unfold positional
  dsimp only
  split
  · refine isPlain_append (isPlain_append hdigits (hzeros _)) ?_
    split
    · exact isPlain_cons (by decide) (isPlain_cons (by decide) isPlain_nil)
    · exact isPlain_nil
  · split
    · exact isPlain_append (hdigits.subset (List.take_subset _ _))
        (isPlain_cons (by decide) (hdigits.subset (List.drop_subset _ _)))
    · exact isPlain_cons (by decide) (isPlain_cons (by decide) (isPlain_append (hzeros _) hdigits))

/-- So is one with an exponent. -/
theorem isPlain_scientific (d : Decimal) : IsPlain (scientific d) := by
  have hdigits : IsPlain (Nat.toDigits 10 d.digits) := isPlain_toDigits d.digits
  unfold scientific
  dsimp only
  refine isPlain_append (isPlain_append (hdigits.subset (List.take_subset _ _)) ?_) ?_
  · split
    · exact isPlain_nil
    · exact isPlain_cons (by decide) (hdigits.subset (List.drop_subset _ _))
  · refine isPlain_cons (by decide) (isPlain_cons ?_ (isPlain_toDigits _))
    split <;> decide

theorem isPlain_render (l : NumberLayout) (x : Binary64) : IsPlain (l.render x).toList := by
  have hbody : ∀ d : Decimal,
      IsPlain (if l.isPositional d.leadingExponent then l.positional d else scientific d) := by
    intro d
    split
    · exact isPlain_positional l d
    · exact isPlain_scientific d
  unfold render
  split
  · dsimp only
    rw [String.toList_ofList]
    split
    · exact isPlain_cons (by decide) (hbody _)
    · exact hbody _
  · split
    · decide
    · split <;> decide

end NumberLayout

namespace Value

namespace Writer

/-- What is written for a character is plain, whatever the character. -/
theorem isPlain_escapeChar (c : Char) : IsPlain (escapeChar c) := by
  unfold escapeChar
  -- The seven characters with an escape of their own, in order.
  iterate 7
    split
    · decide
  split
  · next hcontrol =>
      have hopening : IsPlain ['\\', 'u', '0', '0'] := by decide
      exact isPlain_append hopening (isPlain_hexPair hcontrol)
  · next hshown => exact isPlain_cons (Nat.le_of_not_lt hshown) isPlain_nil

/-- So a text between quotes is. -/
theorem isPlain_quoted (s : String) : IsPlain (quoted s).toList := by
  unfold quoted
  rw [String.toList_ofList]
  refine isPlain_cons (by decide) (isPlain_append ?_ (isPlain_cons (by decide) isPlain_nil))
  intro d hd
  obtain ⟨c, -, hescaped⟩ := List.mem_flatMap.1 hd
  exact isPlain_escapeChar c d hescaped

end Writer

mutual

/-- A document on one line holds no control characters. -/
theorem isPlain_compact : ∀ v : Value, IsPlain (compact v).toList
  | .null | .bool true | .bool false => by decide
  | .int n => isPlain_toString n
  | .float x => by
      unfold compact
      split
      · exact NumberLayout.isPlain_render _ x
      · decide
  | .str s => Writer.isPlain_quoted s
  | .arr items => by
      unfold compact
      rw [String.toList_append, String.toList_append]
      have hitems := isPlain_intercalate "," (by decide)
        (isPlain_compactItems items)
      exact isPlain_append (isPlain_append (by decide) hitems)
        (by decide)
  | .obj fields => by
      unfold compact
      rw [String.toList_append, String.toList_append]
      have hfields := isPlain_intercalate "," (by decide)
        (isPlain_compactFields fields)
      exact isPlain_append (isPlain_append (by decide) hfields)
        (by decide)

/-- The documents of the elements of a sequence are plain. -/
theorem isPlain_compactItems : ∀ items : List Value, ∀ s ∈ compactItems items, IsPlain s.toList
  | [] => by simp [compactItems]
  | v :: rest => by
      intro s hs
      rcases List.mem_cons.1 hs with rfl | htail
      · exact isPlain_compact v
      · exact isPlain_compactItems rest s htail

/-- So are those of the entries of a map. -/
theorem isPlain_compactFields :
    ∀ fields : List (String × Value), ∀ s ∈ compactFields fields, IsPlain s.toList
  | [] => by simp [compactFields]
  | (k, v) :: rest => by
      intro s hs
      rcases List.mem_cons.1 hs with rfl | htail
      · rw [String.toList_append, String.toList_append]
        exact isPlain_append (isPlain_append (Writer.isPlain_quoted k)
          (by decide)) (isPlain_compact v)
      · exact isPlain_compactFields rest s htail

end

end Value
end Casework
