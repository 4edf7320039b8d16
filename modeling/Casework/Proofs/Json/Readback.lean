import Casework.Json.Writer
import Casework.Proofs.Text.Digits

/-!
# Readback — documents on one line are read back

A value that is written on one line is read back from it, whatever follows, unless a number in it is
not read back as written or it is nested more deeply than the reader allows.

* `Binary64.ReadsBack`, `Value.Legible` : numbers that are read back as written;
* `Value.nesting` : how deeply sequences and maps are nested;
* `Value.Reader.readText_escaped`, `Value.Reader.readNumber_toString` : texts and integers;
* `Value.read?_compact` : whole documents.
-/

namespace Casework

def Binary64.ReadsBack (x : Binary64) : Prop :=
  x.isFinite = true ∧
    Value.Reader.readNumber (NumberLayout.document.render x).toList = some (.float x, [])

instance (x : Binary64) : Decidable x.ReadsBack :=
  inferInstanceAs (Decidable (_ ∧ _))

namespace Value

mutual

/-- Whether the numbers of a value are read back as written: integers of 64 bits, and binary64
numbers that are. -/
def Legible : Value → Prop
  | .int n => -Nat.pow 2 63 ≤ n ∧ n < Nat.pow 2 64
  | .float x => x.ReadsBack
  | .arr items => LegibleItems items
  | .obj fields => LegibleFields fields
  | .null | .bool _ | .str _ => True

/-- `Legible` for every element. -/
def LegibleItems : List Value → Prop
  | [] => True
  | v :: rest => Legible v ∧ LegibleItems rest

/-- `Legible` for the value of every entry. -/
def LegibleFields : List (String × Value) → Prop
  | [] => True
  | (_, v) :: rest => Legible v ∧ LegibleFields rest

end

mutual

def nesting : Value → Nat
  | .arr items => nestingItems items + 1
  | .obj fields => nestingFields fields + 1
  | .null | .bool _ | .int _ | .float _ | .str _ => 0

/-- The greatest `nesting` of the elements. -/
def nestingItems : List Value → Nat
  | [] => 0
  | v :: rest => max (nesting v) (nestingItems rest)

/-- The greatest `nesting` of the values of the entries. -/
def nestingFields : List (String × Value) → Nat
  | [] => 0
  | (_, v) :: rest => max (nesting v) (nestingFields rest)

end

namespace Reader

variable {cs t rest : List Char}

/-! ## Texts -/

/-- The four digits of a control character are read back. -/
theorem hexUnit?_control (c : Char) (h : c.toNat < 0x20) :
    hexUnit? '0' '0' (c.toNat / 16).digitChar (c.toNat % 16).digitChar = some c.toNat := by
  have hall : ∀ n < 0x20, hexUnit? '0' '0' (n / 16).digitChar (n % 16).digitChar = some n := by
    decide
  exact hall c.toNat h

theorem characterOf?_toNat (c : Char) : Text.characterOf? c.toNat = some c := by
  have hvalid : c.toNat.isValidChar := c.valid
  rw [Text.characterOf?, if_pos hvalid, Char.ofNat_toNat]

/-- A character is read back from the way it is written. -/
theorem readText_escapeChar (c : Char) (cs : List Char) :
    readText (Writer.escapeChar c ++ cs) = (readText cs).bind (withHead c) := by
  unfold Writer.escapeChar
  -- The seven characters with an escape of their own, in order.
  iterate 7
    split
    · next heq =>
        subst heq
        exact readText_escape cs (by decide)
  split
  · next hcontrol =>
      show readText ('\\' :: 'u' :: '0' :: '0' :: (c.toNat / 16).digitChar ::
        (c.toNat % 16).digitChar :: cs) = _
      rw [readText_unit, hexUnit?_control c hcontrol, Option.bind_some]
      simp only [characterOf?_toNat]
  · next hquote hslash _ _ _ _ _ hshown =>
      show readText (c :: cs) = _
      rw [readText_cons cs hquote hslash, if_neg hshown]

/-- A text is read back from the way it is written, up to its closing quote. -/
theorem readText_escaped (s t : List Char) :
    readText (s.flatMap Writer.escapeChar ++ '"' :: t) = some (s, t) := by
  induction s with
  | nil => rfl
  | cons c s ih =>
      rw [List.flatMap_cons, List.append_assoc, readText_escapeChar, ih]
      rfl

/-! ## Numbers -/

/-- The digits of a natural number are read as a whole number, without any rest. -/
theorem readUnsigned_toDigits (negative : Bool) (n : Nat) :
    readUnsigned negative (Nat.toDigits 10 n) =
      (wholeNumber negative (Nat.toDigits 10 n)).map fun v => (v, []) := by
  obtain ⟨htake, hdrop⟩ := Text.takeWhile_isDigit_toDigits n
  have hpos : 0 < (Nat.toDigits 10 n).length := Nat.length_toDigits_pos
  have hwhole : ((Nat.toDigits 10 n).isEmpty ||
      ((Nat.toDigits 10 n).head? == some '0' && 1 < (Nat.toDigits 10 n).length)) = false := by
    simp only [Bool.or_eq_false_iff, List.isEmpty_eq_false_iff, Bool.and_eq_false_iff,
      beq_eq_false_iff_ne, decide_eq_false_iff_not]
    refine ⟨List.ne_nil_of_length_pos hpos, ?_⟩
    by_cases hhead : (Nat.toDigits 10 n).head? = some '0'
    · right
      rw [Text.head?_toDigits n hhead]
      decide
    · exact .inl hhead
  simp only [readUnsigned, htake, hdrop, hwhole]
  simp only [readFraction, readExponent, numberOf, Option.bind_some, Bool.false_eq_true, if_false]
  cases wholeNumber negative (Nat.toDigits 10 n) <;> rfl

/-- An integer is read back from its numeral. -/
theorem readNumber_toString (n : Int) (low : -Nat.pow 2 63 ≤ n) (high : n < Nat.pow 2 64) :
    readNumber (toString n).toList = some (.int n, []) := by
  -- The two signs have different bounds, and only one of them is written.
  cases n with
  | ofNat m =>
      have hhead : numberSign (Nat.toDigits 10 m) = (false, Nat.toDigits 10 m) := by
        unfold numberSign
        split
        · next rest heq =>
            have hdigit : '-'.isDigit = true := by
              refine Nat.isDigit_of_mem_toDigits (b := 10) (n := m) (by decide) (by decide) ?_
              rw [heq]
              exact List.mem_cons_self
            cases hdigit
        · rfl
      have hsmall : m < Nat.pow 2 64 := by
        exact Int.ofNat_lt.1 high
      show readNumber (String.ofList (Nat.toDigits 10 m)).toList = _
      rw [String.toList_ofList, readNumber_eq, hhead, readUnsigned_toDigits]
      simp [wholeNumber, Text.digitsValue_toDigits, hsmall]
  | negSucc m =>
      have hbound : m + 1 ≤ Nat.pow 2 63 := by
        have hneg : Int.negSucc m = -((m + 1 : Nat) : Int) := rfl
        rw [hneg] at low
        exact Int.ofNat_le.1 (Int.le_of_neg_le_neg low)
      show readNumber ("-" ++ String.ofList (Nat.toDigits 10 (m + 1))).toList = _
      rw [String.toList_append, String.toList_ofList, String.toList_ofList, readNumber_eq]
      show readUnsigned true (Nat.toDigits 10 (m + 1)) = _
      rw [readUnsigned_toDigits]
      simp only [wholeNumber, Text.digitsValue_toDigits, if_pos, hbound, Nat.zero_lt_succ, and_self]
      rfl

/-- A number begins with a digit or its sign. -/
theorem head_of_readNumber {v : Value} (h : readNumber cs = some (v, rest)) :
    ∃ c more, cs = c :: more ∧ (c = '-' ∨ c.isDigit = true) := by
  cases cs with
  | nil => cases h
  | cons c more =>
      refine ⟨c, more, rfl, ?_⟩
      by_cases hsign : c = '-'
      · exact .inl hsign
      · right
        have hunsigned : numberSign (c :: more) = (false, c :: more) := by
          unfold numberSign
          split
          · next heq => exact absurd (List.cons.inj heq).1 hsign
          · rfl
        rw [readNumber_eq, hunsigned] at h
        by_contra hdigit
        simp [readUnsigned, hdigit] at h

/-- A number begins with its sign or with a digit, and with nothing else. -/
theorem ne_of_number {c : Char} (h : c = '-' ∨ c.isDigit = true) (other : Char)
    (hsign : other ≠ '-') (hdigit : other.isDigit = false) : c ≠ other := by
  rintro rfl
  rcases h with hminus | hnumeral
  · exact hsign hminus
  · rw [hdigit] at hnumeral
    cases hnumeral

/-- A number is read as a value. -/
theorem readValue_of_readNumber {v : Value} (h : readNumber cs = some (v, rest))
    (fuel depth : Nat) : readValue (fuel + 1) depth cs = some (v, rest) := by
  rcases head_of_readNumber h with ⟨c, more, rfl, hc⟩
  have hne := ne_of_number hc
  have hgap : skipGap (c :: more) = c :: more := by
    have hnone : isGap c = false := by
      simp [isGap, hne ' ' (by decide) (by decide), hne '\n' (by decide) (by decide),
        hne '\t' (by decide) (by decide), hne '\r' (by decide) (by decide)]
    rw [skipGap, List.dropWhile_cons_of_neg (by simp [hnone])]
  have hword : wordOf? c = none := by
    unfold wordOf?
    split
    · exact absurd rfl (hne 'n' (by decide) (by decide))
    · exact absurd rfl (hne 't' (by decide) (by decide))
    · exact absurd rfl (hne 'f' (by decide) (by decide))
    · rfl
  rw [readValue_number hgap (hne '"' (by decide) (by decide)) (hne '[' (by decide) (by decide))
    (hne '{' (by decide) (by decide)) hword, h]

/-! ## Values -/

theorem skipGap_cons {c : Char} (h : isGap c = false) (cs : List Char) :
    skipGap (c :: cs) = c :: cs := by
  rw [skipGap, List.dropWhile_cons_of_neg (by simp [h])]

theorem isGap_of_number {c : Char} (h : c = '-' ∨ c.isDigit = true) :
    isGap c = false ∧ c ≠ ']' := by
  have hne := ne_of_number h
  refine ⟨?_, hne ']' (by decide) (by decide)⟩
  simp [isGap, hne ' ' (by decide) (by decide), hne '\n' (by decide) (by decide),
    hne '\t' (by decide) (by decide), hne '\r' (by decide) (by decide)]

/-- A value on one line begins with something to read. -/
theorem head_compact (v : Value) (legible : v.Legible) :
    ∃ c more, (compact v).toList = c :: more ∧ isGap c = false ∧ c ≠ ']' := by
  have hnumber : ∀ {w : Value} {cs : List Char}, readNumber cs = some (w, []) →
      ∃ c more, cs = c :: more ∧ isGap c = false ∧ c ≠ ']' := by
    intro w cs hread
    rcases head_of_readNumber hread with ⟨c, more, rfl, hc⟩
    exact ⟨c, more, rfl, isGap_of_number hc⟩
  cases v with
  | null => exact ⟨_, _, rfl, by decide, by decide⟩
  | bool b => cases b <;> exact ⟨_, _, rfl, by decide, by decide⟩
  | int n => exact hnumber (readNumber_toString n legible.1 legible.2)
  | float x =>
      rw [compact, if_pos legible.1]
      exact hnumber legible.2
  | str s =>
      rw [compact, Writer.quoted, String.toList_ofList]
      exact ⟨_, _, rfl, by decide, by decide⟩
  | arr items =>
      rw [compact, String.toList_append, String.toList_append]
      exact ⟨_, _, rfl, by decide, by decide⟩
  | obj fields =>
      rw [compact, String.toList_append, String.toList_append]
      exact ⟨_, _, rfl, by decide, by decide⟩

section Steps

variable {fuel depth : Nat} {v : Value} {c : Char}

/-- A word is read where it begins. -/
theorem readValue_of_word {word : List Char} (hword : wordOf? c = some (word, v))
    (hgap : isGap c = false) (t : List Char) :
    readValue (fuel + 1) depth (c :: (word ++ t)) = some (v, t) := by
  have hself : afterWord? word word = some [] := by
    rw [afterWord?, if_pos (List.isPrefixOf_iff_prefix.2 (List.prefix_refl word)), List.drop_length]
  rw [readValue_word (skipGap_cons hgap _) hword, afterWord?_append t hself]
  rfl

/-- What stands between two brackets is read if it begins with something to read. -/
theorem readInside_of_read {α : Type} {close : Char} {wrap : List α → Value}
    {read : List Char → Option (List α × List Char)} {xs : List α}
    (start : ∃ c more, cs = c :: more ∧ isGap c = false ∧ c ≠ close)
    (hread : read (cs ++ t) = some (xs, rest)) :
    readInside close wrap read (cs ++ t) = some (wrap xs, rest) := by
  rcases start with ⟨c, more, rfl, hgap, hclose⟩
  rw [List.cons_append] at hread ⊢
  rw [readInside, skipGap_cons hgap, if_neg (by simpa using hclose), hread]
  rfl

/-- The last element ends a sequence. -/
theorem readItems_last (hread : readValue fuel depth cs = some (v, ']' :: t)) :
    readItems (fuel + 1) depth cs = some ([v], t) := by
  rw [readItems, hread]
  rfl

/-- An element with a comma behind it goes on with the others. -/
theorem readItems_more {vs : List Value} (hread : readValue fuel depth cs = some (v, ',' :: rest))
    (hmore : readItems fuel depth rest = some (vs, t)) :
    readItems (fuel + 1) depth cs = some (v :: vs, t) := by
  rw [readItems, hread]
  show (readItems fuel depth rest).bind _ = _
  rw [hmore]
  rfl

/-- The key of an entry is read, and then its value. -/
theorem readFields_key (k : String) (cs : List Char) :
    readFields (fuel + 1) depth ('"' :: (k.toList.flatMap Writer.escapeChar ++ '"' :: ':' :: cs)) =
      (readValue fuel depth cs).bind fun out =>
        match skipGap out.2 with
        | '}' :: rest => some ([(k, out.1)], rest)
        | ',' :: rest =>
            (readFields fuel depth rest).bind fun more => some ((k, out.1) :: more.1, more.2)
        | _ => none := by
  rw [readFields, skipGap_cons (by decide)]
  simp only [readText_escaped, Option.bind_eq_bind, Option.bind_some, skipGap_cons (c := ':') rfl,
    String.ofList_toList]
  rfl

end Steps

/-- The parts of a sequence or a map, with commas in between. -/
def parts (texts : List String) : List Char :=
  (String.intercalate "," texts).toList

theorem parts_singleton (s : String) : parts [s] = s.toList := by
  rw [parts, String.intercalate_singleton]

theorem parts_cons_cons (s s' : String) (texts : List String) :
    parts (s :: s' :: texts) = s.toList ++ ',' :: parts (s' :: texts) := by
  rw [parts, String.intercalate_cons_cons, String.toList_append, String.toList_append]
  simp [parts]

theorem exists_parts_cons (s : String) (texts : List String) :
    ∃ more, parts (s :: texts) = s.toList ++ more := by
  cases texts with
  | nil => exact ⟨[], by simp [parts_singleton]⟩
  | cons s' texts => exact ⟨_, parts_cons_cons s s' texts⟩

/-- A sequence is written as its elements between brackets. -/
theorem toList_compact_arr (items : List Value) :
    (compact (.arr items)).toList = '[' :: (parts (compactItems items) ++ [']']) := by
  rw [compact, String.toList_append, String.toList_append]
  rfl

/-- A map is written as its entries between braces. -/
theorem toList_compact_obj (fields : List (String × Value)) :
    (compact (.obj fields)).toList = '{' :: (parts (compactFields fields) ++ ['}']) := by
  rw [compact, String.toList_append, String.toList_append]
  rfl

/-- The entry of a map on one line. -/
theorem toList_entry (k : String) (v : Value) :
    (Writer.quoted k ++ ":" ++ compact v).toList =
      '"' :: (k.toList.flatMap Writer.escapeChar ++ '"' :: ':' :: (compact v).toList) := by
  rw [String.toList_append, String.toList_append, Writer.quoted, String.toList_ofList]
  simp

/-- Whatever stands behind an element goes on no number. -/
theorem apart_cons {c : Char} (h : c = ',' ∨ c = ']' ∨ c = '}') (cs : List Char) :
    Apart (c :: cs) := by
  intro d hd
  cases hd
  rcases h with rfl | rfl | rfl <;> decide

/-- Whether a value is read back from the way it is written on one line, whatever follows. -/
structure IsReadBack (v : Value) : Prop where
  read : ∀ {fuel depth : Nat} {t : List Char}, v.nesting ≤ depth →
    (compact v).toList.length ≤ fuel → Apart t →
    readValue fuel depth ((compact v).toList ++ t) = some (v, t)

/-- A word is read back in front of anything. -/
theorem isReadBack_of_word {v : Value} {c : Char} {word : List Char}
    (htext : (compact v).toList = c :: word) (hword : wordOf? c = some (word, v))
    (hgap : isGap c = false) : IsReadBack v := by
  refine ⟨fun {fuel depth t} _ enough _ => ?_⟩
  rw [htext] at enough ⊢
  cases fuel with
  | zero => cases enough
  | succ fuel => exact readValue_of_word hword hgap t

/-- A number is read back in front of what goes on no number. -/
theorem isReadBack_of_number {v : Value} (h : readNumber (compact v).toList = some (v, [])) :
    IsReadBack v := by
  refine ⟨fun {fuel depth t} _ enough apart => ?_⟩
  cases fuel with
  | zero =>
      rcases head_of_readNumber h with ⟨c, more, htext, -⟩
      rw [htext] at enough
      cases enough
  | succ fuel => exact readValue_of_readNumber (readNumber_append apart h) fuel depth

theorem isReadBack_int {n : Int} (legible : Legible (.int n)) : IsReadBack (.int n) := by
  rw [Legible] at legible
  refine isReadBack_of_number ?_
  rw [compact]
  exact readNumber_toString n legible.1 legible.2

theorem isReadBack_float {x : Binary64} (legible : Legible (.float x)) : IsReadBack (.float x) := by
  rw [Legible] at legible
  refine isReadBack_of_number ?_
  rw [compact, if_pos legible.1]
  exact legible.2

theorem isReadBack_str (s : String) : IsReadBack (.str s) := by
  refine ⟨fun {fuel depth t} _ enough _ => ?_⟩
  have htext : (compact (.str s)).toList =
      '"' :: (s.toList.flatMap Writer.escapeChar ++ ['"']) := by
    rw [compact, Writer.quoted, String.toList_ofList]
  rw [htext] at enough ⊢
  cases fuel with
  | zero => cases enough
  | succ fuel =>
      rw [List.cons_append, readValue_text (skipGap_cons (by decide) _), List.append_assoc,
        List.singleton_append, readText_escaped, Option.map_some, String.ofList_toList]

/-- The elements of a sequence are read back one after the other. -/
theorem readItems_parts {v : Value} {items : List Value} {fuel depth : Nat}
    (h : ∀ w ∈ v :: items, IsReadBack w) (deep : nestingItems (v :: items) ≤ depth)
    (enough : (parts (compactItems (v :: items))).length + 1 ≤ fuel) (t : List Char) :
    readItems fuel depth (parts (compactItems (v :: items)) ++ ']' :: t) =
      some (v :: items, t) := by
  have hv : IsReadBack v := h v List.mem_cons_self
  have hdeep : nesting v ≤ depth := Nat.le_trans (Nat.le_max_left _ _) deep
  induction items generalizing v fuel with
  | nil =>
      obtain ⟨fuel, rfl⟩ := Nat.exists_eq_add_one_of_ne_zero (Nat.ne_zero_of_lt enough)
      simp only [compactItems, parts_singleton] at enough ⊢
      exact readItems_last (hv.read hdeep (Nat.le_of_succ_le_succ enough) (apart_cons (by simp) t))
  | cons w items ih =>
      obtain ⟨fuel, rfl⟩ := Nat.exists_eq_add_one_of_ne_zero (Nat.ne_zero_of_lt enough)
      simp only [compactItems, parts_cons_cons, List.length_append, List.length_cons] at enough ⊢
      rw [List.append_assoc, List.cons_append]
      have hw : ∀ w' ∈ w :: items, IsReadBack w' :=
        fun w' hmem => h w' (List.mem_cons_of_mem _ hmem)
      have hmore : nestingItems (w :: items) ≤ depth := Nat.le_trans (Nat.le_max_right _ _) deep
      refine readItems_more (hv.read hdeep (by omega) (apart_cons (by simp) _)) ?_
      exact ih hw hmore (by simp only [compactItems]; omega) (hw w List.mem_cons_self)
        (Nat.le_trans (Nat.le_max_left _ _) hmore)

/-- The entries of a map are read back one after the other. -/
theorem readFields_parts {k : String} {v : Value} {fields : List (String × Value)}
    {fuel depth : Nat} (h : ∀ f ∈ (k, v) :: fields, IsReadBack f.2)
    (deep : nestingFields ((k, v) :: fields) ≤ depth)
    (enough : (parts (compactFields ((k, v) :: fields))).length + 1 ≤ fuel) (t : List Char) :
    readFields fuel depth (parts (compactFields ((k, v) :: fields)) ++ '}' :: t) =
      some ((k, v) :: fields, t) := by
  have hv : IsReadBack v := h (k, v) List.mem_cons_self
  have hdeep : nesting v ≤ depth := Nat.le_trans (Nat.le_max_left _ _) deep
  -- By the entries behind the first, since the last one is not followed by a comma.
  induction fields generalizing k v fuel with
  | nil =>
      obtain ⟨fuel, rfl⟩ := Nat.exists_eq_add_one_of_ne_zero (Nat.ne_zero_of_lt enough)
      simp only [compactFields, parts_singleton, toList_entry, List.length_cons,
        List.length_append] at enough ⊢
      have hlength : (compact v).toList.length ≤ fuel := by omega
      have hread := hv.read (t := '}' :: t) hdeep hlength (apart_cons (by simp) t)
      simp only [List.cons_append, List.append_assoc]
      rw [readFields_key, hread, Option.bind_some, skipGap_cons (by decide)]
      rfl
  | cons f fields ih =>
      obtain ⟨k', v'⟩ := f
      obtain ⟨fuel, rfl⟩ := Nat.exists_eq_add_one_of_ne_zero (Nat.ne_zero_of_lt enough)
      simp only [compactFields, parts_cons_cons, toList_entry, List.length_append,
        List.length_cons] at enough ⊢
      simp only [List.cons_append, List.append_assoc]
      have hw : ∀ f ∈ (k', v') :: fields, IsReadBack f.2 :=
        fun f hmem => h f (List.mem_cons_of_mem _ hmem)
      have hmore : nestingFields ((k', v') :: fields) ≤ depth :=
        Nat.le_trans (Nat.le_max_right _ _) deep
      have hlength : (parts (compactFields ((k', v') :: fields))).length + 1 ≤ fuel := by
        simp only [compactFields]
        omega
      have hrest := ih hw hmore hlength (hw _ List.mem_cons_self)
        (Nat.le_trans (Nat.le_max_left _ _) hmore)
      simp only [compactFields] at hrest
      rw [readFields_key, hv.read hdeep (by omega) (apart_cons (by simp) _), Option.bind_some,
        skipGap_cons (by decide)]
      simp only [hrest, Option.bind_some]

/-- A sequence is read back if its elements are. -/
theorem isReadBack_arr {items : List Value} (legible : LegibleItems items)
    (h : ∀ v ∈ items, IsReadBack v) : IsReadBack (.arr items) := by
  refine ⟨fun {fuel depth t} deep enough _ => ?_⟩
  have hdepth : depth ≠ 0 := Nat.ne_of_gt (Nat.lt_of_lt_of_le (Nat.succ_pos _) deep)
  have hinner : nestingItems items ≤ depth - 1 := Nat.le_sub_one_of_lt deep
  rw [toList_compact_arr] at enough ⊢
  simp only [List.length_cons, List.length_append, List.length_nil] at enough
  obtain ⟨fuel, rfl⟩ := Nat.exists_eq_add_one_of_ne_zero (Nat.ne_zero_of_lt enough)
  rw [List.cons_append, List.append_assoc, List.singleton_append,
    readValue_sequence (skipGap_cons (by decide) _), if_neg hdepth]
  cases items with
  | nil => exact readInside_of_close (skipGap_cons (by decide) t)
  | cons v items =>
      refine readInside_of_read ?_ (readItems_parts h hinner (by omega) t)
      rcases head_compact v legible.1 with ⟨c, more, htext, hgap, hclose⟩
      rcases exists_parts_cons (compact v) (compactItems items) with ⟨tail, htail⟩
      rw [compactItems, htail, htext]
      exact ⟨c, more ++ tail, rfl, hgap, hclose⟩

/-- A map is read back if its values are. -/
theorem isReadBack_obj {fields : List (String × Value)} (h : ∀ f ∈ fields, IsReadBack f.2) :
    IsReadBack (.obj fields) := by
  refine ⟨fun {fuel depth t} deep enough _ => ?_⟩
  have hdepth : depth ≠ 0 := Nat.ne_of_gt (Nat.lt_of_lt_of_le (Nat.succ_pos _) deep)
  have hinner : nestingFields fields ≤ depth - 1 := Nat.le_sub_one_of_lt deep
  rw [toList_compact_obj] at enough ⊢
  simp only [List.length_cons, List.length_append, List.length_nil] at enough
  obtain ⟨fuel, rfl⟩ := Nat.exists_eq_add_one_of_ne_zero (Nat.ne_zero_of_lt enough)
  rw [List.cons_append, List.append_assoc, List.singleton_append,
    readValue_map (skipGap_cons (by decide) _), if_neg hdepth]
  cases fields with
  | nil => exact readInside_of_close (skipGap_cons (by decide) t)
  | cons f fields =>
      obtain ⟨k, v⟩ := f
      refine readInside_of_read ?_ (readFields_parts h hinner (by omega) t)
      rcases exists_parts_cons (Writer.quoted k ++ ":" ++ compact v) (compactFields fields) with
        ⟨tail, htail⟩
      rw [compactFields, htail, toList_entry]
      exact ⟨_, _, rfl, by decide, by decide⟩

mutual

/-- Every legible value is read back, by induction on its structure. -/
theorem isReadBack : ∀ v : Value, v.Legible → IsReadBack v
  | .null, _ => isReadBack_of_word (c := 'n') rfl rfl rfl
  | .bool true, _ => isReadBack_of_word (c := 't') rfl rfl rfl
  | .bool false, _ => isReadBack_of_word (c := 'f') rfl rfl rfl
  | .int _, legible => isReadBack_int legible
  | .float _, legible => isReadBack_float legible
  | .str s, _ => isReadBack_str s
  | .arr items, legible => isReadBack_arr legible (isReadBack_items items legible)
  | .obj fields, legible => isReadBack_obj (isReadBack_fields fields legible)

theorem isReadBack_items : ∀ items : List Value, LegibleItems items →
    ∀ v ∈ items, IsReadBack v
  | [], _ => by simp
  | w :: rest, legible => by
      have hw := isReadBack w legible.1
      have hrest := isReadBack_items rest legible.2
      exact List.forall_mem_cons.2 ⟨hw, hrest⟩

theorem isReadBack_fields : ∀ fields : List (String × Value), LegibleFields fields →
    ∀ f ∈ fields, IsReadBack f.2
  | [], _ => by simp
  | (k, w) :: rest, legible => by
      have hw := isReadBack w legible.1
      have hrest := isReadBack_fields rest legible.2
      exact List.forall_mem_cons.2 ⟨hw, hrest⟩

end

end Reader

/-- A document on one line is read back. -/
theorem read?_compact {v : Value} (legible : v.Legible) (shallow : v.nesting ≤ nestingLimit) :
    read? v.compact = some v := by
  have hread := (Reader.isReadBack v legible).read shallow
    (show v.compact.toList.length ≤ 2 * v.compact.toList.length + 2 by omega) Reader.apart_nil
  rw [List.append_nil] at hread
  rw [read?]
  simp only [hread]
  rfl

end Value
end Casework
