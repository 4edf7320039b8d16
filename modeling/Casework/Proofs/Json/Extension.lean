import Casework.Json.Reader
import Casework.Text.Blank

/-!
# Extension — reading a document that something follows

The reader of documents looks no further than it has to.  What it has read from a text it reads from
every text that begins with it, unless a number at the end goes on.

* `Value.Reader.Apart` : what follows goes on no number;
* `Value.Reader.readText_append`, `Value.Reader.readNumber_append` : the parts of a document;
* `Value.Reader.Extends` : what holds of the three functions that call each other;
* `Value.Reader.readValue_append` : a whole value;
* `Value.read?_gap_append`, `Value.read?_append_eq_none`, `Value.read?_blank_append_eq_none` : what
  may stand before and behind a document.

More fuel does no harm, so the lemmas about the three functions allow for it.
-/

namespace Casework
namespace Value
namespace Reader

variable {cs rest t : List Char}

def Apart (t : List Char) : Prop :=
  ∀ c ∈ t.head?, c.isDigit = false ∧ c ≠ '.' ∧ c ≠ 'e' ∧ c ≠ 'E'

theorem apart_nil : Apart [] := by
  intro c hc
  cases hc

/-- Text behind what is not a gap does not matter to the gap in front. -/
theorem skipGap_append_of_ne_nil (t : List Char) (h : skipGap cs ≠ []) :
    skipGap (cs ++ t) = skipGap cs ++ t := by
  have hempty : (cs.dropWhile isGap).isEmpty = false := by
    simpa [skipGap, List.isEmpty_eq_false_iff] using h
  rw [skipGap, List.dropWhile_append, hempty]
  rfl

theorem skipGap_append (t : List Char) {c : Char} (h : skipGap cs = c :: rest) :
    skipGap (cs ++ t) = c :: (rest ++ t) := by
  rw [skipGap_append_of_ne_nil t (by simp [h]), h]
  rfl

theorem afterWord?_append {word : List Char} (t : List Char)
    (h : afterWord? word cs = some rest) : afterWord? word (cs ++ t) = some (rest ++ t) := by
  unfold afterWord? at h
  split at h
  · next hprefix =>
      cases h
      obtain ⟨more, rfl⟩ := List.isPrefixOf_iff_prefix.1 hprefix
      have hlonger : word.isPrefixOf (word ++ more ++ t) = true := by
        rw [List.isPrefixOf_iff_prefix, List.append_assoc]
        exact List.prefix_append _ _
      rw [afterWord?, if_pos hlonger, List.append_assoc]
      simp
  · cases h

/-! ## Texts -/

def withHead (ch : Char) (out : List Char × List Char) : Option (List Char × List Char) :=
  some (ch :: out.1, out.2)

/-- A character that is given by its number is read by its number, with the second half if it needs
one. -/
theorem readText_unit (a b c d : Char) (rest : List Char) :
    readText ('\\' :: 'u' :: a :: b :: c :: d :: rest) =
      (hexUnit? a b c d).bind fun u =>
        match Text.characterOf? u with
        | some ch => (readText rest).bind (withHead ch)
        | none =>
            match rest with
            | '\\' :: 'u' :: e :: f :: g :: h :: rest =>
                (hexUnit? e f g h).bind fun v =>
                  if 0xD800 ≤ u ∧ u < 0xDC00 ∧ 0xDC00 ≤ v ∧ v < 0xE000 then
                    (Text.characterOf? (0x10000 + (u - 0xD800) * 0x400 + (v - 0xDC00))).bind
                      fun ch => (readText rest).bind (withHead ch)
                  else none
            | _ => none := by
  rw [readText]
  rfl

/-- Any other escape stands for one character. -/
theorem readText_escape {c : Char} (rest : List Char) (h : c ≠ 'u') :
    readText ('\\' :: c :: rest) =
      (unescape? c).bind fun ch => (readText rest).bind (withHead ch) := by
  rw [readText]
  · rfl
  · intro a b c d rest hc
    exact absurd hc h

/-- A control character ends the reading of a text without success. -/
theorem readText_cons {c : Char} (rest : List Char) (hquote : c ≠ '"') (hslash : c ≠ '\\') :
    readText (c :: rest) =
      if c.toNat < 0x20 then none else (readText rest).bind (withHead c) := by
  rw [readText]
  · simp [hslash]
    rfl
  · exact hquote
  · intro a b c d rest hc
    exact absurd hc hslash
  · intro c rest hc
    exact absurd hc hslash

/-- What is read behind a character is extended as it is. -/
theorem bind_withHead_append {ch : Char} {s : List Char}
    (ih : ∀ {s rest}, readText cs = some (s, rest) → readText (cs ++ t) = some (s, rest ++ t))
    (h : (readText cs).bind (withHead ch) = some (s, rest)) :
    (readText (cs ++ t)).bind (withHead ch) = some (s, rest ++ t) := by
  obtain ⟨⟨s', rest'⟩, hread, hout⟩ := Option.bind_eq_some_iff.1 h
  cases hout
  rw [ih hread]
  rfl

/-- The closing quote of a text is found wherever it stood. -/
theorem readText_append {s : List Char} (t : List Char) (h : readText cs = some (s, rest)) :
    readText (cs ++ t) = some (s, rest ++ t) := by
  -- By the recursion of the reader, which steps over a character, an escape, or the two halves of a
  -- pair at once; what it looks ahead for is there in the longer text as well.
  induction cs using readText.induct generalizing s rest with
  | case1 => cases h
  | case2 rest =>
      cases h
      rfl
  | case3 a b c d tail ih ihPair =>
      rw [readText_unit] at h
      obtain ⟨u, hu, h⟩ := Option.bind_eq_some_iff.1 h
      simp only [List.cons_append]
      rw [readText_unit, hu, Option.bind_some]
      cases hchar : Text.characterOf? u with
      | some ch =>
          simp only [hchar] at h ⊢
          exact bind_withHead_append ih h
      | none =>
          simp only [hchar] at h ⊢
          split at h
          · next e f g k more =>
              simp only [List.cons_append]
              obtain ⟨v, hv, h⟩ := Option.bind_eq_some_iff.1 h
              rw [hv, Option.bind_some]
              split at h
              · next hpair =>
                  rw [if_pos hpair]
                  obtain ⟨ch, hch, h⟩ := Option.bind_eq_some_iff.1 h
                  rw [hch, Option.bind_some]
                  exact bind_withHead_append ihPair h
              · cases h
          · cases h
  | case4 c tail short ih =>
      by_cases hu : c = 'u'
      · -- Fewer than four digits follow, and no such letter stands for a character.
        subst hu
        rw [readText] at h
        · cases h
        · exact short
      · rw [readText_escape tail hu] at h
        obtain ⟨ch, hch, h⟩ := Option.bind_eq_some_iff.1 h
        simp only [List.cons_append]
        rw [readText_escape _ hu, hch, Option.bind_some]
        exact bind_withHead_append ih h
  | case5 c tail hquote hunit hescape hbad =>
      by_cases hslash : c = '\\'
      · subst hslash
        cases tail with
        | nil => cases h
        | cons c' more => exact absurd rfl (hescape c' more rfl)
      · have hcontrol : c.toNat < 0x20 := by simpa [hslash] using hbad
        rw [readText_cons tail hquote hslash, if_pos hcontrol] at h
        cases h
  | case6 c tail hquote hunit hescape hgood ih =>
      have hslash : c ≠ '\\' := by
        rintro rfl
        exact hgood rfl
      have hshown : ¬ c.toNat < 0x20 := by simpa [hslash] using hgood
      rw [readText_cons tail hquote hslash, if_neg hshown] at h
      rw [List.cons_append, readText_cons _ hquote hslash, if_neg hshown]
      exact bind_withHead_append ih h

/-! ## Numbers -/

/-- Digits are read as before where no digit follows. -/
theorem takeWhile_isDigit_append (apart : Apart t) (cs : List Char) :
    (cs ++ t).takeWhile Char.isDigit = cs.takeWhile Char.isDigit ∧
      (cs ++ t).dropWhile Char.isDigit = cs.dropWhile Char.isDigit ++ t := by
  induction cs with
  | nil =>
      cases t with
      | nil => exact ⟨rfl, rfl⟩
      | cons c rest =>
          have hc : c.isDigit = false := (apart c rfl).1
          simp [hc]
  | cons c cs ih =>
      by_cases hc : c.isDigit = true
      · simp [hc, ih.1, ih.2]
      · simp [hc]

theorem readFraction_of_ne {c : Char} (cs : List Char) (h : c ≠ '.') :
    readFraction (c :: cs) = some (none, c :: cs) := by
  unfold readFraction
  split
  · next heq =>
      injection heq with hc
      exact absurd hc h
  · rfl

/-- A fraction is read as before where the text goes on no number. -/
theorem readFraction_append (apart : Apart t) {fraction : Option (List Char)}
    (h : readFraction cs = some (fraction, rest)) :
    readFraction (cs ++ t) = some (fraction, rest ++ t) := by
  cases cs with
  | nil =>
      cases h
      cases t with
      | nil => rfl
      | cons c more => exact readFraction_of_ne more (apart c rfl).2.1
  | cons c digits =>
      by_cases hpoint : c = '.'
      · subst hpoint
        obtain ⟨htake, hdrop⟩ := takeWhile_isDigit_append apart digits
        simp only [readFraction, List.cons_append, htake, hdrop] at h ⊢
        split at h
        · cases h
        · next hsome =>
            cases h
            rw [if_neg hsome]
      · rw [readFraction_of_ne _ hpoint] at h
        cases h
        exact readFraction_of_ne _ hpoint

/-- The sign of an exponent is read in front of what follows it. -/
theorem exponentSign_append (t : List Char) (h : cs ≠ []) :
    exponentSign (cs ++ t) = ((exponentSign cs).1, (exponentSign cs).2 ++ t) := by
  cases cs with
  | nil => exact absurd rfl h
  | cons c more =>
      unfold exponentSign
      split <;> split <;> simp_all

/-- So is an exponent. -/
theorem readExponent_append (apart : Apart t) {e : Option Int}
    (h : readExponent cs = some (e, rest)) : readExponent (cs ++ t) = some (e, rest ++ t) := by
  cases cs with
  | nil =>
      cases h
      cases t with
      | nil => rfl
      | cons c more =>
          obtain ⟨-, -, hlower, hupper⟩ := apart c rfl
          simp [readExponent, hlower, hupper]
  | cons c more =>
      by_cases hletter : (c == 'e' || c == 'E') = true
      · have hnonempty : more ≠ [] := by
          rintro rfl
          simp [readExponent, hletter, exponentSign] at h
        have hsign := exponentSign_append t hnonempty
        obtain ⟨htake, hdrop⟩ := takeWhile_isDigit_append apart (exponentSign more).2
        simp only [readExponent, List.cons_append, if_pos hletter, hsign, htake, hdrop] at h ⊢
        split at h
        · cases h
        · next hsome =>
            cases h
            rw [if_neg hsome]
      · simp only [readExponent, List.cons_append, if_neg hletter] at h ⊢
        cases h
        rfl

def numberSign : List Char → Bool × List Char
  | '-' :: rest => (true, rest)
  | cs => (false, cs)

def numberOf (negative : Bool) (whole : List Char) (fraction : Option (List Char))
    (e : Option Int) : Option Value :=
  if fraction.isNone && e.isNone then wholeNumber negative whole
  else (realNumber negative whole (fraction.getD []) (e.getD 0)).map .float

def readUnsigned (negative : Bool) (cs : List Char) : Option (Value × List Char) :=
  let whole := cs.takeWhile Char.isDigit
  if whole.isEmpty || (whole.head? == some '0' && 1 < whole.length) then none
  else
    (readFraction (cs.dropWhile Char.isDigit)).bind fun f =>
      (readExponent f.2).bind fun e =>
        (numberOf negative whole f.1 e.1).bind fun v => some (v, e.2)

/-- The sign of a number is read in front of what follows it. -/
theorem numberSign_append (t : List Char) (h : cs ≠ []) :
    numberSign (cs ++ t) = ((numberSign cs).1, (numberSign cs).2 ++ t) := by
  cases cs with
  | nil => exact absurd rfl h
  | cons c more =>
      unfold numberSign
      split <;> split <;> simp_all

theorem readNumber_eq (cs : List Char) :
    readNumber cs = readUnsigned (numberSign cs).1 (numberSign cs).2 := by
  unfold readNumber
  split
  next negative digits hmatch =>
    have hsign : numberSign cs = (negative, digits) := by
      rw [← hmatch]
      unfold numberSign
      split <;> simp
    simp only [hsign, readUnsigned, numberOf]
    split
    · rfl
    · simp only [Option.bind_eq_bind]
      congr
      funext f
      congr
      funext e
      split <;> rfl

/-- So is a number behind its sign. -/
theorem readUnsigned_append (apart : Apart t) {negative : Bool} {v : Value}
    (h : readUnsigned negative cs = some (v, rest)) :
    readUnsigned negative (cs ++ t) = some (v, rest ++ t) := by
  obtain ⟨htake, hdrop⟩ := takeWhile_isDigit_append apart cs
  simp only [readUnsigned, htake, hdrop] at h ⊢
  split at h
  · cases h
  · next hwhole =>
      rw [if_neg hwhole]
      obtain ⟨⟨fraction, restF⟩, hfraction, h⟩ := Option.bind_eq_some_iff.1 h
      obtain ⟨⟨e, restE⟩, hexponent, h⟩ := Option.bind_eq_some_iff.1 h
      obtain ⟨v', hvalue, h⟩ := Option.bind_eq_some_iff.1 h
      cases h
      rw [readFraction_append apart hfraction, Option.bind_some,
        readExponent_append apart hexponent, Option.bind_some, hvalue, Option.bind_some]

/-- So is a number. -/
theorem readNumber_append (apart : Apart t) {v : Value} (h : readNumber cs = some (v, rest)) :
    readNumber (cs ++ t) = some (v, rest ++ t) := by
  have hnonempty : cs ≠ [] := by
    rintro rfl
    cases h
  rw [readNumber_eq] at h ⊢
  rw [numberSign_append t hnonempty]
  exact readUnsigned_append apart h

/-! ## Values -/

/-- What stands between two brackets: nothing but a gap, or what `read` reads. -/
def readInside {α : Type} (close : Char) (wrap : List α → Value)
    (read : List Char → Option (List α × List Char)) (inner : List Char) :
    Option (Value × List Char) :=
  if (skipGap inner).head? = some close then some (wrap [], (skipGap inner).tail)
  else (read (skipGap inner)).map fun out => (wrap out.1, out.2)

section Inside

variable {α : Type} {close : Char} {wrap : List α → Value} {inner : List Char} {v : Value}
variable {read read' : List Char → Option (List α × List Char)}

theorem readInside_of_close (h : skipGap inner = close :: rest) :
    readInside close wrap read inner = some (wrap [], rest) := by
  rw [readInside, h]
  exact if_pos rfl

theorem readInside_of_ne_close (h : ∀ tail, skipGap inner = close :: tail → False) :
    readInside close wrap read inner =
      (read (skipGap inner)).map fun out => (wrap out.1, out.2) := by
  refine if_neg ?_
  intro hhead
  obtain ⟨tail, htail⟩ := List.head?_eq_some_iff.1 hhead
  exact h tail htail

/-- What is between brackets is read as before, as its elements are. -/
theorem readInside_append (hnil : read [] = none)
    (hread : ∀ {cs out}, read cs = some out → read' (cs ++ t) = some (out.1, out.2 ++ t))
    (h : readInside close wrap read inner = some (v, rest)) :
    readInside close wrap read' (inner ++ t) = some (v, rest ++ t) := by
  unfold readInside at h ⊢
  cases hstart : skipGap inner with
  | nil => simp [hstart, hnil] at h
  | cons c tail =>
      rw [skipGap_append t hstart]
      simp only [hstart, List.head?_cons, Option.some.injEq, List.tail_cons] at h ⊢
      split at h
      · next hclose =>
          cases h
          rw [if_pos hclose]
      · next hclose =>
          obtain ⟨out, hout, hv⟩ := Option.map_eq_some_iff.1 h
          cases hv
          rw [if_neg hclose, ← List.cons_append, hread hout]
          rfl

end Inside

/-- The rest of a word that stands for a value, by its first letter. -/
def wordOf? : Char → Option (List Char × Value)
  | 'n' => some ("ull".toList, .null)
  | 't' => some ("rue".toList, .bool true)
  | 'f' => some ("alse".toList, .bool false)
  | _ => none

section Heads

variable {fuel depth : Nat}

def readHead (fuel depth : Nat) : List Char → Option (Value × List Char)
  | '"' :: rest => (readText rest).map fun out => (.str (String.ofList out.1), out.2)
  | '[' :: rest =>
      if depth = 0 then none else readInside ']' .arr (readItems fuel (depth - 1)) rest
  | '{' :: rest =>
      if depth = 0 then none else readInside '}' .obj (readFields fuel (depth - 1)) rest
  | c :: rest =>
      match wordOf? c with
      | some (word, v) => (afterWord? word rest).map fun rest => (v, rest)
      | none => readNumber (c :: rest)
  | [] => none

theorem wordOf?_eq_none {c : Char} (hnull : c ≠ 'n') (htrue : c ≠ 't') (hfalse : c ≠ 'f') :
    wordOf? c = none := by
  unfold wordOf?
  split <;> first | rfl | contradiction

/-- One unfolding of the reader: the gap, and then the value. -/
theorem readValue_eq (fuel depth : Nat) (cs : List Char) :
    readValue (fuel + 1) depth cs = readHead fuel depth (skipGap cs) := by
  rw [readValue]
  -- The reader looks at the first character by patterns, and `readHead` by tests.
  generalize skipGap cs = inner
  split
  · rfl
  · rw [readHead]
    split
    · rfl
    · split
      · next hclose => rw [readInside_of_close hclose]
      · next hopen => rw [readInside_of_ne_close hopen]
  · rw [readHead]
    split
    · rfl
    · split
      · next hclose => rw [readInside_of_close hclose]
      · next hopen => rw [readInside_of_ne_close hopen]
  · rfl
  · rfl
  · rfl
  · next htext hsequence hmap hnull htrue hfalse =>
      cases inner with
      | nil => rfl
      | cons c rest =>
          have hne : ∀ d : Char, (∀ tail, c :: rest = d :: tail → False) → c ≠ d := by
            rintro d hd rfl
            exact hd rest rfl
          rw [readHead, wordOf?_eq_none (hne _ hnull) (hne _ htrue) (hne _ hfalse)]
          · exact hne _ htext
          · exact hne _ hsequence
          · exact hne _ hmap

/-- A quote begins a text. -/
theorem readValue_text (h : skipGap cs = '"' :: rest) :
    readValue (fuel + 1) depth cs =
      (readText rest).map fun out => (.str (String.ofList out.1), out.2) := by
  rw [readValue_eq, h]
  rfl

/-- A bracket begins a sequence, unless there are too many levels. -/
theorem readValue_sequence (h : skipGap cs = '[' :: rest) :
    readValue (fuel + 1) depth cs =
      if depth = 0 then none else readInside ']' .arr (readItems fuel (depth - 1)) rest := by
  rw [readValue_eq, h]
  rfl

/-- A brace begins a map, unless there are too many levels. -/
theorem readValue_map (h : skipGap cs = '{' :: rest) :
    readValue (fuel + 1) depth cs =
      if depth = 0 then none else readInside '}' .obj (readFields fuel (depth - 1)) rest := by
  rw [readValue_eq, h]
  rfl

/-- The letters of three words begin them. -/
theorem readValue_word {c : Char} {word : List Char} {v : Value} (h : skipGap cs = c :: rest)
    (hword : wordOf? c = some (word, v)) :
    readValue (fuel + 1) depth cs = (afterWord? word rest).map fun rest => (v, rest) := by
  rw [readValue_eq, h]
  unfold wordOf? at hword
  split at hword <;> cases hword <;> rfl

/-- Everything else is a number, or fails. -/
theorem readValue_number {c : Char} (h : skipGap cs = c :: rest) (htext : c ≠ '"')
    (hsequence : c ≠ '[') (hmap : c ≠ '{') (hword : wordOf? c = none) :
    readValue (fuel + 1) depth cs = readNumber (c :: rest) := by
  rw [readValue_eq, h, readHead, hword]
  · exact htext
  · exact hsequence
  · exact hmap

end Heads

/-- What the three functions that read a value, the elements of a sequence and the entries of a map
leave unchanged when more text follows and more fuel is given. -/
structure Extends (t : List Char) (fuel : Nat) : Prop where
  value : ∀ {more depth cs v rest}, fuel ≤ more → readValue fuel depth cs = some (v, rest) →
    readValue more depth (cs ++ t) = some (v, rest ++ t)
  items : ∀ {more depth cs vs rest}, fuel ≤ more → readItems fuel depth cs = some (vs, rest) →
    readItems more depth (cs ++ t) = some (vs, rest ++ t)
  fields : ∀ {more depth cs fs rest}, fuel ≤ more → readFields fuel depth cs = some (fs, rest) →
    readFields more depth (cs ++ t) = some (fs, rest ++ t)

theorem readValue_nil (fuel depth : Nat) : readValue fuel depth [] = none := by
  cases fuel <;> rfl

theorem readItems_nil (fuel depth : Nat) : readItems fuel depth [] = none := by
  cases fuel with
  | zero => rfl
  | succ fuel =>
      show (readValue fuel depth []).bind _ = none
      rw [readValue_nil]
      rfl

theorem readFields_nil (fuel depth : Nat) : readFields fuel depth [] = none := by
  cases fuel <;> rfl

/-- A value that is read is read in front of any text that goes on no number, with as much fuel. -/
theorem readValue_extends (apart : Apart t) {fuel more depth : Nat} {v : Value}
    (ih : Extends t fuel) (hmore : fuel ≤ more)
    (h : readValue (fuel + 1) depth cs = some (v, rest)) :
    readValue (more + 1) depth (cs ++ t) = some (v, rest ++ t) := by
  -- What is read is decided by the first character that is not blank, and it is the same one.
  cases hgap : skipGap cs with
  | nil =>
      rw [readValue_eq, hgap] at h
      cases h
  | cons c inner =>
      have hgap' := skipGap_append t hgap
      by_cases htext : c = '"'
      · subst htext
        rw [readValue_text hgap] at h
        rw [readValue_text hgap']
        obtain ⟨out, hout, hv⟩ := Option.map_eq_some_iff.1 h
        cases hv
        rw [readText_append t hout]
        rfl
      by_cases hsequence : c = '['
      · subst hsequence
        rw [readValue_sequence hgap] at h
        rw [readValue_sequence hgap']
        split at h
        · cases h
        · next hdepth =>
            rw [if_neg hdepth]
            exact readInside_append (readItems_nil fuel _) (ih.items hmore) h
      by_cases hmap : c = '{'
      · subst hmap
        rw [readValue_map hgap] at h
        rw [readValue_map hgap']
        split at h
        · cases h
        · next hdepth =>
            rw [if_neg hdepth]
            exact readInside_append (readFields_nil fuel _) (ih.fields hmore) h
      cases hword : wordOf? c with
      | some w =>
          rw [readValue_word hgap hword] at h
          rw [readValue_word hgap' hword]
          obtain ⟨out, hout, hv⟩ := Option.map_eq_some_iff.1 h
          cases hv
          rw [afterWord?_append t hout]
          rfl
      | none =>
          rw [readValue_number hgap htext hsequence hmap hword] at h
          rw [readValue_number hgap' htext hsequence hmap hword]
          exact readNumber_append apart h

/-- Likewise for the elements of a sequence. -/
theorem readItems_extends {fuel more depth : Nat} {vs : List Value} (ih : Extends t fuel)
    (hmore : fuel ≤ more) (h : readItems (fuel + 1) depth cs = some (vs, rest)) :
    readItems (more + 1) depth (cs ++ t) = some (vs, rest ++ t) := by
  rw [readItems] at h ⊢
  obtain ⟨⟨v, tail⟩, hvalue, h⟩ := Option.bind_eq_some_iff.1 h
  rw [ih.value hmore hvalue]
  simp only at h
  split at h
  · next hclose =>
      cases h
      simp only [Option.bind_eq_bind, Option.bind_some, skipGap_append t hclose]
      rfl
  · next hcomma =>
      obtain ⟨⟨vs', tail'⟩, hitems, h⟩ := Option.bind_eq_some_iff.1 h
      cases h
      simp only [Option.bind_eq_bind, Option.bind_some, skipGap_append t hcomma,
        ih.items hmore hitems]
      rfl
  · cases h

/-- Likewise for the entries of a map. -/
theorem readFields_extends {fuel more depth : Nat} {fs : List (String × Value)}
    (ih : Extends t fuel) (hmore : fuel ≤ more)
    (h : readFields (fuel + 1) depth cs = some (fs, rest)) :
    readFields (more + 1) depth (cs ++ t) = some (fs, rest ++ t) := by
  rw [readFields] at h ⊢
  split at h
  · next hquote =>
      obtain ⟨⟨key, tail⟩, htext, h⟩ := Option.bind_eq_some_iff.1 h
      simp only [skipGap_append t hquote, Option.bind_eq_bind, readText_append t htext,
        Option.bind_some]
      simp only at h
      split at h
      · next hcolon =>
          obtain ⟨⟨v, tail'⟩, hvalue, h⟩ := Option.bind_eq_some_iff.1 h
          simp only [skipGap_append t hcolon, ih.value hmore hvalue, Option.bind_some]
          simp only at h
          split at h
          · next hclose =>
              cases h
              simp only [skipGap_append t hclose]
              rfl
          · next hcomma =>
              obtain ⟨⟨fs', tail''⟩, hfields, h⟩ := Option.bind_eq_some_iff.1 h
              cases h
              simp only [skipGap_append t hcomma, ih.fields hmore hfields, Option.bind_some]
              rfl
          · cases h
      · cases h
  · cases h

/-- One unit of fuel at a time: each function calls the others with one unit less. -/
theorem extends_of_apart (apart : Apart t) (fuel : Nat) : Extends t fuel := by
  induction fuel with
  | zero =>
      constructor <;> intro _ _ _ _ _ _ h <;> cases h
  | succ fuel ih =>
      constructor <;> intro more _ _ _ _ hmore h <;>
        obtain ⟨more, rfl⟩ := Nat.exists_eq_add_one_of_ne_zero (Nat.ne_zero_of_lt hmore)
      · exact readValue_extends apart ih (Nat.le_of_succ_le_succ hmore) h
      · exact readItems_extends ih (Nat.le_of_succ_le_succ hmore) h
      · exact readFields_extends ih (Nat.le_of_succ_le_succ hmore) h

/-- A value is read from any text that begins with a text it is read from, and the same is left
over, followed by the rest of the longer text. -/
theorem readValue_append (apart : Apart t) {fuel more depth : Nat} {v : Value}
    (hmore : fuel ≤ more) (h : readValue fuel depth cs = some (v, rest)) :
    readValue more depth (cs ++ t) = some (v, rest ++ t) :=
  (extends_of_apart apart fuel).value hmore h

/-! ## Whole documents -/

theorem skipGap_eq_nil_iff (cs : List Char) : skipGap cs = [] ↔ cs.all isGap = true := by
  rw [skipGap]
  induction cs with
  | nil => simp
  | cons c cs ih =>
      by_cases hc : isGap c = true
      · rw [List.dropWhile_cons_of_pos hc, List.all_cons, hc, Bool.true_and]
        exact ih
      · simp [hc]

/-- A gap in front makes no difference. -/
theorem skipGap_append_of_eq_nil {gap : List Char} (h : skipGap gap = []) (cs : List Char) :
    skipGap (gap ++ cs) = skipGap cs := by
  rw [skipGap] at h
  rw [skipGap, List.dropWhile_append, h]
  rfl

theorem readValue_congr {cs' : List Char} (h : skipGap cs = skipGap cs') (fuel depth : Nat) :
    readValue fuel depth cs = readValue fuel depth cs' := by
  cases fuel with
  | zero => rfl
  | succ fuel => rw [readValue_eq, readValue_eq, h]

theorem isDigit_eq_false_of_isBlank {c : Char} (h : Text.isBlank c = true) :
    c.isDigit = false := by
  rw [Bool.eq_false_iff]
  intro hdigit
  simp only [Char.isDigit, Bool.and_eq_true, decide_eq_true_eq, ge_iff_le,
    UInt32.le_iff_toNat_le] at hdigit
  have hlow : 48 ≤ c.toNat := hdigit.1
  have hhigh : c.toNat ≤ 57 := hdigit.2
  simp [Text.isBlank, Text.blankRanges] at h
  omega

theorem ne_of_isBlank {c other : Char} (h : Text.isBlank c = true)
    (hother : Text.isBlank other = false) : c ≠ other := by
  rintro rfl
  rw [h] at hother
  cases hother

/-- A blank that is no gap begins no value. -/
theorem readValue_blank {c : Char} (h : skipGap cs = c :: rest) (blank : Text.isBlank c = true)
    (fuel depth : Nat) : readValue fuel depth cs = none := by
  cases fuel with
  | zero => rw [readValue]
  | succ fuel =>
      have hword : wordOf? c = none := by
        unfold wordOf?
        split
        · cases blank
        · cases blank
        · cases blank
        · rfl
      have hsign : numberSign (c :: rest) = (false, c :: rest) := by
        unfold numberSign
        split
        · next heq =>
            injection heq with hc
            exact absurd hc (ne_of_isBlank blank (by decide))
        · rfl
      rw [readValue_number h (ne_of_isBlank blank (by decide)) (ne_of_isBlank blank (by decide))
        (ne_of_isBlank blank (by decide)) hword, readNumber_eq, hsign, readUnsigned]
      simp [isDigit_eq_false_of_isBlank blank]

end Reader

variable {cs t : List Char} {v : Value}

/-- Reading a whole text is reading a value and then a gap. -/
theorem readValue_of_read? (h : read? (String.ofList cs) = some v) :
    ∃ rest, Reader.readValue (2 * cs.length + 2) nestingLimit cs = some (v, rest) ∧
      Reader.skipGap rest = [] := by
  unfold read? at h
  simp only [String.toList_ofList] at h
  split at h
  · next hread =>
      split at h
      · next hrest =>
          cases h
          exact ⟨_, hread, List.isEmpty_iff.1 hrest⟩
      · cases h
  · cases h

/-- A gap in front of a document makes no difference. -/
theorem read?_gap_append {gap : List Char} (hgap : gap.all Reader.isGap = true)
    (h : read? (String.ofList cs) = some v) : read? (String.ofList (gap ++ cs)) = some v := by
  obtain ⟨rest, hread, hrest⟩ := readValue_of_read? h
  have hfuel : 2 * cs.length + 2 ≤ 2 * (gap ++ cs).length + 2 := by
    simp only [List.length_append]
    omega
  have hmore := Reader.readValue_append Reader.apart_nil hfuel hread
  rw [List.append_nil, List.append_nil] at hmore
  have hskip := Reader.skipGap_append_of_eq_nil ((Reader.skipGap_eq_nil_iff gap).2 hgap) cs
  rw [read?, String.toList_ofList]
  simp only [Reader.readValue_congr hskip, hmore, hrest]
  rfl

/-- No document is followed by anything but a gap. -/
theorem read?_append_eq_none (apart : Reader.Apart t) (hend : Reader.skipGap t ≠ [])
    (h : read? (String.ofList cs) = some v) : read? (String.ofList (cs ++ t)) = none := by
  obtain ⟨rest, hread, hrest⟩ := readValue_of_read? h
  have hfuel : 2 * cs.length + 2 ≤ 2 * (cs ++ t).length + 2 := by
    simp only [List.length_append]
    omega
  have hmore := Reader.readValue_append apart hfuel hread
  have hleft := Reader.skipGap_append_of_eq_nil hrest t
  rw [read?, String.toList_ofList]
  simp only [hmore, hleft]
  rw [if_neg]
  simpa using hend

/-- No document begins with a blank that is no gap. -/
theorem read?_blank_append_eq_none (blank : cs.all Text.isBlank = true)
    (hgap : cs.all Reader.isGap = false) (t : List Char) :
    read? (String.ofList (cs ++ t)) = none := by
  cases hstart : Reader.skipGap cs with
  | nil =>
      rw [(Reader.skipGap_eq_nil_iff cs).1 hstart] at hgap
      cases hgap
  | cons c rest =>
      have hmem : c ∈ cs := by
        apply (List.dropWhile_sublist Reader.isGap).subset
        rw [← Reader.skipGap, hstart]
        exact List.mem_cons_self
      have hc : Text.isBlank c = true := List.all_eq_true.1 blank c hmem
      rw [read?, String.toList_ofList]
      simp only [Reader.readValue_blank (Reader.skipGap_append t hstart) hc]

end Value
end Casework
