import Casework.HumanInput.Request
import Casework.Proofs.Text.Blank
import Casework.Proofs.Text.Digits
import Mathlib.Data.List.Forall2

/-!
# Resolution — which choice an input stands for

Values, labels and positions share one space of inputs.  The first action with the input as its
value or its label wins, and positions count only where there is none.

* `Text.SameUpToCase`, `Text.Spells` : labels in any case, and the spellings of a number;
* `Request.resolve_eq`, `Request.resolve_eq_none_iff` : what an input stands for, and when it stands
  for nothing;
* `Request.exists_position` : among the spellings of a position there is one that no label and no
  value takes away;
* `resolution_exact` : exactly the offered choices are accepted;
* `value_selects` : when the value of an action stands for itself.
-/

namespace Casework
namespace Text

/-! ## Labels -/

/-- The two cases of an ASCII letter. -/
def IsCasePair (upper lower : Char) : Prop :=
  'A'.toNat ≤ upper.toNat ∧ upper.toNat ≤ 'Z'.toNat ∧ lower.toNat = upper.toNat + 32

/-- The same text up to the case of ASCII letters. -/
def SameUpToCase (a b : String) : Prop :=
  List.Forall₂ (fun x y => x = y ∨ IsCasePair x y ∨ IsCasePair y x) a.toList b.toList

/-- Lower case is an offset in the table of ASCII. -/
theorem toNat_toLower (c : Char) :
    c.toLower.toNat = if 65 ≤ c.toNat ∧ c.toNat ≤ 90 then c.toNat + 32 else c.toNat := by
  unfold Char.toLower
  split
  · rename_i h
    simp only [ge_iff_le, UInt32.le_iff_toNat_le] at h
    have hupper : 65 ≤ c.toNat ∧ c.toNat ≤ 90 := h
    -- The sum stays below the bound of the machine number that holds the character.
    have hsmall : c.toNat + 32 < 4294967296 := by omega
    calc
      (c.val + ('a'.val - 'A'.val)).toNat = (c.toNat + 32) % 4294967296 := rfl
      _ = c.toNat + 32 := Nat.mod_eq_of_lt hsmall
      _ = if 65 ≤ c.toNat ∧ c.toNat ≤ 90 then c.toNat + 32 else c.toNat := (if_pos hupper).symm
  · rename_i h
    simp only [ge_iff_le, UInt32.le_iff_toNat_le] at h
    have hupper : ¬ (65 ≤ c.toNat ∧ c.toNat ≤ 90) := h
    rw [if_neg hupper]

/-- Two characters are equal in lower case if they are, or are the two cases of one letter. -/
theorem toLower_eq_iff {x y : Char} :
    x.toLower = y.toLower ↔ x = y ∨ IsCasePair x y ∨ IsCasePair y x := by
  have hbounds : 'A'.toNat = 65 ∧ 'Z'.toNat = 90 := ⟨rfl, rfl⟩
  simp only [← Char.toNat_inj, toNat_toLower, IsCasePair, hbounds.1, hbounds.2]
  split <;> split <;> omega

/-! ## Numerals -/

/-- The spellings of a number: there may be a plus sign, and zeros in front of the digits. -/
def Spells (cs : List Char) (n : Nat) : Prop :=
  ∃ sign zeros, (sign = [] ∨ sign = ['+']) ∧
    cs = sign ++ (List.replicate zeros '0' ++ Nat.toDigits 10 n)

/-- Numerals with zeros in front are made of digits. -/
theorem isDigit_of_mem_zeros_append {zeros n : Nat} {c : Char}
    (h : c ∈ List.replicate zeros '0' ++ Nat.toDigits 10 n) : c.isDigit = true := by
  rcases List.mem_append.1 h with hzero | hdigit
  · rw [List.eq_of_mem_replicate hzero]
    rfl
  · exact isDigit_of_mem_toDigits hdigit

theorem zeros_append_ne_nil (zeros n : Nat) :
    List.replicate zeros '0' ++ Nat.toDigits 10 n ≠ [] :=
  List.append_ne_nil_of_right_ne_nil _ (toDigits_ne_nil n)

end Text

namespace Request

open Text

variable {r : Request} {a : Action} {input label : String} {actions : List Action} {n : Nat}
  {cs sign ds : List Char}

/-- Labels are compared up to the case of ASCII letters. -/
theorem sameLabel_iff : sameLabel label input = true ↔ SameUpToCase label input := by
  simp only [sameLabel, beq_iff_eq, SameUpToCase, ← toLower_eq_iff]
  rw [← List.forall₂_eq_eq_eq, List.forall₂_map_left_iff, List.forall₂_map_right_iff]

/-- An action is named by its value and by its label in any case. -/
theorem names_iff : names input a = true ↔ a.value = input ∨ SameUpToCase a.label input := by
  rw [names, Bool.or_eq_true, beq_iff_eq, sameLabel_iff]

/-! ## Positions -/

/-- A position is a numeral with at most a plus sign, and not too great. -/
theorem position?_eq (hsign : sign = [] ∨ sign = ['+'])
    (plain : sign = [] → ds.head? ≠ some '+') :
    position? (sign ++ ds) =
      if ds ≠ [] ∧ ds.all Char.isDigit = true ∧ digitsValue ds ≤ maxPosition then
        some (digitsValue ds)
      else none := by
  -- The sign makes no difference to the digits behind it.
  have hunsigned : position? (sign ++ ds) =
      if !ds.isEmpty && ds.all Char.isDigit then
        if digitsValue ds ≤ maxPosition then some (digitsValue ds) else none
      else none := by
    rcases hsign with rfl | rfl
    · cases ds with
      | nil => rfl
      | cons c ds =>
          have hc : c ≠ '+' := fun heq => plain rfl (by simp [heq])
          simp only [List.nil_append, position?]
          split
          · rename_i heq
            exact absurd (List.cons.inj heq).1 hc
          · rfl
    · rfl
  rw [hunsigned]
  by_cases hempty : ds = []
  · simp [hempty]
  · by_cases hall : ds.all Char.isDigit = true
    · simp [hempty, hall]
    · simp [hall]

/-- Every text is a sign, or none, and the rest. -/
theorem exists_sign (cs : List Char) :
    ∃ sign ds, (sign = [] ∨ sign = ['+']) ∧ (sign = [] → ds.head? ≠ some '+') ∧ cs = sign ++ ds := by
  by_cases hplus : cs.head? = some '+'
  · rcases List.head?_eq_some_iff.1 hplus with ⟨ds, rfl⟩
    exact ⟨['+'], ds, .inr rfl, by simp, rfl⟩
  · exact ⟨[], cs, .inl rfl, fun _ => hplus, rfl⟩

/-- A position is read off exactly its spellings. -/
theorem position?_eq_some_iff : position? cs = some n ↔ Spells cs n ∧ n ≤ maxPosition := by
  constructor
  · intro h
    rcases exists_sign cs with ⟨sign, ds, hsign, hplain, rfl⟩
    rw [position?_eq hsign hplain, Option.ite_none_right_eq_some, Option.some.injEq] at h
    rcases h with ⟨⟨nonempty, digits, hmax⟩, rfl⟩
    rcases exists_zeros nonempty (List.all_eq_true.1 digits) with ⟨zeros, hds⟩
    exact ⟨⟨sign, zeros, hsign, by rw [← hds]⟩, hmax⟩
  · rintro ⟨⟨sign, zeros, hsign, rfl⟩, hmax⟩
    have hdigits : ∀ c ∈ List.replicate zeros '0' ++ Nat.toDigits 10 n, c.isDigit = true :=
      fun _ => isDigit_of_mem_zeros_append
    have hplain : (List.replicate zeros '0' ++ Nat.toDigits 10 n).head? ≠ some '+' := by
      intro hplus
      have hdigit := hdigits '+' (List.mem_of_mem_head? hplus)
      cases hdigit
    have hvalue : digitsValue (List.replicate zeros '0' ++ Nat.toDigits 10 n) = n := by
      rw [digitsValue_zeros, digitsValue_toDigits]
    rw [position?_eq hsign fun _ => hplain, hvalue,
      if_pos ⟨zeros_append_ne_nil zeros n, List.all_eq_true.2 hdigits, hmax⟩]

/-- An action is taken by position if the input spells the position, counted from one. -/
theorem actionAt?_eq_some_iff : actionAt? actions input = some a ↔
    ∃ n, Spells input.toList (n + 1) ∧ n + 1 ≤ maxPosition ∧ actions[n]? = some a := by
  unfold actionAt?
  constructor
  · intro h
    split at h
    · rename_i n hposition
      have hspelled := position?_eq_some_iff.1 hposition
      exact ⟨n, hspelled.1, hspelled.2, h⟩
    · cases h
  · rintro ⟨n, hspells, hmax, ha⟩
    rw [position?_eq_some_iff.2 ⟨hspells, hmax⟩]
    exact ha

/-- None is taken exactly if the input spells no position that there is. -/
theorem actionAt?_eq_none_iff (countable : actions.length ≤ maxPosition) :
    actionAt? actions input = none ↔
      ¬ ∃ p, 1 ≤ p ∧ p ≤ actions.length ∧ Spells input.toList p := by
  rw [Option.eq_none_iff_forall_ne_some]
  constructor
  · rintro h ⟨p, hpositive, hle, hspells⟩
    rcases Nat.exists_eq_add_of_le' hpositive with ⟨n, rfl⟩
    have hn : n < actions.length := hle
    exact h actions[n] (actionAt?_eq_some_iff.2
      ⟨n, hspells, Nat.le_trans hle countable, List.getElem?_eq_getElem hn⟩)
  · intro h a ha
    rcases actionAt?_eq_some_iff.1 ha with ⟨n, hspells, -, hn⟩
    rcases List.getElem?_eq_some_iff.1 hn with ⟨hlt, -⟩
    exact h ⟨n + 1, Nat.le_add_left 1 n, hlt, hspells⟩

/-! ## What an input stands for -/

/-- The choice among offered actions. -/
theorem resolve_eq (offered : r.actions ≠ []) (input : String) :
    r.resolve input =
      if trimmed input = "" then none
      else ((r.actions.find? (names (trimmed input))).or
        (actionAt? r.actions (trimmed input))).map (·.value) := by
  have hoffered : r.actions.isEmpty = false := by simp [offered]
  simp [resolve, choose?, hoffered]

/-- An input that is not blank stands for the first action it names, else for the one at the
position it spells. -/
theorem resolve_eq_some_iff (offered : r.actions ≠ []) {v : String} :
    r.resolve input = some v ↔ trimmed input ≠ "" ∧ ∃ a, a.value = v ∧
      (r.actions.find? (names (trimmed input)) = some a ∨
        (r.actions.find? (names (trimmed input)) = none ∧
          actionAt? r.actions (trimmed input) = some a)) := by
  rw [resolve_eq offered, Option.ite_none_left_eq_some, Option.map_eq_some_iff]
  simp only [Option.or_eq_some_iff]
  constructor
  · rintro ⟨hne, a, ha, hv⟩
    exact ⟨hne, a, hv, ha⟩
  · rintro ⟨hne, a, hv, ha⟩
    exact ⟨hne, a, ha, hv⟩

/-- What an input stands for is the value of some action. -/
theorem mem_of_resolve (offered : r.actions ≠ []) {v : String} (h : r.resolve input = some v) :
    ∃ a ∈ r.actions, a.value = v := by
  rcases (resolve_eq_some_iff offered).1 h with ⟨-, a, hv, hfound | ⟨-, hat⟩⟩
  · exact ⟨a, List.mem_of_find?_eq_some hfound, hv⟩
  · rcases actionAt?_eq_some_iff.1 hat with ⟨n, -, -, hn⟩
    exact ⟨a, List.mem_of_getElem? hn, hv⟩

/-- An input stands for nothing if it is blank, or names no action and spells no position. -/
theorem resolve_eq_none_iff (offered : r.actions ≠ [])
    (countable : r.actions.length ≤ maxPosition) :
    r.resolve input = none ↔ trimmed input = "" ∨
      ((∀ a ∈ r.actions, a.value ≠ trimmed input ∧ ¬ SameUpToCase a.label (trimmed input)) ∧
        ¬ ∃ p, 1 ≤ p ∧ p ≤ r.actions.length ∧ Spells (trimmed input).toList p) := by
  rw [resolve_eq offered, ← actionAt?_eq_none_iff countable]
  by_cases hempty : trimmed input = ""
  · simp [hempty]
  · simp only [hempty, if_false, false_or, Option.map_eq_none_iff, Option.or_eq_none_iff,
      List.find?_eq_none, names_iff, not_or, ne_eq]

/-- Blanks around an input make no difference. -/
theorem resolve_surrounded (r : Request) (input : String) {before after : String}
    (hbefore : allBlank before = true) (hafter : allBlank after = true) :
    r.resolve (before ++ input ++ after) = r.resolve input := by
  have htrim : trimmed (before ++ input ++ after) = trimmed input := by
    rw [trimmed, String.toList_append, String.toList_append,
      trim_surrounded (List.all_eq_true.1 hbefore) (List.all_eq_true.1 hafter), trimmed]
  rw [resolve, resolve, htrim]

/-- An input with no blank at either end is taken as it is. -/
theorem trimmed_of_bare (h : Bare input.toList) : trimmed input = input := by
  rw [trimmed, trim_of_bare h, String.ofList_toList]

/-! ## Every choice can be made -/

/-- An input that is longer than all values and labels names no action. -/
theorem find?_eq_none_of_long (long : ∀ a ∈ actions,
    a.value.toList.length < input.toList.length ∧ a.label.toList.length < input.toList.length) :
    actions.find? (names input) = none := by
  rw [List.find?_eq_none]
  intro a ha hnames
  rcases names_iff.1 hnames with hvalue | hlabel
  · exact absurd (long a ha).1 (by simp [hvalue])
  · exact absurd (long a ha).2 (by simp [List.Forall₂.length_eq hlabel])

/-- A spelling of a position that is longer than all values and labels. -/
def longSpelling (actions : List Action) (p : Nat) : String :=
  String.ofList (List.replicate
    (actions.map fun a => a.value.toList ++ a.label.toList).flatten.length '0' ++
      Nat.toDigits 10 p)

/-- A numeral with enough zeros is longer than every value and label. -/
theorem lt_length_longSpelling (p : Nat) (ha : a ∈ actions) :
    a.value.toList.length < (longSpelling actions p).toList.length ∧
      a.label.toList.length < (longSpelling actions p).toList.length := by
  have hmem : a.value.toList ++ a.label.toList ∈
      actions.map fun a => a.value.toList ++ a.label.toList := List.mem_map.2 ⟨a, ha, rfl⟩
  have hle := (List.sublist_flatten_of_mem hmem).length_le
  have hpositive : 0 < (Nat.toDigits 10 p).length := Nat.length_toDigits_pos
  rw [List.length_append] at hle
  rw [longSpelling, String.toList_ofList, List.length_append, List.length_replicate]
  omega

/-- Such a numeral has no blanks around it. -/
theorem trimmed_longSpelling (actions : List Action) (p : Nat) :
    trimmed (longSpelling actions p) = longSpelling actions p := by
  have hdigits : ∀ c ∈ (longSpelling actions p).toList, isBlank c = false := by
    intro c hc
    rw [longSpelling, String.toList_ofList] at hc
    exact isBlank_of_isDigit (isDigit_of_mem_zeros_append hc)
  apply trimmed_of_bare
  exact ⟨fun c hc => hdigits c (List.mem_of_mem_head? hc),
    fun c hc => hdigits c (List.mem_of_mem_getLast? hc)⟩

theorem longSpelling_ne_empty (actions : List Action) (p : Nat) : longSpelling actions p ≠ "" := by
  intro hempty
  have hnil : (longSpelling actions p).toList = [] := by simp [hempty]
  rw [longSpelling, String.toList_ofList] at hnil
  exact zeros_append_ne_nil _ _ hnil

/-- Among the spellings of a position there is one that no label and no value takes away. -/
theorem exists_position (countable : r.actions.length ≤ maxPosition) (hn : r.actions[n]? = some a) :
    ∃ input, r.resolve input = some a.value := by
  have hoffered : r.actions ≠ [] := List.ne_nil_of_mem (List.mem_of_getElem? hn)
  have hlt : n < r.actions.length := (List.getElem?_eq_some_iff.1 hn).1
  have hspells : Spells (longSpelling r.actions (n + 1)).toList (n + 1) :=
    ⟨[], _, .inl rfl, String.toList_ofList⟩
  have hat : actionAt? r.actions (longSpelling r.actions (n + 1)) = some a :=
    actionAt?_eq_some_iff.2 ⟨n, hspells, Nat.le_trans hlt countable, hn⟩
  have hfree : r.actions.find? (names (longSpelling r.actions (n + 1))) = none :=
    find?_eq_none_of_long fun b hb => lt_length_longSpelling (n + 1) hb
  -- The spelling is too long to be a value or a label, so only its number counts.
  refine ⟨longSpelling r.actions (n + 1), (resolve_eq_some_iff hoffered).2 ?_⟩
  rw [trimmed_longSpelling]
  exact ⟨longSpelling_ne_empty _ _, a, rfl, .inr ⟨hfree, hat⟩⟩

/-! ## Values -/

def beforeValue (r : Request) (v : String) : List Action :=
  r.actions.takeWhile fun b => b.value ≠ v

theorem names_beforeValue {v : String} (ha : a ∈ r.beforeValue v) :
    names v a = true ↔ SameUpToCase a.label v := by
  have hvalue : a.value ≠ v := by simpa using List.mem_takeWhile_imp ha
  rw [names_iff, or_iff_right hvalue]

/-- A value is looked for among the labels before the first action that has it, and found there. -/
theorem find?_value (ha : a ∈ r.actions) :
    ∃ b, b.value = a.value ∧ r.actions.find? (names a.value) =
      ((r.beforeValue a.value).find? (names a.value)).or (some b) := by
  have hsplit := List.takeWhile_append_dropWhile (p := fun b => b.value ≠ a.value) (l := r.actions)
  cases hrest : r.actions.dropWhile fun b => b.value ≠ a.value with
  | nil =>
      have hall := List.dropWhile_eq_nil_iff.1 hrest a ha
      simp at hall
  | cons b rest =>
      have hb : b.value = a.value := by
        have hhead := List.head?_dropWhile_not (fun b : Action => b.value ≠ a.value) r.actions
        rw [hrest] at hhead
        simpa using hhead
      have hnamed : names a.value b = true := names_iff.2 (.inl hb)
      rw [hrest] at hsplit
      refine ⟨b, hb, ?_⟩
      calc
        r.actions.find? (names a.value)
            = (r.beforeValue a.value ++ b :: rest).find? (names a.value) := by
              rw [beforeValue, hsplit]
        _ = ((r.beforeValue a.value).find? (names a.value)).or (some b) := by
              rw [List.find?_append, List.find?_cons_of_pos hnamed]

/-- What the value of an action stands for. -/
theorem resolve_value (ha : a ∈ r.actions) (nonempty : a.value ≠ "")
    (bare : Bare a.value.toList) :
    r.resolve a.value =
      some ((((r.beforeValue a.value).find? (names a.value)).map (·.value)).getD a.value) := by
  rcases find?_value ha with ⟨b, hb, hfind⟩
  rw [resolve_eq (List.ne_nil_of_mem ha), trimmed_of_bare bare, if_neg nonempty, hfind]
  cases hbefore : (r.beforeValue a.value).find? (names a.value) with
  | none => simp [hb]
  | some e => simp

end Request

open Text Request

/-- Exactly the offered choices are accepted: what an input stands for is the value of an action;
blanks around it make no difference; it stands for nothing exactly if it is blank, or is no action's
value or label and spells no position; and every action can be chosen.  A list that can be held is
not longer than the greatest position. -/
theorem resolution_exact {r : Request} (offered : r.actions ≠ [])
    (countable : r.actions.length ≤ maxPosition) :
    (∀ input v, r.resolve input = some v → ∃ a ∈ r.actions, a.value = v) ∧
    (∀ before input after, allBlank before = true → allBlank after = true →
      r.resolve (before ++ input ++ after) = r.resolve input) ∧
    (∀ input, r.resolve input = none ↔ trimmed input = "" ∨
      ((∀ a ∈ r.actions, a.value ≠ trimmed input ∧ ¬ SameUpToCase a.label (trimmed input)) ∧
        ¬ ∃ p, 1 ≤ p ∧ p ≤ r.actions.length ∧ Spells (trimmed input).toList p)) ∧
    (∀ a ∈ r.actions, ∃ input, r.resolve input = some a.value) := by
  refine ⟨?_, ?_, ?_, ?_⟩
  · intro input v h
    exact mem_of_resolve offered h
  · intro before input after hbefore hafter
    exact resolve_surrounded r input hbefore hafter
  · intro input
    exact resolve_eq_none_iff offered countable
  · intro a ha
    rcases List.getElem?_of_mem ha with ⟨n, hn⟩
    exact exists_position countable hn

/-- Where each of two actions has the position of the other as its label, a second spelling of its
position chooses the second one. -/
theorem resolution_exact_crossed :
    let r : Request := { Request.new "case-1" "Which?" with
      actions := [⟨"2", "1", "primary"⟩, ⟨"1", "2", "danger"⟩] }
    r.actions ≠ [] ∧ r.actions.length ≤ maxPosition ∧ r.resolve "1" = some "1" ∧
      r.resolve "2" = some "1" ∧ r.resolve "02" = some "2" ∧
      ∃ input, r.resolve input = some "2" := by
  intro r
  have hoffered : r.actions ≠ [] := by simp [r]
  have hcountable : r.actions.length ≤ maxPosition := by decide
  rcases resolution_exact hoffered hcountable with ⟨-, -, -, hchoices⟩
  refine ⟨hoffered, hcountable, by decide, by decide, by decide, ?_⟩
  exact hchoices ⟨"1", "2", "danger"⟩ (by simp [r])

/-- The value of an action stands for itself exactly if no action before it has it as its label, and
otherwise for the value of the first one that has. -/
theorem value_selects {r : Request} {a : Action} (ha : a ∈ r.actions) (nonempty : a.value ≠ "")
    (bare : Bare a.value.toList) :
    (r.resolve a.value = some a.value ↔
      ∀ b ∈ r.beforeValue a.value, ¬ SameUpToCase b.label a.value) ∧
    (∀ earlier b later, r.beforeValue a.value = earlier ++ b :: later →
      (∀ e ∈ earlier, ¬ SameUpToCase e.label a.value) → SameUpToCase b.label a.value →
      r.resolve a.value = some b.value) := by
  rw [resolve_value ha nonempty bare]
  have hvalue : ∀ b ∈ r.beforeValue a.value, b.value ≠ a.value := by
    intro b hb
    simpa using List.mem_takeWhile_imp hb
  constructor
  · constructor
    · intro h b hb hsame
      -- Were there such a label, the first of them would give another value.
      cases hfind : (r.beforeValue a.value).find? (names a.value) with
      | none => exact List.find?_eq_none.1 hfind b hb ((names_beforeValue hb).2 hsame)
      | some e =>
          rw [hfind] at h
          exact hvalue e (List.mem_of_find?_eq_some hfind) (Option.some.inj h)
    · intro h
      have hnone : (r.beforeValue a.value).find? (names a.value) = none := by
        rw [List.find?_eq_none]
        intro b hb
        rw [names_beforeValue hb]
        exact h b hb
      rw [hnone]
      rfl
  · intro earlier b later hbefore hearlier hsame
    have hnone : earlier.find? (names a.value) = none := by
      rw [List.find?_eq_none]
      intro e he
      rw [names_beforeValue (hbefore ▸ List.mem_append_left _ he)]
      exact hearlier e he
    have hnamed : names a.value b = true := names_iff.2 (.inr hsame)
    rw [hbefore, List.find?_append, hnone, Option.none_or, List.find?_cons_of_pos hnamed]
    rfl

/-- A value stands for itself although a later action has it as its label. -/
theorem value_selects_hold :
    let r : Request := { Request.new "case-1" "Which?" with
      actions := [⟨"Reject", "hold", "danger"⟩, ⟨"Hold", "escalate", "primary"⟩] }
    (⟨"Reject", "hold", "danger"⟩ : Action) ∈ r.actions ∧ r.resolve "hold" = some "hold" := by
  intro r
  have hmem : (⟨"Reject", "hold", "danger"⟩ : Action) ∈ r.actions := by simp [r]
  have hbare : Bare "hold".toList := by decide
  refine ⟨hmem, (value_selects hmem (by decide) hbare).1.2 ?_⟩
  intro b hb
  have hnone : r.beforeValue "hold" = [] := by decide
  rw [hnone] at hb
  cases hb

/-- A value does not always stand for itself: the label of an action before it may take it away. -/
theorem label_shadows_value :
    ¬ ∀ (r : Request) (a : Action), a ∈ r.actions → a.value ≠ "" → Bare a.value.toList →
      r.resolve a.value = some a.value := by
  intro h
  have hwrong : { Request.new "case-1" "Which?" with
      actions := [⟨"Hold", "escalate", "primary"⟩, ⟨"Reject", "hold", "danger"⟩] }.resolve "hold" =
        some "escalate" := by
    decide
  have hright := h { Request.new "case-1" "Which?" with
      actions := [⟨"Hold", "escalate", "primary"⟩, ⟨"Reject", "hold", "danger"⟩] }
    ⟨"Reject", "hold", "danger"⟩ (by simp) (by decide) (by decide)
  rw [hwrong] at hright
  exact absurd hright (by decide)

end Casework
