import Casework.Proofs.Json.Extension
import Mathlib.Data.List.Induction
import Mathlib.Data.List.TakeWhile

/-!
# Digits — numerals as they are written

* `Text.digitsValue_toDigits`, `Text.digitsValue_lt` : the number that a numeral spells;
* `Text.takeWhile_isDigit_append` : where a numeral ends;
* `Text.head?_toDigits` : a numeral has no zeros in front;
* `Text.exists_zeros` : any digits are a numeral with some zeros in front.
-/

namespace Casework
namespace Text

/-- A number is read back from its numeral. -/
theorem digitsValue_toDigits (n : Nat) : digitsValue (Nat.toDigits 10 n) = n :=
  Nat.ofDigitChars_toDigits (by decide) (by decide)

theorem digitValue_le {c : Char} (h : c.isDigit = true) : digitValue c ≤ 9 := by
  simp only [Char.isDigit, Bool.and_eq_true, decide_eq_true_eq, ge_iff_le,
    UInt32.le_iff_toNat_le] at h
  have hhigh : c.toNat ≤ 57 := h.2
  show c.toNat - 48 ≤ 9
  omega

/-- A numeral of `k` digits spells a number below `10 ^ k`. -/
theorem digitsValue_lt {ds : List Char} (digits : ∀ c ∈ ds, c.isDigit = true) :
    digitsValue ds < Nat.pow 10 ds.length := by
  have hfrom : ∀ n, ds.foldl (fun n c => 10 * n + digitValue c) n < (n + 1) * 10 ^ ds.length := by
    induction ds with
    | nil => simp
    | cons c ds ih =>
        intro n
        have hc := digitValue_le (digits c List.mem_cons_self)
        calc
          ds.foldl (fun n c => 10 * n + digitValue c) (10 * n + digitValue c)
              < (10 * n + digitValue c + 1) * 10 ^ ds.length :=
            ih (fun c hc => digits c (List.mem_cons_of_mem _ hc)) _
          _ ≤ (10 * (n + 1)) * 10 ^ ds.length :=
            Nat.mul_le_mul_right _ (by omega)
          _ = (n + 1) * 10 ^ (c :: ds).length := by
            rw [List.length_cons, Nat.pow_succ, Nat.mul_comm 10, Nat.mul_assoc, Nat.mul_comm 10]
  have hall := hfrom 0
  rw [Nat.zero_add, Nat.one_mul] at hall
  exact hall

theorem isDigit_of_mem_toDigits {n : Nat} {c : Char} (h : c ∈ Nat.toDigits 10 n) :
    c.isDigit = true :=
  Nat.isDigit_of_mem_toDigits (by decide) (by decide) h

theorem toDigits_ne_nil (n : Nat) : Nat.toDigits 10 n ≠ [] :=
  List.ne_nil_of_length_pos Nat.length_toDigits_pos

/-- Digits end where something else stands. -/
theorem takeWhile_isDigit_append {ds : List Char} (digits : ∀ c ∈ ds, c.isDigit = true)
    (rest : List Char) (apart : ∀ c ∈ rest.head?, c.isDigit = false) :
    (ds ++ rest).takeWhile Char.isDigit = ds ∧ (ds ++ rest).dropWhile Char.isDigit = rest := by
  rw [List.takeWhile_append_of_pos digits, List.dropWhile_append_of_pos digits]
  cases rest with
  | nil => simp
  | cons c rest =>
      have hc : ¬ c.isDigit = true := by
        simp [apart c rfl]
      rw [List.takeWhile_cons_of_neg hc, List.dropWhile_cons_of_neg hc, List.append_nil]
      exact ⟨rfl, rfl⟩

theorem takeWhile_isDigit_toDigits (n : Nat) :
    (Nat.toDigits 10 n).takeWhile Char.isDigit = Nat.toDigits 10 n ∧
      (Nat.toDigits 10 n).dropWhile Char.isDigit = [] := by
  have hdigits : ∀ c ∈ Nat.toDigits 10 n, c.isDigit = true := fun _ => isDigit_of_mem_toDigits
  have hends := takeWhile_isDigit_append hdigits [] (by simp)
  rwa [List.append_nil] at hends

/-- A numeral of more than one digit does not begin with a zero. -/
theorem head?_toDigits (n : Nat) (h : (Nat.toDigits 10 n).head? = some '0') :
    (Nat.toDigits 10 n).length = 1 := by
  induction n using Nat.strongRecOn with
  | ind n ih =>
      by_cases hsmall : n < 10
      · rw [Nat.toDigits_of_lt_base hsmall]
        rfl
      · have hle : 10 ≤ n := Nat.le_of_not_lt hsmall
        have hdigits := Nat.toDigits_of_base_le (b := 10) (by decide) hle
        have hfirst : (Nat.toDigits 10 (n / 10)).head? = some '0' := by
          cases hmore : Nat.toDigits 10 (n / 10) with
          | nil => exact absurd hmore (toDigits_ne_nil _)
          | cons c more =>
              rw [hdigits, hmore] at h
              exact h
        -- So the rest of the number is a single zero, and the number has one digit.
        rcases List.length_eq_one_iff.1 (ih (n / 10) (by omega) hfirst) with ⟨c, hc⟩
        rw [hc] at hfirst
        cases hfirst
        have hvalue := digitsValue_toDigits (n / 10)
        rw [hc] at hvalue
        have hnone : n / 10 = 0 := hvalue.symm
        omega

theorem isBlank_of_isDigit {c : Char} (h : c.isDigit = true) : isBlank c = false := by
  rw [Bool.eq_false_iff]
  intro hblank
  rw [Value.Reader.isDigit_eq_false_of_isBlank hblank] at h
  cases h

/-- A further digit counts the digits before it ten times. -/
theorem digitsValue_concat (ds : List Char) (c : Char) :
    digitsValue (ds ++ [c]) = 10 * digitsValue ds + digitValue c := by
  simp [digitsValue]

/-- Zeros in front do not count. -/
theorem digitsValue_zeros (zeros : Nat) (ds : List Char) :
    digitsValue (List.replicate zeros '0' ++ ds) = digitsValue ds := by
  induction zeros with
  | zero => rfl
  | succ zeros ih => exact ih

theorem toDigits_digitValue {c : Char} (h : c.isDigit = true) :
    Nat.toDigits 10 (digitValue c) = [c] := by
  have hsmall : digitValue c < 10 := Nat.lt_succ_of_le (digitValue_le h)
  have hlow : 48 ≤ c.toNat := by
    simp only [Char.isDigit, Bool.and_eq_true, decide_eq_true_eq, ge_iff_le,
      UInt32.le_iff_toNat_le] at h
    exact h.1
  have hchar : (digitValue c).digitChar = c := by
    apply Char.toNat_inj.1
    calc
      (digitValue c).digitChar.toNat = 48 + digitValue c := Nat.toNat_digitChar_of_lt_ten hsmall
      _ = c.toNat := Nat.add_sub_cancel' hlow
  rw [Nat.toDigits_of_lt_base hsmall, hchar]

/-- Digits are a numeral with some zeros in front. -/
theorem exists_zeros {ds : List Char} (nonempty : ds ≠ [])
    (digits : ∀ c ∈ ds, c.isDigit = true) :
    ∃ zeros, ds = List.replicate zeros '0' ++ Nat.toDigits 10 (digitsValue ds) := by
  -- From the back, as a value is read: the last digit is the one that is added.
  induction ds using List.reverseRecOn with
  | nil => exact absurd rfl nonempty
  | append_singleton ds c ih =>
      have hc : c.isDigit = true := digits c (by simp)
      have hsmall : digitValue c < 10 := Nat.lt_succ_of_le (digitValue_le hc)
      have hnumeral := toDigits_digitValue hc
      by_cases hempty : ds = []
      · subst hempty
        refine ⟨0, ?_⟩
        rw [digitsValue_concat, digitsValue_nil, Nat.mul_zero, Nat.zero_add, hnumeral]
        rfl
      · rcases ih hempty fun d hd => digits d (List.mem_append_left _ hd) with ⟨zeros, hds⟩
        rw [digitsValue_concat]
        by_cases hzero : digitsValue ds = 0
        · -- So far there were only zeros, and the last of them is one in front now.
          refine ⟨zeros + 1, ?_⟩
          rw [hzero, Nat.toDigits_zero] at hds
          rw [hzero, Nat.mul_zero, Nat.zero_add, hnumeral, hds, List.replicate_succ']
        · refine ⟨zeros, ?_⟩
          have hpositive : 0 < digitsValue ds := Nat.pos_of_ne_zero hzero
          calc
            ds ++ [c] = List.replicate zeros '0' ++ Nat.toDigits 10 (digitsValue ds) ++
                Nat.toDigits 10 (digitValue c) := by rw [← hds, hnumeral]
            _ = List.replicate zeros '0' ++
                Nat.toDigits 10 (10 * digitsValue ds + digitValue c) := by
              rw [List.append_assoc, Nat.toDigits_append_toDigits (by decide) hpositive hsmall]

end Text
end Casework
