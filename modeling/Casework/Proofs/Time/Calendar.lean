import Casework.Time.Calendar
import Mathlib.Tactic.IntervalCases

/-!
# The calendar — every day has a date

The date of a day is a date of the calendar, and counting the days to it gives the day back.

* `CivilDate.InEra` : a day of an era, by its century, cycle of four years, year and day;
* `CivilDate.toDays_ofDays` : the count of days is given back;
* `CivilDate.isValid_ofDays` : the calendar has the date.
-/

namespace Casework
namespace CivilDate

/-- The day `e` of an era is the day `d` of year `r` of cycle `q` of century `c`.  Only the last
year of a cycle may have 366 days, and the last one of a century only at the end of the era. -/
structure InEra (e c q r d : Int) : Prop where
  century : 0 ≤ c ∧ c ≤ 3
  cycle : 0 ≤ q ∧ q ≤ 24
  year : 0 ≤ r ∧ r ≤ 3
  day : 0 ≤ d ∧ d ≤ 365
  leap : d = 365 → r = 3 ∧ (q ≠ 24 ∨ c = 3)
  sum : e = 36524 * c + 1461 * q + 365 * r + d

theorem exists_inEra {e : Int} (low : 0 ≤ e) (high : e < 146097) :
    ∃ c q r d : Int, InEra e c q r d := by
  have hcentury : ∃ c : Int, 0 ≤ c ∧ c ≤ 3 ∧ 0 ≤ e - 36524 * c ∧ e - 36524 * c ≤ 36524 ∧
      (e - 36524 * c = 36524 → c = 3) := by
    refine ⟨min (e / 36524) 3, ?_⟩
    omega
  obtain ⟨c, hlow, hhigh, hnonneg, hle, hlast⟩ := hcentury
  generalize hx : e - 36524 * c = x at *
  obtain ⟨q, hq⟩ : ∃ q, q = x / 1461 := ⟨_, rfl⟩
  obtain ⟨y, hy⟩ : ∃ y, y = x - 1461 * q := ⟨_, rfl⟩
  refine ⟨c, q, min (y / 365) 3, y - 365 * min (y / 365) 3, ?_, ?_, ?_, ?_, ?_, ?_⟩ <;> omega

namespace InEra

variable {e c q r d : Int}

/-- The year of the era, as it is estimated from the day. -/
theorem yearOfEra (h : InEra e c q r d) :
    (e - e / 1460 + e / 36524 - e / 146096) / 365 = 100 * c + 4 * q + r := by
  obtain ⟨hc, hq, hr, hd, hleap, hsum⟩ := h
  have hcycles : e / 1460 = 25 * c + q + (24 * c + q + 365 * r + d) / 1460 := by
    omega
  have hcenturies : e / 36524 - e / 146096 = c := by
    have hlast : 1461 * q + 365 * r + d ≤ 36523 ∨ (c = 3 ∧ q = 24 ∧ r = 3 ∧ d = 365) := by
      omega
    rcases hlast with hbefore | ⟨rfl, rfl, rfl, rfl⟩
    · have hnone : e / 146096 = 0 := by
        omega
      omega
    · omega
  omega

/-- The days of the years before. -/
theorem daysBefore (h : InEra e c q r d) :
    365 * (100 * c + 4 * q + r) + (100 * c + 4 * q + r) / 4 - (100 * c + 4 * q + r) / 100 =
      e - d := by
  obtain ⟨hc, hq, hr, hd, hleap, hsum⟩ := h
  omega

end InEra

/-- The date of a day, by where it is in its era. -/
theorem exists_ofDays (n : Int) :
    ∃ era e c q r d : Int, InEra e c q r d ∧ n + 719468 = era * 146097 + e ∧
      ofDays n =
        let m := (5 * d + 2) / 153
        let month := if m < 10 then m + 3 else m - 9
        ⟨100 * c + 4 * q + r + era * 400 + (if month ≤ 2 then 1 else 0), month.toNat,
          (d - (153 * m + 2) / 5 + 1).toNat⟩ := by
  have hera : (n + 719468).fdiv 146097 = (n + 719468) / 146097 :=
    Int.fdiv_eq_ediv_of_nonneg _ (by decide)
  obtain ⟨e, he⟩ : ∃ e, e = n + 719468 - (n + 719468) / 146097 * 146097 := ⟨_, rfl⟩
  obtain ⟨c, q, r, d, h⟩ := exists_inEra (e := e) (by omega) (by omega)
  refine ⟨(n + 719468) / 146097, e, c, q, r, d, h, by omega, ?_⟩
  have hbefore := h.daysBefore
  have hday : e - (365 * (100 * c + 4 * q + r) + (100 * c + 4 * q + r) / 4 -
      (100 * c + 4 * q + r) / 100) = d := by
    omega
  simp only [ofDays, hera, ← he, h.yearOfEra, hday]

/-- Counting the days to the date of a day gives it back. -/
theorem toDays_ofDays (n : Int) : (ofDays n).toDays = n := by
  rcases exists_ofDays n with ⟨era, e, c, q, r, d, h, hn, hdate⟩
  have hbefore := h.daysBefore
  have hd := h.day
  -- The month counts from March, so that the leap day is the last of its year.
  obtain ⟨m, hm⟩ : ∃ m, m = (5 * d + 2) / 153 := ⟨_, rfl⟩
  have hera : (100 * c + 4 * q + r + era * 400).fdiv 400 = era := by
    obtain ⟨hc, hq, hr, -, -, -⟩ := h
    rw [Int.fdiv_eq_ediv_of_nonneg _ (by decide)]
    omega
  have hday : ((d - (153 * m + 2) / 5 + 1).toNat : Int) = d - (153 * m + 2) / 5 + 1 := by
    omega
  rw [hdate]
  by_cases hfirst : m < 10
  · have hmonth : ¬ (m + 3).toNat ≤ 2 := by
      omega
    have hlate : ¬ m + 3 ≤ 2 := by
      omega
    have hmarch : (((m + 3).toNat : Int) + 9) % 12 = m := by
      omega
    simp only [toDays, ← hm, if_pos hfirst, if_neg hmonth, if_neg hlate, Int.add_zero, hera, hmarch,
      hday, Int.add_sub_cancel]
    omega
  · have hmonth : (m - 9).toNat ≤ 2 := by
      omega
    have hearly : m - 9 ≤ 2 := by
      omega
    have hmarch : (((m - 9).toNat : Int) + 9) % 12 = m := by
      omega
    simp only [toDays, ← hm, if_neg hfirst, if_pos hmonth, if_pos hearly, Int.add_sub_cancel, hera,
      hmarch, hday]
    omega

/-- The calendar has the date of every day. -/
theorem isValid_ofDays (n : Int) : (ofDays n).isValid = true := by
  rcases exists_ofDays n with ⟨era, e, c, q, r, d, h, -, hdate⟩
  obtain ⟨hc, hq, hr, hd, hleap, -⟩ := h
  obtain ⟨m, hm⟩ : ∃ m, m = (5 * d + 2) / 153 := ⟨_, rfl⟩
  have hlow : 0 ≤ m := by
    omega
  have hhigh : m ≤ 11 := by
    omega
  have hfebruary : d ≤ 364 ∨ isLeapYear (100 * c + 4 * q + r + era * 400 + 1) = true := by
    by_cases hlast : d = 365
    · right
      have hyear := hleap hlast
      simp only [isLeapYear, decide_eq_true_eq]
      omega
    · exact .inl (by omega)
  rw [hdate]
  simp only [isValid, ← hm, decide_eq_true_eq]
  -- Month by month; only the length of February depends on the year.
  interval_cases m
  case «11» =>
    have hdays : d - 337 + 1 ≤
        if isLeapYear (100 * c + 4 * q + r + era * 400 + 1) then 29 else 28 := by
      rcases hfebruary with hshort | hleapYear
      · split <;> omega
      · rw [if_pos hleapYear]
        omega
    simp [daysInMonth]
    omega
  all_goals
    simp [daysInMonth]
    omega

end CivilDate
end Casework
