import Casework.Proofs.Text.Digits
import Casework.Proofs.Time.Calendar
import Casework.Time.Stamp

/-!
# Stamps — timestamps are read back as written

* `Instant.InCalendar` : the instants that have a date, leap seconds included;
* `Instant.Stamp.number?_padded`, `Instant.Stamp.year?_yearText`, `Instant.Stamp.fraction?_text` :
  the parts of a timestamp;
* `Instant.ofStamp?_stamp` : an instant of the calendar is read back from its text;
* `Instant.inCalendar_of_ofStamp?` : only such instants are read.
-/

namespace Casework
namespace Instant

/-- Whether an instant has a date, and its nanoseconds are those of one second or of a leap second
at the end of a minute. -/
structure InCalendar (t : Instant) : Prop where
  year : Stamp.yearInRange (CivilDate.ofDays (t.seconds.fdiv 86400)).year = true
  nanos : t.nanos < 1000000000 ∨ (t.nanos < 2000000000 ∧ t.seconds % 60 = 59)

/-! ## Padded numerals -/

section Padded

variable {width n : Nat} {c : Char}

theorem isDigit_of_mem_padded (h : c ∈ padded width n) : c.isDigit = true := by
  rcases List.mem_append.1 h with hzero | hdigit
  · rw [List.eq_of_mem_replicate hzero]
    rfl
  · exact Text.isDigit_of_mem_toDigits hdigit

theorem padded_ne_nil (width n : Nat) : padded width n ≠ [] := by
  simp [padded]

/-- A number that fits is padded to the width. -/
theorem length_padded (pos : 0 < width) (h : n < 10 ^ width) : (padded width n).length = width := by
  have hle := (Nat.length_toDigits_le_iff (b := 10) (by decide) pos).2 h
  rw [padded, List.length_append, List.length_replicate]
  omega

theorem digitsValue_padded (width n : Nat) : Text.digitsValue (padded width n) = n := by
  have hzeros : ∀ k, Text.digitsValue (List.replicate k '0') = 0 := by
    intro k
    induction k with
    | zero => rfl
    | succ k ih => exact ih
  rw [padded, Text.digitsValue, List.foldl_append]
  show (Nat.toDigits 10 n).foldl _ (Text.digitsValue (List.replicate _ '0')) = n
  rw [hzeros]
  exact Text.digitsValue_toDigits n

end Padded

/-- No blanks are skipped in front of digits. -/
theorem trimLeft_digits {ds : List Char} (nonempty : ds ≠ [])
    (digits : ∀ c ∈ ds, c.isDigit = true) (rest : List Char) :
    Text.trimLeft (ds ++ rest) = ds ++ rest := by
  cases ds with
  | nil => exact absurd rfl nonempty
  | cons c ds =>
      rw [List.cons_append, Text.trimLeft, List.dropWhile_cons_of_neg]
      simp [Text.isBlank_of_isDigit (digits c List.mem_cons_self)]

namespace Stamp

variable {width n : Nat} {ds rest : List Char}

/-- As many digits are read as there are, within the width. -/
theorem number?_digits (nonempty : ds ≠ []) (digits : ∀ c ∈ ds, c.isDigit = true)
    (h : ((ds ++ rest).take width).takeWhile Char.isDigit = ds) :
    number? width (ds ++ rest) = some (Text.digitsValue ds, rest) := by
  have hempty : ds.isEmpty = false := by
    simpa [List.isEmpty_eq_false_iff] using nonempty
  rw [number?, trimLeft_digits nonempty digits]
  simp only [h, hempty, List.drop_left]
  rfl

/-- A numeral of the full width is read back, whatever follows. -/
theorem number?_padded (pos : 0 < width) (h : n < 10 ^ width) (rest : List Char) :
    number? width (padded width n ++ rest) = some (n, rest) := by
  have hdigits : ∀ c ∈ padded width n, c.isDigit = true := fun _ => isDigit_of_mem_padded
  have htake : ((padded width n ++ rest).take width).takeWhile Char.isDigit = padded width n := by
    rw [List.take_left' (length_padded pos h), List.takeWhile_eq_self_iff]
    exact hdigits
  rw [number?_digits (padded_ne_nil width n) hdigits htake, digitsValue_padded]

theorem mark?_cons {c : Char} (h : Text.isBlank c = false) (rest : List Char) :
    mark? c (c :: rest) = some rest := by
  rw [mark?, Text.trimLeft, List.dropWhile_cons_of_neg (by simp [h])]
  exact if_pos rfl

/-- The digits of a year behind its sign are read back in front of a hyphen. -/
theorem number?_signed (n : Nat) (rest : List Char) :
    number? (padded 4 n ++ '-' :: rest).length (padded 4 n ++ '-' :: rest) =
      some (n, '-' :: rest) := by
  have hdigits : ∀ c ∈ padded 4 n, c.isDigit = true := fun _ => isDigit_of_mem_padded
  have hends := Text.takeWhile_isDigit_append hdigits ('-' :: rest) (by simp)
  rw [number?_digits (padded_ne_nil 4 n) hdigits (by rw [List.take_length]; exact hends.1),
    digitsValue_padded]

theorem exists_padded_cons (width n : Nat) :
    ∃ c more, padded width n = c :: more ∧ c.isDigit = true := by
  cases hpadded : padded width n with
  | nil => exact absurd hpadded (padded_ne_nil width n)
  | cons c more =>
      have hmem : c ∈ padded width n := by
        rw [hpadded]
        exact List.mem_cons_self
      exact ⟨c, more, rfl, isDigit_of_mem_padded hmem⟩

theorem year?_unsigned (h : n < 10 ^ 4) (rest : List Char) :
    year? (padded 4 n ++ '-' :: rest) = some ((n : Int), '-' :: rest) := by
  have hread := number?_padded (by decide) h ('-' :: rest)
  have htrim := trimLeft_digits (padded_ne_nil 4 n) (fun _ => isDigit_of_mem_padded) ('-' :: rest)
  rcases exists_padded_cons 4 n with ⟨c, more, hpadded, hdigit⟩
  rw [hpadded, List.cons_append] at hread htrim ⊢
  rw [year?, htrim]
  -- The first character is a digit, so it is no sign.
  split
  · next heq =>
      rw [(List.cons.inj heq).1] at hdigit
      cases hdigit
  · next heq =>
      rw [(List.cons.inj heq).1] at hdigit
      cases hdigit
  · simp only [hread, Option.map_some]

theorem head?_padded (n : Nat) (rest : List Char) :
    (padded 4 n ++ rest).head?.any Char.isDigit = true := by
  rcases exists_padded_cons 4 n with ⟨c, more, hpadded, hdigit⟩
  simp [hpadded, hdigit]

theorem year?_minus (n : Nat) (rest : List Char) :
    year? ('-' :: (padded 4 n ++ '-' :: rest)) = some (-(n : Int), '-' :: rest) := by
  show (if (padded 4 n ++ '-' :: rest).head?.any Char.isDigit then
    (number? (padded 4 n ++ '-' :: rest).length (padded 4 n ++ '-' :: rest)).map _ else none) = _
  simp only [head?_padded, if_true, number?_signed, Option.map_some]

theorem year?_plus (n : Nat) (rest : List Char) :
    year? ('+' :: (padded 4 n ++ '-' :: rest)) = some ((n : Int), '-' :: rest) := by
  show (if (padded 4 n ++ '-' :: rest).head?.any Char.isDigit then
    (number? (padded 4 n ++ '-' :: rest).length (padded 4 n ++ '-' :: rest)).map _ else none) = _
  simp only [head?_padded, if_true, number?_signed, Option.map_some]

/-- A year is read back in front of a hyphen. -/
theorem year?_yearText (y : Int) (rest : List Char) :
    year? (yearText y ++ '-' :: rest) = some (y, '-' :: rest) := by
  unfold yearText
  split
  · next hshort =>
      have hvalue : (y.toNat : Int) = y := by
        omega
      rw [year?_unsigned (by omega), hvalue]
  · split
    · next hneg =>
        have hvalue : -(y.natAbs : Int) = y := by
          omega
        rw [List.cons_append, year?_minus, hvalue]
    · next hpos =>
        have hvalue : (y.natAbs : Int) = y := by
          omega
        rw [List.cons_append, year?_plus, hvalue]

/-- A fraction of `k` digits is one in units of `10 ^ (9 - k)` nanoseconds. -/
theorem fraction?_padded {k : Nat} (pos : 0 < k) (hle : k ≤ 9) (h : n < 10 ^ k) :
    fraction? ('.' :: padded k n ++ ['Z']) = some (n * Nat.pow 10 (9 - k), ['Z']) := by
  have hlength := length_padded pos h
  have hall : ∀ c ∈ padded k n, c.isDigit = true := fun _ => isDigit_of_mem_padded
  have hends := Text.takeWhile_isDigit_append hall ['Z'] (by simp)
  have hkept : (padded k n).take 9 = padded k n := by
    rw [List.take_of_length_le (by omega)]
  have hempty : (padded k n).isEmpty = false := by
    simpa [List.isEmpty_eq_false_iff] using padded_ne_nil k n
  simp only [List.cons_append, fraction?, hends.1, hkept, hempty, digitsValue_padded, hlength]
  rw [List.drop_left' hlength]
  rfl

/-- The fraction of a second is read back, in nanoseconds. -/
theorem fraction?_text {nanos : Nat} (h : nanos < 1000000000) :
    fraction? (fractionText nanos ++ ['Z']) = some (nanos, ['Z']) := by
  unfold fractionText
  split
  · next hnone =>
      subst hnone
      rfl
  · split
    · next hmillis =>
        have hvalue : nanos / 1000000 * 1000000 = nanos := by
          omega
        rw [fraction?_padded (by decide) (by decide) (by omega)]
        exact congrArg (fun n => some (n, ['Z'])) hvalue
    · split
      · next hmicros =>
          have hvalue : nanos / 1000 * 1000 = nanos := by
            omega
          rw [fraction?_padded (by decide) (by decide) (by omega)]
          exact congrArg (fun n => some (n, ['Z'])) hvalue
      · rw [fraction?_padded (by decide) (by decide) (by omega)]
        exact congrArg (fun n => some (n, ['Z'])) (Nat.mul_one nanos)

/-! ## Whole timestamps -/

/-- The instant of a date, a time of the day and an offset, if there is one. -/
def assemble (date : CivilDate) (hour minute second nanos : Nat) (offset : Int)
    (rest : List Char) : Option Instant :=
  if (!Text.allBlank (String.ofList rest)) = true then none
  else if (!(yearInRange date.year && date.isValid)) = true then none
  else if (!(decide (hour < 24) && decide (minute < 60) && decide (second ≤ 60))) = true then none
  else if (!decide (offset.natAbs < 86400)) = true then none
  else
    let ofDay : Int := hour * 3600 + minute * 60 + (if second = 60 then 59 else second : Nat)
    let seconds := date.toDays * 86400 + ofDay - offset
    if (!yearInRange (CivilDate.ofDays (seconds.fdiv 86400)).year) = true then none
    else some ⟨seconds, if second = 60 then 1000000000 + nanos else nanos⟩

/-- The instant that a time and an offset stand for behind a date. -/
def afterDate (date : CivilDate) (cs : List Char) : Option Instant :=
  (number? 2 cs).bind fun hour => (mark? ':' hour.2).bind fun cs =>
    (number? 2 cs).bind fun minute => (mark? ':' minute.2).bind fun cs =>
      (number? 2 cs).bind fun second => (fraction? second.2).bind fun nanos =>
        (offset? (Text.trimLeft nanos.2)).bind fun offset =>
          assemble date hour.1 minute.1 second.1 nanos.1 offset.1 offset.2

/-- The mark between a date and a time, and what follows it. -/
def afterMark (date : CivilDate) : List Char → Option Instant
  | 't' :: rest => afterDate date rest
  | 'T' :: rest => afterDate date rest
  | ' ' :: rest => afterDate date rest
  | _ => none

theorem ofStamp?_eq (text : String) :
    ofStamp? text =
      (year? text.toList).bind fun year => (mark? '-' year.2).bind fun cs =>
        (number? 2 cs).bind fun month => (mark? '-' month.2).bind fun cs =>
          (number? 2 cs).bind fun day => afterMark ⟨year.1, month.1, day.1⟩ day.2 := rfl

variable {date : CivilDate} {hour minute second nanos : Nat}

theorem month_day_of_isValid (h : date.isValid = true) :
    date.month < 10 ^ 2 ∧ date.day < 10 ^ 2 := by
  simp only [CivilDate.isValid, decide_eq_true_eq] at h
  have hdays : CivilDate.daysInMonth date.year date.month ≤ 31 := by
    unfold CivilDate.daysInMonth
    split <;> first | decide | (split <;> decide)
  have hmonth : date.month ≤ 12 := by
    by_contra hlate
    have hnone : CivilDate.daysInMonth date.year date.month = 0 := by
      unfold CivilDate.daysInMonth
      split <;> first | rfl | omega
    omega
  omega

/-- The time of day is read back from the way it is written. -/
theorem afterDate_written (hours : hour < 24) (minutes : minute < 60) (seconds : second ≤ 60)
    (fraction : nanos < 1000000000) :
    afterDate date (padded 2 hour ++ ':' :: (padded 2 minute ++ ':' :: (padded 2 second ++
      (fractionText nanos ++ ['Z'])))) = assemble date hour minute second nanos 0 [] := by
  have hread : ∀ n ≤ 60, ∀ rest, number? 2 (padded 2 n ++ rest) = some (n, rest) :=
    fun n hle => number?_padded (by decide) (by omega)
  have hhour := hread hour (by omega)
  have hminute := hread minute (by omega)
  have hsecond := hread second seconds
  have hoffset : offset? (Text.trimLeft ['Z']) = some (0, []) := by
    decide
  simp only [afterDate, hhour, hminute, hsecond, mark?_cons (c := ':') (by decide),
    fraction?_text fraction, hoffset, Option.bind_some]

/-- A timestamp is read back from its parts. -/
theorem ofStamp?_written (valid : date.isValid = true) (hours : hour < 24) (minutes : minute < 60)
    (seconds : second ≤ 60) (fraction : nanos < 1000000000) :
    ofStamp? (String.ofList
      (yearText date.year ++ '-' :: padded 2 date.month ++ '-' :: padded 2 date.day
        ++ 'T' :: padded 2 hour ++ ':' :: padded 2 minute ++ ':' :: padded 2 second
        ++ fractionText nanos ++ ['Z'])) = assemble date hour minute second nanos 0 [] := by
  obtain ⟨hmonth, hday⟩ := month_day_of_isValid valid
  rw [ofStamp?_eq, String.toList_ofList]
  simp only [List.append_assoc, List.cons_append, year?_yearText, Option.bind_some,
    mark?_cons (c := '-') (by decide), number?_padded (by decide) hmonth,
    number?_padded (by decide) hday]
  exact afterDate_written hours minutes seconds fraction

/-- In universal time there is an instant for every date and every time of the day. -/
theorem assemble_eq (total : Int) (year : yearInRange date.year = true)
    (valid : date.isValid = true) (hours : hour < 24) (minutes : minute < 60)
    (seconds : second ≤ 60)
    (sum : date.toDays * 86400 +
      (hour * 3600 + minute * 60 + (if second = 60 then 59 else second : Nat)) = total)
    (within : yearInRange (CivilDate.ofDays (total.fdiv 86400)).year = true) :
    assemble date hour minute second nanos 0 [] =
      some ⟨total, if second = 60 then 1000000000 + nanos else nanos⟩ := by
  have hblank : Text.allBlank (String.ofList []) = true := by
    decide
  rw [assemble]
  simp only [hblank, year, valid, hours, minutes, seconds, sum, within, Int.sub_zero, decide_true,
    Bool.and_self, Bool.not_true, Bool.false_eq_true, if_false]
  rfl

end Stamp

/-- An instant of the calendar is read back from its text. -/
theorem ofStamp?_stamp {t : Instant} (h : t.InCalendar) : ofStamp? t.stamp = some t := by
  obtain ⟨seconds, nanos⟩ := t
  obtain ⟨hyear, hnanos⟩ := h
  dsimp only at hyear hnanos
  have hvalid := CivilDate.isValid_ofDays (seconds.fdiv 86400)
  have hcount := CivilDate.toDays_ofDays (seconds.fdiv 86400)
  have hdays : seconds.fdiv 86400 = seconds / 86400 := Int.fdiv_eq_ediv_of_nonneg _ (by decide)
  obtain ⟨ofDay, hofDay⟩ : ∃ n, n = (seconds - seconds.fdiv 86400 * 86400).toNat := ⟨_, rfl⟩
  unfold stamp
  simp only [← hofDay]
  -- A leap second is written as the sixtieth of its minute and kept in the nanoseconds.
  by_cases hleap : 1000000000 ≤ nanos
  · have hlast : ofDay % 60 + 1 = 60 := by
      omega
    simp only [if_pos hleap, hlast]
    rw [Stamp.ofStamp?_written hvalid (by omega) (by omega) (by omega) (by omega),
      Stamp.assemble_eq seconds hyear hvalid (by omega) (by omega) (by omega)
        (by rw [if_pos rfl]; omega) hyear, if_pos rfl, Nat.add_sub_cancel' hleap]
  · have hlast : ofDay % 60 + 0 ≠ 60 := by
      omega
    simp only [if_neg hleap]
    rw [Stamp.ofStamp?_written hvalid (by omega) (by omega) (by omega) (by omega),
      Stamp.assemble_eq seconds hyear hvalid (by omega) (by omega) (by omega)
        (by rw [if_neg hlast]; omega) hyear, if_neg hlast]

/-! ## What is read -/

namespace Stamp

variable {cs rest : List Char} {n : Nat} {offset : Int} {t : Instant}

theorem fraction?_lt (h : fraction? cs = some (n, rest)) : n < 1000000000 := by
  unfold fraction? at h
  split at h
  · next tail =>
      dsimp only at h
      split at h
      · cases h
      · have hdigits : ∀ c ∈ (tail.takeWhile Char.isDigit).take 9, c.isDigit = true := by
          intro c hc
          exact List.mem_takeWhile_imp (List.mem_of_mem_take hc)
        have hvalue := Text.digitsValue_lt hdigits
        have hlength : ((tail.takeWhile Char.isDigit).take 9).length ≤ 9 := by
          simp
        cases h
        generalize Text.digitsValue _ = v at *
        generalize List.length _ = k at *
        calc
          v * 10 ^ (9 - k) < 10 ^ k * 10 ^ (9 - k) := by
            exact Nat.mul_lt_mul_of_pos_right hvalue (Nat.pow_pos (by decide))
          _ = 1000000000 := by
            rw [← Nat.pow_add, Nat.add_sub_cancel' hlength]
  · cases h
    decide

theorem hoursMinutes?_minutes (h : hoursMinutes? cs = some (n, rest)) : n % 60 = 0 := by
  unfold hoursMinutes? at h
  split at h
  · split at h
    · split at h
      · split at h
        · cases h
          omega
        · cases h
      · cases h
    · cases h
  · cases h

/-- An offset is a number of minutes. -/
theorem offset?_minutes (h : offset? cs = some (offset, rest)) : offset % 60 = 0 := by
  have hsigned : ∀ {cs : List Char} {f : Nat → Int}, (∀ n, n % 60 = 0 → f n % 60 = 0) →
      (hoursMinutes? cs).map (fun out => (f out.1, out.2)) = some (offset, rest) →
      offset % 60 = 0 := by
    intro cs f hf hmap
    rcases Option.map_eq_some_iff.1 hmap with ⟨⟨n, rest'⟩, hread, hout⟩
    cases hout
    exact hf n (hoursMinutes?_minutes hread)
  unfold offset? at h
  split at h
  · cases h
    rfl
  · split at h
    · cases h
      rfl
    · cases h
      rfl
    · exact hsigned (f := fun n => (n : Int)) (by omega) h
    · exact hsigned (f := fun n => -(n : Int)) (by omega) h
    · exact hsigned (f := fun n => -(n : Int)) (by omega) h
    · cases h

/-- Whatever is assembled is in the calendar. -/
theorem inCalendar_of_assemble {date : CivilDate} {hour minute second nanos : Nat}
    (fraction : nanos < 1000000000) (minutes : offset % 60 = 0)
    (h : assemble date hour minute second nanos offset rest = some t) : t.InCalendar := by
  simp only [assemble, Option.ite_none_left_eq_some] at h
  obtain ⟨-, -, -, -, hyear, hsome⟩ := h
  obtain rfl := Option.some.inj hsome
  refine ⟨by simpa using hyear, ?_⟩
  by_cases hleap : second = 60
  · simp only [if_pos hleap]
    omega
  · simp only [if_neg hleap]
    exact .inl fraction

end Stamp

/-- Only instants of the calendar are read. -/
theorem inCalendar_of_ofStamp? {text : String} {t : Instant} (h : ofStamp? text = some t) :
    t.InCalendar := by
  rw [Stamp.ofStamp?_eq] at h
  obtain ⟨year, -, h⟩ := Option.bind_eq_some_iff.1 h
  obtain ⟨cs, -, h⟩ := Option.bind_eq_some_iff.1 h
  obtain ⟨month, -, h⟩ := Option.bind_eq_some_iff.1 h
  obtain ⟨cs', -, h⟩ := Option.bind_eq_some_iff.1 h
  obtain ⟨day, -, h⟩ := Option.bind_eq_some_iff.1 h
  -- The mark between date and time is one of three, and what is behind it is read in the same way.
  have hafter : ∃ rest, Stamp.afterDate ⟨year.1, month.1, day.1⟩ rest = some t := by
    unfold Stamp.afterMark at h
    split at h
    · exact ⟨_, h⟩
    · exact ⟨_, h⟩
    · exact ⟨_, h⟩
    · cases h
  obtain ⟨rest, h⟩ := hafter
  rw [Stamp.afterDate] at h
  obtain ⟨hour, -, h⟩ := Option.bind_eq_some_iff.1 h
  obtain ⟨cs₁, -, h⟩ := Option.bind_eq_some_iff.1 h
  obtain ⟨minute, -, h⟩ := Option.bind_eq_some_iff.1 h
  obtain ⟨cs₂, -, h⟩ := Option.bind_eq_some_iff.1 h
  obtain ⟨second, -, h⟩ := Option.bind_eq_some_iff.1 h
  obtain ⟨nanos, hnanos, h⟩ := Option.bind_eq_some_iff.1 h
  obtain ⟨offset, hoffset, h⟩ := Option.bind_eq_some_iff.1 h
  exact Stamp.inCalendar_of_assemble (Stamp.fraction?_lt hnanos) (Stamp.offset?_minutes hoffset) h

end Instant
end Casework
