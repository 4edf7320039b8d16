import Casework.Json.Decoder
import Casework.Text.Blank
import Casework.Text.Digits
import Casework.Time.Instant

/-!
# Timestamps

The text form of an instant: `2001-02-03T04:05:06Z`, with no fraction or the fewest of 3, 6 and 9
digits that lose nothing.

* `Instant.stamp` : writing;
* `Instant.ofStamp?` : reading, more liberal than what is written.  The parts may have fewer
  digits and blanks around them, the separator is `T`, `t` or a blank, the offset is `Z`, `z`,
  `UTC` in any case or signed hours and minutes with or without a colon, a second may be the 60th,
  and fraction digits behind the ninth are dropped.
-/

namespace Casework
namespace Instant

/-! ## Writing -/

/-- Decimal digits of `n`, at least `width` of them. -/
def padded (width n : Nat) : List Char :=
  let ds := Nat.toDigits 10 n
  List.replicate (width - ds.length) '0' ++ ds

/-- Four digits of a year; outside 0 to 9999 with a sign. -/
def yearText (y : Int) : List Char :=
  if 0 ≤ y ∧ y ≤ 9999 then padded 4 y.toNat
  else (if y < 0 then '-' else '+') :: padded 4 y.natAbs

/-- The fraction of a second, in the fewest of 0, 3, 6 and 9 digits that lose nothing. -/
def fractionText (nanos : Nat) : List Char :=
  if nanos = 0 then []
  else if nanos % 1000000 = 0 then '.' :: padded 3 (nanos / 1000000)
  else if nanos % 1000 = 0 then '.' :: padded 6 (nanos / 1000)
  else '.' :: padded 9 nanos

def stamp (t : Instant) : String :=
  let days := t.seconds.fdiv 86400
  let ofDay := (t.seconds - days * 86400).toNat
  let date := CivilDate.ofDays days
  let leap := 1000000000 ≤ t.nanos
  let second := ofDay % 60 + (if leap then 1 else 0)
  let nanos := if leap then t.nanos - 1000000000 else t.nanos
  String.ofList <|
    yearText date.year ++ '-' :: padded 2 date.month ++ '-' :: padded 2 date.day
      ++ 'T' :: padded 2 (ofDay / 3600) ++ ':' :: padded 2 (ofDay / 60 % 60)
      ++ ':' :: padded 2 second ++ fractionText nanos ++ ['Z']

instance : ToValue Instant := ⟨fun t => .str t.stamp⟩

/-! ## Reading -/

namespace Stamp

/-- At most `width` digits behind blanks, at least one. -/
def number? (width : Nat) (cs : List Char) : Option (Nat × List Char) :=
  let cs := Text.trimLeft cs
  let ds := (cs.take width).takeWhile Char.isDigit
  if ds.isEmpty then none else some (Text.digitsValue ds, cs.drop ds.length)

/-- A year: four digits at most, or a sign and any number of them. -/
def year? (cs : List Char) : Option (Int × List Char) :=
  match Text.trimLeft cs with
  | '-' :: rest =>
      if rest.head?.any Char.isDigit then
        (number? rest.length rest).map fun (n, rest) => (-(n : Int), rest)
      else none
  | '+' :: rest =>
      if rest.head?.any Char.isDigit then
        (number? rest.length rest).map fun (n, rest) => ((n : Int), rest)
      else none
  | rest => (number? 4 rest).map fun (n, rest) => ((n : Int), rest)

def mark? (c : Char) (cs : List Char) : Option (List Char) :=
  match Text.trimLeft cs with
  | d :: rest => if d = c then some rest else none
  | [] => none

/-- A fraction of a second in nanoseconds, if there is a point. -/
def fraction? (cs : List Char) : Option (Nat × List Char) :=
  match cs with
  | '.' :: rest =>
      let ds := rest.takeWhile Char.isDigit
      let kept := ds.take 9
      if ds.isEmpty then none
      else some (Text.digitsValue kept * Nat.pow 10 (9 - kept.length), rest.drop ds.length)
  | _ => some (0, cs)

/-- Skips colons and blanks between the hours and minutes of an offset. -/
def skipSeparators (cs : List Char) : List Char :=
  cs.dropWhile fun c => c = ':' || Text.isBlank c

def hoursMinutes? : List Char → Option (Nat × List Char)
  | a :: b :: rest =>
      if a.isDigit && b.isDigit then
        match skipSeparators rest with
        | c :: d :: rest =>
            if '0' ≤ c && c ≤ '5' && d.isDigit then
              some (Text.digitsValue [a, b] * 3600 + Text.digitsValue [c, d] * 60, rest)
            else none
        | _ => none
      else none
  | _ => none

/-- Whether a text starts with `UTC` in any case. -/
def startsWithUtc (cs : List Char) : Bool :=
  (cs.take 3).map Char.toUpper == ['U', 'T', 'C']

def offset? (cs : List Char) : Option (Int × List Char) :=
  if startsWithUtc cs then some (0, cs.drop 3)
  else
    match cs with
    | 'Z' :: rest | 'z' :: rest => some (0, rest)
    | '+' :: rest => (hoursMinutes? rest).map fun (n, rest) => ((n : Int), rest)
    | '-' :: rest | '\u2212' :: rest =>
        (hoursMinutes? rest).map fun (n, rest) => (-(n : Int), rest)
    | _ => none

def yearInRange (y : Int) : Bool :=
  -262143 ≤ y ∧ y ≤ 262142

end Stamp

open Stamp in
def ofStamp? (text : String) : Option Instant := do
  let (year, cs) ← year? text.toList
  let cs ← mark? '-' cs
  let (month, cs) ← number? 2 cs
  let cs ← mark? '-' cs
  let (day, cs) ← number? 2 cs
  let cs ←
    match cs with
    | 't' :: rest | 'T' :: rest | ' ' :: rest => some rest
    | _ => none
  let (hour, cs) ← number? 2 cs
  let cs ← mark? ':' cs
  let (minute, cs) ← number? 2 cs
  let cs ← mark? ':' cs
  let (second, cs) ← number? 2 cs
  let (nanos, cs) ← fraction? cs
  let (offset, cs) ← offset? (Text.trimLeft cs)
  let date : CivilDate := ⟨year, month, day⟩
  if !Text.allBlank (String.ofList cs) then none
  if !(yearInRange year && date.isValid) then none
  if !(hour < 24 && minute < 60 && second ≤ 60) then none
  if !(offset.natAbs < 86400) then none
  let leap := second = 60
  let ofDay : Int := hour * 3600 + minute * 60 + (if leap then 59 else second)
  let seconds := date.toDays * 86400 + ofDay - offset
  -- An offset may lead across the ends of the calendar.
  if !yearInRange (CivilDate.ofDays (seconds.fdiv 86400)).year then none
  pure ⟨seconds, if leap then 1000000000 + nanos else nanos⟩

def decoder : Decoder Instant where
  schema := .text
  decode
    | .str s =>
        match ofStamp? s with
        | some t => .ok t
        | none => .error .badTimestamp
    | v => .error (.wrongType v "an RFC 3339 formatted date and time string")

end Instant
end Casework
