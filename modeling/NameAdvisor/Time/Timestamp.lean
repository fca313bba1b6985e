/-!
# Points in time

## Main definitions

* `Timestamp`: the seconds since the start of 1970, universal time.
* `Timestamp.date`: the day of the Gregorian calendar.
* `Timestamp.text`: date and time of day, with the offset `+00:00`.
-/

namespace NameAdvisor

/-- The seconds since the start of 1970, universal time. -/
structure Timestamp where
  seconds : Int
  deriving DecidableEq, Repr, Inhabited

namespace Timestamp

/-- A day of the Gregorian calendar. -/
structure Date where
  year : Int
  month : Nat
  day : Nat
  deriving DecidableEq, Repr

/-- The date of the day number `days`, counted from the first day of 1970.  Years are counted from March, so that
the leap day comes last; four hundred of them have 146097 days. -/
def dateOfDays (days : Int) : Date :=
  let shifted := days + 719468
  let era := Int.fdiv shifted 146097
  let dayOfEra := (shifted - era * 146097).toNat
  let yearOfEra := (dayOfEra - dayOfEra / 1460 + dayOfEra / 36524 - dayOfEra / 146096) / 365
  let dayOfYear := dayOfEra - (365 * yearOfEra + yearOfEra / 4 - yearOfEra / 100)
  let monthFromMarch := (5 * dayOfYear + 2) / 153
  let day := dayOfYear - (153 * monthFromMarch + 2) / 5 + 1
  let month := if monthFromMarch < 10 then monthFromMarch + 3 else monthFromMarch - 9
  let year := Int.ofNat yearOfEra + era * 400 + if month ≤ 2 then 1 else 0
  ⟨year, month, day⟩

/-- The day on which a point in time falls. -/
def date (t : Timestamp) : Date :=
  dateOfDays (Int.fdiv t.seconds 86400)

def secondOfDay (t : Timestamp) : Nat :=
  (Int.fmod t.seconds 86400).toNat

def zeroPadded (width n : Nat) : String :=
  let digits := Nat.toDigits 10 n
  String.ofList (List.replicate (width - digits.length) '0' ++ digits)

/-- A year in four digits; years outside the four-digit range have a sign. -/
def yearText (y : Int) : String :=
  if 0 ≤ y && y ≤ 9999 then zeroPadded 4 y.toNat
  else (if y < 0 then "-" else "+") ++ zeroPadded 4 y.natAbs

/-- A point in time to the second.  The offset is always `+00:00`: local time is taken to be universal time. -/
def text (t : Timestamp) : String :=
  let d := t.date
  let s := t.secondOfDay
  yearText d.year ++ "-" ++ zeroPadded 2 d.month ++ "-" ++ zeroPadded 2 d.day ++ "T" ++
    zeroPadded 2 (s / 3600) ++ ":" ++ zeroPadded 2 (s / 60 % 60) ++ ":" ++ zeroPadded 2 (s % 60) ++ "+00:00"

end Timestamp

end NameAdvisor
