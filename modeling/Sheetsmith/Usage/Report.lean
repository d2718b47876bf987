import Sheetsmith.Usage.Clean

namespace Sheetsmith

/-- A point in time: seconds since the start of 1970 and a part of a second. A part of a whole second
or more stands for an inserted second. -/
structure Timestamp where
  seconds : Int
  nanos : Nat

namespace Timestamp

/-- A day of the calendar. -/
structure Day where
  year : Int
  month : Nat
  day : Nat
deriving DecidableEq

/-- The day that is a number of days away from the first of January 1970, in the calendar of today
for all times. Years are counted from the first of March, so that the day of a leap year comes
last; 400 years have 146097 days. -/
def dayOf (days : Int) : Day :=
  let fromMarch := days + 719468
  let era := fromMarch.fdiv 146097
  let dayOfEra := (fromMarch.fmod 146097).toNat
  let yearOfEra :=
    (dayOfEra - dayOfEra / 1460 + dayOfEra / 36524 - dayOfEra / 146096) / 365
  let dayOfYear := dayOfEra - (365 * yearOfEra + yearOfEra / 4 - yearOfEra / 100)
  let monthFromMarch := (5 * dayOfYear + 2) / 153
  let day := dayOfYear - (153 * monthFromMarch + 2) / 5 + 1
  let month := if monthFromMarch < 10 then monthFromMarch + 3 else monthFromMarch - 9
  let year : Int := yearOfEra + era * 400
  ⟨if month ≤ 2 then year + 1 else year, month, day⟩

/-- A number with zeros in front up to a width. -/
def padded (width n : Nat) : String :=
  let digits := toString n
  String.ofList (List.replicate (width - digits.length) '0') ++ digits

/-- A year; outside four digits it has a sign. -/
def yearText (year : Int) : String :=
  if 0 ≤ year ∧ year ≤ 9999 then padded 4 year.toNat
  else (if year < 0 then "-" else "+") ++ padded 4 year.natAbs

/-- The time in Greenwich, to the second. -/
def text (t : Timestamp) : String :=
  let day := dayOf (t.seconds.fdiv 86400)
  let second := (t.seconds.fmod 86400).toNat
  yearText day.year ++ "-" ++ padded 2 day.month ++ "-" ++ padded 2 day.day ++ "T" ++
    padded 2 (second / 3600) ++ ":" ++ padded 2 (second / 60 % 60) ++ ":" ++
    padded 2 (second % 60 + t.nanos / 1000000000) ++ "Z"

end Timestamp

namespace Usage

/-- One line of a report. -/
def reportLine (entry : String × Nat) : String :=
  entry.1 ++ " found " ++ toString entry.2 ++ " references\n"

/-- The report for the given uses, made at the given time. -/
def report (time : String) (counts : Counts) : String :=
  "Usage report generated " ++ time ++ "\n\n" ++ String.join (counts.sorted.map reportLine)

end Usage

end Sheetsmith
