/-!
# Times as dates

A time in milliseconds since 1970 is written as a date and a time of day in universal time, in the
proleptic Gregorian calendar, with years as astronomers count them. The calendar reaches from
-262143 to 262142; a time outside is written as its number of milliseconds.
-/

namespace EventRelay.Calendar

structure Date where
  year : Int
  month : Nat
  day : Nat
  deriving DecidableEq, Inhabited

/-- The date of a day counted from 1970-01-01. Years are counted from March, so that a leap day is
the last of its year, and grouped into the 400 years after which the calendar repeats. -/
def date (day : Int) : Date :=
  let shifted := day + 719468
  let era := shifted.fdiv 146097
  let dayOfEra := (shifted - era * 146097).toNat
  let yearOfEra := (dayOfEra - dayOfEra / 1460 + dayOfEra / 36524 - dayOfEra / 146096) / 365
  let dayOfYear := dayOfEra - (365 * yearOfEra + yearOfEra / 4 - yearOfEra / 100)
  let fromMarch := (5 * dayOfYear + 2) / 153
  let month := if fromMarch < 10 then fromMarch + 3 else fromMarch - 9
  { year := yearOfEra + era * 400 + if month ≤ 2 then 1 else 0
    month
    day := dayOfYear - (153 * fromMarch + 2) / 5 + 1 }

/-- A number with at least this many digits. -/
def padded (width n : Nat) : String :=
  let digits := toString n
  String.ofList (List.replicate (width - digits.length) '0') ++ digits

/-- A year has four digits at least, and a sign if it is negative or has more. -/
def yearText (year : Int) : String :=
  if 0 ≤ year ∧ year ≤ 9999 then padded 4 year.toNat
  else (if year < 0 then "-" else "+") ++ padded 4 year.natAbs

def millisPerDay : Int := 86400000

/-- The first and the last millisecond of the calendar. -/
def earliest : Int := -8334601228800000
def latest : Int := 8210266876799999

def timestamp (ms : Int64) : String :=
  let t := ms.toInt
  if t < earliest ∨ latest < t then toString t ++ " ms"
  else
    let day := t.fdiv millisPerDay
    let rest := (t - day * millisPerDay).toNat
    let d := date day
    yearText d.year ++ "-" ++ padded 2 d.month ++ "-" ++ padded 2 d.day ++ " " ++
      padded 2 (rest / 3600000) ++ ":" ++ padded 2 (rest / 60000 % 60) ++ ":" ++
      padded 2 (rest / 1000 % 60) ++ "." ++ padded 3 (rest % 1000)

end EventRelay.Calendar
