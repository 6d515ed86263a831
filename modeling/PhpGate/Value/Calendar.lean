import PhpGate.Text.Basic

/-!
Dates and times of day in the Gregorian calendar, from year 1 to 9999, their order, and how they are
written.
-/

namespace PhpGate

/-- A number in at least so many digits. -/
def Text.padded (width n : Nat) : Text :=
  let digits := Text.ofNat n
  List.replicate (width - digits.length) '0' ++ digits

structure Date where
  year : Nat
  month : Nat
  day : Nat
  deriving Repr, DecidableEq

namespace Date

def isLeap (year : Nat) : Bool :=
  year % 4 == 0 && (year % 100 != 0 || year % 400 == 0)

def monthLengths (year : Nat) : List Nat :=
  [31, if isLeap year then 29 else 28, 31, 30, 31, 30, 31, 31, 30, 31, 30, 31]

def of? (year month day : Nat) : Option Date :=
  if 1 ≤ year ∧ year ≤ 9999 ∧ 1 ≤ month ∧ 1 ≤ day
      ∧ day ≤ (monthLengths year).getD (month - 1) 0 then
    some ⟨year, month, day⟩
  else none

/-- The number of days since the first of January of year 1. -/
def ordinal (d : Date) : Nat :=
  let y := d.year - 1
  let monthDays := ((monthLengths d.year).take (d.month - 1)).foldl (· + ·) 0
  365 * y + y / 4 - y / 100 + y / 400 + monthDays + (d.day - 1)

/-- The month and the day in it, given how many days of the year have passed. -/
def monthAndDay : (days : Nat) → List Nat → Nat × Nat
  | days, length :: rest =>
      if days < length then (1, days + 1)
      else
        let (month, day) := monthAndDay (days - length) rest
        (month + 1, day)
  | days, [] => (1, days + 1)

/-- The date that comes so many days after the first of January of year 1. Years come in cycles of
400, 100, 4 and 1, of which the last may be a day longer than the others. -/
def ofOrdinal (n : Nat) : Date :=
  let ages := n / 146097
  let n := n % 146097
  let centuries := min 3 (n / 36524)
  let n := n - 36524 * centuries
  let cycles := n / 1461
  let n := n % 1461
  let years := min 3 (n / 365)
  let year := 400 * ages + 100 * centuries + 4 * cycles + years + 1
  let (month, day) := monthAndDay (n - 365 * years) (monthLengths year)
  ⟨year, month, day⟩

end Date

/-- A date with a time of day, and minutes east of Greenwich if a zone is known. -/
structure Moment where
  date : Date
  hour : Nat
  minute : Nat
  second : Nat
  microsecond : Nat
  zone : Option Int
  deriving Repr, DecidableEq

namespace Moment

/-- A zone is less than a day away from Greenwich. -/
def of? (date : Date) (hour minute second microsecond : Nat) (zone : Option Int) : Option Moment :=
  if hour < 24 ∧ minute < 60 ∧ second < 60 ∧ zone.all fun z => z.natAbs < 1440 then
    some ⟨date, hour, minute, second, microsecond, zone⟩
  else none

/-- Microseconds since the first of January of year 1 at Greenwich. -/
def position (m : Moment) : Int :=
  let minutes : Int := m.date.ordinal * 1440 + m.hour * 60 + m.minute
  ((minutes - m.zone.getD 0) * 60 + m.second) * 1000000 + m.microsecond

/-- The first of January 1970. -/
def epoch : Date :=
  ⟨1970, 1, 1⟩

/-- The moment so many seconds after the epoch, at Greenwich. -/
def ofSeconds (n : Nat) : Moment :=
  let time := n % 86400
  ⟨Date.ofOrdinal (epoch.ordinal + n / 86400), time / 3600, time / 60 % 60, time % 60, 0, some 0⟩

/-- Date and time in seconds, at Greenwich. -/
def stamp (m : Moment) : Text :=
  Text.padded 4 m.date.year ++ ['-'] ++ Text.padded 2 m.date.month ++ ['-']
    ++ Text.padded 2 m.date.day ++ ['T'] ++ Text.padded 2 m.hour ++ [':']
    ++ Text.padded 2 m.minute ++ [':'] ++ Text.padded 2 m.second ++ ['Z']

end Moment
end PhpGate
