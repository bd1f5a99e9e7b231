/-!
# Moments as text

A moment is counted in microseconds from the beginning of 1970.  Replies show it with the day of the
week, log lines with the fraction of a second.
-/

namespace ConstantReply

structure Moment where
  microseconds : Nat
  deriving DecidableEq, Repr

namespace Moment

/-- A day of the calendar. -/
structure Day where
  year : Nat
  month : Nat
  day : Nat
  deriving DecidableEq, Repr

/-!
## The calendar

Years are counted from the first of March, so that a leap day is the last day of its year, and days
from the first of March of the year zero.
-/

def daysBefore1970 : Nat := 719468

def daysPerCycle : Nat := 146097

def yearOfCycle (day : Nat) : Nat := (day - day / 1460 + day / 36524 - day / 146096) / 365

def dayAfter (days : Nat) : Day :=
  let z := days + daysBefore1970
  let inCycle := z % daysPerCycle
  let year := yearOfCycle inCycle
  let inYear := inCycle - (365 * year + year / 4 - year / 100)
  let shifted := (5 * inYear + 2) / 153
  let month := if shifted < 10 then shifted + 3 else shifted - 9
  { year := year + z / daysPerCycle * 400 + if month ≤ 2 then 1 else 0
    month := month
    day := inYear - (153 * shifted + 2) / 5 + 1 }

/-!
## Parts of a moment
-/

def seconds (m : Moment) : Nat := m.microseconds / 1000000

def days (m : Moment) : Nat := m.seconds / 86400

def day (m : Moment) : Day := dayAfter m.days

def dayNames : List String := ["Thu", "Fri", "Sat", "Sun", "Mon", "Tue", "Wed"]

def dayName (m : Moment) : String := (dayNames[m.days % 7]?).getD ""

def monthNames : List String :=
  ["Jan", "Feb", "Mar", "Apr", "May", "Jun", "Jul", "Aug", "Sep", "Oct", "Nov", "Dec"]

def monthName (m : Moment) : String := (monthNames[m.day.month - 1]?).getD ""

/-!
## Texts
-/

def padded (width n : Nat) : String :=
  let digits := Nat.toDigits 10 n
  String.ofList (List.replicate (width - digits.length) '0' ++ digits)

def clock (m : Moment) : String :=
  let s := m.seconds % 86400
  padded 2 (s / 3600) ++ ":" ++ padded 2 (s / 60 % 60) ++ ":" ++ padded 2 (s % 60)

def httpDate (m : Moment) : String :=
  m.dayName ++ ", " ++ padded 2 m.day.day ++ " " ++ m.monthName ++ " " ++ padded 4 m.day.year ++
    " " ++ m.clock ++ " GMT"

def logTime (m : Moment) : String :=
  padded 4 m.day.year ++ "-" ++ padded 2 m.day.month ++ "-" ++ padded 2 m.day.day ++ "T" ++
    m.clock ++ "." ++ padded 6 (m.microseconds % 1000000) ++ "Z"

end Moment
end ConstantReply
