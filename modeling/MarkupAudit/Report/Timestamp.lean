import MarkupAudit.Text.Numeral

/-! Times as they stand in reports. -/

namespace MarkupAudit

/-- A time of day on a date, with the minutes that local time is ahead of universal time if they are
known. -/
structure Timestamp where
  year : Nat
  month : Nat
  day : Nat
  hour : Nat
  minute : Nat
  second : Nat
  microsecond : Nat := 0
  ahead : Option Int := some 0
deriving Repr, DecidableEq

namespace Timestamp

/-- The difference to universal time in hours and minutes. -/
def writeAhead : Option Int → String
  | none => ""
  | some minutes =>
    (if minutes < 0 then "-" else "+") ++ Text.decimal 2 (minutes.natAbs / 60) ++ ":" ++
      Text.decimal 2 (minutes.natAbs % 60)

/-- Date and time of day with the letter T between; fractions of a second only if there are any. -/
def write (t : Timestamp) : String :=
  Text.decimal 4 t.year ++ "-" ++ Text.decimal 2 t.month ++ "-" ++ Text.decimal 2 t.day ++ "T" ++
    Text.decimal 2 t.hour ++ ":" ++ Text.decimal 2 t.minute ++ ":" ++ Text.decimal 2 t.second ++
    (if t.microsecond = 0 then "" else "." ++ Text.decimal 6 t.microsecond) ++ writeAhead t.ahead

/-- Year, month and day that are a number of days after the first of January 1970. Years are counted
from March, so that a leap day ends its year, in cycles of 400 years. -/
def dateOf (days : Nat) : Nat × Nat × Nat :=
  let z := days + 719468
  let ofCycle := z % 146097
  let year := (ofCycle - ofCycle / 1460 + ofCycle / 36524 - ofCycle / 146096) / 365
  let ofYear := ofCycle - (365 * year + year / 4 - year / 100)
  let month := (5 * ofYear + 2) / 153
  let day := ofYear - (153 * month + 2) / 5 + 1
  let fromMarch := year + 400 * (z / 146097)
  if month < 10 then (fromMarch, month + 3, day) else (fromMarch + 1, month - 9, day)

/-- The universal time that is a number of microseconds after the start of 1970. -/
def ofMicroseconds (n : Nat) : Timestamp :=
  let seconds := n / 1000000
  let (year, month, day) := dateOf (seconds / 86400)
  let ofDay := seconds % 86400
  { year, month, day, hour := ofDay / 3600, minute := ofDay / 60 % 60, second := ofDay % 60
    microsecond := n % 1000000 }

end Timestamp

end MarkupAudit
