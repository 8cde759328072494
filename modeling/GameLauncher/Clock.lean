import GameLauncher.Decimal.Digits

namespace GameLauncher.Clock

open Decimal (padded)

def daysInCycle : Nat := 146097

/-- Year, month and day of the day with a number, where the first of March of the year zero has the
number zero. Years are counted from March on, so that a leap day ends its year. -/
def dateOfDay (day : Nat) : Nat × Nat × Nat :=
  let d := day % daysInCycle
  let yearInCycle := (d - d / 1460 + d / 36524 - d / 146096) / 365
  let dayInYear := d - (365 * yearInCycle + yearInCycle / 4 - yearInCycle / 100)
  let month := (5 * dayInYear + 2) / 153
  let year := day / daysInCycle * 400 + yearInCycle
  let dayInMonth := dayInYear - (153 * month + 2) / 5 + 1
  if month < 10 then (year, month + 3, dayInMonth) else (year + 1, month - 9, dayInMonth)

def epochDay : Nat := 719468

/-- The time that a log line begins with, from the milliseconds since the start of 1970. -/
def text (milliseconds : Nat) : String :=
  let seconds := milliseconds / 1000
  let (year, month, day) := dateOfDay (epochDay + seconds / 86400)
  let minutes := seconds / 60
  s!"{padded 4 year}-{padded 2 month}-{padded 2 day} {padded 2 (minutes / 60 % 24)}:{padded 2 (minutes % 60)}:{padded 2 (seconds % 60)},{padded 3 (milliseconds % 1000)}"

end GameLauncher.Clock
