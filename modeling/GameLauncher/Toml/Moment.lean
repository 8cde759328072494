import GameLauncher.Toml.Numeral

namespace GameLauncher.Toml.Moment

open Decimal

def fixed? : Nat → List Char → Option (Nat × List Char)
  | 0, cs => some (0, cs)
  | width + 1, c :: r =>
    if isDigit c then
      (fixed? width r).map fun (n, rest) ↦ (digitValue c * Nat.pow 10 width + n, rest)
    else none
  | _ + 1, [] => none

def within? (width low high : Nat) (cs : List Char) : Option (Nat × List Char) :=
  (fixed? width cs).filter fun (n, _) ↦ low ≤ n && n ≤ high

def expect? (c : Char) : List Char → Option (List Char)
  | d :: r => if d = c then some r else none
  | [] => none

def date? (cs : List Char) : Option (Date × List Char) := do
  let (year, cs) ← fixed? 4 cs
  let cs ← expect? '-' cs
  let (month, cs) ← within? 2 1 12 cs
  let cs ← expect? '-' cs
  let (day, cs) ← within? 2 1 31 cs
  return (⟨year, month, day⟩, cs)

def isLeap (year : Nat) : Bool := year % 4 = 0 && (year % 100 ≠ 0 || year % 400 = 0)

def daysIn (year month : Nat) : Nat :=
  if month = 2 then (if isLeap year then 29 else 28)
  else if month = 4 || month = 6 || month = 9 || month = 11 then 30
  else 31

def isInCalendar (d : Date) : Bool := 1 ≤ d.year && d.day ≤ daysIn d.year d.month

def microseconds (cs : List Char) : Nat × List Char :=
  match cs with
  | '.' :: r =>
    let ds := r.takeWhile isDigit
    if ds.isEmpty then (0, cs)
    else
      (ofDigits 10 (ds.take 6) * Nat.pow 10 (6 - ds.length), r.dropWhile isDigit)
  | _ => (0, cs)

def time? (cs : List Char) : Option (Time × List Char) := do
  let (hour, cs) ← within? 2 0 23 cs
  let cs ← expect? ':' cs
  let (minute, cs) ← within? 2 0 59 cs
  let cs ← expect? ':' cs
  let (second, cs) ← within? 2 0 59 cs
  let (microsecond, cs) := microseconds cs
  return (⟨hour, minute, second, microsecond⟩, cs)

def offset? : List Char → Option (Int × List Char)
  | c :: r =>
    if c = 'Z' || c = 'z' then some (0, r)
    else if c = '+' || c = '-' then do
      let (hours, r) ← within? 2 0 23 r
      let r ← expect? ':' r
      let (minutes, r) ← within? 2 0 59 r
      return (signed (c = '-') (hours * 60 + minutes), r)
    else none
  | [] => none

def timeOfDay? : List Char → Option (Time × List Char)
  | c :: r => if c = 'T' || c = 't' || c = ' ' then time? r else none
  | [] => none

/-- A date, a date with a time, or a time that begins here, if one does. -/
def scan? (cs : List Char) : Option (Scan Value) :=
  match date? cs with
  | some (d, r) => some <|
    match timeOfDay? r with
    | some (t, r) =>
      let (offset, r) := match offset? r with
        | some (m, r) => (some m, r)
        | none => (none, r)
      if isInCalendar d then .ok (.dateTime d t offset, r) else .error .malformed
    | none => if isInCalendar d then .ok (.date d, r) else .error .malformed
  | none => (time? cs).map fun (t, r) ↦ .ok (.time t, r)

end GameLauncher.Toml.Moment
