import GameLauncher.Decimal.Digits
import GameLauncher.Failure
import GameLauncher.Toml.Stack

namespace GameLauncher.Toml

open Decimal (padded)

namespace Date

def text (d : Date) : String := s!"{padded 4 d.year}-{padded 2 d.month}-{padded 2 d.day}"

def fields (d : Date) : List Nat := [d.year, d.month, d.day]

end Date

namespace Time

def text (t : Time) : String :=
  let clock := s!"{padded 2 t.hour}:{padded 2 t.minute}:{padded 2 t.second}"
  if t.microsecond = 0 then clock else s!"{clock}.{padded 6 t.microsecond}"

def fields (t : Time) : List Nat :=
  if t.microsecond ≠ 0 then [t.hour, t.minute, t.second, t.microsecond]
  else if t.second ≠ 0 then [t.hour, t.minute, t.second]
  else [t.hour, t.minute]

end Time

namespace Offset

def text (minutes : Int) : String :=
  let m := minutes.natAbs
  (if minutes < 0 then "-" else "+") ++ s!"{padded 2 (m / 60)}:{padded 2 (m % 60)}"

/-- A distance west of Greenwich is one day less and seconds forward from there. -/
def constructor (minutes : Int) : String :=
  if minutes = 0 then "datetime.timezone.utc"
  else if minutes < 0 then
    s!"datetime.timezone(datetime.timedelta(days=-1, seconds={86400 + minutes * 60}))"
  else s!"datetime.timezone(datetime.timedelta(seconds={minutes * 60}))"

end Offset

def call (name : String) (arguments : List String) : String :=
  name ++ "(" ++ ", ".intercalate arguments ++ ")"

def integerText (n : Int) : Except Failure String :=
  if Nat.pow 10 maxDigits ≤ n.natAbs then .error .longInteger else .ok (toString n)

namespace Value

mutual

def nested : Value → Except Failure String
  | text s => .ok (Text.quoted s)
  | integer n => integerText n
  | real x => .ok x.text
  | boolean b => .ok (if b then "True" else "False")
  | date d => .ok (call "datetime.date" (d.fields.map toString))
  | time t => .ok (call "datetime.time" (t.fields.map toString))
  | dateTime d t offset =>
    let zone := (offset.map fun m ↦ "tzinfo=" ++ Offset.constructor m).toList
    .ok (call "datetime.datetime" ((d.fields ++ t.fields).map toString ++ zone))
  | array items => (nestedItems items).map Text.bracketed
  | table members => (nestedMembers members).map fun ms ↦ "\x7b" ++ ", ".intercalate ms ++ "\x7d"

def nestedItems : List Value → Except Failure (List String)
  | [] => .ok []
  | v :: r => do return (← nested v) :: (← nestedItems r)

def nestedMembers : List (String × Value) → Except Failure (List String)
  | [] => .ok []
  | (key, v) :: r => do return (Text.quoted key ++ ": " ++ (← nested v)) :: (← nestedMembers r)

end

/-- The text of a value, unless the machine cannot follow it to its depths. -/
def shown (stack : Stack) (v : Value) : Except Failure String :=
  match stack.showOverflow? v with
  | some complaint => .error (.tooDeep complaint)
  | none => v.nested

def display (stack : Stack) : Value → Except Failure String
  | text s => .ok s
  | date d => .ok d.text
  | time t => .ok t.text
  | dateTime d t offset => .ok (s!"{d.text} {t.text}" ++ (offset.map Offset.text).getD "")
  | v => v.shown stack

end Value

end GameLauncher.Toml
