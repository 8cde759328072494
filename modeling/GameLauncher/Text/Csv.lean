namespace GameLauncher.Text

def isLineEnd (c : Char) : Bool :=
  ['\n', '\r', '\x0b', '\x0c', '\x1c', '\x1d', '\x1e', '\u0085', '\u2028', '\u2029'].contains c

def splitLinesFrom (line : List Char) : List Char → List (List Char)
  | [] => if line.isEmpty then [] else [line.reverse]
  | '\r' :: '\n' :: r => line.reverse :: splitLinesFrom [] r
  | c :: r => if isLineEnd c then line.reverse :: splitLinesFrom [] r else splitLinesFrom (c :: line) r

def splitLines (cs : List Char) : List (List Char) := splitLinesFrom [] cs

namespace Csv

/-- Where a reader of comma-separated fields stands: at the start of a record or of a field, in a
field, in a field with quotation marks, or behind a mark in such a field. -/
inductive State
  | startRecord
  | startField
  | inField
  | inQuoted
  | afterMark
  deriving DecidableEq

structure Reader where
  state : State := .startRecord
  field : List Char := []
  fields : List String := []

namespace Reader

def add (r : Reader) (c : Char) (s : State) : Reader := { r with field := c :: r.field, state := s }

def close (r : Reader) (s : State) : Reader :=
  { state := s, field := [], fields := String.ofList r.field.reverse :: r.fields }

/-- A mark opens a quoted field only at its start. Inside one, two marks stand for one, and what
follows a single mark is taken as it is. -/
def step (r : Reader) (c : Char) : Reader :=
  match r.state with
  | .startRecord | .startField =>
    if c = '\x22' then { r with state := .inQuoted }
    else if c = ',' then r.close .startField
    else r.add c .inField
  | .inField => if c = ',' then r.close .startField else r.add c .inField
  | .inQuoted => if c = '\x22' then { r with state := .afterMark } else r.add c .inQuoted
  | .afterMark =>
    if c = '\x22' then r.add c .inQuoted
    else if c = ',' then r.close .startField
    else r.add c .inField

def record (r : Reader) : List String := r.fields.reverse

end Reader

def recordsFrom (r : Reader) : List (List Char) → List (List String)
  | [] => if r.state = .inQuoted then [(r.close .startRecord).record] else []
  | line :: rest =>
    let r := line.foldl Reader.step r
    match r.state with
    | .inQuoted => recordsFrom r rest
    | .startRecord => [] :: recordsFrom {} rest
    | _ => (r.close .startRecord).record :: recordsFrom {} rest

def records (text : String) : List (List String) := recordsFrom {} (splitLines text.toList)

end Csv

end GameLauncher.Text
