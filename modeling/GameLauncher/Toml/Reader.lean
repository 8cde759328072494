import GameLauncher.Toml.Document
import GameLauncher.Toml.Moment
import GameLauncher.Toml.Stack

namespace GameLauncher.Toml.Reader

/-- Passes over blanks, line ends and comments between the members of an array. The flag tells
whether a comment is running. -/
def skipFiller : Bool → List Char → Except Fault (List Char)
  | _, [] => .ok []
  | true, c :: r =>
    if c = '\n' then skipFiller false r
    else if isForbidden c then .error .malformed
    else skipFiller true r
  | false, c :: r =>
    if isBlank c || c = '\n' then skipFiller false r
    else if c = '#' then skipFiller true r
    else .ok (c :: r)

def word? (words : List (String × Value)) (cs : List Char) : Option (Value × List Char) :=
  words.findSome? fun (w, v) ↦ (after? w.toList cs).map fun rest ↦ (v, rest)

def booleans : List (String × Value) := [("true", .boolean true), ("false", .boolean false)]

def specialReals : List (String × Value) :=
  [("inf", .real (.infinite false)), ("+inf", .real (.infinite false)),
    ("-inf", .real (.infinite true)), ("nan", .real .notANumber), ("+nan", .real .notANumber),
    ("-nan", .real .notANumber)]

def scalar (cs : List Char) : Scan Value :=
  match word? booleans cs with
  | some r => .ok r
  | none => match Moment.scan? cs with
    | some r => r
    | none => match Numeral.scan? cs with
      | some r => r
      | none => match word? specialReals cs with
        | some r => .ok r
        | none => .error .malformed

mutual

/-- A value that begins inside the given brackets, innermost first. -/
def value (stack : Stack) : Nat → List Bracket → List Char → Scan Value
  | 0, _, _ => .error .malformed
  | fuel + 1, within, cs => match stack.readOverflow? within cs with
    | some complaint => .error (.tooDeep complaint)
    | none => match Str.scan? cs with
      | some (.ok (s, rest)) => .ok (.text (String.ofList s), rest)
      | some (.error f) => .error f
      | none => match cs with
        | '[' :: r => match skipFiller false r with
          | .error f => .error f
          | .ok (']' :: r) => .ok (.array [], r)
          | .ok r => (items stack fuel (.square :: within) r).map fun (vs, rest) ↦ (.array vs, rest)
        | '\x7b' :: r => match skipBlanks r with
          | '\x7d' :: r => .ok (.table [], r)
          | r => (members stack fuel (.curly :: within) [] [] r).map fun (t, rest) ↦ (.table t, rest)
        | _ => scalar cs

def items (stack : Stack) : Nat → List Bracket → List Char → Scan (List Value)
  | 0, _, _ => .error .malformed
  | fuel + 1, within, cs => match value stack fuel within cs with
    | .error f => .error f
    | .ok (v, r) => match skipFiller false r with
      | .error f => .error f
      | .ok (']' :: r) => .ok ([v], r)
      | .ok (',' :: r) => match skipFiller false r with
        | .error f => .error f
        | .ok (']' :: r) => .ok ([v], r)
        | .ok r => (items stack fuel within r).map fun (vs, rest) ↦ (v :: vs, rest)
      | .ok _ => .error .malformed

/-- The members of an inline table, at least one, up to the closing brace. No comma may stand before
it, and what is written inline is closed. -/
def members (stack : Stack) : Nat → List Bracket → Table → List Key → List Char → Scan Table
  | 0, _, _, _, _ => .error .malformed
  | fuel + 1, within, t, closed, cs => match Key.scan cs with
    | .error f => .error f
    | .ok (key, '=' :: r) => match value stack fuel within (skipBlanks r) with
      | .error f => .error f
      | .ok (v, r) =>
        if closed.any fun k ↦ k.isPrefixOf key then .error .malformed
        else match t.add false key v with
          | none => .error .malformed
          | some t => match skipBlanks r with
            | '\x7d' :: r => .ok (t, r)
            | ',' :: r =>
              members stack fuel within t (if Draft.isContainer v then key :: closed else closed)
                (skipBlanks r)
            | _ => .error .malformed
    | .ok _ => .error .malformed

end

/-- A value takes at most two rounds for each of its characters. -/
def scanValue (stack : Stack) (cs : List Char) : Scan Value :=
  value stack (2 * cs.length + 2) [] cs

def tableHeader (d : Draft) (cs : List Char) : Scan Draft :=
  match Key.scan (skipBlanks cs) with
  | .error f => .error f
  | .ok (key, r) => match d.open? key, r with
    | some d, ']' :: r => .ok (d, r)
    | _, _ => .error .malformed

def arrayHeader (d : Draft) (cs : List Char) : Scan Draft :=
  match Key.scan (skipBlanks cs) with
  | .error f => .error f
  | .ok (key, r) => match d.append? key, r with
    | some d, ']' :: ']' :: r => .ok (d, r)
    | _, _ => .error .malformed

def assignment (stack : Stack) (d : Draft) (cs : List Char) : Scan Draft :=
  match Key.scan cs with
  | .error f => .error f
  | .ok (key, '=' :: r) => match scanValue stack (skipBlanks r) with
    | .error f => .error f
    | .ok (v, r) => match d.assign? key v with
      | some d => .ok (d, r)
      | none => .error .malformed
  | .ok _ => .error .malformed

def statement (stack : Stack) (d : Draft) : List Char → Scan Draft
  | [] => .ok (d, [])
  | '[' :: '[' :: r => arrayHeader d.settle r
  | '[' :: r => tableHeader d.settle r
  | c :: r =>
    if c = '#' || c = '\n' then .ok (d, c :: r)
    else if Key.isBare c || c = '\x22' || c = '\x27' then assignment stack d (c :: r)
    else .error .malformed

/-- Reads statements up to the end. Each takes a line, so there are no more of them than characters. -/
def statements (stack : Stack) : Nat → Draft → List Char → Except Fault Draft
  | 0, _, _ => .error .malformed
  | fuel + 1, d, cs => match statement stack d (skipBlanks cs) with
    | .error f => .error f
    | .ok (d, r) => match skipComment (skipBlanks r) with
      | .error f => .error f
      | .ok [] => .ok d
      | .ok ('\n' :: r) => statements stack fuel d r
      | .ok _ => .error .malformed

def unixLines : List Char → List Char
  | '\r' :: '\n' :: r => '\n' :: unixLines r
  | c :: r => c :: unixLines r
  | [] => []

end Reader

def parse (stack : Stack) (text : String) : Except Fault Table :=
  let cs := Reader.unixLines text.toList
  (Reader.statements stack (cs.length + 1) {} cs).map Draft.table

end GameLauncher.Toml
