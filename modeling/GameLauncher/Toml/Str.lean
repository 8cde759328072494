import GameLauncher.Toml.Scan

namespace GameLauncher.Toml.Str

def shortEscape : Char → Option Char
  | 'b' => some '\x08'
  | 't' => some '\t'
  | 'n' => some '\n'
  | 'f' => some '\x0c'
  | 'r' => some '\r'
  | '\x22' => some '\x22'
  | '\\' => some '\\'
  | _ => none

def hexValue (c : Char) : Option Nat :=
  if '0' ≤ c ∧ c ≤ '9' then some (c.toNat - 48)
  else if 'a' ≤ c ∧ c ≤ 'f' then some (c.toNat - 87)
  else if 'A' ≤ c ∧ c ≤ 'F' then some (c.toNat - 55)
  else none

def ofHex (digits : List Char) : Option Char :=
  match digits.mapM hexValue with
  | none => none
  | some ds =>
    let n := ds.foldl (fun a d ↦ a * 16 + d) 0
    if n.isValidChar then some (Char.ofNat n) else none

def basic : List Char → Scan (List Char)
  | [] => .error .malformed
  | '\x22' :: r => .ok ([], r)
  | '\\' :: 'u' :: a :: b :: c :: d :: r => match ofHex [a, b, c, d] with
    | some x => (basic r).cons x
    | none => .error .malformed
  | '\\' :: 'U' :: a :: b :: c :: d :: e :: f :: g :: h :: r =>
    match ofHex [a, b, c, d, e, f, g, h] with
    | some x => (basic r).cons x
    | none => .error .malformed
  | '\\' :: e :: r => match shortEscape e with
    | some x => (basic r).cons x
    | none => .error .malformed
  | c :: r => if isForbidden c then .error .malformed else (basic r).cons c

/-- How a backslash before the end of a line swallows blanks: up to the line's end, and from there
to the next character that is none. -/
inductive Trim
  | off
  | beforeNewline
  | afterNewline
  deriving DecidableEq

/-- A text in three double quotation marks, from behind the first line's end to behind the first
three marks. -/
def block : Trim → List Char → Scan (List Char)
  | _, [] => .error .malformed
  | .beforeNewline, c :: r =>
    if isBlank c then block .beforeNewline r
    else if c = '\n' then block .afterNewline r
    else .error .malformed
  | _, '\x22' :: '\x22' :: '\x22' :: r => .ok ([], r)
  | _, '\\' :: 'u' :: a :: b :: c :: d :: r => match ofHex [a, b, c, d] with
    | some x => (block .off r).cons x
    | none => .error .malformed
  | _, '\\' :: 'U' :: a :: b :: c :: d :: e :: f :: g :: h :: r =>
    match ofHex [a, b, c, d, e, f, g, h] with
    | some x => (block .off r).cons x
    | none => .error .malformed
  | _, '\\' :: e :: r =>
    if isBlank e then block .beforeNewline r
    else if e = '\n' then block .afterNewline r
    else match shortEscape e with
      | some x => (block .off r).cons x
      | none => .error .malformed
  | trim, c :: r =>
    if trim = .afterNewline && (isBlank c || c = '\n') then block .afterNewline r
    else if isForbidden c && c ≠ '\n' then .error .malformed
    else (block .off r).cons c

def literal (cs : List Char) : Scan (List Char) :=
  let body := cs.takeWhile (· ≠ '\x27')
  match cs.dropWhile (· ≠ '\x27') with
  | [] => .error .malformed
  | _ :: rest => if body.any isForbidden then .error .malformed else .ok (body, rest)

def literalBlock : List Char → Scan (List Char)
  | [] => .error .malformed
  | '\x27' :: '\x27' :: '\x27' :: r => .ok ([], r)
  | c :: r => if isForbidden c && c ≠ '\n' then .error .malformed else (literalBlock r).cons c

def withExtraMarks (mark : Char) : Scan (List Char) → Scan (List Char)
  | .error f => .error f
  | .ok (cs, a :: b :: rest) =>
    if a ≠ mark then .ok (cs, a :: b :: rest)
    else if b ≠ mark then .ok (cs ++ [mark], b :: rest)
    else .ok (cs ++ [mark, mark], rest)
  | .ok (cs, [a]) => if a = mark then .ok (cs ++ [mark], []) else .ok (cs, [a])
  | .ok (cs, []) => .ok (cs, [])

def dropNewline : List Char → List Char
  | '\n' :: r => r
  | cs => cs

def scan? : List Char → Option (Scan (List Char))
  | '\x22' :: '\x22' :: '\x22' :: r => some (withExtraMarks '\x22' (block .off (dropNewline r)))
  | '\x22' :: r => some (basic r)
  | '\x27' :: '\x27' :: '\x27' :: r => some (withExtraMarks '\x27' (literalBlock (dropNewline r)))
  | '\x27' :: r => some (literal r)
  | _ => none

end GameLauncher.Toml.Str
