import GameLauncher.Toml.Value

namespace GameLauncher.Toml

/-- Why a text is not read as a document: it breaks the grammar, holds an integer of too many digits, or
nests values deeper than the machine can follow. -/
inductive Fault
  | malformed
  | longNumeral (digits : Nat)
  | tooDeep (complaint : String)
  deriving DecidableEq

/-- What reading a piece from the front of a text gives: the piece and the text behind it. -/
abbrev Scan (α : Type) := Except Fault (α × List Char)

def Scan.cons (c : Char) : Scan (List Char) → Scan (List Char)
  | .ok (cs, rest) => .ok (c :: cs, rest)
  | .error f => .error f

def isBlank (c : Char) : Bool := c = ' ' || c = '\t'

def skipBlanks (cs : List Char) : List Char := cs.dropWhile isBlank

def isForbidden (c : Char) : Bool := (c.toNat < 0x20 && c ≠ '\t') || c.toNat = 0x7f

def skipComment : List Char → Except Fault (List Char)
  | '#' :: r =>
    if (r.takeWhile (· ≠ '\n')).any isForbidden then .error .malformed
    else .ok (r.dropWhile (· ≠ '\n'))
  | cs => .ok cs

def after? : List Char → List Char → Option (List Char)
  | [], cs => some cs
  | p :: ps, c :: cs => if p = c then after? ps cs else none
  | _ :: _, [] => none

end GameLauncher.Toml
