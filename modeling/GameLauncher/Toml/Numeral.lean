import GameLauncher.Decimal.Digits
import GameLauncher.Failure
import GameLauncher.Toml.Scan

namespace GameLauncher.Toml.Numeral

open Decimal

def isOctal (c : Char) : Bool := '0' ≤ c && c ≤ '7'

def isBinary (c : Char) : Bool := c = '0' || c = '1'

def isHex (c : Char) : Bool := isDigit c || ('a' ≤ c && c ≤ 'f') || ('A' ≤ c && c ≤ 'F')

def moreDigits (p : Char → Bool) : List Char → List Char × List Char
  | [] => ([], [])
  | '_' :: c :: r =>
    if p c then (c :: (moreDigits p r).1, (moreDigits p r).2) else ([], '_' :: c :: r)
  | c :: r => if p c then (c :: (moreDigits p r).1, (moreDigits p r).2) else ([], c :: r)

def digits? (p : Char → Bool) : List Char → Option (List Char × List Char)
  | c :: r => if p c then some (c :: (moreDigits p r).1, (moreDigits p r).2) else none
  | [] => none

def radix? : List Char → Option (Nat × List Char)
  | '0' :: 'x' :: r => (digits? isHex r).map fun (ds, rest) ↦ (ofDigits 16 ds, rest)
  | '0' :: 'o' :: r => (digits? isOctal r).map fun (ds, rest) ↦ (ofDigits 8 ds, rest)
  | '0' :: 'b' :: r => (digits? isBinary r).map fun (ds, rest) ↦ (ofDigits 2 ds, rest)
  | _ => none

def whole? : List Char → Option (List Char × List Char)
  | '0' :: r => some (['0'], r)
  | cs => digits? isDigit cs

def fraction? : List Char → Option (List Char × List Char)
  | '.' :: r => digits? isDigit r
  | _ => none

def exponent? : List Char → Option (Int × List Char)
  | c :: r =>
    if c = 'e' || c = 'E' then
      let (negative, r) := sign r
      (digits? isDigit r).map fun (ds, rest) ↦ (signed negative (ofDigits 10 ds), rest)
    else none
  | [] => none

def ofWhole (negative : Bool) (ds : List Char) : Except Fault Value :=
  if maxDigits < ds.length then .error (.longNumeral ds.length)
  else .ok (.integer (signed negative (ofDigits 10 ds)))

/-- A number that begins here, if one does: an integer to some base, or with a fraction or an
exponent a binary number. -/
def scan? (cs : List Char) : Option (Scan Value) :=
  match radix? cs with
  | some (n, rest) => some (.ok (.integer n, rest))
  | none =>
    let (negative, r) := sign cs
    (whole? r).map fun (ds, r) ↦
      match fraction? r, exponent? ((fraction? r).elim r Prod.snd) with
      | none, none => (ofWhole negative ds).map fun v ↦ (v, r)
      | fraction, exponent =>
        let (fs, r) := fraction.getD ([], r)
        let (e, r) := exponent.getD (0, r)
        .ok (.real (.ofDecimal negative (ofDigits 10 (ds ++ fs)) (e - fs.length)), r)

end GameLauncher.Toml.Numeral
