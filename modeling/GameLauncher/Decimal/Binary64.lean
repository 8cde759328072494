namespace GameLauncher

/-- A binary floating-point number of 64 bits. A finite one is its mantissa times a power of two:
the mantissa lies below `2 ^ 53`, and below `2 ^ 52` only at the least exponent. -/
inductive Binary64
  | finite (negative : Bool) (mantissa : Nat) (exponent : Int)
  | infinite (negative : Bool)
  | notANumber
  deriving DecidableEq

namespace Binary64

def mantissaBits : Nat := 53

def minExponent : Int := -1074

def maxExponent : Int := 971

def divRoundEven (n d : Nat) : Nat :=
  let q := n / d
  let r := n % d
  if d < 2 * r || (2 * r = d && q % 2 = 1) then q + 1 else q

def scale (base n d : Nat) (e : Int) : Nat × Nat :=
  if 0 ≤ e then (n * Nat.pow base e.toNat, d) else (n, d * Nat.pow base (-e).toNat)

def exponentOf (n d : Nat) : Int :=
  let guess : Int := (n.log2 : Int) - d.log2 - mantissaBits
  let (n', d') := scale 2 n d (-guess)
  max minExponent (if n' < d' * Nat.pow 2 mantissaBits then guess else guess + 1)

def ofQuotient (negative : Bool) (n d : Nat) : Binary64 :=
  let e := exponentOf n d
  let (n', d') := scale 2 n d (-e)
  let m := divRoundEven n' d'
  let (m, e) := if m = Nat.pow 2 mantissaBits then (Nat.pow 2 (mantissaBits - 1), e + 1) else (m, e)
  if maxExponent < e then .infinite negative else .finite negative m e

def ofDecimal (negative : Bool) (digits : Nat) (exponent : Int) : Binary64 :=
  if digits = 0 then .finite negative 0 minExponent
  else
    let length : Int := (Nat.toDigits 10 digits).length
    if 400 < length + exponent then .infinite negative
    else if length + exponent < -400 then .finite negative 0 minExponent
    else
      let (n, d) := scale 10 digits 1 exponent
      ofQuotient negative n d

def decimalExponent (n d : Nat) : Int :=
  let guess : Int := (Nat.toDigits 10 n).length - (Nat.toDigits 10 d).length
  let (n', d') := scale 10 n d (-guess)
  if d' ≤ n' then guess else guess - 1

/-- The integers next to `n / d` on the grid of `10 ^ e`, the nearer one first and of two equally
near the even one. -/
def neighbours (n d : Nat) (e : Int) : List Nat :=
  let (n', d') := scale 10 n d (-e)
  let low := n' / d'
  if divRoundEven n' d' = low then [low, low + 1] else [low + 1, low]

/-- The shortest decimal that reads back as the given number, as digits and an exponent of ten:
the first length at which one of the two neighbours does. -/
def shortest (mantissa : Nat) (exponent : Int) : Nat × Int :=
  let (n, d) := scale 2 mantissa 1 exponent
  let top := decimalExponent n d
  let candidates := (List.range 17).flatMap fun (k : Nat) ↦
    let e := top - k
    (neighbours n d e).map fun digits ↦ (digits, e)
  let readsBack (c : Nat × Int) := ofDecimal false c.1 c.2 = .finite false mantissa exponent
  (candidates.find? fun c ↦ readsBack c).getD (0, 0)

def zeros (n : Nat) : List Char := List.replicate n '0'

def exponentText (e : Int) : List Char :=
  let digits := Nat.toDigits 10 e.natAbs
  (if e < 0 then '-' else '+') :: zeros (2 - digits.length) ++ digits

def layOut (digits : List Char) (e : Int) : List Char :=
  if e < -4 || 16 ≤ e then
    match digits with
    | [] => []
    | [c] => c :: 'e' :: exponentText e
    | c :: rest => c :: '.' :: rest ++ 'e' :: exponentText e
  else if e < 0 then '0' :: '.' :: zeros (-e - 1).toNat ++ digits
  else
    let whole := e.toNat + 1
    let fraction := digits.drop whole
    digits.take whole ++ zeros (whole - digits.length) ++ '.' ::
      (if fraction.isEmpty then ['0'] else fraction)

def finiteText (mantissa : Nat) (exponent : Int) : List Char :=
  if mantissa = 0 then ['0', '.', '0']
  else
    let (digits, e) := shortest mantissa exponent
    let cs := Nat.toDigits 10 digits
    let kept := (cs.reverse.dropWhile (· = '0')).reverse
    layOut kept (e + cs.length - 1)

def text : Binary64 → String
  | finite negative m e => String.ofList ((if negative then ['-'] else []) ++ finiteText m e)
  | infinite negative => if negative then "-inf" else "inf"
  | notANumber => "nan"

def isZero : Binary64 → Bool
  | finite _ m _ => m = 0
  | _ => false

end Binary64

end GameLauncher
