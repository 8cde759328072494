import GameLauncher.Toml.Str

namespace GameLauncher.Toml

abbrev Key := List String

namespace Key

def isBare (c : Char) : Bool :=
  ('a' ≤ c && c ≤ 'z') || ('A' ≤ c && c ≤ 'Z') || ('0' ≤ c && c ≤ '9') || c = '-' || c = '_'

def part : List Char → Scan String
  | '\x27' :: r => (Str.literal r).map fun (s, rest) ↦ (String.ofList s, rest)
  | '\x22' :: r => (Str.basic r).map fun (s, rest) ↦ (String.ofList s, rest)
  | cs =>
    if (cs.takeWhile isBare).isEmpty then .error .malformed
    else .ok (String.ofList (cs.takeWhile isBare), cs.dropWhile isBare)

/-- A key and the blanks behind it. Each part takes at least one character, so a text holds no more
parts than characters. -/
def scanParts : Nat → List Char → Scan Key
  | 0, _ => .error .malformed
  | fuel + 1, cs => match part cs with
    | .error f => .error f
    | .ok (p, rest) => match skipBlanks rest with
      | '.' :: r => (scanParts fuel (skipBlanks r)).map fun (ps, rest) ↦ (p :: ps, rest)
      | r => .ok ([p], r)

def scan (cs : List Char) : Scan Key := scanParts (cs.length + 1) cs

end Key

end GameLauncher.Toml
