import GameLauncher.Text.Quoted
import GameLauncher.Toml.Value

namespace GameLauncher.Toml.Writer

inductive Entry
  | text (s : String)
  | boolean (b : Bool)
  | texts (ss : List String)
  | booleans (bs : List Bool)
  deriving DecidableEq

structure Section where
  name : String
  entries : List (String × Entry)

def Entry.value : Entry → Value
  | text s => .text s
  | boolean b => .boolean b
  | texts ss => .array (ss.map .text)
  | booleans bs => .array (bs.map .boolean)

def escape (c : Char) : List Char :=
  if c = '\x08' then ['\\', 'b']
  else if c = '\n' then ['\\', 'n']
  else if c = '\x0c' then ['\\', 'f']
  else if c = '\r' then ['\\', 'r']
  else if c = '\x22' then ['\\', '\x22']
  else if c = '\\' then ['\\', '\\']
  else if (c.toNat < 0x20 && c ≠ '\t') || c.toNat = 0x7f then
    '\\' :: 'u' :: Text.hexDigits 4 c.toNat
  else [c]

def textLiteral (s : String) : List Char := '\x22' :: s.toList.flatMap escape ++ ['\x22']

def booleanLiteral (b : Bool) : List Char := (if b then "true" else "false").toList

def arrayLiteral (literals : List (List Char)) : List Char :=
  if literals.isEmpty then ['[', ']']
  else '[' :: '\n' :: literals.flatMap (fun l ↦ "    ".toList ++ l ++ [',', '\n']) ++ [']']

def Entry.literal : Entry → List Char
  | text s => textLiteral s
  | boolean b => booleanLiteral b
  | texts ss => arrayLiteral (ss.map textLiteral)
  | booleans bs => arrayLiteral (bs.map booleanLiteral)

def entryLine (key : String) (e : Entry) : List Char :=
  key.toList ++ " = ".toList ++ e.literal ++ ['\n']

def sectionLines (s : Section) : List Char :=
  '[' :: s.name.toList ++ [']', '\n'] ++ s.entries.flatMap fun (key, e) ↦ entryLine key e

def lines : List Section → List Char
  | [] => []
  | [s] => sectionLines s
  | s :: t :: r => sectionLines s ++ '\n' :: lines (t :: r)

end Writer

/-- The text of a document of tables with simple entries, under keys that need no quotation marks. -/
def render (sections : List Writer.Section) : String := String.ofList (Writer.lines sections)

end GameLauncher.Toml
