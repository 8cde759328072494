import GameLauncher.Text.CellWidth

namespace GameLauncher.Text.Console

def isDropped (c : Char) : Bool := ['\x07', '\x08', '\x0b', '\x0c', '\x0d'].contains c

def tabWidth : Nat := 8

def expandTabs (column : Nat) : List Char → List Char
  | [] => []
  | c :: r =>
    if c = '\n' then c :: expandTabs 0 r
    else if c = '\t' then
      let next := (column + 1 + (tabWidth - 1)) / tabWidth * tabWidth
      List.replicate (next - column) ' ' ++ expandTabs next r
    else c :: expandTabs (column + cellWidth c) r

def printed (s : String) : String :=
  String.ofList (expandTabs 0 (s.toList.filter fun c ↦ !isDropped c)) ++ "\n"

end GameLauncher.Text.Console
