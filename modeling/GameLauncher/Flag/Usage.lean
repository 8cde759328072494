import GameLauncher.Flag

namespace GameLauncher

def programName : String := "emucli"

def separator : String := "--"

namespace Usage

structure Row where
  left : String
  text : String

def flagLeft (f : Flag) : String :=
  let spellings := ", ".intercalate f.spellings
  match f with
  | .switch _ => spellings
  | .parameter p => s!"{spellings} {p.placeholder}"

def flagRow (f : Flag) : Row := ⟨flagLeft f, f.description⟩

def separatorRow : Row :=
  ⟨s!"{separator} ...",
    "Parameters passed to the game ELF. Needs to be at the end of the line, and everything after \"--\" is a game argument."⟩

def rows : List Row :=
  (Flag.all.map flagRow).take 1 ++ separatorRow :: (Flag.all.map flagRow).drop 1

def padRight (width : Nat) (s : String) : String :=
  s ++ String.ofList (List.replicate (width - s.length) ' ')

def width : Nat := (rows.map fun r ↦ r.left.length).foldl max 0 + 2

def text : String :=
  "\n".intercalate <|
    s!"Usage: {programName} [options] <elf or eboot.bin path>" :: "Options:" ::
      rows.map fun r ↦ "  " ++ padRight width r.left ++ r.text

end Usage

end GameLauncher
