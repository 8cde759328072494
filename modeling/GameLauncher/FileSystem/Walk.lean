import GameLauncher.FileSystem
import GameLauncher.FileSystem.Errno

namespace GameLauncher

/-- One move of a walk through the tree. Neither `stay` nor `slash` leaves its place; they differ in
whether a dot is written there or nothing. -/
inductive Move
  | stay
  | slash
  | up
  | enter (n : Name)
  deriving DecidableEq

namespace Move

def ofName (n : Name) : Move := if n = Name.up then .up else .enter n

def ofPiece (p : List Char) : Move :=
  if p.isEmpty then .slash else ((Name.of? (String.ofList p)).map ofName).getD .stay

def ofTarget (target : String) : List Move := (Path.pieces target.toList).map ofPiece

def areSlashes (ms : List Move) : Bool := !ms.isEmpty && ms.all (· = .slash)

end Move

inductive Stop
  | reached (l : Location) (node : Node)
  | missing (dir : Location) (n : Name)
  | detour (dir : Location) (target : String) (rest : List Move)
  | refused (e : Errno)

inductive Place
  | occupied (l : Location) (node : Node)
  | free (dir : Location) (n : Name)

/-- What a walk is for: to find what the path leads to, to find what stands there even if it is a
link, or to find a file that is made where it is missing. -/
inductive Aim
  | follow
  | keep
  | create
  deriving DecidableEq

namespace FileSystem

/-- Walks until a link has to be followed. Every move starts from a directory. No file is made under a
name that is said to be a directory's. -/
def glide (fs : FileSystem) (aim : Aim) (l : Location) : List Move → Stop
  | [] => match fs.get? l with
    | some node => .reached l node
    | none => .refused .notFound
  | m :: rest => match fs.get? l with
    | none => .refused .notFound
    | some (.file _) => .refused .notADirectory
    | some (.link _) => .refused .notADirectory
    | some .directory => match m with
      | .stay | .slash => glide fs aim l rest
      | .up => glide fs aim l.tail rest
      | .enter n =>
        if aim = .create && Move.areSlashes rest then .refused .isADirectory
        else if n.isTooLong then .refused .nameTooLong
        else match fs.get? (n :: l) with
          | none => if rest.isEmpty then .missing l n else .refused .notFound
          | some (.link target) =>
            if rest.isEmpty && aim = .keep then .reached (n :: l) (.link target)
            else .detour l target rest
          | some (.file _) => glide fs aim (n :: l) rest
          | some .directory => glide fs aim (n :: l) rest

def walkFrom (fs : FileSystem) (aim : Aim) (links : Nat) (l : Location) (ms : List Move) :
    Except Errno Place :=
  match fs.glide aim l ms with
  | .reached k node => .ok (.occupied k node)
  | .missing dir n => .ok (.free dir n)
  | .refused e => .error e
  | .detour dir target rest => match links with
    | 0 => .error .tooManyLinks
    | links + 1 =>
      let start := match Path.anchorOf target.toList with
        | .here => dir
        | _ => []
      walkFrom fs aim links start (Move.ofTarget target ++ rest)

def maxLinks : Nat := 40

def startOf (fs : FileSystem) (p : Path) : Location :=
  match p.anchor with
  | .here => fs.workingDir
  | _ => []

def walk (fs : FileSystem) (aim : Aim) (p : Path) : Except Errno Place :=
  if p.isTooLong then .error .nameTooLong
  else fs.walkFrom aim maxLinks (fs.startOf p) (p.parts.map Move.ofName)

end FileSystem

end GameLauncher
