import GameLauncher.CommandLine.Invocation
import GameLauncher.Library.Search
import GameLauncher.Library.Splash

namespace GameLauncher

inductive GameSource
  | directPath
  | idLookup
  deriving DecidableEq

def GameSource.name : GameSource → String
  | directPath => "direct_path"
  | idLookup => "id_lookup"

structure Game where
  executable : Path
  folder : Path
  source : GameSource
  raw : String
  splash : Option Splash := none
  deriving DecidableEq

namespace Library

def info (text : String) : Record := ⟨.info, .scanning, text⟩

def findInDirs (fs : FileSystem) (raw : String) (maxDepth : Int) : List Path → Traced (Option Path)
  | [] => .ofExcept (.ok none)
  | dir :: dirs => match find fs dir raw maxDepth with
    | .error f => .fail f
    | .ok none => findInDirs fs raw maxDepth dirs
    | .ok (some p) => ⟨[info s!"Found game {raw} in {dir.text}"], .ok (some p)⟩

def resolvePath (fs : FileSystem) (raw : String) (dirs : List Path) (maxDepth : Int) :
    Traced (Option Path) :=
  match fs.exists? (Path.ofString raw) with
  | .error f => .fail f
  | .ok true => .ofExcept (.ok (some (Path.ofString raw)))
  | .ok false => findInDirs fs raw maxDepth dirs

def addOnSuffixes : List String := ["-UPDATE", "-patch"]

def dropSuffix? (suffix cs : List Char) : Option (List Char) :=
  if suffix.isSuffixOf cs then some (cs.take (cs.length - suffix.length)) else none

/-- The name of the base game that an update or patch folder belongs to, possibly empty. -/
def baseName? (name : String) : Option String :=
  (addOnSuffixes.findSome? fun s ↦ dropSuffix? s.toList name.toList).map String.ofList

/-- The folder that a game is started in: the one that was asked for, or the executable's. In place
of an update's or a patch's folder its base game's is taken when it is there. -/
def resolveFolder (fs : FileSystem) (executable : Path) (override : Option Path) :
    Except Failure Path :=
  match override with
  | some p => .ok p
  | none =>
    let folder := executable.parent
    match baseName? folder.name with
    | none => .ok folder
    | some base =>
      if base = "" then .ok folder
      else match Name.of? base with
        | none => .error (.invalidName base)
        | some n => (fs.isDirectory (folder.withName n)).map fun isDir ↦
          if isDir then folder.withName n else folder

def narrow (fs : FileSystem) (p : Path) : Except Failure Path :=
  match fs.isDirectory p with
  | .error f => .error f
  | .ok false => .ok p
  | .ok true => (fs.isFile (executableIn p)).map fun isFile ↦ if isFile then executableIn p else p

def locate (fs : FileSystem) (raw : String) (dirs : List Path) : Traced (Path × GameSource) := do
  let isPath ← Traced.ofExcept (fs.exists? (Path.ofString raw))
  match ← resolvePath fs raw dirs maxDepth with
  | none => .fail (.gameNotFound raw)
  | some p =>
    if ← Traced.ofExcept (fs.exists? p) then
      return (p, if isPath then .directPath else .idLookup)
    else .fail (.gameNotFound raw)

def resolve (fs : FileSystem) (invocation : Invocation) (session : Session) : Traced Game :=
  let raw := invocation.gamePath.getD ""
  if raw = "" then .fail (.gameNotFound raw)
  else do
    let (found, source) ← locate fs raw session.settings.searchedDirs
    let executable ← Traced.ofExcept (narrow fs found)
    let folder ← Traced.ofExcept (resolveFolder fs executable invocation.folderOverride)
    Traced.record (info s!"Game executable: {executable.text} ({source.name})")
    Traced.record (info s!"Game folder: {folder.text}")
    let splash ← Splash.probe fs folder
    return { executable, folder, source, raw, splash }

end Library

end GameLauncher
