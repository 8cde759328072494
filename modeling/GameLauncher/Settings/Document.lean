import GameLauncher.Settings
import GameLauncher.Toml.Display
import GameLauncher.Toml.Writer

namespace GameLauncher.Settings

inductive Misfit
  | notATable (name : String)
  | notAnArray (key : String)
  | notAString (key : String)
  deriving DecidableEq

def Misfit.message : Misfit → String
  | notATable name => s!"[{name}] must be a table"
  | notAnArray key => s!"{key} must be an array"
  | notAString key => s!"{key} must be a string"

open Toml (Table Value)

def tableAt (t : Table) (name : String) : Except Misfit Table :=
  match t.get? name with
  | none => .ok []
  | some (.table members) => .ok members
  | some _ => .error (.notATable name)

def arrayAt (t : Table) (key : String) : Except Misfit (List Value) :=
  match t.get? key with
  | none => .ok []
  | some (.array items) => .ok items
  | some _ => .error (.notAnArray key)

def textAt (t : Table) (key : String) : Except Misfit String :=
  match t.get? key with
  | none => .ok ""
  | some (.text s) => .ok s
  | some _ => .error (.notAString key)

def flagAt (t : Table) (key : String) (default : Bool) : Bool :=
  ((t.get? key).map Value.isTrue).getD default

def pathOf (s : String) : Option Path := if s = "" then none else some (Path.ofString s)

/-- Pairs each path with the flag at the same place of the second array. Where that array holds no
flag the directory is on; what is no path is left out together with its place. -/
def installDirsOf : List Value → List Value → List InstallDir
  | [], _ => []
  | p :: ps, flags =>
    let enabled := match flags.head? with
      | some (.boolean b) => b
      | _ => true
    let rest := installDirsOf ps flags.tail
    match p with
    | .text s => match pathOf s with
      | some path => ⟨path, enabled⟩ :: rest
      | none => rest
    | _ => rest

structure Parts where
  general : Table
  installDirs : List InstallDir
  addonDir : Option Path
  coreExecutable : Option Path

def Parts.ofTable (t : Table) : Except Misfit Parts := do
  let general ← tableAt t "General"
  let gui ← tableAt t "GUI"
  let launcher ← tableAt t "Launcher"
  let paths ← arrayAt gui "installDirs"
  let flags ← arrayAt gui "installDirsEnabled"
  let addon ← textAt gui "addonInstallDir"
  let core ← textAt launcher "coreExecutable"
  return ⟨general, installDirsOf paths flags, pathOf addon, pathOf core⟩

def logLevelAt (stack : Toml.Stack) (t : Table) : Except Failure String :=
  match t.get? "logLevel" with
  | none => .ok ({} : Settings).logLevel
  | some v => v.display stack

def Parts.settings (stack : Toml.Stack) (p : Parts) : Except Failure Settings :=
  (logLevelAt stack p.general).map fun logLevel ↦
    { installDirs := p.installDirs
      addonDir := p.addonDir
      fullscreen := flagAt p.general "isFullscreen" ({} : Settings).fullscreen
      showFps := flagAt p.general "showFpsCounter" ({} : Settings).showFps
      coreExecutable := p.coreExecutable
      logLevel := logLevel }

def pathText (p : Option Path) : String := (p.map Path.text).getD ""

def sections (s : Settings) : List Toml.Writer.Section :=
  [⟨"General",
      [("isFullscreen", .boolean s.fullscreen),
        ("showFpsCounter", .boolean s.showFps),
        ("logLevel", .text s.logLevel)]⟩,
    ⟨"GUI",
      [("installDirs", .texts (s.installDirs.map fun d ↦ d.path.text)),
        ("installDirsEnabled", .booleans (s.installDirs.map InstallDir.enabled)),
        ("addonInstallDir", .text (pathText s.addonDir))]⟩,
    ⟨"Launcher", [("coreExecutable", .text (pathText s.coreExecutable))]⟩]

def render (s : Settings) : String := Toml.render s.sections

end GameLauncher.Settings
