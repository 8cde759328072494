import GameLauncher.Settings.Storage
import GameLauncher.UserDirectory

namespace GameLauncher

inductive ConfigMode
  | default
  | clean
  | global
  deriving DecidableEq

def ConfigMode.name : ConfigMode → String
  | default => "default"
  | clean => "clean"
  | global => "global"

/-- All that the flags of one run can change. Only the settings are ever saved. -/
structure Session where
  settings : Settings
  settingsFile : Path
  userDir : Path
  patchFile : Option String := none
  ignoreGamePatches : Bool := false
  fullscreen : Option Bool := none
  logAppend : Bool := false
  configMode : ConfigMode := .default
  showFps : Bool := false
  deriving DecidableEq

namespace Session

def start (fs : FileSystem) (userDir : Path) : Traced Session :=
  let file := userDir.child UserDirectory.configName
  do
    let settings ← Settings.load fs file
    return { settings := settings, settingsFile := file, userDir := userDir }

def addInstallDir (s : Session) (p : Path) : Session :=
  { s with settings := s.settings.addInstallDir p }

def setAddonDir (s : Session) (p : Path) : Session :=
  { s with settings := { s.settings with addonDir := some p } }

def baseSettings (s : Session) : Settings :=
  match s.configMode with
  | .clean => {}
  | _ => s.settings

def effectiveFullscreen (s : Session) : Bool := s.fullscreen.getD s.baseSettings.fullscreen

def effectiveShowFps (s : Session) : Bool := s.showFps || s.baseSettings.showFps

def save (s : Session) (fs : FileSystem) : FileSystem × Traced Unit :=
  Settings.save fs s.settingsFile s.settings

end Session

end GameLauncher
