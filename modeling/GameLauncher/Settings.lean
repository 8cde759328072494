import GameLauncher.Path

namespace GameLauncher

structure InstallDir where
  path : Path
  enabled : Bool := true
  deriving DecidableEq

structure Settings where
  installDirs : List InstallDir := []
  addonDir : Option Path := none
  fullscreen : Bool := false
  showFps : Bool := false
  coreExecutable : Option Path := none
  logLevel : String := "INFO"
  deriving DecidableEq

namespace Settings

def searchedDirs (s : Settings) : List Path :=
  (s.installDirs.filter InstallDir.enabled).map InstallDir.path

def hasInstallDir (s : Settings) (p : Path) : Bool := s.installDirs.any fun d ↦ d.path = p

/-- A directory that is listed already stays as it is. -/
def addInstallDir (s : Settings) (p : Path) : Settings :=
  if s.hasInstallDir p then s else { s with installDirs := s.installDirs ++ [{ path := p }] }

end Settings

end GameLauncher
