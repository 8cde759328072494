import GameLauncher.Environment
import GameLauncher.FileSystem.Access
import GameLauncher.Record

namespace GameLauncher.UserDirectory

def configName : Name := ⟨"config.toml", by decide⟩

def logName : Name := ⟨"log", by decide⟩

def dotConfig : Name := ⟨".config", by decide⟩

def programDir : Name := ⟨"emucli", by decide⟩

def default (env : Environment) : Except Failure Path :=
  match env.get? "EMUCLI_USER_DIR" with
  | some s => if s = "" then inHome else .ok (Path.ofString s)
  | none => inHome
where
  inHome := env.home.map fun home ↦ (home.child dotConfig).child programDir

/-- Makes a directory unless something stands there already, and tells whether that went well.
`purpose` names the directory in the record of a failure. -/
def ensureDirectory (fs : FileSystem) (p : Path) (purpose : String) : FileSystem × Traced Bool :=
  match fs.exists? p with
  | .error f => (fs, .fail f)
  | .ok true => (fs, .ofExcept (.ok true))
  | .ok false => match fs.makeDirectories p with
    | (fs, .ok ()) => (fs, .ofExcept (.ok true))
    | (fs, .error (.system e path)) =>
      let what := if purpose = "" then "directory" else s!"{purpose} directory"
      let text := s!"Failed to create {what}: {p.text} ({e.message path})"
      (fs, ⟨[⟨.error, .utils, text⟩], .ok false⟩)
    | (fs, .error f) => (fs, .fail f)

def ensure (fs : FileSystem) (p : Path) : FileSystem × Traced Unit :=
  match ensureDirectory fs p "user" with
  | (fs, ⟨records, .ok true⟩) => (fs, ⟨records, .ok ()⟩)
  | (fs, ⟨records, .ok false⟩) => (fs, ⟨records, .error (.noUserDirectory p)⟩)
  | (fs, ⟨records, .error f⟩) => (fs, ⟨records, .error f⟩)

end GameLauncher.UserDirectory
