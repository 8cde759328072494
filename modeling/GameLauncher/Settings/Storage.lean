import GameLauncher.FileSystem.Access
import GameLauncher.Record
import GameLauncher.Settings.Document
import GameLauncher.Toml.Reader

namespace GameLauncher.Settings

def warn (text : String) : Traced Settings :=
  ⟨[⟨.warning, .settings, text⟩], .ok {}⟩

def ofText (stack : Toml.Stack) (p : Path) (text : String) : Traced Settings :=
  match Toml.parse stack text with
  | .error (.longNumeral digits) => .fail (.longNumeral digits)
  | .error (.tooDeep complaint) => .fail (.tooDeep complaint)
  | .error .malformed => warn s!"Could not read {p.text}, using defaults: invalid TOML"
  | .ok t => match Parts.ofTable t with
    | .error m => warn s!"Invalid settings in {p.text}, using defaults: {m.message}"
    | .ok parts => .ofExcept (parts.settings stack)

def load (fs : FileSystem) (p : Path) : Traced Settings :=
  match fs.exists? p with
  | .error f => .fail f
  | .ok false => .ofExcept (.ok {})
  | .ok true => match fs.read p with
    | .error (.system e path) =>
      warn s!"Could not read {p.text}, using defaults: {e.message path}"
    | .error f => .fail f
    | .ok bytes => match Text.decodeUtf8 bytes with
      | .error fault => .fail (.notUtf8 fault)
      | .ok text => ofText fs.host.stack p text

def save (fs : FileSystem) (p : Path) (s : Settings) : FileSystem × Traced Unit :=
  match fs.makeDirectories p.parent with
  | (fs, .error f) => (fs, .fail f)
  | (fs, .ok ()) => match fs.write p (Text.encodeUtf8 s.render) with
    | .error f => (fs, .fail f)
    | .ok fs => (fs, .record ⟨.info, .settings, s!"Saved settings to {p.text}"⟩)

end GameLauncher.Settings
