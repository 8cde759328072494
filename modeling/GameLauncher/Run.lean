import GameLauncher.CommandLine.Interpreter
import GameLauncher.Launch
import GameLauncher.Logging
import GameLauncher.Text.Console

namespace GameLauncher

/-- What a run has left behind so far. -/
structure Desk where
  files : FileSystem
  logging : Logging
  stdout : String := ""
  stderr : String := ""

/-- What a clock shows at each moment of a run, a moment being what the run has left behind by then. -/
abbrev Clock := Desk → String

/-- How a run ended: with an exit code or with a failure that nothing deals with. -/
structure Outcome (ε : Type) where
  exit : Except Failure Int
  events : List ε
  desk : Desk

abbrev Launcher (ε : Type) := FileSystem → Game → Invocation → Session → LaunchReport ε

def Failure.isExpected : Failure → Bool
  | noArguments | missingArgument _ | notTrueOrFalse _ | badPid .. | missingFolder _
  | gameNotFound _ => true
  | _ => false

namespace Desk

def print (d : Desk) (text : String) : Desk :=
  { d with stdout := d.stdout ++ Text.Console.printed text }

def complain (d : Desk) (text : String) : Desk :=
  { d with stderr := d.stderr ++ Text.Console.printed text }

def error (d : Desk) (message : String) : Desk := d.complain s!"Error: {message}"

def warn (d : Desk) (w : Warning) : Desk := d.complain s!"Warning: {w.message}"

def log (d : Desk) (clock : Clock) (r : Record) : Desk :=
  let (files, logging, text) := d.logging.emit (clock d) d.files r
  { d with files, logging, stderr := d.stderr ++ text }

def logAll (d : Desk) (clock : Clock) (rs : List Record) : Desk :=
  rs.foldl (fun d r ↦ d.log clock r) d

def exit {ε : Type} (d : Desk) (code : Int) : Outcome ε := ⟨.ok code, [], d⟩

def abort {ε : Type} (d : Desk) (f : Failure) : Outcome ε := ⟨.error f, [], d⟩

end Desk

namespace Run

def noArgumentInfo : String :=
  s!"This is a CLI application. Pass a game path or ID, or run '{programName} --help' for the list of options."

def noGameInfo : String := "Please provide a game path or ID."

def noFolderInfo : String :=
  s!"Warning: No game folder set. Please set it using:\n  {programName} --add-game-folder <folder_name>"

def record (level : Level) (text : String) : Record := ⟨level, .cli, text⟩

def openingRecords (file : Path) (append : Bool) (warnings : List Warning) : List Record :=
  let appended := if append then "True" else "False"
  record .info s!"Logging to {file.text} (append={appended})" ::
    warnings.map fun w ↦ record .warning w.message

def launch {ε : Type} (launcher : Launcher ε) (clock : Clock) (desk : Desk) (game : Game)
    (invocation : Invocation) (session : Session) : Outcome ε :=
  let report := launcher desk.files game invocation session
  let desk := desk.logAll clock report.records
  match report.result with
  | .error f => ⟨.error f, report.events, desk⟩
  | .ok r =>
    if r.ok then ⟨.ok r.code, report.events, desk.log clock (record .info r.message)⟩
    else
      let desk := (desk.log clock (record .error r.message)).error r.message
      ⟨.ok (if r.code = 0 then 1 else r.code), report.events, desk⟩

def play {ε : Type} (launcher : Launcher ε) (clock : Clock) (desk : Desk)
    (invocation : Invocation) (session : Session) : Outcome ε :=
  if invocation.gamePath.isNone then (desk.error noGameInfo).exit 1
  else
    let desk := if session.settings.searchedDirs.isEmpty then desk.complain noFolderInfo else desk
    let found := Library.resolve desk.files invocation session
    let desk := desk.logAll clock found.records
    match found.result with
    | .ok game => launch launcher clock desk game invocation session
    | .error f =>
      if f.isExpected then
        ((desk.log clock (record .error f.message)).error f.message).exit 1
      else desk.abort f

def proceed {ε : Type} (launcher : Launcher ε) (clock : Clock) (desk : Desk)
    (invocation : Invocation) (session : Session) (warnings : List Warning) : Outcome ε :=
  let (files, made) := UserDirectory.ensure desk.files session.userDir
  let desk := { desk with files }.logAll clock made.records
  match made.result with
  | .error f => desk.abort f
  | .ok () =>
    let (files, logging, opened) := desk.logging.setUp desk.files
      (session.userDir.child UserDirectory.logName) session.logAppend session.settings.logLevel
    let desk := { desk with files, logging }
    match opened with
    | .error f => desk.abort f
    | .ok file =>
      let desk := desk.logAll clock (openingRecords file session.logAppend warnings)
      play launcher clock desk invocation session

def finish {ε : Type} (desk : Desk) : Ending → Outcome ε
  | .completed c => (desk.print c.message).exit 0
  | .failed .noArguments => ((desk.complain noArgumentInfo).print Usage.text).exit 1
  | .failed f => if f.isExpected then (desk.error f.message).exit 1 else desk.abort f

def withSession {ε : Type} (launcher : Launcher ε) (clock : Clock) (desk : Desk)
    (session : Session) (tokens : List String) : Outcome ε :=
  let (progress, ending) := readCommandLine session desk.files tokens
  let desk := { desk with files := progress.files }.logAll clock progress.records
  let desk := progress.warnings.foldl Desk.warn desk
  match ending with
  | some e => finish desk e
  | none => proceed launcher clock desk progress.invocation progress.session progress.warnings

end Run

/-- One run of the program: `userDir` is the user directory unless the environment has to tell it. -/
def run {ε : Type} (launcher : Launcher ε) (clock : Clock) (env : Environment)
    (userDir : Option Path) (files : FileSystem) (logging : Logging) (tokens : List String) :
    Outcome ε :=
  let desk : Desk := { files, logging }
  match userDir.elim (UserDirectory.default env) .ok with
  | .error f => desk.abort f
  | .ok dir =>
    let started := Session.start files dir
    let desk := desk.logAll clock started.records
    match started.result with
    | .error f => desk.abort f
    | .ok session => Run.withSession launcher clock desk session tokens

end GameLauncher
