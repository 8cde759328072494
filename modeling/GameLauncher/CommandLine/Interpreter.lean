import GameLauncher.CommandLine.Invocation
import GameLauncher.CommandLine.Segment
import GameLauncher.CommandLine.Value

namespace GameLauncher

structure Progress where
  session : Session
  files : FileSystem
  invocation : Invocation := {}
  warnings : List Warning := []
  records : List Record := []

namespace Progress

def warn (s : Progress) (w : Warning) : Progress := { s with warnings := s.warnings ++ [w] }

def proceed (s : Progress) : Progress × Option Ending := (s, none)

def stop (s : Progress) (e : Ending) : Progress × Option Ending := (s, some e)

def withValue {α : Type} (s : Progress) (v : Except Failure α)
    (k : α → Progress × Option Ending) : Progress × Option Ending :=
  match v with
  | .error f => s.stop (.failed f)
  | .ok a => k a

def persist (s : Progress) (session : Session) (c : Completion) : Progress × Option Ending :=
  let (files, saved) := session.save s.files
  let s := { s with session := session, files := files, records := s.records ++ saved.records }
  s.withValue saved.result fun () ↦ s.stop (.completed c)

def applySwitch (s : Progress) : Switch → Progress × Option Ending
  | .ignoreGamePatch => { s with session := { s.session with ignoreGamePatches := true } }.proceed
  | .logAppend => { s with session := { s.session with logAppend := true } }.proceed
  | .waitForDebugger => { s with invocation := { s.invocation with waitForDebugger := true } }.proceed
  | .configClean => { s with session := { s.session with configMode := .clean } }.proceed
  | .configGlobal => { s with session := { s.session with configMode := .global } }.proceed
  | .showFps => { s with session := { s.session with showFps := true } }.proceed
  | .help => s.stop (.completed .help)

def applyParameter (s : Progress) (p : Parameter) (spelling value : String) :
    Progress × Option Ending :=
  match p with
  | .game => { s with invocation := { s.invocation with gamePath := some value } }.proceed
  | .patch => { s with session := { s.session with patchFile := some value } }.proceed
  | .fullscreen => s.withValue (CommandLine.readBoolean spelling value) fun on ↦
      { s with session := { s.session with fullscreen := some on } }.proceed
  | .addGameFolder => s.withValue (CommandLine.readFolder s.files value) fun dir ↦
      s.persist (s.session.addInstallDir dir) .gameFolderSaved
  | .setAddonFolder => s.withValue (CommandLine.readFolder s.files value) fun dir ↦
      s.persist (s.session.setAddonDir dir) .addonFolderSaved
  | .overrideRoot => s.withValue (CommandLine.readFolder s.files value) fun dir ↦
      { s with invocation := { s.invocation with folderOverride := some dir } }.proceed
  | .waitForPid => s.withValue (CommandLine.readPid spelling value) fun pid ↦
      { s with invocation := { s.invocation with waitPid := some pid } }.proceed

def namesGame (token : String) : Bool := token ≠ "" && token.toList.head? ≠ some '-'

def step (s : Progress) : Segment → Progress × Option Ending
  | .separator rest =>
    let s := if rest.isEmpty then s.warn .emptySeparator else s
    { s with invocation := { s.invocation with gameArgs := s.invocation.gameArgs ++ rest } }.proceed
  | .switch f _ => s.applySwitch f
  | .valued p spelling value => s.applyParameter p spelling value
  | .cut _ spelling => s.stop (.failed (.missingArgument spelling))
  | .unknown token =>
    if s.invocation.gamePath.isNone && namesGame token then
      { s with invocation := { s.invocation with gamePath := some token } }.proceed
    else (s.warn (.unknown token)).proceed

def run (s : Progress) : List Segment → Progress × Option Ending
  | [] => s.proceed
  | seg :: rest => match s.step seg with
    | (s, none) => run s rest
    | (s, some e) => s.stop e

end Progress

/-- Reads a command line, its first token being the program's name, within a session. -/
def readCommandLine (session : Session) (files : FileSystem) (tokens : List String) :
    Progress × Option Ending :=
  let start : Progress := { session := session, files := files }
  if tokens.length ≤ 1 then start.stop (.failed .noArguments)
  else start.run (Segment.ofTokens tokens.tail)

/-- Reads one command line after another and keeps all their warnings. -/
structure Interpreter where
  warnings : List Warning := []

def Interpreter.read (i : Interpreter) (session : Session) (files : FileSystem)
    (tokens : List String) : Interpreter × Progress × Option Ending :=
  let result := readCommandLine session files tokens
  (⟨i.warnings ++ result.1.warnings⟩, result)

end GameLauncher
