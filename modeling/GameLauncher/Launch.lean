import GameLauncher.Library.Resolution

namespace GameLauncher

inductive CoreOutcome
  | exits (code : Int)
  | cannotStart (reason : String)
  | detaches
  deriving DecidableEq

structure Seconds where
  digits : Int
  places : Nat
  deriving DecidableEq

inductive Event
  | poll (pid : Int)
  | sleep (time : Seconds)
  | spawn (argv : List String) (workingDir : String) (env : Environment)
  deriving DecidableEq

structure LaunchResult where
  ok : Bool
  message : String
  code : Int
  deriving DecidableEq

structure LaunchReport (ε : Type) where
  events : List ε
  records : List Record
  result : Except Failure LaunchResult

namespace Launch

def info (text : String) : Record := ⟨.info, .launch, text⟩

def maxGameArgs : Nat := 32

def passedArguments (args : List String) : List String := args.take maxGameArgs

def argumentRecords (args : List String) : List Record :=
  ((passedArguments args).mapIdx fun i a ↦ info s!"Game argument {i}: {a}") ++
    if maxGameArgs < args.length then
      [⟨.error, .launch, s!"Too many game arguments, only passing the first {maxGameArgs}"⟩]
    else []

def pollInterval : Seconds := ⟨1, 1⟩

/-- Polls a process until it is gone, and sleeps after each poll that finds it alive. When the
answers run out it is gone. -/
def waitEvents (pid : Int) (interval : Seconds) : List Bool → List Event
  | true :: answers => .poll pid :: .sleep interval :: waitEvents pid interval answers
  | _ => [.poll pid]

def waitRecords (pid : Int) : List Record :=
  [info s!"Waiting for process {pid} to stop", info s!"Process {pid} stopped"]

def flagText (on : Bool) : String := if on then "1" else "0"

def environment (game : Game) (invocation : Invocation) (session : Session) (base : Environment) :
    Environment :=
  let always : Environment :=
    [("EMUCLI_GAME_FOLDER", game.folder.text),
      ("EMUCLI_FULLSCREEN", flagText session.effectiveFullscreen),
      ("EMUCLI_SHOW_FPS", flagText session.effectiveShowFps),
      ("EMUCLI_IGNORE_GAME_PATCH", flagText session.ignoreGamePatches),
      ("EMUCLI_WAIT_FOR_DEBUGGER", flagText invocation.waitForDebugger),
      ("EMUCLI_CONFIG_MODE", session.configMode.name)]
  let sometimes : Environment :=
    ((session.patchFile.filter (· ≠ "")).map fun s ↦ ("EMUCLI_PATCH_FILE", s)).toList ++
      (session.settings.addonDir.map fun p ↦ ("EMUCLI_ADDON_DIR", p.text)).toList ++
      (game.splash.map fun s ↦ ("EMUCLI_SPLASH", s.path.text)).toList
  (always ++ sometimes).foldl (fun env v ↦ env.put v.1 v.2) base

def CoreOutcome.result : CoreOutcome → LaunchResult
  | .exits code => ⟨code = 0, s!"Core exited with code {code}.", code⟩
  | .cannotStart reason => ⟨false, reason, 1⟩
  | .detaches => ⟨true, "Launched.", 0⟩

/-- What the surroundings of a launch answer: the inherited variables, whether a polled process is
alive, and what becomes of the core. -/
structure Surroundings where
  env : Environment
  alive : List Bool := []
  core : CoreOutcome := .exits 0

def refuse (message : String) : LaunchReport Event := ⟨[], [], .ok ⟨false, message, 1⟩⟩

def noCoreMessage : String :=
  "No emulator core configured (set [Launcher] coreExecutable in config.toml)."

def start (sur : Surroundings) (core : Path) (game : Game) (invocation : Invocation)
    (session : Session) : LaunchReport Event :=
  let argv := core.text :: game.executable.text :: passedArguments invocation.gameArgs
  let env := environment game invocation session sur.env
  { events :=
      (invocation.waitPid.elim [] fun pid ↦ waitEvents pid pollInterval sur.alive) ++
        [.spawn argv game.folder.text env]
    records :=
      invocation.waitPid.elim [] waitRecords ++ argumentRecords invocation.gameArgs ++
        [info s!"Starting core: {Text.bracketed (argv.map Text.quoted)}"]
    result := .ok (CoreOutcome.result sur.core) }

def run (sur : Surroundings) (fs : FileSystem) (game : Game) (invocation : Invocation)
    (session : Session) : LaunchReport Event :=
  match session.settings.coreExecutable with
  | none => refuse noCoreMessage
  | some core => match fs.isFile core with
    | .error f => ⟨[], [], .error f⟩
    | .ok false => refuse s!"Emulator core not found: {core.text}"
    | .ok true => start sur core game invocation session

end Launch

end GameLauncher
