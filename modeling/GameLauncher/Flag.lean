namespace GameLauncher

inductive Switch
  | ignoreGamePatch
  | logAppend
  | waitForDebugger
  | configClean
  | configGlobal
  | showFps
  | help
  deriving DecidableEq

inductive Parameter
  | game
  | patch
  | fullscreen
  | addGameFolder
  | setAddonFolder
  | overrideRoot
  | waitForPid
  deriving DecidableEq

inductive Flag
  | switch (s : Switch)
  | parameter (p : Parameter)
  deriving DecidableEq

inductive ValueKind
  | text
  | boolean
  | integer
  | folder
  deriving DecidableEq

namespace Switch

def spellings : Switch → List String
  | ignoreGamePatch => ["-i", "--ignore-game-patch"]
  | logAppend => ["--log-append"]
  | waitForDebugger => ["--wait-for-debugger"]
  | configClean => ["--config-clean"]
  | configGlobal => ["--config-global"]
  | showFps => ["--show-fps"]
  | help => ["-h", "--help"]

def description : Switch → String
  | ignoreGamePatch => "Disable automatic loading of game patch"
  | logAppend => "Append log output to file instead of overwriting it."
  | waitForDebugger => "Wait for debugger to attach"
  | configClean =>
    "Run the emulator with the default config values, ignores the config file(s) entirely."
  | configGlobal =>
    "Run the emulator with the base config file only, ignores game specific configs."
  | showFps => "Enable FPS counter display at startup"
  | help => "Display this help message"

end Switch

namespace Parameter

def spellings : Parameter → List String
  | game => ["-g", "--game"]
  | patch => ["-p", "--patch"]
  | fullscreen => ["-f", "--fullscreen"]
  | addGameFolder => ["--add-game-folder"]
  | setAddonFolder => ["--set-addon-folder"]
  | overrideRoot => ["--override-root"]
  | waitForPid => ["--wait-for-pid"]

def kind : Parameter → ValueKind
  | game | patch => .text
  | fullscreen => .boolean
  | waitForPid => .integer
  | addGameFolder | setAddonFolder | overrideRoot => .folder

def placeholder : Parameter → String
  | game => "<path|ID>"
  | patch => "<patch_file>"
  | fullscreen => "<true|false>"
  | addGameFolder | setAddonFolder | overrideRoot => "<folder>"
  | waitForPid => "<pid>"

def description : Parameter → String
  | game => "Specify game path to launch"
  | patch => "Apply specified patch file"
  | fullscreen => "Specify window initial fullscreen state. Does not overwrite the config file."
  | addGameFolder => "Adds a new game folder to the config."
  | setAddonFolder => "Sets the addon folder to the config."
  | overrideRoot => "Override the game root folder. Default is the parent of game path"
  | waitForPid => "Wait for process with specified PID to stop"

end Parameter

namespace Flag

def spellings : Flag → List String
  | switch s => s.spellings
  | parameter p => p.spellings

def description : Flag → String
  | switch s => s.description
  | parameter p => p.description

def all : List Flag :=
  [.parameter .game, .parameter .patch, .switch .ignoreGamePatch, .parameter .fullscreen,
    .parameter .addGameFolder, .parameter .setAddonFolder, .switch .logAppend,
    .parameter .overrideRoot, .switch .waitForDebugger, .parameter .waitForPid,
    .switch .configClean, .switch .configGlobal, .switch .showFps, .switch .help]

def ofSpelling? (token : String) : Option Flag := all.find? fun f ↦ f.spellings.contains token

theorem mem_all (f : Flag) : f ∈ all := by
  rcases f with s | p
  · cases s <;> decide
  · cases p <;> decide

theorem mem_spellings_of_ofSpelling? {token : String} {f : Flag} (h : ofSpelling? token = some f) :
    token ∈ f.spellings := by
  simpa using List.find?_some h

end Flag

end GameLauncher
