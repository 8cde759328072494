import GameLauncher.Flag.Usage
import GameLauncher.Session

namespace GameLauncher

structure Invocation where
  gamePath : Option String := none
  gameArgs : List String := []
  folderOverride : Option Path := none
  waitForDebugger : Bool := false
  waitPid : Option Int := none
  deriving DecidableEq

inductive Warning
  | emptySeparator
  | unknown (token : String)
  deriving DecidableEq

def Warning.message : Warning → String
  | emptySeparator => s!"{separator} is set, but no game arguments are added!"
  | unknown token => s!"Unknown argument: {token}, see --help for info."

inductive Completion
  | help
  | gameFolderSaved
  | addonFolderSaved
  deriving DecidableEq

def Completion.message : Completion → String
  | help => Usage.text
  | gameFolderSaved => "Game folder successfully saved."
  | addonFolderSaved => "Addon folder successfully saved."

inductive Ending
  | completed (c : Completion)
  | failed (f : Failure)
  deriving DecidableEq

end GameLauncher
