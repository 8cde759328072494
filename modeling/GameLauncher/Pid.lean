import GameLauncher.Text.Csv

namespace GameLauncher.Pid

def listCommand (pid : Int) : List String :=
  ["tasklist", "/FI", s!"PID eq {pid}", "/FO", "CSV", "/NH"]

def isListed (pid : Int) (listing : String) : Bool :=
  (Text.Csv.records listing).any fun row ↦ row[1]? = some (toString pid)

/-- What the attempt to send a process no signal at all comes to. -/
inductive SignalAnswer
  | delivered
  | noSuchProcess
  | notPermitted
  | failed

/-- A process that may not be signalled is alive too. Other errors say nothing. -/
def isAlive : SignalAnswer → Option Bool
  | .delivered | .notPermitted => some true
  | .noSuchProcess => some false
  | .failed => none

end GameLauncher.Pid
