import GameLauncher.Decimal.Digits
import GameLauncher.FileSystem.Access

namespace GameLauncher.CommandLine

def readBoolean (flag value : String) : Except Failure Bool :=
  if value = "true" then .ok true
  else if value = "false" then .ok false
  else .error (.notTrueOrFalse flag)

def maxPid : Int := 0x7fffffff

def readPid (flag value : String) : Except Failure Int :=
  let (negative, ds) := Decimal.sign value.toList
  if ds.isEmpty || !ds.all Decimal.isDigit then .error (.badPid flag value)
  else if maxDigits < ds.length then .error (.longNumeral ds.length)
  else
    let n := Decimal.signed negative (Decimal.ofDigits 10 ds)
    if 1 ≤ n ∧ n ≤ maxPid then .ok n else .error (.badPid flag value)

def readFolder (fs : FileSystem) (value : String) : Except Failure Path :=
  match fs.isDirectory (Path.ofString value) with
  | .error f => .error f
  | .ok true => .ok (Path.ofString value)
  | .ok false => .error (.missingFolder value)

end GameLauncher.CommandLine
