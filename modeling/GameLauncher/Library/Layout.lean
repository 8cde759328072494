import GameLauncher.FileSystem.Access

namespace GameLauncher.Library

def executableName : Name := ⟨"eboot.bin", by decide⟩

def systemDirName : Name := ⟨"sce_sys", by decide⟩

def parametersName : Name := ⟨"param.sfo", by decide⟩

def splashName : Name := ⟨"pic1.png", by decide⟩

def parametersIn (dir : Path) : Path := (dir.child systemDirName).child parametersName

def executableIn (dir : Path) : Path := dir.child executableName

def splashIn (dir : Path) : Path := (dir.child systemDirName).child splashName

def isGameDir (fs : FileSystem) (dir : Path) (id : String) : Except Failure Bool :=
  if dir.name ≠ id then .ok false
  else match fs.isFile (parametersIn dir) with
    | .error f => .error f
    | .ok false => .ok false
    | .ok true => fs.isFile (executableIn dir)

end GameLauncher.Library
