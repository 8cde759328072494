import GameLauncher.Failure
import GameLauncher.FileSystem.Walk

namespace GameLauncher.FileSystem

/-- The node a path leads to, with links followed. A walk that finds no way answers nothing; a name
or a path too long to exist is an error. -/
def status (fs : FileSystem) (p : Path) : Except Failure (Option Node) :=
  if p.hasNull then .ok none
  else match fs.walk .follow p with
    | .ok (.occupied _ node) => .ok (some node)
    | .ok (.free _ _) => .ok none
    | .error .nameTooLong => .error (.system .nameTooLong p.text)
    | .error _ => .ok none

def exists? (fs : FileSystem) (p : Path) : Except Failure Bool :=
  (fs.status p).map Option.isSome

def isDirectory (fs : FileSystem) (p : Path) : Except Failure Bool :=
  (fs.status p).map (· = some .directory)

def isFile (fs : FileSystem) (p : Path) : Except Failure Bool :=
  (fs.status p).map fun
    | some (.file _) => true
    | _ => false

def resolve (fs : FileSystem) (aim : Aim) (p : Path) : Except Failure Place :=
  if p.hasNull then .error .embeddedNull
  else match fs.walk aim p with
    | .ok place => .ok place
    | .error e => .error (.system e p.text)

def list (fs : FileSystem) (p : Path) : Except Failure (List Name) :=
  match fs.resolve .follow p with
  | .error f => .error f
  | .ok (.occupied l .directory) => .ok (fs.namesIn l)
  | .ok (.occupied _ _) => .error (.system .notADirectory p.text)
  | .ok (.free _ _) => .error (.system .notFound p.text)

def read (fs : FileSystem) (p : Path) : Except Failure Bytes :=
  match fs.resolve .follow p with
  | .error f => .error f
  | .ok (.occupied _ (.file content)) => .ok content
  | .ok (.occupied _ .directory) => .error (.system .isADirectory p.text)
  | .ok (.occupied _ (.link _)) => .error (.system .tooManyLinks p.text)
  | .ok (.free _ _) => .error (.system .notFound p.text)

/-- The place of the file that opening a path for writing leads to, and what the file holds before.
A dangling link makes its target. -/
def openForWriting (fs : FileSystem) (p : Path) : Except Failure (Location × Bytes) :=
  match fs.resolve .create p with
  | .error f => .error f
  | .ok (.occupied l (.file content)) => .ok (l, content)
  | .ok (.occupied _ .directory) => .error (.system .isADirectory p.text)
  | .ok (.occupied _ (.link _)) => .error (.system .tooManyLinks p.text)
  | .ok (.free dir n) => .ok (n :: dir, [])

def write (fs : FileSystem) (p : Path) (content : Bytes) : Except Failure FileSystem :=
  (fs.openForWriting p).map fun opened ↦ fs.put opened.1 (.file content)

/-- The error of making a directory at a path, and the place where it would stand otherwise. Only a
free name will do: a link stands in the way whether or not it leads anywhere. -/
def freePlace (fs : FileSystem) (p : Path) : Except Errno Location :=
  if p.isTooLong then .error .nameTooLong
  else match p.parts.getLast? with
    | none => .error .exists
    | some n => match fs.walk .follow p.parent with
      | .error e => .error e
      | .ok (.free _ _) => .error .notFound
      | .ok (.occupied dir .directory) =>
        if n = Name.up then .error .exists
        else if n.isTooLong then .error .nameTooLong
        else match fs.get? (n :: dir) with
          | some _ => .error .exists
          | none => .ok (n :: dir)
      | .ok (.occupied _ _) => .error .notADirectory

def makeLink (fs : FileSystem) (p : Path) (target : String) : Except Failure FileSystem :=
  if p.hasNull then .error .embeddedNull
  else match fs.freePlace p with
    | .ok l => .ok (fs.put l (.link target))
    | .error e => .error (.system e p.text)

def remove (fs : FileSystem) (p : Path) : Except Failure (FileSystem × Location) :=
  match fs.resolve .keep p with
  | .error f => .error f
  | .ok (.free _ _) => .error (.system .notFound p.text)
  | .ok (.occupied l _) => .ok (fs.erase l, l)

inductive Made
  | done (fs : FileSystem)
  | parentMissing
  | failed (f : Failure)

def makeDirectory (fs : FileSystem) (p : Path) : Made :=
  if p.hasNull then .failed .embeddedNull
  else match fs.freePlace p with
    | .ok l => .done (fs.put l .directory)
    | .error .notFound => .parentMissing
    | .error e => match fs.isDirectory p with
      | .error f => .failed f
      | .ok true => .done fs
      | .ok false => .failed (.system e p.text)

/-- Makes the directory at the path with the given parts, innermost first, after those above it.
What was made before a failure stays. -/
def makeDirectoriesAt (fs : FileSystem) (anchor : Anchor) : List Name → FileSystem × Except Failure Unit
  | [] => match fs.makeDirectory ⟨anchor, []⟩ with
    | .done fs' => (fs', .ok ())
    | .parentMissing => (fs, .error (.system .notFound (Path.text ⟨anchor, []⟩)))
    | .failed f => (fs, .error f)
  | n :: up =>
    let p : Path := ⟨anchor, (n :: up).reverse⟩
    match fs.makeDirectory p with
    | .done fs' => (fs', .ok ())
    | .failed f => (fs, .error f)
    | .parentMissing =>
      match fs.makeDirectoriesAt anchor up with
      | (fs', .error f) => (fs', .error f)
      | (fs', .ok ()) => match fs'.makeDirectory p with
        | .done fs'' => (fs'', .ok ())
        | .parentMissing => (fs', .error (.system .notFound p.text))
        | .failed f => (fs', .error f)

def makeDirectories (fs : FileSystem) (p : Path) : FileSystem × Except Failure Unit :=
  fs.makeDirectoriesAt p.anchor p.parts.reverse

end GameLauncher.FileSystem
