import GameLauncher.Clock
import GameLauncher.Run

namespace GameLauncher.Shell

def variableNames : List String := ["HOME", "EMUCLI_USER_DIR"]

def inherited : IO Environment :=
  variableNames.filterMapM fun name ↦ do
    return (← IO.getEnv name).map fun value ↦ (name, value)

def systemPath (l : Location) := System.mkFilePath ("/" :: l.reverse.map Name.text)

def isRead (n : Name) : Bool :=
  [UserDirectory.configName, Logging.fileName, Library.splashName].contains n

def contentAt (l : Location) : IO Bytes := do
  if l.head?.any isRead then
    let found ← EIO.toBaseIO (IO.FS.readBinFile (systemPath l))
    return (found.toOption.getD .empty).data.toList
  return []

/-- Takes over what stands at a place, with `depth` levels below it. A link counts as what it
leads to. -/
def load : Nat → FileSystem → Location → IO FileSystem
  | depth, fs, l => do
    match ← EIO.toBaseIO (systemPath l).metadata with
    | .error _ => return fs
    | .ok info => match info.type, depth with
      | .file, _ => return fs.put l (.file (← contentAt l))
      | .dir, 0 => return if l = [] then fs else fs.put l .directory
      | .dir, depth + 1 =>
        let fs := if l = [] then fs else fs.put l .directory
        let found ← EIO.toBaseIO (systemPath l).readDir
        (found.toOption.getD #[]).foldlM (fun fs e ↦
          match Name.of? e.fileName with
          | some n => load depth fs (n :: l)
          | none => return fs) fs
      | _, _ => return fs

def folderDepth : Nat := 2

def loadFolder (fs : FileSystem) (l : Location) : IO FileSystem := do
  let fs ← load folderDepth fs l
  match l with
  | [] => return fs
  | n :: up => match (Library.baseName? n.text).bind Name.of? with
    | some base => load folderDepth fs (base :: up)
    | none => return fs

def placeOf (fs : FileSystem) (p : Path) : Location :=
  (Path.absolute (Logging.workingPath fs) p).parts.reverse

def loadPath (fs : FileSystem) (p : Path) : IO FileSystem := do
  let l := placeOf fs p
  let fs ← (List.range l.length).foldlM (fun fs i ↦ load 0 fs (l.drop i)) fs
  loadFolder (← loadFolder fs l.tail) l

def loadInstallDir (fs : FileSystem) (p : Path) : IO FileSystem := do
  load (Library.maxDepth.toNat + folderDepth) (← loadPath fs p) (placeOf fs p)

def snapshot (env : Environment) (args : List String) : IO FileSystem := do
  let workingDir := (Path.ofString (← IO.currentDir).toString).parts.reverse
  let fs ← (args.map Path.ofString).foldlM loadPath (FileSystem.bare workingDir)
  match UserDirectory.default env with
  | .error _ => return fs
  | .ok dir =>
    let fs ← loadPath fs dir
    match (Session.start fs dir).result with
    | .error _ => return fs
    | .ok s =>
      let fs ← s.settings.coreExecutable.toList.foldlM loadPath fs
      s.settings.searchedDirs.foldlM loadInstallDir fs

def store (old new : FileSystem) : IO Unit :=
  new.entries.forM fun (l, node) ↦ do
    if old.get? l ≠ some node then
      match node with
      | .directory => IO.FS.createDirAll (systemPath l)
      | .file content => IO.FS.writeBinFile (systemPath l) ⟨content.toArray⟩
      | .link _ => return

def clock : IO String := do
  let (_, file) ← IO.FS.createTempFile
  let time := (← file.metadata).modified
  IO.FS.removeFile file
  return Clock.text (time.sec.toNat * 1000 + time.nsec.toNat / 1000000)

partial def waitFor (pid : Int) : IO Unit := do
  if ← (System.mkFilePath ["/proc", toString pid]).pathExists then
    IO.sleep 100
    waitFor pid

def perform : Event → IO Unit
  | .poll pid => waitFor pid
  | .sleep _ | .spawn .. => return

/-- A core is never started from here, so that a launch ends with this message at best. -/
def noStartMessage : String := "This shell starts no programs."

end GameLauncher.Shell

open GameLauncher in
/-- The exit code is passed on in its lowest eight bits. -/
def main (args : List String) : IO UInt32 := do
  let env ← Shell.inherited
  let files ← Shell.snapshot env args
  let sur : Launch.Surroundings := { env, core := .cannotStart Shell.noStartMessage }
  let time ← Shell.clock
  let outcome := run (Launch.run sur) (fun _ ↦ time) env none files {} (programName :: args)
  outcome.events.forM Shell.perform
  Shell.store files outcome.desk.files
  IO.print outcome.desk.stdout
  IO.eprint outcome.desk.stderr
  match outcome.exit with
  | .ok code => return (code % 256).toNat.toUInt32
  | .error f =>
    IO.eprintln f.message
    return 1
