import GameLauncher.FileSystem.Access
import GameLauncher.Record

namespace GameLauncher

/-- A log file that is open: where it stands, unless it was taken away, and where the next line goes
when it does not go to the end. -/
structure LogFile where
  place : Option Location
  append : Bool
  position : Nat
  deriving DecidableEq

/-- What happens to records: those below the threshold are dropped, the others go to the open files. -/
structure Logging where
  threshold : Level := .warning
  outputs : List LogFile := []
  deriving DecidableEq

namespace LogFile

/-- Bytes written over others from a position on. A gap before it is filled with zeros. -/
def overwrite (content : Bytes) (position : Nat) (bytes : Bytes) : Bytes :=
  content.take position ++ List.replicate (position - content.length) 0 ++ bytes ++
    content.drop (position + bytes.length)

def write (f : LogFile) (fs : FileSystem) (bytes : Bytes) : FileSystem × LogFile :=
  match f.place with
  | none => (fs, f)
  | some l => match fs.get? l with
    | some (.file content) =>
      let position := if f.append then content.length else f.position
      (fs.put l (.file (overwrite content position bytes)),
        { f with position := position + bytes.length })
    | _ => (fs, f)

end LogFile

namespace Logging

def capitals (c : Char) : List Char :=
  if c = 'ı' then ['I']
  else if c = 'ſ' then ['S']
  else if c = 'ß' then ['S', 'S']
  else if c = 'ﬀ' then ['F', 'F']
  else if c = 'ﬁ' then ['F', 'I']
  else if c = 'ﬂ' then ['F', 'L']
  else if c = 'ﬃ' then ['F', 'F', 'I']
  else if c = 'ﬄ' then ['F', 'F', 'L']
  else if c = 'ﬅ' || c = 'ﬆ' then ['S', 'T']
  else [c.toUpper]

def knownLevels : List (String × Level) :=
  [("DEBUG", .debug), ("INFO", .info), ("WARNING", .warning), ("WARN", .warning),
    ("ERROR", .error), ("CRITICAL", .critical), ("FATAL", .critical), ("NOTSET", .notSet)]

/-- Names that mean something to the logging system, but no level. -/
def reservedNames : List (String × NonLevel) :=
  [("BASIC_FORMAT", .text "%(levelname)s:%(name)s:%(message)s"),
    ("_STYLES", .object ("\x7b'%': (<class 'logging.PercentStyle'>, " ++
      "'%(levelname)s:%(name)s:%(message)s'), " ++
      "'\x7b': (<class 'logging.StrFormatStyle'>, " ++
      "'\x7blevelname\x7d:\x7bname\x7d:\x7bmessage\x7d'), " ++
      "'$': (<class 'logging.StringTemplateStyle'>, " ++
      "'$\x7blevelname\x7d:$\x7bname\x7d:$\x7bmessage\x7d')\x7d"))]

def upperCased (s : String) : String := String.ofList (s.toList.flatMap capitals)

def levelOf (name : String) : Except Failure Level :=
  match reservedNames.lookup (upperCased name) with
  | some found => .error (.unknownLevel found)
  | none => .ok ((knownLevels.lookup (upperCased name)).getD .info)

def fileName : Name := ⟨"emucli.log", by decide⟩

def workingPath (fs : FileSystem) : Path := ⟨.root, fs.workingDir.reverse⟩

def openFile (fs : FileSystem) (p : Path) (append : Bool) : Except Failure (FileSystem × LogFile) :=
  (fs.openForWriting (Path.absolute (workingPath fs) p)).map fun (l, content) ↦
    let kept := if append then content else []
    (fs.put l (.file kept), ⟨some l, append, kept.length⟩)

def close (log : Logging) (f : LogFile) : Logging := { log with outputs := log.outputs.erase f }

/-- Closes all files that are open: those there are at first, since closing takes out one of them
after another. -/
def closeAll (log : Logging) : Logging := log.outputs.foldl close log

theorem closeAll_eq (log : Logging) : log.closeAll = { log with outputs := [] } := by
  obtain ⟨threshold, outputs⟩ := log
  unfold closeAll
  induction outputs with
  | nil => rfl
  | cons f outputs ih =>
    rw [List.foldl_cons, close, List.erase_cons_head]
    exact ih

/-- Sets up the log of a run in a directory, which is made first. Files that were open are closed
once the level is known to be one. -/
def setUp (log : Logging) (fs : FileSystem) (dir : Path) (append : Bool) (level : String) :
    FileSystem × Logging × Except Failure Path :=
  let file := dir.child fileName
  match fs.makeDirectories dir with
  | (fs, .error f) => (fs, log, .error f)
  | (fs, .ok ()) => match levelOf level with
    | .error f => (fs, log, .error f)
    | .ok threshold =>
      let log := closeAll { log with threshold }
      match openFile fs file append with
      | .error f => (fs, log, .error f)
      | .ok (fs, output) => (fs, { log with outputs := log.outputs ++ [output] }, .ok file)

theorem setUp_eq (log : Logging) (fs : FileSystem) (dir : Path) (append : Bool) (level : String) :
    log.setUp fs dir append level = match fs.makeDirectories dir with
      | (fs, .error f) => (fs, log, .error f)
      | (fs, .ok ()) => match levelOf level with
        | .error f => (fs, log, .error f)
        | .ok threshold => match openFile fs (dir.child fileName) append with
          | .error f => (fs, ⟨threshold, []⟩, .error f)
          | .ok (fs, output) => (fs, ⟨threshold, [output]⟩, .ok (dir.child fileName)) := by
  simp only [setUp, closeAll_eq, List.nil_append]

def keeps (log : Logging) (r : Record) : Bool :=
  0 < r.level.rank && log.threshold.rank ≤ r.level.rank

def padLeft (width : Nat) (s : String) : String :=
  String.ofList (List.replicate (width - s.length) ' ') ++ s

def line (time : String) (r : Record) : String :=
  s!"{time} [{padLeft 5 r.level.name}] {r.origin.name}: {r.text}\n"

def writeAll (bytes : Bytes) : List LogFile → FileSystem → FileSystem × List LogFile
  | [], fs => (fs, [])
  | f :: r, fs =>
    let (fs, f) := f.write fs bytes
    let (fs, r) := writeAll bytes r fs
    (fs, f :: r)

/-- Deals with one record. Without an open file a warning, or what is worse, goes to the console
as it is. -/
def emit (log : Logging) (time : String) (fs : FileSystem) (r : Record) :
    FileSystem × Logging × String :=
  if !log.keeps r then (fs, log, "")
  else if log.outputs.isEmpty then
    (fs, log, if Level.warning.rank ≤ r.level.rank then r.text ++ "\n" else "")
  else
    let (fs, outputs) := writeAll (Text.encodeUtf8 (line time r)) log.outputs fs
    (fs, { log with outputs }, "")

def detach (log : Logging) (l : Location) : Logging :=
  { log with
    outputs := log.outputs.map fun f ↦
      if f.place.any l.isSuffixOf then { f with place := none } else f }

end Logging

end GameLauncher
