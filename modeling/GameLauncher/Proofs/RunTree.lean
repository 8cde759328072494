import GameLauncher.Proofs.LinkLead
import GameLauncher.Proofs.MadeDirectories
import GameLauncher.Run

namespace GameLauncher

variable {fs fs' : FileSystem} {p dir : Path} {l : Location}

namespace FileSystem

def placeAt (text : String) : Location := (Path.ofString text).parts.reverse

def withFile (fs : FileSystem) (text : String) (content : Bytes) : FileSystem :=
  (fs.withDirectory (placeAt text).tail).put (placeAt text) (.file content)

theorem host_withFile (fs : FileSystem) (text : String) (content : Bytes) :
    (fs.withFile text content).host = fs.host :=
  host_withDirectory fs (placeAt text).tail

theorem HasNoLink.withFile (h : fs.HasNoLink) (text : String) (content : Bytes)
    (htext : placeAt text ≠ []) : (fs.withFile text content).HasNoLink :=
  (h.withDirectory _).put htext (by simp)

end FileSystem

namespace UserDirectory

def prepared (fs : FileSystem) (dir : Path) : FileSystem :=
  ((ensure fs dir).1.makeDirectories (dir.child logName)).1

def IsReady (fs : FileSystem) (dir : Path) : Prop :=
  fs.exists? dir = .ok true ∧ fs.isDirectory (dir.child logName) = .ok true

theorem ensureDirectory_adds (fs : FileSystem) (p : Path) (purpose : String) :
    fs.AddsDirectories (ensureDirectory fs p purpose).1 := by
  have h := fs.makeDirectories_adds p
  unfold ensureDirectory
  split
  · exact .refl fs
  · exact .refl fs
  · split <;> simp_all

theorem ensure_fst (fs : FileSystem) (p : Path) :
    (ensure fs p).1 = (ensureDirectory fs p "user").1 := by
  unfold ensure
  split <;> simp_all

theorem ensure_adds (fs : FileSystem) (p : Path) : fs.AddsDirectories (ensure fs p).1 := by
  rw [ensure_fst]
  exact ensureDirectory_adds fs p "user"

theorem prepared_adds (fs : FileSystem) (dir : Path) : fs.AddsDirectories (prepared fs dir) :=
  (ensure_adds fs dir).trans (FileSystem.makeDirectories_adds _ _)

theorem IsReady.prepared (h : IsReady fs dir) : prepared fs dir = fs := by
  have hensure : (ensure fs dir).1 = fs := by
    rw [ensure_fst, ensureDirectory, h.1]
  rw [UserDirectory.prepared, hensure, FileSystem.makeDirectories_of_isDirectory h.2]

theorem IsReady.grows (h : IsReady fs dir) (hgrows : fs.Grows fs') : IsReady fs' dir :=
  ⟨hgrows.exists? h.1, hgrows.isDirectory h.2⟩

end UserDirectory

namespace Logging

/-- The spelling of a log file's path under which it is opened. -/
def openedPath (fs : FileSystem) (dir : Path) : Path :=
  Path.absolute (workingPath fs) ((dir.child UserDirectory.logName).child fileName)

theorem openedPath_grows (h : fs.Grows fs') (dir : Path) :
    openedPath fs' dir = openedPath fs dir := by
  rw [openedPath, workingPath, h.workingDir]
  rfl

end Logging

namespace Logging

theorem write_cases (f : LogFile) (fs : FileSystem) (bytes : Bytes) :
    f.write fs bytes = (fs, f) ∨
      ∃ l old new position, f.place = some l ∧ fs.get? l = some (.file old) ∧
        f.write fs bytes = (fs.put l (.file new), { f with position := position }) := by
  unfold LogFile.write
  split
  · exact .inl rfl
  · split
    · exact .inr ⟨_, _, _, _, ‹_›, ‹_›, rfl⟩
    · exact .inl rfl

theorem writeAll_grows (bytes : Bytes) (fs : FileSystem) (outputs : List LogFile) :
    fs.Grows (writeAll bytes outputs fs).1 ∧
      (writeAll bytes outputs fs).2.map LogFile.place = outputs.map LogFile.place := by
  induction outputs generalizing fs with
  | nil => exact ⟨.refl fs, rfl⟩
  | cons f r ih =>
    simp only [writeAll, List.map_cons]
    rcases write_cases f fs bytes with h | ⟨l, old, new, position, hplace, hold, h⟩
    · rw [h]
      obtain ⟨hgrows, hplaces⟩ := ih fs
      exact ⟨hgrows, by rw [hplaces]⟩
    · rw [h]
      obtain ⟨hgrows, hplaces⟩ := ih (fs.put l (.file new))
      exact ⟨(FileSystem.Grows.put_file (.inr ⟨old, hold⟩) new).trans hgrows, by rw [hplaces]⟩

end Logging

theorem UserDirectory.ensure_eq_ok (h : (ensure fs dir).2.result = .ok ()) :
    (ensure fs dir).2.records = [] ∧ (ensure fs dir).1.exists? dir = .ok true := by
  unfold ensure ensureDirectory at h ⊢
  rcases hfound : fs.exists? dir with f | _ | _ <;> simp only [hfound] at h ⊢
  · cases h
  · rcases hmade : fs.makeDirectories dir with ⟨fs₁, f | u⟩
    · simp only [hmade] at h
      cases f <;> cases h
    · have hdir := FileSystem.isDirectory_of_makeDirectories hmade
      exact ⟨rfl, FileSystem.exists?_eq_true.2 (FileSystem.names_of_isDirectory hdir)⟩
  · exact ⟨rfl, hfound⟩

theorem Logging.openFile_eq_ok {append : Bool} {output : LogFile}
    (h : openFile fs p append = .ok (fs', output)) :
    ∃ l kept, fs.TakesFile l ∧ fs.lead (Path.absolute (workingPath fs) p) = some l ∧
      fs' = fs.put l (.file kept) ∧ output.place = some l := by
  unfold openFile at h
  rcases hopen : fs.openForWriting (Path.absolute (workingPath fs) p) with f | ⟨l, old⟩
  · simp [hopen, Except.map] at h
  · simp only [hopen, Except.map, Except.ok.injEq, Prod.mk.injEq] at h
    obtain ⟨rfl, rfl⟩ := h
    obtain ⟨-, htakes, hwalk⟩ := FileSystem.openForWriting_eq_ok hopen
    have hlead := FileSystem.lead_of_walk (hwalk [])
    rw [(FileSystem.Grows.put_file htakes []).lead] at hlead
    exact ⟨l, _, htakes, hlead, rfl, rfl⟩

def Clock.stopped : Clock := fun _ ↦ ""

namespace Desk

/-- What a record comes to: nothing, at most a line on the console where no file is open, or a line
in each file that is. -/
theorem log_cases (d : Desk) (clock : Clock) (r : Record) :
    d.logging.keeps r = false ∧ d.log clock r = d ∨
    d.logging.keeps r = true ∧ d.logging.outputs = [] ∧
      (∃ text, d.log clock r = { d with stderr := d.stderr ++ text }) ∨
    d.logging.keeps r = true ∧ d.logging.outputs ≠ [] ∧
      let written := Logging.writeAll (Text.encodeUtf8 (Logging.line (clock d) r)) d.logging.outputs
        d.files
      d.log clock r = { d with
        files := written.1, logging := { d.logging with outputs := written.2 } } := by
  unfold Desk.log Logging.emit
  cases hkeeps : d.logging.keeps r with
  | false => exact .inl ⟨rfl, by simp⟩
  | true =>
    cases hopen : d.logging.outputs with
    | nil => exact .inr (.inl ⟨rfl, rfl, by simp⟩)
    | cons f outputs => exact .inr (.inr ⟨rfl, List.cons_ne_nil f outputs, by simp⟩)

theorem log_grows (d : Desk) (clock : Clock) (r : Record) :
    d.files.Grows (d.log clock r).files := by
  rcases d.log_cases clock r with ⟨-, h⟩ | ⟨-, -, text, h⟩ | ⟨-, -, h⟩ <;> rw [h]
  · exact .refl _
  · exact .refl _
  · exact (Logging.writeAll_grows _ _ _).1

theorem log_places (d : Desk) (clock : Clock) (r : Record) :
    (d.log clock r).logging.outputs.map LogFile.place = d.logging.outputs.map LogFile.place := by
  rcases d.log_cases clock r with ⟨-, h⟩ | ⟨-, -, text, h⟩ | ⟨-, -, h⟩ <;> rw [h]
  exact (Logging.writeAll_grows _ _ _).2

theorem exists_output_of_log {d : Desk} {clock : Clock} {r : Record} {f : LogFile}
    (hf : f ∈ (d.log clock r).logging.outputs) : ∃ g ∈ d.logging.outputs, g.place = f.place := by
  have hmem := List.mem_map_of_mem (f := LogFile.place) hf
  rw [log_places] at hmem
  exact List.mem_map.1 hmem

/-- What neither a record nor a complaint can change. -/
structure Lasts (clock : Clock) (P : Desk → Prop) : Prop where
  log {d : Desk} (r : Record) : P d → P (d.log clock r)
  complain {d : Desk} (text : String) : P d → P (d.complain text)

variable {clock : Clock} {P : Desk → Prop} {d : Desk}

theorem Lasts.logAll (hP : Lasts clock P) (rs : List Record) (h : P d) : P (d.logAll clock rs) := by
  induction rs generalizing d with
  | nil => exact h
  | cons r rs ih => exact ih (hP.log r h)

theorem Lasts.warnAll (hP : Lasts clock P) (ws : List Warning) (h : P d) :
    P (ws.foldl Desk.warn d) := by
  induction ws generalizing d with
  | nil => exact h
  | cons w ws ih => exact ih (hP.complain _ h)

theorem lasts_grows (fs : FileSystem) (clock : Clock) : Lasts clock fun d ↦ fs.Grows d.files where
  log r h := h.trans (log_grows _ clock r)
  complain _ h := h

theorem lasts_stdout (text : String) (clock : Clock) : Lasts clock fun d ↦ d.stdout = text where
  log _ h := h
  complain _ h := h

theorem logAll_grows (d : Desk) (clock : Clock) (rs : List Record) :
    d.files.Grows (d.logAll clock rs).files :=
  (lasts_grows d.files clock).logAll rs (.refl d.files)

end Desk

namespace Run

variable {ε : Type} {clock : Clock} {P : Desk → Prop} {desk : Desk}

theorem launch_lasts (hP : Desk.Lasts clock P) (launcher : Launcher ε) (game : Game)
    (invocation : Invocation) (session : Session) (h : P desk) :
    P (launch launcher clock desk game invocation session).desk := by
  have hlogged := hP.logAll (launcher desk.files game invocation session).records h
  unfold launch
  simp only
  split
  · exact hlogged
  · split
    · exact hP.log _ hlogged
    · exact hP.complain _ (hP.log _ hlogged)

theorem play_lasts (hP : Desk.Lasts clock P) (launcher : Launcher ε) (invocation : Invocation)
    (session : Session) (h : P desk) : P (play launcher clock desk invocation session).desk := by
  unfold play
  split
  · exact hP.complain _ h
  · have hdesk : P (if session.settings.searchedDirs.isEmpty then desk.complain noFolderInfo
        else desk) := by
      split
      · exact hP.complain _ h
      · exact h
    simp only
    split
    · exact launch_lasts hP launcher _ invocation session (hP.logAll _ hdesk)
    · split
      · exact hP.complain _ (hP.log _ (hP.logAll _ hdesk))
      · exact hP.logAll _ hdesk

end Run

theorem Logging.setUp_grows (log : Logging) (fs : FileSystem) (dir : Path) (append : Bool)
    (level : String) : fs.Grows (log.setUp fs dir append level).1 := by
  have hmade := (fs.makeDirectories_adds dir).toGrows
  rw [setUp_eq]
  rcases hdir : fs.makeDirectories dir with ⟨fs₁, f | u⟩ <;> rw [hdir] at hmade
  · exact hmade
  · simp only
    split
    · exact hmade
    · split
      · exact hmade
      · rename_i hopen
        obtain ⟨l, kept, htakes, -, rfl, -⟩ := openFile_eq_ok hopen
        exact hmade.trans (.put_file htakes kept)

theorem start_of_load {s : Settings}
    (h : Settings.load fs (dir.child UserDirectory.configName) = ⟨[], .ok s⟩) :
    Session.start fs dir = ⟨[], .ok
      { settings := s, settingsFile := dir.child UserDirectory.configName, userDir := dir }⟩ := by
  simp only [Session.start, bind, Traced.bind, h]
  rfl

theorem run_of_load {ε : Type} {launcher : Launcher ε} {clock : Clock} {env : Environment}
    {logging : Logging} {tokens : List String} {s : Settings}
    (h : Settings.load fs (dir.child UserDirectory.configName) = ⟨[], .ok s⟩) :
    run launcher clock env (some dir) fs logging tokens =
      Run.withSession launcher clock { files := fs, logging := logging }
        { settings := s, settingsFile := dir.child UserDirectory.configName, userDir := dir }
        tokens := by
  simp only [run, Option.elim_some, start_of_load h, Desk.logAll, List.foldl_nil]

end GameLauncher
