import GameLauncher.Proofs.ExitStatus
import GameLauncher.Proofs.TreeOutline

namespace GameLauncher

variable {fs fs' : FileSystem} {dir p : Path} {k l : Location} {c content : Bytes}

namespace FileSystem

def bytesAt (fs : FileSystem) (l : Location) : Option Bytes :=
  match fs.get? l with
  | some (.file c) => some c
  | _ => none

theorem bytesAt_eq_some : fs.bytesAt l = some c ↔ fs.get? l = some (.file c) := by
  unfold bytesAt
  rcases fs.get? l with _ | _ | _ | _ <;> simp

theorem AddsDirectories.bytesAt (h : fs.AddsDirectories fs') (l : Location) :
    fs'.bytesAt l = fs.bytesAt l := by
  apply Option.ext
  intro c
  rw [bytesAt_eq_some, bytesAt_eq_some, h.content]

theorem openForWriting_bytesAt {old : Bytes} (h : fs.openForWriting p = .ok (l, old)) :
    fs.TakesFile l ∧ fs.lead p = some l ∧ old = (fs.bytesAt l).getD [] := by
  obtain ⟨-, htakes, hwalk⟩ := openForWriting_eq_ok h
  have hlead := lead_of_walk (hwalk [])
  rw [(Grows.put_file htakes []).lead] at hlead
  refine ⟨htakes, hlead, ?_⟩
  unfold openForWriting at h
  split at h
  · cases h
  · rename_i hresolve
    cases h
    rw [bytesAt_eq_some.2 (get?_of_walk (resolve_eq_ok hresolve).2), Option.getD_some]
  · cases h
  · cases h
  · rename_i hresolve
    cases h
    rw [bytesAt, (free_of_walk (resolve_eq_ok hresolve).2).1, Option.getD_none]

end FileSystem

namespace Logging

theorem keeps_iff (log : Logging) (r : Record) :
    log.keeps r = true ↔ 0 < r.level.rank ∧ log.threshold.rank ≤ r.level.rank := by
  simp [keeps]

/-- The records at or above a level. Those without a level of their own are never among them. -/
def kept (threshold : Level) (rs : List Record) : List Record :=
  rs.filter fun r ↦ 0 < r.level.rank && threshold.rank ≤ r.level.rank

theorem kept_append (threshold : Level) (rs rs' : List Record) :
    kept threshold (rs ++ rs') = kept threshold rs ++ kept threshold rs' :=
  List.filter_append ..

/-- What a record adds to a log of a level at some time. -/
def written (threshold : Level) (time : String) (r : Record) : Bytes :=
  if 0 < r.level.rank ∧ threshold.rank ≤ r.level.rank then Text.encodeUtf8 (line time r) else []

/-- Bytes that hold a line for each of the records and nothing else, in their order, each at a time
that the clock shows at some moment. -/
inductive Lists (clock : Clock) : List Record → Bytes → Prop
  | nil : Lists clock [] []
  | cons {r : Record} {rs : List Record} {bytes : Bytes} (d : Desk) : Lists clock rs bytes →
      Lists clock (r :: rs) (Text.encodeUtf8 (line (clock d) r) ++ bytes)

theorem Lists.append {clock : Clock} {rs rs' : List Record} {bytes bytes' : Bytes}
    (h : Lists clock rs bytes) (h' : Lists clock rs' bytes') :
    Lists clock (rs ++ rs') (bytes ++ bytes') := by
  induction h with
  | nil => exact h'
  | cons d _ ih =>
    rw [List.append_assoc]
    exact .cons d ih

theorem lists_written (threshold : Level) (clock : Clock) (d : Desk) (r : Record) :
    Lists clock (kept threshold [r]) (written threshold (clock d) r) := by
  by_cases hr : 0 < r.level.rank ∧ threshold.rank ≤ r.level.rank
  · rw [kept, List.filter_cons_of_pos (by simpa using hr), written, if_pos hr,
      ← List.append_nil (Text.encodeUtf8 _)]
    exact .cons d .nil
  · rw [kept, List.filter_cons_of_neg (by simpa using hr), written, if_neg hr]
    exact .nil

theorem overwrite_length (content bytes : Bytes) :
    LogFile.overwrite content content.length bytes = content ++ bytes := by
  simp [LogFile.overwrite]

theorem openFile_eq_opened {append : Bool} {output : LogFile}
    (h : openFile fs p append = .ok (fs', output)) :
    ∃ k kept, fs.TakesFile k ∧ fs.lead (Path.absolute (workingPath fs) p) = some k ∧
      kept = (if append then (fs.bytesAt k).getD [] else []) ∧ fs' = fs.put k (.file kept) ∧
      output = ⟨some k, append, kept.length⟩ := by
  obtain ⟨⟨k, old⟩, hopen, h⟩ := ok_of_map h
  obtain ⟨htakes, hlead, hold⟩ := FileSystem.openForWriting_bytesAt hopen
  simp only [Prod.mk.injEq] at h
  obtain ⟨rfl, rfl⟩ := h
  exact ⟨k, _, htakes, hlead, by rw [hold], rfl, rfl⟩

variable {log log' : Logging} {append : Bool} {level : String} {file : Path} {f : Failure}

theorem setUp_eq_ok (h : log.setUp fs dir append level = (fs', log', .ok file)) :
    file = dir.child fileName ∧ ∃ fs₁ threshold k kept, fs.makeDirectories dir = (fs₁, .ok ()) ∧
      levelOf level = .ok threshold ∧ fs₁.TakesFile k ∧
      fs.lead (Path.absolute (workingPath fs) file) = some k ∧
      kept = (if append then (fs.bytesAt k).getD [] else []) ∧ fs' = fs₁.put k (.file kept) ∧
      log' = ⟨threshold, [⟨some k, append, kept.length⟩]⟩ := by
  rw [setUp_eq] at h
  rcases hmade : fs.makeDirectories dir with ⟨fs₁, f | u⟩
  · simp [hmade] at h
  rcases hlevel : levelOf level with f | threshold
  · simp [hmade, hlevel] at h
  rcases hopen : openFile fs₁ (dir.child fileName) append with f | ⟨fs₂, output⟩
  · simp [hmade, hlevel, hopen] at h
  simp only [hmade, hlevel, hopen, Prod.mk.injEq, Except.ok.injEq] at h
  obtain ⟨rfl, rfl, rfl⟩ := h
  obtain ⟨k, kept, htakes, hlead, hkept, rfl, rfl⟩ := openFile_eq_opened hopen
  have hadds := fs.makeDirectories_adds dir
  rw [hmade] at hadds
  rw [workingPath, hadds.toGrows.workingDir, hadds.toGrows.lead] at hlead
  rw [hadds.bytesAt] at hkept
  exact ⟨rfl, fs₁, threshold, k, kept, rfl, rfl, htakes, hlead, hkept, rfl, rfl⟩

theorem setUp_eq_error (h : log.setUp fs dir append level = (fs', log', .error f)) :
    fs.AddsDirectories fs' ∧ (log' = log ∨ ∃ threshold, log' = ⟨threshold, []⟩) := by
  have hadds := fs.makeDirectories_adds dir
  rw [setUp_eq] at h
  rcases hmade : fs.makeDirectories dir with ⟨fs₁, g | u⟩ <;> rw [hmade] at hadds
  · simp only [hmade, Prod.mk.injEq] at h
    obtain ⟨rfl, rfl, -⟩ := h
    exact ⟨hadds, .inl rfl⟩
  rcases hlevel : levelOf level with g | threshold
  · simp only [hmade, hlevel, Prod.mk.injEq] at h
    obtain ⟨rfl, rfl, -⟩ := h
    exact ⟨hadds, .inl rfl⟩
  rcases hopen : openFile fs₁ (dir.child fileName) append with g | ⟨fs₂, output⟩
  · simp only [hmade, hlevel, hopen, Prod.mk.injEq] at h
    obtain ⟨rfl, rfl, -⟩ := h
    exact ⟨hadds, .inr ⟨threshold, rfl⟩⟩
  · simp [hmade, hlevel, hopen] at h

end Logging

namespace Desk

variable {d d' : Desk} {threshold : Level} {clock : Clock}

theorem lasts_closed (files : FileSystem) (clock : Clock) :
    Lasts clock fun d ↦ d.files = files ∧ d.logging.outputs = [] where
  log := by
    rintro d r ⟨hfiles, hclosed⟩
    rcases d.log_cases clock r with ⟨-, hlog⟩ | ⟨-, -, text, hlog⟩ | ⟨-, hopen, -⟩
    · rw [hlog]
      exact ⟨hfiles, hclosed⟩
    · rw [hlog]
      exact ⟨hfiles, hclosed⟩
    · exact absurd hclosed hopen
  complain _ h := h

/-- The log is open, in one file alone, the next line goes to its end, and but for it the tree is
still the one given. -/
structure LogsTo (d : Desk) (fs : FileSystem) (threshold : Level) (k : Location)
    (content : Bytes) : Prop where
  threshold : d.logging.threshold = threshold
  output : ∃ f, d.logging.outputs = [f] ∧ f.place = some k ∧
    (f.append = true ∨ f.position = content.length)
  content : d.files.get? k = some (.file content)
  elsewhere : fs.SameBut (· = k) d.files

theorem LogsTo.opened (d : Desk) (h : fs.TakesFile k) (threshold : Level) (append : Bool)
    (kept : Bytes) :
    ({ d with
      files := fs.put k (.file kept)
      logging := ⟨threshold, [⟨some k, append, kept.length⟩]⟩ } : Desk).LogsTo
        (fs.put k (.file kept)) threshold k kept :=
  ⟨rfl, ⟨_, rfl, rfl, .inr rfl⟩, FileSystem.get?_put_self h.ne_nil, .refl _ _⟩

theorem LogsTo.complain (h : d.LogsTo fs threshold k content) (text : String) :
    (d.complain text).LogsTo fs threshold k content :=
  ⟨h.threshold, h.output, h.content, h.elsewhere⟩

theorem LogsTo.log_eq (h : d.LogsTo fs threshold k content) (clock : Clock) (r : Record) :
    ∃ files logging, d.log clock r = { d with files, logging } ∧
      (d.log clock r).LogsTo fs threshold k
        (content ++ Logging.written threshold (clock d) r) := by
  obtain ⟨hthreshold, ⟨f, hf, hplace, hposition⟩, hcontent, helsewhere⟩ := h
  have hk := FileSystem.ne_nil_of_get?_file hcontent
  have hkeeps := d.logging.keeps_iff r
  rw [hthreshold] at hkeeps
  rcases d.log_cases clock r with ⟨hr, hlog⟩ | ⟨-, hclosed, -⟩ | ⟨hr, -, hlog⟩
  · have hwritten : Logging.written threshold (clock d) r = [] := by
      rw [Logging.written, if_neg]
      rw [← hkeeps, hr]
      exact Bool.false_ne_true
    rw [hlog, hwritten, List.append_nil]
    exact ⟨d.files, d.logging, rfl, hthreshold, ⟨f, hf, hplace, hposition⟩, hcontent, helsewhere⟩
  · rw [hf] at hclosed
    cases hclosed
  · have hwritten : Logging.written threshold (clock d) r =
        Text.encodeUtf8 (Logging.line (clock d) r) := by
      rw [Logging.written, if_pos (hkeeps.1 hr)]
    have hend : (if f.append = true then content.length else f.position) = content.length := by
      rcases hposition with happend | hposition
      · rw [if_pos happend]
      · rw [hposition, ite_self]
    simp only [hf, Logging.writeAll, LogFile.write, hplace, hcontent, hend,
      Logging.overwrite_length] at hlog
    rw [hlog, hwritten]
    refine ⟨_, _, rfl, hthreshold, ⟨_, rfl, rfl, .inr ?_⟩, FileSystem.get?_put_self hk, ?_⟩
    · rw [List.length_append]
    · exact helsewhere.trans (.put_file (P := (· = k)) rfl hcontent _)

/-- Records go to the end of the log, and nothing else comes of them. -/
theorem LogsTo.logAll_eq (h : d.LogsTo fs threshold k content) (clock : Clock)
    (rs : List Record) :
    ∃ files logging bytes, d.logAll clock rs = { d with files, logging } ∧
      Logging.Lists clock (Logging.kept threshold rs) bytes ∧
        (d.logAll clock rs).LogsTo fs threshold k (content ++ bytes) := by
  induction rs generalizing d content with
  | nil =>
    refine ⟨d.files, d.logging, [], rfl, .nil, ?_⟩
    rw [List.append_nil]
    exact h
  | cons r rs ih =>
    obtain ⟨files₁, logging₁, hlog, hfirst⟩ := h.log_eq clock r
    obtain ⟨files, logging, bytes, hall, hlists, hlast⟩ := ih hfirst
    refine ⟨files, logging, Logging.written threshold (clock d) r ++ bytes, ?_, ?_, ?_⟩
    · rw [logAll, List.foldl_cons]
      rw [logAll] at hall
      rw [hall, hlog]
    · rw [← List.singleton_append, Logging.kept_append]
      exact (Logging.lists_written threshold clock d r).append hlists
    · rw [← List.append_assoc]
      exact hlast

theorem LogsTo.logAll (h : d.LogsTo fs threshold k content) (clock : Clock) (rs : List Record) :
    ∃ bytes, Logging.Lists clock (Logging.kept threshold rs) bytes ∧
      (d.logAll clock rs).LogsTo fs threshold k (content ++ bytes) := by
  obtain ⟨-, -, bytes, -, hlists, hlogs⟩ := h.logAll_eq clock rs
  exact ⟨bytes, hlists, hlogs⟩

end Desk

namespace Run

variable {ε : Type} {launcher : Launcher ε} {clock : Clock} {desk d : Desk}
  {invocation : Invocation} {session : Session} {warnings : List Warning}

structure OpensLog (desk : Desk) (session : Session) (threshold : Level) (k : Location)
    (kept : Bytes) (d : Desk) : Prop where
  level : Logging.levelOf session.settings.logLevel = .ok threshold
  isReady : UserDirectory.IsReady (UserDirectory.prepared desk.files session.userDir)
    session.userDir
  takesFile : (UserDirectory.prepared desk.files session.userDir).TakesFile k
  lead : desk.files.lead (Logging.openedPath desk.files session.userDir) = some k
  keeps : kept = if session.logAppend then (desk.files.bytesAt k).getD [] else []
  state : d = { desk with
    files := (UserDirectory.prepared desk.files session.userDir).put k (.file kept)
    logging := ⟨threshold, [⟨some k, session.logAppend, kept.length⟩]⟩ }

def logFile (session : Session) : Path :=
  (session.userDir.child UserDirectory.logName).child Logging.fileName

theorem OpensLog.logsTo {threshold : Level} {kept : Bytes}
    (h : OpensLog desk session threshold k kept d) : d.LogsTo d.files threshold k kept := by
  rw [h.state]
  exact .opened desk h.takesFile threshold session.logAppend kept

/-- A game is looked for only once the log is open, and holds how it was opened and the warnings. -/
theorem ready_eq_ok (h : ready clock desk session warnings = (d, .ok ())) :
    ∃ threshold k kept opened, OpensLog desk session threshold k kept opened ∧
      d = opened.logAll clock (openingRecords (logFile session) session.logAppend warnings) := by
  unfold ready at h
  rcases hmade : UserDirectory.ensure desk.files session.userDir with ⟨fs₁, records, f | u⟩
  · simp [hmade] at h
  have hresult : (UserDirectory.ensure desk.files session.userDir).2.result = .ok () := by
    rw [hmade]
  obtain ⟨hrecords, hexists⟩ := UserDirectory.ensure_eq_ok hresult
  rw [hmade] at hrecords hexists
  cases hrecords
  simp only [hmade, Desk.logAll, List.foldl_nil] at h
  rcases hsetUp : desk.logging.setUp fs₁ (session.userDir.child UserDirectory.logName)
    session.logAppend session.settings.logLevel with ⟨fs₂, logging, f | file⟩
  · simp [hsetUp] at h
  simp only [hsetUp, Prod.mk.injEq, and_true] at h
  obtain ⟨rfl, fs₃, threshold, k, kept, hlog, hlevel, htakes, hlead, hkept, rfl, rfl⟩ :=
    Logging.setUp_eq_ok hsetUp
  have hprepared : UserDirectory.prepared desk.files session.userDir = fs₃ := by
    rw [UserDirectory.prepared, hmade, hlog]
  have hensured := UserDirectory.ensure_adds desk.files session.userDir
  have hlogAdds := fs₁.makeDirectories_adds (session.userDir.child UserDirectory.logName)
  rw [hmade] at hensured
  rw [hlog] at hlogAdds
  have hready : UserDirectory.IsReady fs₃ session.userDir :=
    ⟨hlogAdds.exists? hexists, FileSystem.isDirectory_of_makeDirectories hlog⟩
  refine ⟨threshold, k, kept, _, ?_, h.symm⟩
  refine ⟨hlevel, hprepared ▸ hready, hprepared ▸ htakes, ?_, ?_, ?_⟩
  · rw [← Logging.openedPath_grows hensured.toGrows, ← hensured.toGrows.lead]
    exact hlead
  · rw [hkept, hensured.bytesAt]
  · rw [hprepared]

theorem opened_eq_ok {env : Environment} {userDir : Option Path} {logging : Logging}
    (h : opened clock env userDir fs logging = (desk, .ok session)) :
    ∃ dir settings, userDir.elim (UserDirectory.default env) .ok = .ok dir ∧
      (Settings.load fs (dir.child UserDirectory.configName)).result = .ok settings ∧
      session = .opened dir settings ∧
      desk = Desk.logAll { files := fs, logging } clock (Session.start fs dir).records := by
  unfold opened at h
  rcases hdir : userDir.elim (UserDirectory.default env) .ok with f | dir <;>
    simp only [hdir, Prod.mk.injEq] at h
  · cases h.2
  · obtain ⟨settings, hload, rfl⟩ := Session.start_eq_ok h.2
    exact ⟨dir, settings, rfl, hload, rfl, h.1.symm⟩

theorem heard_of_new {env : Environment} {userDir : Option Path}
    (h : opened clock env userDir fs {} = (desk, .ok session)) (read : Progress) :
    desk.files = fs ∧ (heard clock desk read).files = read.files := by
  obtain ⟨dir, settings, -, -, -, rfl⟩ := opened_eq_ok h
  obtain ⟨hfiles, hclosed⟩ := (Desk.lasts_closed fs clock).logAll (Session.start fs dir).records
    (d := { files := fs, logging := {} }) ⟨rfl, rfl⟩
  have hlasts := Desk.lasts_closed read.files clock
  exact ⟨hfiles, (hlasts.warnAll read.warnings (hlasts.logAll read.records
    (d := { Desk.logAll { files := fs, logging := {} } clock (Session.start fs dir).records with
      files := read.files }) ⟨rfl, hclosed⟩)).1⟩

theorem heard_grows (clock : Clock) (desk : Desk) (read : Progress) :
    read.files.Grows (heard clock desk read).files := by
  have hlasts := Desk.lasts_grows read.files clock
  exact hlasts.warnAll _ (hlasts.logAll read.records (d := { desk with files := read.files })
    (.refl _))

def IsLogPlace (env : Environment) (userDir : Option Path) (fs : FileSystem) (k : Location) :
    Prop :=
  ∃ dir, userDir.elim (UserDirectory.default env) .ok = .ok dir ∧
    fs.lead (Logging.openedPath fs dir) = some k

theorem isLogPlace_of_opensLog {env : Environment} {userDir : Option Path} {logging : Logging}
    {tokens : List String} {read : Progress} {threshold : Level} {kept : Bytes}
    (hopened : opened clock env userDir fs logging = (desk, .ok session))
    (hread : readCommandLine session desk.files tokens = (read, none))
    (hlog : OpensLog (heard clock desk read) read.session threshold k kept d) :
    IsLogPlace env userDir fs k := by
  obtain ⟨dir, settings, hdir, -, rfl, rfl⟩ := opened_eq_ok hopened
  obtain ⟨-, -, hmeaning⟩ := Progress.readCommandLine_eq_none hread
  have hfiles : read.files = (Desk.logAll { files := fs, logging } clock
      (Session.start fs dir).records).files := by
    rw [hmeaning]
    rfl
  have huser : read.session.userDir = dir := by
    rw [hmeaning]
    rfl
  have hheard := heard_grows clock
    (Desk.logAll { files := fs, logging } clock (Session.start fs dir).records) read
  rw [hfiles] at hheard
  have hgrows := (Desk.logAll_grows { files := fs, logging } clock
    (Session.start fs dir).records).trans hheard
  refine ⟨dir, hdir, ?_⟩
  rw [← hlog.lead, huser, Logging.openedPath_grows hgrows, hgrows.lead]

def launchRecords (report : LaunchReport ε) : List Record :=
  report.records ++ match report.result with
    | .ok r => [record (if r.ok then .info else .error) r.message]
    | .error _ => []

def launchExit (result : Except Failure LaunchResult) : Except Failure Int :=
  result.map fun r ↦ if r.ok then r.code else if r.code = 0 then 1 else r.code

def told (d : Desk) : Except Failure LaunchResult → Desk
  | .ok r => if r.ok then d else d.error r.message
  | .error _ => d

theorem launch_eq_told (launcher : Launcher ε) (clock : Clock) (desk : Desk) (game : Game)
    (invocation : Invocation) (session : Session) :
    launch launcher clock desk game invocation session =
      let report := launcher desk.files game invocation session
      ⟨launchExit report.result, report.events,
        told (desk.logAll clock (launchRecords report)) report.result⟩ := by
  unfold launch
  rcases launcher desk.files game invocation session with ⟨events, records, f | r⟩
  · simp only [launchRecords, List.append_nil]
    rfl
  · simp only [launchRecords, launchExit, Except.map, told]
    rw [Desk.logAll, Desk.logAll, List.foldl_append]
    cases r.ok <;> rfl

theorem told_logsTo {threshold : Level} {content : Bytes}
    (h : d.LogsTo fs threshold k content) (result : Except Failure LaunchResult) :
    (told d result).LogsTo fs threshold k content := by
  unfold told
  split
  · split
    · exact h
    · exact h.complain _
  · exact h

def playRecords (launcher : Launcher ε) (clock : Clock) (d : Desk) (invocation : Invocation)
    (session : Session) : List Record :=
  if invocation.gamePath.isNone then []
  else
    (Library.resolve d.files invocation session).records ++
      match sought clock d invocation session with
      | (d, .ok game) => launchRecords (launcher d.files game invocation session)
      | (_, .error f) => if f.isExpected then [record .error f.message] else []

theorem sought_logsTo {threshold : Level} {content : Bytes} (h : d.LogsTo fs threshold k content)
    (clock : Clock) (invocation : Invocation) (session : Session) :
    ∃ bytes, Logging.Lists clock
        (Logging.kept threshold (Library.resolve d.files invocation session).records) bytes ∧
      (sought clock d invocation session).1.LogsTo fs threshold k (content ++ bytes) := by
  unfold sought
  cases session.settings.searchedDirs.isEmpty with
  | true => exact (h.complain noFolderInfo).logAll clock _
  | false => exact h.logAll clock _

theorem play_logsTo {threshold : Level} {content : Bytes} (h : d.LogsTo fs threshold k content)
    (launcher : Launcher ε) (clock : Clock) (invocation : Invocation) (session : Session) :
    ∃ bytes, Logging.Lists clock
        (Logging.kept threshold (playRecords launcher clock d invocation session)) bytes ∧
      (play launcher clock d invocation session).desk.LogsTo fs threshold k (content ++ bytes) := by
  cases hgiven : invocation.gamePath.isNone with
  | true =>
    refine ⟨[], ?_, ?_⟩
    · rw [playRecords, if_pos hgiven]
      exact .nil
    · rw [play, if_pos hgiven, List.append_nil]
      exact h.complain _
  | false =>
    obtain ⟨bytes, hlists, hsought⟩ := sought_logsTo h clock invocation session
    rw [play_eq_sought hgiven, playRecords, if_neg (by rw [hgiven]; simp), Logging.kept_append]
    rcases hfound : sought clock d invocation session with ⟨d', f | game⟩
    · rw [hfound] at hsought
      simp only
      split
      · obtain ⟨more, hmore, hlogs⟩ := hsought.logAll clock [record .error f.message]
        rw [List.append_assoc] at hlogs
        exact ⟨bytes ++ more, hlists.append hmore, hlogs.complain _⟩
      · refine ⟨bytes, ?_, hsought⟩
        rw [show Logging.kept threshold [] = [] from rfl, List.append_nil]
        exact hlists
    · rw [hfound] at hsought
      obtain ⟨more, hmore, hlogs⟩ :=
        hsought.logAll clock (launchRecords (launcher d'.files game invocation session))
      rw [List.append_assoc] at hlogs
      simp only [launch_eq_told]
      exact ⟨bytes ++ more, hlists.append hmore, told_logsTo hlogs _⟩

end Run

end GameLauncher
