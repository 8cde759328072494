import GameLauncher.Proofs.SearchedFolders

namespace GameLauncher

def Event.isSpawn : Event → Bool
  | .spawn .. => true
  | _ => false

def Outcome.starts (o : Outcome Event) : Nat := o.events.countP Event.isSpawn

def Desk.EndsInLine (d : Desk) : Prop := ∃ text, d.stderr = text ++ "\n"

theorem Desk.endsInLine_complain (d : Desk) (text : String) : (d.complain text).EndsInLine := by
  unfold EndsInLine complain Text.Console.printed
  exact ⟨_, (String.append_assoc ..).symm⟩

namespace Launch

variable {sur : Surroundings} {fs : FileSystem} {game : Game} {invocation : Invocation}
  {session : Session}

/-- All that a launch can do: refuse without a core, fail at the look for it, or start it. -/
theorem run_cases (sur : Surroundings) (fs : FileSystem) (game : Game) (invocation : Invocation)
    (session : Session) :
    (∃ message, run sur fs game invocation session = refuse message ∧
        ∀ core, session.settings.coreExecutable = some core → fs.isFile core = .ok false) ∨
      (∃ f, run sur fs game invocation session = ⟨[], [], .error f⟩) ∨
      ∃ core, session.settings.coreExecutable = some core ∧ fs.isFile core = .ok true ∧
        run sur fs game invocation session = start sur core game invocation session := by
  unfold run
  cases hcore : session.settings.coreExecutable with
  | none => exact .inl ⟨_, rfl, by simp⟩
  | some core =>
    rcases hfile : fs.isFile core with f | _ | _
    · exact .inr (.inl ⟨f, by simp [hfile]⟩)
    · exact .inl ⟨s!"Emulator core not found: {core.text}", by simp [hfile], by simpa using hfile⟩
    · exact .inr (.inr ⟨core, rfl, hfile, by simp [hfile]⟩)

theorem countP_waitEvents (pid : Int) (interval : Seconds) (answers : List Bool) :
    (waitEvents pid interval answers).countP Event.isSpawn = 0 := by
  fun_induction waitEvents pid interval answers <;> simp_all [Event.isSpawn]

theorem countP_start (sur : Surroundings) (core : Path) (game : Game) (invocation : Invocation)
    (session : Session) :
    (start sur core game invocation session).events.countP Event.isSpawn = 1 := by
  cases hpid : invocation.waitPid <;> simp [start, hpid, countP_waitEvents, Event.isSpawn]

end Launch

namespace Run

variable {ε : Type} {launcher : Launcher ε} {sur : Launch.Surroundings} {clock : Clock}
  {env : Environment} {userDir : Option Path} {files : FileSystem} {logging : Logging}
  {tokens : List String} {desk d : Desk} {session : Session} {game : Game}
  {invocation : Invocation} {warnings : List Warning} {code : Int} {read : Progress}

/-- The state in which the command line is read, and the session unless it cannot be started. -/
def opened (clock : Clock) (env : Environment) (userDir : Option Path) (files : FileSystem)
    (logging : Logging) : Desk × Except Failure Session :=
  let desk : Desk := { files, logging }
  match userDir.elim (UserDirectory.default env) .ok with
  | .error f => (desk, .error f)
  | .ok dir =>
    let started := Session.start files dir
    (desk.logAll clock started.records, started.result)

theorem run_eq_opened :
    run launcher clock env userDir files logging tokens =
      match opened clock env userDir files logging with
      | (desk, .error f) => desk.abort f
      | (desk, .ok session) => withSession launcher clock desk session tokens := by
  unfold run opened
  cases userDir.elim (UserDirectory.default env) .ok with
  | error f => rfl
  | ok dir =>
    simp only
    cases (Session.start files dir).result <;> rfl

def heard (clock : Clock) (desk : Desk) (read : Progress) : Desk :=
  read.warnings.foldl Desk.warn ({ desk with files := read.files }.logAll clock read.records)

theorem withSession_eq_proceed (hread : readCommandLine session desk.files tokens = (read, none)) :
    withSession launcher clock desk session tokens =
      proceed launcher clock (heard clock desk read) read.invocation read.session read.warnings := by
  simp only [withSession, hread]
  rfl

theorem run_eq_proceed (hopened : opened clock env userDir files logging = (desk, .ok session))
    (hread : readCommandLine session desk.files tokens = (read, none)) :
    run launcher clock env userDir files logging tokens =
      proceed launcher clock (heard clock desk read) read.invocation read.session
        read.warnings := by
  rw [run_eq_opened, hopened]
  exact withSession_eq_proceed hread

theorem withSession_eq_finish {e : Ending}
    (hread : readCommandLine session desk.files tokens = (read, some e)) :
    withSession launcher clock desk session tokens = finish (heard clock desk read) e := by
  simp only [withSession, hread]
  rfl

/-- The state in which a game is looked for, unless the user directory or the log cannot be made. -/
def ready (clock : Clock) (desk : Desk) (session : Session) (warnings : List Warning) :
    Desk × Except Failure Unit :=
  let (files, made) := UserDirectory.ensure desk.files session.userDir
  let desk := { desk with files }.logAll clock made.records
  match made.result with
  | .error f => (desk, .error f)
  | .ok () =>
    let (files, logging, opened) := desk.logging.setUp desk.files
      (session.userDir.child UserDirectory.logName) session.logAppend session.settings.logLevel
    let desk := { desk with files, logging }
    match opened with
    | .error f => (desk, .error f)
    | .ok file => (desk.logAll clock (openingRecords file session.logAppend warnings), .ok ())

theorem proceed_eq_ready :
    proceed launcher clock desk invocation session warnings =
      match ready clock desk session warnings with
      | (d, .error f) => d.abort f
      | (d, .ok ()) => play launcher clock d invocation session := by
  unfold proceed ready
  simp only
  cases (UserDirectory.ensure desk.files session.userDir).2.result with
  | error f => rfl
  | ok u =>
    simp only
    generalize Logging.setUp _ _ _ _ _ = opened
    obtain ⟨files, logging, f | file⟩ := opened
    · rfl
    · rfl

def sought (clock : Clock) (d : Desk) (invocation : Invocation) (session : Session) :
    Desk × Except Failure Game :=
  let d := if session.settings.searchedDirs.isEmpty then d.complain noFolderInfo else d
  let found := Library.resolve d.files invocation session
  (d.logAll clock found.records, found.result)

theorem play_eq_sought (hgiven : invocation.gamePath.isNone = false) :
    play launcher clock d invocation session =
      match sought clock d invocation session with
      | (d, .ok game) => launch launcher clock d game invocation session
      | (d, .error f) =>
        if f.isExpected then ((d.log clock (record .error f.message)).error f.message).exit 1
        else d.abort f := by
  rw [play, hgiven, if_neg (by simp)]
  unfold sought
  simp only
  split <;> rename_i hfound <;> simp only [hfound]

def coreStatus : CoreOutcome → Int
  | .exits code => code
  | .cannotStart _ => 1
  | .detaches => 0

theorem code_result (c : CoreOutcome) : (Launch.CoreOutcome.result c).code = coreStatus c := by
  cases c <;> rfl

theorem ok_result (c : CoreOutcome) :
    (Launch.CoreOutcome.result c).ok = decide (coreStatus c = 0) := by
  cases c <;> rfl

/-- How a run ends that gets to its game: it goes wrong and says so, or it starts the core once and
ends as this does. -/
inductive Plays (sur : Launch.Surroundings) (grounds : Prop) (o : Outcome Event) (code : Int) : Prop
  | wrong : ¬ grounds → o.starts = 0 → code = 1 → o.desk.EndsInLine → Plays sur grounds o code
  | started : grounds → o.starts = 1 → code = coreStatus sur.core →
      (code ≠ 0 → o.desk.EndsInLine) → Plays sur grounds o code

theorem Plays.congr {P Q : Prop} {o : Outcome Event} (hiff : P ↔ Q) (h : Plays sur P o code) :
    Plays sur Q o code :=
  propext hiff ▸ h

def CoreIsThere (fs : FileSystem) (session : Session) : Prop :=
  ∃ core, session.settings.coreExecutable = some core ∧ fs.isFile core = .ok true

theorem launch_cases (h : (launch launcher clock desk game invocation session).exit = .ok code) :
    let report := launcher desk.files game invocation session
    let o := launch launcher clock desk game invocation session
    o.events = report.events ∧ ∃ r, report.result = .ok r ∧
      (r.ok = true ∧ code = r.code ∨
        r.ok = false ∧ code = (if r.code = 0 then 1 else r.code) ∧ o.desk.EndsInLine) := by
  unfold launch at *
  simp only at h ⊢
  split at h
  · cases h
  · rename_i r hresult
    simp only [hresult]
    cases hok : r.ok with
    | true =>
      simp only [hok, if_true, Except.ok.injEq] at h ⊢
      exact ⟨trivial, r, rfl, .inl ⟨hok, h.symm⟩⟩
    | false =>
      simp only [hok, Bool.false_eq_true, if_false, Except.ok.injEq] at h ⊢
      exact ⟨trivial, r, rfl, .inr ⟨hok, h.symm, Desk.endsInLine_complain _ _⟩⟩

theorem launch_plays
    (h : (launch (Launch.run sur) clock desk game invocation session).exit = .ok code) :
    Plays sur (CoreIsThere desk.files session)
      (launch (Launch.run sur) clock desk game invocation session) code := by
  obtain ⟨hevents, r, hresult, hr⟩ := launch_cases h
  rcases Launch.run_cases sur desk.files game invocation session with
    ⟨message, hrun, hnone⟩ | ⟨f, hrun⟩ | ⟨core, hcore, hfile, hrun⟩
  · rw [hrun] at hevents hresult
    cases hresult
    obtain ⟨hok, -⟩ | ⟨-, hcode, hline⟩ := hr
    · cases hok
    · refine .wrong ?_ ?_ hcode hline
      · rintro ⟨core, hcore, hfile⟩
        rw [hnone core hcore] at hfile
        cases hfile
      · rw [Outcome.starts, hevents]
        rfl
  · rw [hrun] at hresult
    cases hresult
  · rw [hrun] at hevents hresult
    cases hresult
    refine .started ⟨core, hcore, hfile⟩ ?_ ?_ ?_
    · rw [Outcome.starts, hevents, Launch.countP_start]
    · rcases hr with ⟨-, hcode⟩ | ⟨hok, hcode, -⟩
      · rw [hcode, code_result]
      · rw [ok_result, decide_eq_false_iff_not] at hok
        rw [hcode, code_result, if_neg hok]
    · intro hcode
      rcases hr with ⟨hok, hcode'⟩ | ⟨-, -, hline⟩
      · rw [ok_result, decide_eq_true_iff] at hok
        rw [hcode', code_result] at hcode
        exact absurd hok hcode
      · exact hline

/-- All that a game needs to be played, from a state in which it is looked for. -/
structure Playable (clock : Clock) (d : Desk) (invocation : Invocation) (session : Session) :
    Prop where
  given : invocation.gamePath.isNone = false
  found : ∃ game, (sought clock d invocation session).2 = .ok game
  core : CoreIsThere (sought clock d invocation session).1.files session

theorem play_plays (h : (play (Launch.run sur) clock d invocation session).exit = .ok code) :
    Plays sur (Playable clock d invocation session)
      (play (Launch.run sur) clock d invocation session) code := by
  cases hgiven : invocation.gamePath.isNone with
  | true =>
    have hplay : play (Launch.run sur) clock d invocation session =
        (d.error noGameInfo).exit 1 := by
      rw [play, if_pos hgiven]
    rw [hplay] at h ⊢
    cases h
    refine .wrong ?_ rfl rfl (Desk.endsInLine_complain _ _)
    rintro ⟨hsome, -, -⟩
    rw [hgiven] at hsome
    cases hsome
  | false =>
    rw [play_eq_sought hgiven] at h ⊢
    rcases hsought : sought clock d invocation session with ⟨d', f | game⟩
    · have hnone : ¬ Playable clock d invocation session := by
        rintro ⟨-, ⟨game, hgame⟩, -⟩
        rw [hsought] at hgame
        cases hgame
      simp only [hsought] at h ⊢
      split at h
      · rename_i hexpected
        cases h
        rw [if_pos hexpected]
        exact .wrong hnone rfl rfl (Desk.endsInLine_complain _ _)
      · cases h
    · simp only [hsought] at h ⊢
      apply (launch_plays h).congr
      constructor
      · intro hcore
        exact ⟨hgiven, ⟨game, by rw [hsought]⟩, by rwa [hsought]⟩
      · rintro ⟨-, -, hcore⟩
        rwa [hsought] at hcore

theorem proceed_plays
    (h : (proceed (Launch.run sur) clock desk invocation session warnings).exit = .ok code) :
    Plays sur (∃ d, ready clock desk session warnings = (d, .ok ()) ∧
        Playable clock d invocation session)
      (proceed (Launch.run sur) clock desk invocation session warnings) code := by
  rw [proceed_eq_ready] at h ⊢
  rcases hready : ready clock desk session warnings with ⟨d, f | u⟩
  · simp only [hready] at h
    cases h
  · simp only [hready] at h ⊢
    apply (play_plays h).congr
    simp

/-- What a completed command leaves behind: a command that saves, the folder it names in the
settings' file. -/
inductive Saved (fs : FileSystem) (file : Path) (segs : List Segment) : Completion → Prop
  | help : Saved fs file segs .help
  | gameFolder {v : String} {s : Settings} : Segment.namedFolder segs = some v →
      Settings.load fs file = ⟨[], .ok s⟩ → s.hasInstallDir (.ofString v) = true →
        Saved fs file segs .gameFolderSaved
  | addonFolder {v : String} {s : Settings} : Segment.namedFolder segs = some v →
      Settings.load fs file = ⟨[], .ok s⟩ → s.addonDir = some (.ofString v) →
        Saved fs file segs .addonFolderSaved

theorem hasInstallDir_of_gains {s t : Settings} {p : Path} (h : s.Gains p t) :
    t.hasInstallDir p = true := by
  cases h with
  | listed hd hp => exact List.any_eq_true.2 ⟨_, hd, decide_eq_true hp⟩
  | new => simp [Settings.hasInstallDir]

theorem saved_of_readCommandLine {fs : FileSystem} {c : Completion}
    (h : readCommandLine session fs tokens = (read, some (.completed c))) :
    Saved read.files session.settingsFile (Segment.ofTokens tokens.tail) c := by
  obtain ⟨hchanged, -, hread⟩ := Progress.readCommandLine_completed h
  cases c with
  | help => exact .help
  | gameFolderSaved =>
    have hload := Settings.load_of_read (hread (by decide))
    generalize read.session.settings = settings at hchanged hload
    cases hchanged with
    | nothing hnothing => exact absurd (hnothing _ rfl) (by decide)
    | game hv hgains => exact .gameFolder hv hload (hasInstallDir_of_gains hgains)
  | addonFolderSaved =>
    have hload := Settings.load_of_read (hread (by decide))
    generalize read.session.settings = settings at hchanged hload
    cases hchanged with
    | nothing hnothing => exact absurd (hnothing _ rfl) (by decide)
    | addon hv => exact .addonFolder hv hload rfl

/-- What the exit code of a run says, once its command line has been read. -/
structure TellsTruth (sur : Launch.Surroundings) (grounds : Prop) (ending : Option Ending)
    (o : Outcome Event) (code : Int) : Prop where
  zero : code = 0 ↔ (∃ c, ending = some (.completed c)) ∨
    o.starts = 1 ∧ (sur.core = .exits 0 ∨ sur.core = .detaches)
  core : ∀ n, o.starts = 1 → sur.core = .exits n → code = n
  complaint : code ≠ 0 → o.desk.EndsInLine
  once : o.starts ≤ 1
  grounds : o.starts = 1 ↔ ending = none ∧ grounds

theorem Plays.tellsTruth {grounds : Prop} {o : Outcome Event} (h : Plays sur grounds o code) :
    TellsTruth sur grounds none o code := by
  cases h with
  | wrong hgrounds hstarts hcode hline =>
    constructor
    · simp [hcode, hstarts]
    · simp [hstarts]
    · exact fun _ ↦ hline
    · omega
    · simp [hgrounds, hstarts]
  | started hgrounds hstarts hcode hline =>
    constructor
    · rw [hcode]
      cases sur.core <;> simp [coreStatus, hstarts]
    · intro n _ hcore
      rw [hcode, hcore, coreStatus]
    · exact hline
    · omega
    · simp [hgrounds, hstarts]

theorem events_finish (desk : Desk) (e : Ending) : (finish desk e : Outcome ε).events = [] := by
  unfold finish
  split
  · rfl
  · rfl
  · split <;> rfl

theorem finish_cases {e : Ending} (h : (finish desk e : Outcome Event).exit = .ok code) :
    (finish desk e : Outcome Event).starts = 0 ∧
      ((∃ c, e = .completed c) ∧ code = 0 ∨
        (∃ f, e = .failed f) ∧ code = 1 ∧ (finish desk e : Outcome Event).desk.EndsInLine) := by
  cases e with
  | completed c =>
    cases h
    exact ⟨rfl, .inl ⟨⟨c, rfl⟩, rfl⟩⟩
  | failed f =>
    have hexpected : f.isExpected = true := by
      cases hf : f.isExpected with
      | true => rfl
      | false => cases f <;> cases hf <;> cases h
    cases f <;> cases hexpected <;> cases h <;>
      exact ⟨rfl, .inr ⟨⟨_, rfl⟩, rfl, Desk.endsInLine_complain _ _⟩⟩

theorem finish_tellsTruth {e : Ending} {grounds : Prop}
    (h : (finish desk e : Outcome Event).exit = .ok code) :
    TellsTruth sur grounds (some e) (finish desk e) code := by
  obtain ⟨hstarts, ⟨⟨c, rfl⟩, hcode⟩ | ⟨⟨f, rfl⟩, hcode, hline⟩⟩ := finish_cases h
  · constructor <;> simp [hstarts, hcode]
  · constructor
    · simp [hstarts, hcode]
    · simp [hstarts]
    · exact fun _ ↦ hline
    · omega
    · simp [hstarts]

end Run

/-- The exit code of a run that gives one is zero exactly if a command was completed or the core was
started and did not fail. The core's own code is passed on, any other end is complained of, and the
core is started at most once, exactly if a game is given and found and the core is there. -/
theorem run_tellsTruth {sur : Launch.Surroundings} {clock : Clock} {env : Environment}
    {userDir : Option Path} {files : FileSystem} {logging : Logging} {tokens : List String}
    {code : Int}
    (h : (run (Launch.run sur) clock env userDir files logging tokens).exit = .ok code) :
    ∃ desk session read ending, Run.opened clock env userDir files logging = (desk, .ok session) ∧
      readCommandLine session desk.files tokens = (read, ending) ∧
      (∀ c, ending = some (.completed c) →
        Run.Saved read.files session.settingsFile (Segment.ofTokens tokens.tail) c) ∧
      Run.TellsTruth sur (∃ d,
          Run.ready clock (Run.heard clock desk read) read.session read.warnings = (d, .ok ()) ∧
            Run.Playable clock d read.invocation read.session)
        ending (run (Launch.run sur) clock env userDir files logging tokens) code := by
  rw [Run.run_eq_opened] at h ⊢
  rcases hopened : Run.opened clock env userDir files logging with ⟨desk, f | session⟩
  · simp only [hopened] at h
    cases h
  · simp only [hopened] at h ⊢
    rcases hread : readCommandLine session desk.files tokens with ⟨read, _ | e⟩
    · refine ⟨desk, session, read, none, rfl, hread, by simp, ?_⟩
      rw [Run.withSession_eq_proceed hread] at h ⊢
      exact (Run.proceed_plays h).tellsTruth
    · refine ⟨desk, session, read, some e, rfl, hread, ?_, ?_⟩
      · intro c hc
        cases hc
        exact Run.saved_of_readCommandLine hread
      · rw [Run.withSession_eq_finish hread] at h ⊢
        exact Run.finish_tellsTruth h

theorem run_tellsTruth_failing :
    let o := run (Launch.run { env := [], core := .exits 3 }) .stopped [] (some (.ofString "user"))
      (treeWithCore "core") {} [programName, "g"]
    o.exit = .ok 3 ∧ o.starts = 1 ∧ o.desk.EndsInLine ∧
      ∃ d invocation session, Run.Playable .stopped d invocation session := by
  intro o
  have ho : o = _ := run_treeWithCore { env := [], core := .exits 3 } "core" [programName, "g"]
  have hexit : o.exit = .ok 3 := by
    rw [ho]
    rfl
  have hstarts : o.starts = 1 := by
    rw [ho]
    rfl
  obtain ⟨desk, session, read, ending, -, -, -, htruth⟩ := run_tellsTruth hexit
  obtain ⟨-, d, -, hplayable⟩ := htruth.grounds.1 hstarts
  exact ⟨hexit, hstarts, htruth.complaint (by decide), d, _, _, hplayable⟩

end GameLauncher
