import GameLauncher.Proofs.FolderSaving
import GameLauncher.Proofs.KeptSettings

namespace GameLauncher

variable {fs fs' : FileSystem} {p dir : Path} {l k : Location} {c : Bytes} {s s' : Settings}

namespace Run

variable {ε : Type} {launcher : Launcher ε} {clock : Clock} {desk : Desk}
  {invocation : Invocation} {session : Session} {code : Int}

theorem setUp_keeps (h : desk.Keeps dir s)
    (hmade : (UserDirectory.ensure desk.files dir).2.result = .ok ())
    {append : Bool} {level : String} {files : FileSystem} {logging : Logging} {file : Path}
    (hsetUp : desk.logging.setUp (UserDirectory.ensure desk.files dir).1
      (dir.child UserDirectory.logName) append level = (files, logging, .ok file)) :
    ({ desk with files, logging } : Desk).Keeps dir s := by
  obtain ⟨-, hexists⟩ := UserDirectory.ensure_eq_ok hmade
  rw [Logging.setUp_eq] at hsetUp
  rcases hlog : (UserDirectory.ensure desk.files dir).1.makeDirectories
    (dir.child UserDirectory.logName) with ⟨fs₁, f | u⟩
  · simp [hlog] at hsetUp
  · have hprepared : UserDirectory.prepared desk.files dir = fs₁ := by
      rw [UserDirectory.prepared, hlog]
    have hadds := (UserDirectory.ensure desk.files dir).1.makeDirectories_adds
      (dir.child UserDirectory.logName)
    rw [hlog] at hadds
    have hready : UserDirectory.IsReady fs₁ dir :=
      ⟨hadds.exists? hexists, FileSystem.isDirectory_of_makeDirectories hlog⟩
    have hkept : s.Kept fs₁ dir := hprepared ▸ h.kept.prepare (hprepared ▸ hready)
    simp only [hlog] at hsetUp
    split at hsetUp
    · simp at hsetUp
    · split at hsetUp
      · simp at hsetUp
      · rename_i hopen
        simp only [Prod.mk.injEq] at hsetUp
        obtain ⟨rfl, rfl, -⟩ := hsetUp
        obtain ⟨l, kept, htakes, hlead, rfl, hplace⟩ := Logging.openFile_eq_ok hopen
        have hgrows := FileSystem.Grows.put_file htakes kept
        refine ⟨hkept.put_log hready htakes hlead, ?_, fun _ ↦ hready.grows hgrows⟩
        intro f hf k hk
        simp only [List.mem_singleton] at hf
        rw [hf, hplace, Option.some.injEq] at hk
        simp only [Logging.openedPath_grows hgrows, hgrows.lead]
        exact hk ▸ hlead

theorem proceed_keeps (h : desk.Keeps session.userDir s) {warnings : List Warning}
    (hexit : (proceed launcher clock desk invocation session warnings).exit = .ok code) :
    (proceed launcher clock desk invocation session warnings).desk.Keeps session.userDir s := by
  unfold proceed at hexit ⊢
  simp only at hexit ⊢
  rcases hmade : (UserDirectory.ensure desk.files session.userDir).2.result with f | u
  · simp [hmade, Desk.abort] at hexit
  · obtain ⟨hrecords, -⟩ := UserDirectory.ensure_eq_ok hmade
    simp only [hmade, hrecords, Desk.logAll, List.foldl_nil] at hexit ⊢
    rcases hsetUp : desk.logging.setUp (UserDirectory.ensure desk.files session.userDir).1
      (session.userDir.child UserDirectory.logName) session.logAppend session.settings.logLevel with
      ⟨files, logging, f | file⟩
    · simp [hsetUp, Desk.abort] at hexit
    · simp only
      have hkeeps := setUp_keeps h hmade hsetUp
      exact play_lasts (Desk.lasts_keeps _ s clock) launcher invocation session
        ((Desk.lasts_keeps _ s clock).logAll _ hkeeps)

theorem finish_eq_ok {e : Ending} (h : (finish desk e : Outcome ε).exit = .ok code) :
    (finish desk e : Outcome ε).desk.files = desk.files ∧
      (finish desk e : Outcome ε).desk.logging = desk.logging ∧
      ∀ f, e = .failed f → f.isExpected = true := by
  unfold finish at h ⊢
  split
  · refine ⟨rfl, rfl, ?_⟩
    intro f hf
    cases hf
  · refine ⟨rfl, rfl, ?_⟩
    intro f hf
    cases hf
    rfl
  · simp only at h
    split at h
    · rename_i hexpected
      rw [if_pos hexpected]
      refine ⟨rfl, rfl, ?_⟩
      intro g hg
      cases hg
      exact hexpected
    · cases h

theorem withSession_keeps (h : desk.Keeps session.userDir session.settings)
    (hfile : session.settingsFile = session.userDir.child UserDirectory.configName)
    {tokens : List String}
    (hexit : (withSession launcher clock desk session tokens).exit = .ok code) :
    ∃ s, session.settings.ChangedBy (Segment.ofTokens tokens.tail)
        (readCommandLine session desk.files tokens).2 s ∧
      (withSession launcher clock desk session tokens).desk.Keeps session.userDir s := by
  unfold withSession at hexit ⊢
  rcases hread : readCommandLine session desk.files tokens with ⟨b, e⟩
  simp only [hread] at hexit ⊢
  have hmid : ∀ s, ({ desk with files := b.files } : Desk).Keeps session.userDir s →
      (b.warnings.foldl Desk.warn ({ desk with files := b.files }.logAll clock b.records)).Keeps
        session.userDir s := by
    intro s hs
    have hlasts := Desk.lasts_keeps session.userDir s clock
    exact hlasts.warnAll _ (hlasts.logAll _ hs)
  -- Before the log is set up, only the saving of a folder writes to the tree.
  rcases Progress.readCommandLine_cases hread with ⟨hsame, hnothing⟩ |
    ⟨m, v, kept, c, hsame, hfolder, hsaving, hpersist⟩
  · refine ⟨session.settings, .nothing hnothing, ?_⟩
    have hkeeps := hmid session.settings (h.congr hsame.files rfl)
    cases e with
    | none =>
      rw [← hsame.userDir] at hkeeps ⊢
      exact proceed_keeps hkeeps hexit
    | some e =>
      obtain ⟨hfiles, hlogging, -⟩ := finish_eq_ok hexit
      exact hkeeps.congr hfiles hlogging
  · obtain ⟨hfiles, ⟨hsaved, rfl⟩ | ⟨f, hf, rfl⟩⟩ := Progress.persist_cases hpersist
    · have hsave : kept.save m.files =
          kept.settings.save desk.files (session.userDir.child UserDirectory.configName) := by
        rw [Session.save, hsame.files, hsaving.settingsFile, hsame.settingsFile, hfile]
      rw [hsave] at hsaved hfiles
      have hchanged := hsaving.changedBy hfolder
      rw [hsame.settings] at hchanged
      have hkeeps := hmid kept.settings ((h.save hsaved).congr hfiles rfl)
      obtain ⟨hfiles, hlogging, -⟩ := finish_eq_ok hexit
      exact ⟨kept.settings, hchanged, hkeeps.congr hfiles hlogging⟩
    · obtain ⟨-, -, hexpected⟩ := finish_eq_ok hexit
      have htrue := hexpected f rfl
      rw [hf.isExpected_eq_false] at htrue
      cases htrue

def printed : Option Ending → String
  | some (.completed c) => Text.Console.printed c.message
  | some (.failed .noArguments) => Text.Console.printed Usage.text
  | _ => ""

theorem proceed_stdout (launcher : Launcher ε) (clock : Clock) (desk : Desk)
    (invocation : Invocation) (session : Session) (warnings : List Warning) :
    (proceed launcher clock desk invocation session warnings).desk.stdout = desk.stdout := by
  have hlasts := Desk.lasts_stdout desk.stdout clock
  unfold proceed
  simp only
  split
  · exact hlasts.logAll _ rfl
  · split
    · exact hlasts.logAll _ rfl
    · exact play_lasts hlasts launcher invocation session
        (hlasts.logAll _ (hlasts.logAll (d := { desk with files := _ }) _ rfl))

theorem finish_stdout (h : desk.stdout = "") (e : Ending) :
    (finish desk e : Outcome ε).desk.stdout = printed (some e) := by
  unfold finish
  split
  · simp [Desk.exit, Desk.print, h, printed]
  · simp [Desk.exit, Desk.print, Desk.complain, h, printed]
  · rename_i f hf
    have hsilent : printed (some (.failed f)) = "" := by
      cases f <;> first | exact absurd rfl hf | rfl
    rw [hsilent]
    split <;> exact h

theorem withSession_stdout (h : desk.stdout = "") (launcher : Launcher ε) (clock : Clock)
    (session : Session) (tokens : List String) :
    (withSession launcher clock desk session tokens).desk.stdout =
      printed (readCommandLine session desk.files tokens).2 := by
  have hlasts := Desk.lasts_stdout "" clock
  unfold withSession
  rcases readCommandLine session desk.files tokens with ⟨b, e⟩
  have hmid := hlasts.warnAll b.warnings
    (hlasts.logAll b.records (d := { desk with files := b.files }) h)
  cases e with
  | none => exact (proceed_stdout ..).trans hmid
  | some e => exact finish_stdout hmid e

end Run

/-- A run on a user directory. In a new process no log file is open. -/
structure Visit (ε : Type) where
  launcher : Launcher ε
  clock : Clock
  env : Environment
  isNewProcess : Bool
  tokens : List String

namespace Visit

variable {ε : Type} {v : Visit ε} {visits : List (Visit ε)} {start d : Desk} {code : Int}

def desk (v : Visit ε) (d : Desk) : Desk :=
  { files := d.files, logging := if v.isNewProcess then {} else d.logging }

def run (v : Visit ε) (dir : Path) (d : Desk) : Outcome ε :=
  GameLauncher.run v.launcher v.clock v.env (some dir) (v.desk d).files (v.desk d).logging v.tokens

def ending (v : Visit ε) (dir : Path) (d : Desk) : Option Ending :=
  let started := Session.start d.files dir
  match started.result with
  | .ok session =>
    (readCommandLine session ((v.desk d).logAll v.clock started.records).files v.tokens).2
  | .error _ => none

inductive History (dir : Path) (start : Desk) : List (Visit ε) → Desk → Prop
  | nil : History dir start [] start
  | snoc {visits : List (Visit ε)} {d : Desk} {v : Visit ε} {code : Int} :
      History dir start visits d → (v.run dir d).exit = .ok code →
        History dir start (visits ++ [v]) (v.run dir d).desk

theorem start_result
    (hload : (Settings.load fs (dir.child UserDirectory.configName)).result = .ok s) :
    (Session.start fs dir).result = .ok
      { settings := s, settingsFile := dir.child UserDirectory.configName, userDir := dir } := by
  simp only [Session.start, bind, Traced.bind, hload]
  rfl

theorem stdout_run (v : Visit ε) (dir : Path) (d : Desk) :
    (v.run dir d).desk.stdout = Run.printed (v.ending dir d) := by
  have hlasts := Desk.lasts_stdout "" v.clock
  unfold run GameLauncher.run ending
  simp only [Option.elim_some]
  have hfiles : (v.desk d).files = d.files := rfl
  rw [hfiles]
  have hstart := hlasts.logAll (Session.start d.files dir).records
    (d := { files := d.files, logging := (v.desk d).logging }) rfl
  cases (Session.start d.files dir).result with
  | error f => exact hstart
  | ok session => exact Run.withSession_stdout hstart v.launcher v.clock session v.tokens

theorem desk_keeps (h : d.Keeps dir s) (v : Visit ε) : (v.desk d).Keeps dir s := by
  unfold desk
  split
  · refine ⟨h.kept, ?_, ?_⟩
    · intro f hf
      cases hf
    · intro hopen
      exact absurd rfl hopen
  · exact h.congr rfl rfl

theorem run_keeps (h : d.Keeps dir s) (hexit : (v.run dir d).exit = .ok code) :
    ∃ s', s.ChangedBy (Segment.ofTokens v.tokens.tail) (v.ending dir d) s' ∧
      (v.run dir d).desk.Keeps dir s' := by
  have hstart := start_result h.kept.loaded
  have hkeeps := (Desk.lasts_keeps dir s v.clock).logAll (Session.start d.files dir).records
    (desk_keeps h v)
  unfold run GameLauncher.run at hexit ⊢
  unfold ending
  have hfiles : (v.desk d).files = d.files := rfl
  simp only [Option.elim_some, hfiles, hstart] at hexit ⊢
  exact Run.withSession_keeps hkeeps rfl hexit

end Visit

/-- Settings as they become when folders are added: everything else stays, and no directory is
listed twice that was not before. -/
structure Settings.Extends (s s' : Settings) : Prop where
  installDirs : ∃ added, s'.installDirs = s.installDirs ++ added ∧
    (∀ d ∈ added, d.enabled = true ∧ s.hasInstallDir d.path = false) ∧
    (added.map InstallDir.path).Nodup
  fullscreen : s'.fullscreen = s.fullscreen
  showFps : s'.showFps = s.showFps
  coreExecutable : s'.coreExecutable = s.coreExecutable
  logLevel : s'.logLevel = s.logLevel

namespace Settings

theorem Extends.refl (s : Settings) : Extends s s :=
  ⟨⟨[], by simp⟩, rfl, rfl, rfl, rfl⟩

theorem Extends.gains {p : Path} {t : Settings} (h : Extends s s') (hgains : s'.Gains p t) :
    Extends s t := by
  cases hgains with
  | listed => exact h
  | new hother =>
    obtain ⟨⟨added, hadded, hfresh, hdistinct⟩, hfullscreen, hfps, hcore, hlevel⟩ := h
    rw [hadded] at hother
    refine ⟨⟨added ++ [⟨p, true⟩], ?_, ?_, ?_⟩, hfullscreen, hfps, hcore, hlevel⟩
    · rw [hadded, List.append_assoc]
    · intro d hd
      rcases List.mem_append.1 hd with hd | hd
      · exact hfresh d hd
      · rw [List.mem_singleton] at hd
        subst hd
        refine ⟨rfl, List.any_eq_false.2 ?_⟩
        intro d hd
        simpa using hother d (List.mem_append_left added hd)
    · rw [List.map_append, List.nodup_append]
      refine ⟨hdistinct, by simp, ?_⟩
      intro a ha b hb
      obtain ⟨d, hd, rfl⟩ := List.mem_map.1 ha
      simp only [List.map_cons, List.map_nil, List.mem_singleton] at hb
      exact hb ▸ hother d (List.mem_append_right _ hd)

theorem Extends.changedBy {segs : List Segment} {e : Option Ending} {t : Settings}
    (h : Extends s s') (hchanged : s'.ChangedBy segs e t) : Extends s t := by
  cases hchanged with
  | nothing => exact h
  | game _ hgains => exact h.gains hgains
  | addon => exact ⟨h.installDirs, h.fullscreen, h.showFps, h.coreExecutable, h.logLevel⟩

end Settings

theorem Visit.history_keeps {ε : Type} {visits : List (Visit ε)} {start d : Desk}
    (hstart : start.Keeps dir s) (h : History dir start visits d) :
    ∃ s', s.Extends s' ∧ d.Keeps dir s' := by
  induction h with
  | nil => exact ⟨s, .refl s, hstart⟩
  | snoc _ hexit ih =>
    obtain ⟨s', hextends, hkeeps⟩ := ih
    obtain ⟨t, hchanged, hkeeps'⟩ := run_keeps hkeeps hexit
    exact ⟨t, hextends.changedBy hchanged, hkeeps'⟩

/-- Over any history of visits that return, only the commands that say so change what is kept, and
it is on the console that they say so. -/
theorem Visit.settings_history {ε : Type} {visits : List (Visit ε)} {d : Desk}
    (hloaded : (Settings.load fs (dir.child UserDirectory.configName)).result = .ok s)
    (hprepared : (Settings.load (UserDirectory.prepared fs dir)
      (dir.child UserDirectory.configName)).result = .ok s)
    (hapart : ∀ l, fs.lead (dir.child UserDirectory.configName) = some l →
      fs.lead (Logging.openedPath fs dir) ≠ some l)
    (h : History dir { files := fs, logging := {} } visits d) :
    ∃ s', (Settings.load d.files (dir.child UserDirectory.configName)).result = .ok s' ∧
      s.Extends s' ∧ ∀ (v : Visit ε) code, (v.run dir d).exit = .ok code →
        (v.run dir d).desk.stdout = Run.printed (v.ending dir d) ∧
        ∃ t, s'.ChangedBy (Segment.ofTokens v.tokens.tail) (v.ending dir d) t ∧
          (Settings.load (v.run dir d).desk.files (dir.child UserDirectory.configName)).result =
            .ok t := by
  have hstart : Desk.Keeps { files := fs, logging := {} } dir s := by
    refine ⟨⟨hloaded, hprepared, hapart⟩, ?_, ?_⟩
    · intro f hf
      cases hf
    · intro hopen
      exact absurd rfl hopen
  obtain ⟨s', hextends, hkeeps⟩ := history_keeps hstart h
  refine ⟨s', hkeeps.kept.loaded, hextends, ?_⟩
  intro v code hexit
  obtain ⟨t, hchanged, hkeeps'⟩ := run_keeps hkeeps hexit
  exact ⟨v.stdout_run dir d, t, hchanged, hkeeps'.kept.loaded⟩

namespace Visit

def plain (args : List String) : Visit Event where
  launcher := Launch.run { env := [] }
  clock := .stopped
  env := []
  isNewProcess := true
  tokens := programName :: args

def rootAdded : Settings := { installDirs := [⟨.ofString "/", true⟩] }

theorem settings_history_adding :
    let fs := FileSystem.bare []
    let dir := Path.ofString "user"
    let start : Desk := { files := fs, logging := {} }
    let adding := plain ["--add-game-folder", "/"]
    let d := (adding.run dir start).desk
    (Settings.load fs (dir.child UserDirectory.configName)).result = .ok {} ∧
      History dir start [adding] d ∧ d.stdout = "Game folder successfully saved.\n" ∧
      (Settings.load d.files (dir.child UserDirectory.configName)).result = .ok rootAdded ∧
      ({} : Settings).Extends rootAdded ∧
      ∀ (v : Visit Event) code, (v.run dir d).exit = .ok code →
        (v.run dir d).desk.stdout = Run.printed (v.ending dir d) ∧
        ∃ t, rootAdded.ChangedBy (Segment.ofTokens v.tokens.tail) (v.ending dir d) t ∧
          (Settings.load (v.run dir d).desk.files (dir.child UserDirectory.configName)).result =
            .ok t := by
  intro fs dir start adding d
  have hloaded : (Settings.load fs (dir.child UserDirectory.configName)).result = .ok {} := rfl
  have hprepared : (Settings.load (UserDirectory.prepared fs dir)
      (dir.child UserDirectory.configName)).result = .ok {} := rfl
  have hconfig : fs.lead (dir.child UserDirectory.configName) =
      some (FileSystem.placeAt "user/config.toml") := rfl
  have hlog : fs.lead (Logging.openedPath fs dir) =
      some (FileSystem.placeAt "user/log/emucli.log") := rfl
  have hapart : ∀ l, fs.lead (dir.child UserDirectory.configName) = some l →
      fs.lead (Logging.openedPath fs dir) ≠ some l := by
    rw [hconfig, hlog]
    rintro l ⟨⟩
    decide
  have hexit : (adding.run dir start).exit = .ok 0 := rfl
  have hfolder : Segment.namedFolder (Segment.ofTokens adding.tokens.tail) = some "/" := by decide
  have hending : adding.ending dir start = some (.completed .gameFolderSaved) := rfl
  obtain ⟨s, hs, -, hfirst⟩ := settings_history hloaded hprepared hapart (.nil : History dir _ _ _)
  cases hloaded.symm.trans hs
  obtain ⟨-, t, hchanged, ht⟩ := hfirst adding 0 hexit
  rw [hending] at hchanged
  obtain rfl : t = rootAdded := by
    cases hchanged with
    | nothing hnothing => exact absurd (hnothing _ rfl) (by decide)
    | game hv hgains =>
      cases hfolder.symm.trans hv
      cases hgains with
      | listed hd => cases hd
      | new => rfl
  have h : History dir start [adding] d := .snoc .nil hexit
  obtain ⟨s', hs', hextends, hvisits⟩ := settings_history hloaded hprepared hapart h
  cases ht.symm.trans hs'
  exact ⟨hloaded, h, rfl, hs', hextends, hvisits⟩

/-- A visit that returns and saves nothing, and after which other settings are loaded, although
their file and the log's are spelled so that they lead apart. -/
def ChangesSilently (v : Visit Event) (dir : Path) (fs : FileSystem) : Prop :=
  ∃ s t code, (Settings.load fs (dir.child UserDirectory.configName)).result = .ok s ∧
    fs.lead (dir.child UserDirectory.configName) ≠
      fs.lead ((dir.child UserDirectory.logName).child Logging.fileName) ∧
    (v.run dir { files := fs, logging := {} }).exit = .ok code ∧
    Progress.SavesNothing (v.ending dir { files := fs, logging := {} }) ∧
    (Settings.load (v.run dir { files := fs, logging := {} }).desk.files
      (dir.child UserDirectory.configName)).result = .ok t ∧
    t ≠ s

/-- Settings in `b`, which `a/../b` leads to only once there is an `a`. -/
def beforeMissing : FileSystem :=
  (FileSystem.bare []).withFile "b/config.toml"
    (Text.encodeUtf8 (Settings.render { showFps := true }))

def quiet : Settings := { showFps := true, logLevel := "CRITICAL" }

/-- Settings in `x/u`, which `l/../u` leads to, and in `u`, which is what is left of `l/../u`
without the double dots, a log that is a link to them. -/
def behindLink : FileSystem :=
  let made := ((FileSystem.bare []).withDirectory (FileSystem.placeAt "x/y")).withDirectory
    (FileSystem.placeAt "u/log")
  let linked := (made.put (FileSystem.placeAt "l") (.link "x/y")).put
    (FileSystem.placeAt "u/log/emucli.log") (.link "../../x/u/config.toml")
  linked.withFile "x/u/config.toml" (Text.encodeUtf8 quiet.render)

theorem changesSilently_beforeMissing :
    (plain ["--show-fps"]).ChangesSilently (.ofString "a/../b") beforeMissing := by
  have hwalk : ((plain ["--show-fps"]).run (.ofString "a/../b")
      { files := beforeMissing, logging := {} }).desk.files.walk .follow
        ((Path.ofString "a/../b").child UserDirectory.configName) =
      .ok (.occupied (FileSystem.placeAt "b/config.toml")
        (.file (Text.encodeUtf8 (Settings.render { showFps := true })))) := rfl
  have hload := Settings.load_of_written rfl hwalk
  exact ⟨{}, { showFps := true }, 1, rfl, by decide, rfl, Progress.savesNothing_none, by rw [hload],
    by decide⟩

theorem ending_of_load {v : Visit Event}
    (h : Settings.load fs (dir.child UserDirectory.configName) = ⟨[], .ok s⟩) :
    v.ending dir { files := fs, logging := {} } = (readCommandLine
      { settings := s, settingsFile := dir.child UserDirectory.configName, userDir := dir }
      fs v.tokens).2 := by
  simp only [ending, start_of_load h, Desk.logAll, List.foldl_nil, desk]

theorem changesSilently_behindLink :
    (plain ["--show-fps"]).ChangesSilently (.ofString "l/../u") behindLink := by
  have hwalk : behindLink.walk .follow ((Path.ofString "l/../u").child UserDirectory.configName) =
      .ok (.occupied (FileSystem.placeAt "x/u/config.toml")
        (.file (Text.encodeUtf8 quiet.render))) := rfl
  have hload := Settings.load_of_written rfl hwalk
  have hrun :
      (plain ["--show-fps"]).run (.ofString "l/../u") { files := behindLink, logging := {} } =
      Run.withSession (Launch.run { env := [] }) .stopped { files := behindLink, logging := {} }
        { settings := quiet, settingsFile := .ofString "l/../u/config.toml",
          userDir := .ofString "l/../u" } [programName, "--show-fps"] := run_of_load hload
  have hwalk' : ((plain ["--show-fps"]).run (.ofString "l/../u")
      { files := behindLink, logging := {} }).desk.files.walk .follow
        ((Path.ofString "l/../u").child UserDirectory.configName) =
      .ok (.occupied (FileSystem.placeAt "x/u/config.toml") (.file [])) := by
    rw [hrun]
    rfl
  refine ⟨quiet, {}, 1, by rw [hload], by decide, ?_, ?_, ?_, by decide⟩
  · rw [hrun]
    rfl
  · rw [ending_of_load hload]
    exact Progress.savesNothing_none
  · rw [Settings.load_of_walk rfl hwalk']
    rfl

/-- Neither the directories that a run makes nor the spelling of the log's path can be left out. -/
theorem changesSilently :
    (plain ["--show-fps"]).ChangesSilently (.ofString "a/../b") beforeMissing ∧
      (plain ["--show-fps"]).ChangesSilently (.ofString "l/../u") behindLink :=
  ⟨changesSilently_beforeMissing, changesSilently_behindLink⟩

end Visit

end GameLauncher
