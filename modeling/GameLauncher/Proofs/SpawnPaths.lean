import GameLauncher.Proofs.CommandLineMeaning
import GameLauncher.Proofs.JoinedPaths
import GameLauncher.Proofs.LookupRules
import GameLauncher.Proofs.SessionVariables
import GameLauncher.Proofs.SettingsRoundTrip

namespace GameLauncher

variable {fs fs' : FileSystem} {p dir folder : Path} {l k : Location}

namespace FileSystem

theorem names_parent (h : fs.Names p l) : ∃ k, fs.Names p.parent k := by
  rcases p.parts_eq_nil_or_child with hnil | ⟨q, n, rfl⟩
  · have hparent : p.parent = p := by
      obtain ⟨a, ns⟩ := p
      subst hnil
      rfl
    exact ⟨l, by rwa [hparent]⟩
  · rw [Path.parent_child]
    exact names_of_child h

end FileSystem

namespace Library

variable {invocation : Invocation} {session : Session} {game : Game}

theorem locate_eq_ok {raw : String} {dirs : List Path} {found : Path × GameSource}
    (h : (locate fs raw dirs).result = .ok found) : fs.exists? found.1 = .ok true := by
  rcases locate_cases h with ⟨-, hexists, hp⟩ | ⟨-, -, hfound⟩
  · rw [hp, hexists]
  · exact FileSystem.exists?_of_isFile (isFile_of_findInDirs hfound)

theorem narrow_eq_ok {q : Path} (hp : fs.exists? p = .ok true) (h : narrow fs p = .ok q) :
    ∃ l, fs.Names q l := by
  rcases narrow_eq_ok_cases h with ⟨-, hfile, rfl⟩ | ⟨-, rfl⟩
  · exact FileSystem.names_of_isFile hfile
  · exact FileSystem.exists?_eq_true.1 hp

theorem resolveFolder_eq_ok {executable : Path} {override : Option Path}
    (hexe : fs.Names executable l) (hover : ∀ q, override = some q → ∃ k, fs.Names q k)
    (h : resolveFolder fs executable override = .ok folder) : ∃ k, fs.Names folder k := by
  rcases resolveFolder_cases h with hsome | ⟨-, rfl | hdir⟩
  · exact hover folder hsome
  · exact FileSystem.names_parent hexe
  · exact FileSystem.names_of_isDirectory hdir

theorem probe_eq_ok {splash : Splash} (h : (Splash.probe fs folder).result = .ok (some splash)) :
    fs.isFile splash.path = .ok true := by
  unfold Splash.probe at h
  simp only at h
  split at h
  · cases h
  · cases h
  · rename_i hfile
    split at h
    · cases h
    · cases h
    · split at h
      · cases h
      · split at h
        · cases h
        · split at h <;> cases h
          exact hfile

theorem resolve_eq_ok (hover : ∀ q, invocation.folderOverride = some q → ∃ k, fs.Names q k)
    (h : (resolve fs invocation session).result = .ok game) :
    (∃ l, fs.Names game.executable l) ∧ (∃ l, fs.Names game.folder l) ∧
      ∀ splash, game.splash = some splash → ∃ l, fs.Names splash.path l := by
  obtain ⟨found, -, -, hfound, hexecutable, hfolder, hsplash⟩ := resolve_eq_game h
  obtain ⟨l, hl⟩ := narrow_eq_ok (locate_eq_ok hfound) hexecutable
  refine ⟨⟨l, hl⟩, resolveFolder_eq_ok hl hover hfolder, ?_⟩
  intro splash hsome
  exact FileSystem.names_of_isFile (probe_eq_ok (hsome ▸ hsplash))

end Library

namespace Launch

variable {sur : Surroundings} {game : Game} {invocation : Invocation} {session : Session}
  {argv : List String} {cwd : String} {vars : Environment}

theorem environment_folder (base : Environment) :
    (environment game invocation session base).get? "EMUCLI_GAME_FOLDER" =
      some game.folder.text :=
  environment_session base .gameFolder

theorem environment_splash (base : Environment) :
    (environment game invocation session base).get? "EMUCLI_SPLASH" =
      (game.splash.map fun s ↦ s.path.text).or (base.get? "EMUCLI_SPLASH") :=
  environment_session base .splash

theorem spawn_notMem_waitEvents (pid : Int) (interval : Seconds) (answers : List Bool) :
    .spawn argv cwd vars ∉ waitEvents pid interval answers := by
  fun_induction waitEvents pid interval answers <;> simp_all

theorem run_spawn (h : .spawn argv cwd vars ∈ (run sur fs game invocation session).events) :
    ∃ core, session.settings.coreExecutable = some core ∧ fs.isFile core = .ok true ∧
      argv = core.text :: game.executable.text :: passedArguments invocation.gameArgs ∧
      cwd = game.folder.text ∧ vars = environment game invocation session sur.env := by
  unfold run at h
  split at h
  · simp [refuse] at h
  · rename_i core hcore
    split at h
    · simp at h
    · simp [refuse] at h
    · rename_i hfile
      simp only [start, List.mem_append, List.mem_singleton, Event.spawn.injEq] at h
      rcases h with h | ⟨rfl, rfl, rfl⟩
      · cases hpid : invocation.waitPid with
        | none => simp [hpid] at h
        | some pid =>
          simp only [hpid, Option.elim_some] at h
          exact absurd h (spawn_notMem_waitEvents pid _ _)
      · exact ⟨core, hcore, hfile, rfl, rfl, rfl⟩

end Launch

theorem Progress.isDirectory_of_folderOverride {session : Session} {tokens : List String}
    {b : Progress} (h : readCommandLine session fs tokens = (b, none))
    (hp : b.invocation.folderOverride = some p) :
    fs.isDirectory p = .ok true := by
  obtain ⟨-, hseg, rfl⟩ := readCommandLine_eq_none h
  obtain ⟨v, hv, rfl⟩ := Option.map_eq_some_iff.1 hp
  obtain ⟨t, hmem⟩ := Segment.valued_of_lastValue hv
  exact hseg _ hmem

namespace Run

variable {ε : Type} {e : ε} {launcher : Launcher ε} {clock : Clock} {desk : Desk}
  {invocation : Invocation} {session : Session}

structure Launches (launcher : Launcher ε) (invocation : Invocation) (session : Session)
    (found launched : FileSystem) (game : Game) (e : ε) : Prop where
  grows : found.Grows launched
  resolved : (Library.resolve found invocation session).result = .ok game
  event : e ∈ (launcher launched game invocation session).events

theorem mem_events_launch {game : Game}
    (h : e ∈ (launch launcher clock desk game invocation session).events) :
    e ∈ (launcher desk.files game invocation session).events := by
  unfold launch at h
  simp only at h
  split at h
  · exact h
  · split at h <;> exact h

theorem mem_events_play (h : e ∈ (play launcher clock desk invocation session).events) :
    ∃ launched game, Launches launcher invocation session desk.files launched game e := by
  unfold play at h
  split at h
  · cases h
  · have hfiles : (if session.settings.searchedDirs.isEmpty then desk.complain noFolderInfo
        else desk).files = desk.files := by
      split <;> rfl
    simp only [hfiles] at h
    split at h
    · rename_i game hgame
      refine ⟨_, game, ?_, hgame, mem_events_launch h⟩
      have hgrows := Desk.logAll_grows
        (if session.settings.searchedDirs.isEmpty then desk.complain noFolderInfo else desk) clock
        (Library.resolve desk.files invocation session).records
      rwa [hfiles] at hgrows
    · split at h <;> cases h

theorem mem_events_proceed {warnings : List Warning}
    (h : e ∈ (proceed launcher clock desk invocation session warnings).events) :
    ∃ found launched game, desk.files.Grows found ∧
      Launches launcher invocation session found launched game e := by
  unfold proceed at h
  simp only at h
  split at h
  · cases h
  · split at h
    · cases h
    · obtain ⟨launched, game, hlaunches⟩ := mem_events_play h
      refine ⟨_, launched, game, ?_, hlaunches⟩
      have hmade := (UserDirectory.ensure_adds desk.files session.userDir).toGrows
      have hlogged := Desk.logAll_grows
        { desk with files := (UserDirectory.ensure desk.files session.userDir).1 } clock
        (UserDirectory.ensure desk.files session.userDir).2.records
      refine (hmade.trans hlogged).trans (.trans ?_ (Desk.logAll_grows _ clock _))
      exact Logging.setUp_grows _ _ _ _ _

theorem mem_events_withSession {tokens : List String}
    (h : e ∈ (withSession launcher clock desk session tokens).events) :
    ∃ b found launched game, readCommandLine session desk.files tokens = (b, none) ∧
      desk.files.Grows found ∧ Launches launcher b.invocation b.session found launched game e := by
  unfold withSession at h
  rcases hread : readCommandLine session desk.files tokens with ⟨b, _ | ending⟩
  · simp only [hread] at h
    obtain ⟨found, launched, game, hgrows, hlaunches⟩ := mem_events_proceed h
    have hfiles : b.files = desk.files := by
      obtain ⟨-, -, rfl⟩ := Progress.readCommandLine_eq_none hread
      rfl
    have hlasts := Desk.lasts_grows b.files clock
    have hlogged := hlasts.warnAll b.warnings
      (hlasts.logAll b.records (d := { desk with files := b.files }) (.refl b.files))
    rw [← hfiles]
    exact ⟨b, found, launched, game, rfl, hlogged.trans hgrows, hlaunches⟩
  · simp only [hread] at h
    unfold finish at h
    split at h
    · cases h
    · cases h
    · split at h <;> cases h

theorem mem_events_started {env : Environment} {userDir : Option Path} {logging : Logging}
    {tokens : List String} (h : e ∈ (run launcher clock env userDir fs logging tokens).events) :
    ∃ dir session read b found launched game, userDir.elim (UserDirectory.default env) .ok = .ok dir ∧
      (Session.start fs dir).result = .ok session ∧ fs.Grows read ∧
      readCommandLine session read tokens = (b, none) ∧ read.Grows found ∧
      Launches launcher b.invocation b.session found launched game e := by
  unfold run at h
  simp only at h
  split at h
  · cases h
  · rename_i dir hdir
    split at h
    · cases h
    · rename_i session hsession
      obtain ⟨b, found, launched, game, hread, hgrows, hlaunches⟩ := mem_events_withSession h
      exact ⟨dir, session, _, b, found, launched, game, hdir, hsession,
        Desk.logAll_grows { files := fs, logging := logging } clock _, hread, hgrows, hlaunches⟩

theorem mem_events_run {env : Environment} {userDir : Option Path} {logging : Logging}
    {tokens : List String} (h : e ∈ (run launcher clock env userDir fs logging tokens).events) :
    ∃ session read b found launched game, fs.Grows read ∧
      readCommandLine session read tokens = (b, none) ∧ read.Grows found ∧
      Launches launcher b.invocation b.session found launched game e := by
  obtain ⟨-, session, read, b, found, launched, game, -, -, hlaunches⟩ := mem_events_started h
  exact ⟨session, read, b, found, launched, game, hlaunches⟩

end Run

/-- What a path that is handed to the core names: what it named when it was checked, and the same
for the core, which reads it from its working directory, exactly if it is absolute or leads
there. -/
def IsHandedOver (checked launched : FileSystem) (cwd text : String) : Prop :=
  ∃ l, checked.Names (Path.ofString text) l ∧ launched.Names (Path.ofString text) l ∧
    (launched.Names ((Path.ofString cwd).join (Path.ofString text)) l ↔
      (Path.ofString text).anchor ≠ .here ∨
        ((Path.ofString cwd).join (Path.ofString text)).isTooLong = false ∧
          launched.LeadsFrom (Path.ofString cwd) (Path.ofString text) l)

theorem isHandedOver_of_names {checked launched : FileSystem} (hgrows : checked.Grows launched)
    (hfolder : launched.Names folder k) (hp : ∃ l, checked.Names p l) :
    IsHandedOver checked launched folder.text p.text := by
  obtain ⟨l, hl⟩ := hp
  have hl' := hgrows.names hl
  refine ⟨l, ?_⟩
  rw [Path.ofString_text, Path.ofString_text]
  exact ⟨hl, hl', FileSystem.names_join_iff hfolder hl'⟩

/-- What is handed to a core that is started was there when it was checked, and the core finds the
same under it exactly if it is absolute or leads there from the game's folder. -/
theorem spawn_isHandedOver {sur : Launch.Surroundings} {clock : Clock} {env vars : Environment}
    {userDir : Option Path} {logging : Logging} {tokens argv : List String} {cwd : String}
    (h : .spawn argv cwd vars ∈ (run (Launch.run sur) clock env userDir fs logging tokens).events) :
    ∃ invocation session found launched game core,
      Run.Launches (Launch.run sur) invocation session found launched game (.spawn argv cwd vars) ∧
      session.settings.coreExecutable = some core ∧ launched.isFile core = .ok true ∧
      argv = core.text :: game.executable.text :: Launch.passedArguments invocation.gameArgs ∧
      cwd = game.folder.text ∧ vars.get? "EMUCLI_GAME_FOLDER" = some game.folder.text ∧
      vars.get? "EMUCLI_SPLASH" =
        (game.splash.map fun s ↦ s.path.text).or (sur.env.get? "EMUCLI_SPLASH") ∧
      IsHandedOver launched launched cwd core.text ∧
      IsHandedOver found launched cwd game.executable.text ∧
      IsHandedOver found launched cwd game.folder.text ∧
      ∀ splash, game.splash = some splash → IsHandedOver found launched cwd splash.path.text := by
  obtain ⟨session, read, b, found, launched, game, -, hread, hfound, hlaunches⟩ :=
    Run.mem_events_run h
  have hover : ∀ q, b.invocation.folderOverride = some q → ∃ k, found.Names q k := by
    intro q hq
    have hdir := Progress.isDirectory_of_folderOverride hread hq
    exact FileSystem.names_of_isDirectory (hfound.isDirectory hdir)
  obtain ⟨hexecutable, hfolder, hsplash⟩ := Library.resolve_eq_ok hover hlaunches.resolved
  obtain ⟨core, hcore, hfile, hargv, hcwd, hvars⟩ := Launch.run_spawn hlaunches.event
  obtain ⟨k, hk⟩ := hfolder
  have hgrows := hlaunches.grows
  have hk' := hgrows.names hk
  refine ⟨b.invocation, b.session, found, launched, game, core, hlaunches, hcore, hfile, hargv,
    hcwd, ?_, ?_, ?_, ?_, ?_, ?_⟩
  · rw [hvars, Launch.environment_folder]
  · rw [hvars, Launch.environment_splash]
  · rw [hcwd]
    exact isHandedOver_of_names (.refl launched) hk' (FileSystem.names_of_isFile hfile)
  · rw [hcwd]
    exact isHandedOver_of_names hgrows hk' hexecutable
  · rw [hcwd]
    exact isHandedOver_of_names hgrows hk' ⟨k, hk⟩
  · intro splash hsome
    rw [hcwd]
    exact isHandedOver_of_names hgrows hk' (hsplash splash hsome)

def treeWithCore (core : String) : FileSystem :=
  (((FileSystem.bare []).withFile "core" []).withFile "g/eboot.bin" []).withFile "user/config.toml"
    (Text.encodeUtf8 (Settings.render { coreExecutable := some (Path.ofString core) }))

def runWithCore (core game : String) : Outcome Event :=
  run (Launch.run { env := [] }) .stopped [] (some (.ofString "user")) (treeWithCore core) {}
    [programName, game]

def plainVariables (folder : String) : Environment :=
  [("EMUCLI_GAME_FOLDER", folder), ("EMUCLI_FULLSCREEN", "0"), ("EMUCLI_SHOW_FPS", "0"),
    ("EMUCLI_IGNORE_GAME_PATCH", "0"), ("EMUCLI_WAIT_FOR_DEBUGGER", "0"),
    ("EMUCLI_CONFIG_MODE", "default")]

theorem run_treeWithCore (sur : Launch.Surroundings) (core : String) (tokens : List String) :
    run (Launch.run sur) .stopped [] (some (.ofString "user")) (treeWithCore core) {} tokens =
      Run.withSession (Launch.run sur) .stopped { files := treeWithCore core, logging := {} }
        { settings := { coreExecutable := some (Path.ofString core) },
          settingsFile := (Path.ofString "user").child UserDirectory.configName,
          userDir := Path.ofString "user" } tokens := by
  have hwalk : (treeWithCore core).walk .follow
      ((Path.ofString "user").child UserDirectory.configName) =
      .ok (.occupied (FileSystem.placeAt "user/config.toml")
        (.file (Text.encodeUtf8
          (Settings.render { coreExecutable := some (Path.ofString core) })))) := rfl
  exact run_of_load (Settings.load_of_written rfl hwalk)

theorem runWithCore_eq (core game : String) :
    runWithCore core game = Run.withSession (Launch.run { env := [] }) .stopped
      { files := treeWithCore core, logging := {} }
      { settings := { coreExecutable := some (Path.ofString core) },
        settingsFile := (Path.ofString "user").child UserDirectory.configName,
        userDir := Path.ofString "user" } [programName, game] :=
  run_treeWithCore { env := [] } core [programName, game]

theorem spawn_isHandedOver_absolute :
    .spawn ["/core", "/g/eboot.bin"] "/g" (plainVariables "/g") ∈ (runWithCore "/core" "/g").events ∧
      ∃ (launched : FileSystem) (l : Location), launched.Names (.ofString "/core") l ∧
        launched.Names ((Path.ofString "/g").join (.ofString "/core")) l := by
  have hevents : (runWithCore "/core" "/g").events =
      [.spawn ["/core", "/g/eboot.bin"] "/g" (plainVariables "/g")] := by
    rw [runWithCore_eq]
    rfl
  have h : .spawn ["/core", "/g/eboot.bin"] "/g" (plainVariables "/g") ∈
      (runWithCore "/core" "/g").events := hevents ▸ List.mem_singleton_self _
  obtain ⟨_, _, found, launched, game, core, -, -, -, hargv, -, -, -, hcore, -⟩ :=
    spawn_isHandedOver h
  injection hargv with htext
  rw [← htext] at hcore
  obtain ⟨l, -, hl, hiff⟩ := hcore
  exact ⟨h, launched, l, hl, hiff.2 (.inl (by decide))⟩

/-- Relative paths are handed over as they are, although the core reads them elsewhere. -/
theorem spawn_relative_lost :
    let outcome := runWithCore "core" "g"
    outcome.events = [.spawn ["core", "g/eboot.bin"] "g" (plainVariables "g")] ∧
      ∀ text ∈ ["core", "g/eboot.bin", "g"],
        outcome.desk.files.exists? (.ofString text) = .ok true ∧
          outcome.desk.files.exists? ((Path.ofString "g").join (.ofString text)) = .ok false := by
  intro outcome
  have houtcome : outcome = _ := runWithCore_eq "core" "g"
  rw [houtcome]
  refine ⟨rfl, ?_⟩
  intro text htext
  simp only [List.mem_cons, List.not_mem_nil, or_false] at htext
  rcases htext with rfl | rfl | rfl
  · exact ⟨rfl, rfl⟩
  · exact ⟨rfl, rfl⟩
  · exact ⟨rfl, rfl⟩

end GameLauncher
