import GameLauncher.Proofs.SpawnPaths

namespace GameLauncher

open Segment

variable {fs : FileSystem} {dir : Path} {segs : List Segment} {settings : Settings} {game : Game}

/-- The last value that the command line gives decides, and without one the settings do, unless the
last word on the configuration is that they do not count. -/
def FullscreenOn (segs : List Segment) (settings : Settings) : Prop :=
  lastValue .fullscreen segs = some "true" ∨
    lastValue .fullscreen segs = none ∧ lastMode segs ≠ some .clean ∧ settings.fullscreen = true

def FpsShown (segs : List Segment) (settings : Settings) : Prop :=
  occurs .showFps segs = true ∨ lastMode segs ≠ some .clean ∧ settings.showFps = true

instance : Decidable (FullscreenOn segs settings) :=
  inferInstanceAs (Decidable (_ ∨ _))

instance : Decidable (FpsShown segs settings) :=
  inferInstanceAs (Decidable (_ ∨ _))

def modeText (segs : List Segment) : String :=
  match lastMode segs with
  | some .clean => "clean"
  | some .global => "global"
  | _ => "default"

/-- What the core is told in a variable, from the command line, the loaded settings and the game. -/
def SessionVariable.told (segs : List Segment) (settings : Settings) (game : Game) :
    SessionVariable → Option String
  | gameFolder => some game.folder.text
  | fullscreen => some (if FullscreenOn segs settings then "1" else "0")
  | showFps => some (if FpsShown segs settings then "1" else "0")
  | ignoreGamePatch => some (if occurs .ignoreGamePatch segs then "1" else "0")
  | waitForDebugger => some (if occurs .waitForDebugger segs then "1" else "0")
  | configMode => some (modeText segs)
  | patchFile => (lastValue .patch segs).filter (· ≠ "")
  | addonDir => settings.addonDir.map Path.text
  | splash => game.splash.map fun s ↦ s.path.text

namespace Session

def opened (dir : Path) (settings : Settings) : Session where
  settings := settings
  settingsFile := dir.child UserDirectory.configName
  userDir := dir

theorem start_eq_ok {session : Session} (h : (start fs dir).result = .ok session) :
    ∃ settings, (Settings.load fs (dir.child UserDirectory.configName)).result = .ok settings ∧
      session = opened dir settings := by
  obtain ⟨settings, hload, h⟩ := Traced.bind_eq_ok h
  cases h
  exact ⟨settings, hload, rfl⟩

theorem baseSettings_meaning (dir : Path) (settings : Settings) (segs : List Segment) :
    (Progress.meaning (opened dir settings) fs segs).session.baseSettings =
      if lastMode segs = some .clean then {} else settings := by
  unfold baseSettings
  rcases hmode : lastMode segs with _ | _ | _ | _ <;> simp [Progress.meaning, opened, hmode]

theorem effectiveFullscreen_meaning (dir : Path) (settings : Settings) (segs : List Segment) :
    (Progress.meaning (opened dir settings) fs segs).session.effectiveFullscreen =
      decide (FullscreenOn segs settings) := by
  rw [effectiveFullscreen, baseSettings_meaning]
  cases hvalue : lastValue .fullscreen segs with
  | none =>
    by_cases hmode : lastMode segs = some .clean <;>
      simp [FullscreenOn, Progress.meaning, opened, hvalue, hmode]
  | some v => simp [FullscreenOn, Progress.meaning, hvalue]

theorem effectiveShowFps_meaning (dir : Path) (settings : Settings) (segs : List Segment) :
    (Progress.meaning (opened dir settings) fs segs).session.effectiveShowFps =
      decide (FpsShown segs settings) := by
  rw [effectiveShowFps, baseSettings_meaning]
  by_cases hmode : lastMode segs = some .clean <;>
    simp [FpsShown, Progress.meaning, opened, hmode]

end Session

theorem SessionVariable.value_meaning (v : SessionVariable) :
    let meant := Progress.meaning (.opened dir settings) fs segs
    v.value game meant.invocation meant.session = v.told segs settings game := by
  intro meant
  cases v with
  | fullscreen => simp [value, told, meant, Session.effectiveFullscreen_meaning, Launch.flagText]
  | showFps => simp [value, told, meant, Session.effectiveShowFps_meaning, Launch.flagText]
  | ignoreGamePatch => simp [value, told, meant, Progress.meaning, Session.opened, Launch.flagText]
  | patchFile => simp [value, told, meant, Progress.meaning, Session.opened]
  | configMode =>
    simp only [value, told, modeText, meant, Progress.meaning, Session.opened]
    rcases lastMode segs with _ | _ | _ | _ <;> rfl
  | gameFolder | waitForDebugger | addonDir | splash => rfl

/-- What a core is started with if the command line falls into these segments. -/
structure HandsOver (segs : List Segment) (settings : Settings) (game : Game) (base : Environment)
    (argv : List String) (cwd : String) (vars : Environment) : Prop where
  argv : ∃ core, settings.coreExecutable = some core ∧
    argv = core.text :: game.executable.text :: (gameArguments segs).take 32
  cwd : cwd = game.folder.text
  told : ∀ v : SessionVariable, vars.get? v.name = v.told segs settings game
  inherited : ∀ m, (∀ v : SessionVariable, m ≠ v.name) → vars.get? m = base.get? m

theorem Launch.handsOver_of_run {sur : Surroundings} {argv : List String} {cwd : String}
    {vars : Environment} (hbase : ∀ v : SessionVariable, sur.env.get? v.name = none)
    {read launched : FileSystem} :
    let meant := Progress.meaning (.opened dir settings) read segs
    .spawn argv cwd vars ∈ (run sur launched game meant.invocation meant.session).events →
      HandsOver segs settings game sur.env argv cwd vars := by
  intro meant h
  obtain ⟨core, hcore, -, hargv, hcwd, hvars⟩ := run_spawn h
  refine ⟨⟨core, hcore, hargv⟩, hcwd, ?_, ?_⟩
  · intro v
    rw [hvars, environment_session, hbase, Option.or_none, SessionVariable.value_meaning]
  · intro m hm
    rw [hvars, environment_other hm]

/-- What a core is started with comes from the command line, the settings that were loaded and the
game that was found for them. -/
theorem spawn_handsOver {sur : Launch.Surroundings} {clock : Clock} {env vars : Environment}
    {userDir : Option Path} {logging : Logging} {tokens argv : List String} {cwd : String}
    (h : .spawn argv cwd vars ∈ (run (Launch.run sur) clock env userDir fs logging tokens).events)
    (hbase : ∀ v : SessionVariable, sur.env.get? v.name = none) :
    ∃ dir settings segs meant found game,
      userDir.elim (UserDirectory.default env) .ok = .ok dir ∧
      (Settings.load fs (dir.child UserDirectory.configName)).result = .ok settings ∧
      CutInto tokens.tail segs ∧ meant = Progress.meaning (.opened dir settings) fs segs ∧
      fs.Grows found ∧
      (Library.resolve found meant.invocation meant.session).result = .ok game ∧
      HandsOver segs settings game sur.env argv cwd vars := by
  obtain ⟨dir, session, read, b, found, launched, game, hdir, hstart, hgrows, hread, hfound,
    hlaunches⟩ := Run.mem_events_started h
  obtain ⟨settings, hload, rfl⟩ := Session.start_eq_ok hstart
  obtain ⟨-, -, rfl⟩ := Progress.readCommandLine_eq_none hread
  refine ⟨dir, settings, ofTokens tokens.tail, _, found, game, hdir, hload, cutInto_ofTokens _, rfl,
    hgrows.trans hfound, hlaunches.resolved, ?_⟩
  exact Launch.handsOver_of_run hbase hlaunches.event

def mixedTokens : List String :=
  [programName, "-f", "false", "--config-clean", "-p", "--", "-f", "true", "g", "--config-global",
    "--show-fps", "--", "a", "--", "-f"]

def mixedVariables : Environment :=
  [("PATH", "/bin"), ("EMUCLI_GAME_FOLDER", "g"), ("EMUCLI_FULLSCREEN", "1"),
    ("EMUCLI_SHOW_FPS", "1"), ("EMUCLI_IGNORE_GAME_PATCH", "0"), ("EMUCLI_WAIT_FOR_DEBUGGER", "0"),
    ("EMUCLI_CONFIG_MODE", "global"), ("EMUCLI_PATCH_FILE", "--")]

def flaglessVariables (mode : String) : Environment :=
  [("PATH", "/bin"), ("EMUCLI_GAME_FOLDER", "g"), ("EMUCLI_FULLSCREEN", "0"),
    ("EMUCLI_SHOW_FPS", "0"), ("EMUCLI_IGNORE_GAME_PATCH", "0"), ("EMUCLI_WAIT_FOR_DEBUGGER", "0"),
    ("EMUCLI_CONFIG_MODE", mode)]

def StartsCoreWith (tokens argv : List String) (vars : Environment) : Prop :=
  (run (Launch.run { env := [("PATH", "/bin")] }) .stopped [] (some (.ofString "user"))
      (treeWithCore "core") {} tokens).events = [.spawn argv "g" vars] ∧
    ∃ settings segs game, CutInto tokens.tail segs ∧
      HandsOver segs settings game [("PATH", "/bin")] argv "g" vars

theorem spawn_handsOver_mixed :
    StartsCoreWith mixedTokens ["core", "g/eboot.bin", "a", "--", "-f"] mixedVariables ∧
      StartsCoreWith [programName, "g"] ["core", "g/eboot.bin"] (flaglessVariables "default") ∧
      StartsCoreWith [programName, "--config-global", "--config-clean", "g"]
        ["core", "g/eboot.bin"] (flaglessVariables "clean") := by
  have hbase : ∀ v : SessionVariable, Environment.get? [("PATH", "/bin")] v.name = none := by
    intro v
    cases v <;> rfl
  have hstarts : ∀ tokens argv vars,
      (run (Launch.run { env := [("PATH", "/bin")] }) .stopped [] (some (.ofString "user"))
        (treeWithCore "core") {} tokens).events = [.spawn argv "g" vars] →
      StartsCoreWith tokens argv vars := by
    intro tokens argv vars hevents
    obtain ⟨-, settings, segs, -, -, game, -, -, hcut, -, -, -, hover⟩ :=
      spawn_handsOver (hevents ▸ List.mem_singleton_self _) hbase
    exact ⟨hevents, settings, segs, game, hcut, hover⟩
  refine ⟨hstarts _ _ _ ?_, hstarts _ _ _ ?_, hstarts _ _ _ ?_⟩
  all_goals
    rw [run_treeWithCore]
    rfl

end GameLauncher
