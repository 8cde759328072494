import GameLauncher.Proofs.RunOutline
import Mathlib.Data.List.Forall2

namespace GameLauncher

variable {fs fs' : FileSystem} {P : Location → Prop} {dir : Path}

/-- Events that are the same, but for what a core is told in variables outside a set of names. -/
def Event.AgreeOn (Q : String → Prop) : Event → Event → Prop
  | .spawn argv cwd vars, .spawn argv' cwd' vars' =>
    argv' = argv ∧ cwd' = cwd ∧ ∀ m, Q m → vars'.get? m = vars.get? m
  | e, e' => e' = e

theorem Event.agreeOn_refl (Q : String → Prop) (e : Event) : e.AgreeOn Q e := by
  cases e with
  | spawn argv cwd vars => exact ⟨rfl, rfl, fun _ _ ↦ rfl⟩
  | poll | sleep => rfl

namespace Launch

variable {sur : Surroundings} {game : Game} {invocation : Invocation} {session session' : Session}

theorem events_run (sur : Surroundings) (fs : FileSystem) (game : Game) (invocation : Invocation)
    (hcore : session'.settings.coreExecutable = session.settings.coreExecutable) :
    (run sur fs game invocation session).events = [] ∧
        (run sur fs game invocation session').events = [] ∨
      ∃ before argv,
        (run sur fs game invocation session).events = before ++
          [.spawn argv game.folder.text (environment game invocation session sur.env)] ∧
        (run sur fs game invocation session').events = before ++
          [.spawn argv game.folder.text (environment game invocation session' sur.env)] := by
  unfold run
  rw [hcore]
  cases session.settings.coreExecutable with
  | none => exact .inl ⟨rfl, rfl⟩
  | some core =>
    simp only
    rcases fs.isFile core with f | _ | _
    · exact .inl ⟨rfl, rfl⟩
    · exact .inl ⟨rfl, rfl⟩
    · exact .inr ⟨_, _, rfl, rfl⟩

theorem forall₂_concat_iff {α : Type} {R : α → α → Prop} (hR : ∀ a, R a a) (before : List α)
    (a b : α) : List.Forall₂ R (before ++ [a]) (before ++ [b]) ↔ R a b := by
  rw [← List.forall₂_reverse_iff, List.reverse_concat, List.reverse_concat, List.forall₂_cons,
    List.forall₂_same]
  simp [hR]

theorem get?_environment_congr {base : Environment} {v : SessionVariable}
    (h : ∀ w : SessionVariable, w ≠ v →
      w.value game invocation session' = w.value game invocation session)
    {m : String} (hm : m ≠ v.name) :
    (environment game invocation session' base).get? m =
      (environment game invocation session base).get? m := by
  by_cases hname : ∃ w : SessionVariable, m = w.name
  · obtain ⟨w, rfl⟩ := hname
    rw [environment_session, environment_session, h w fun hw ↦ hm (hw ▸ rfl)]
  · rw [environment_other fun w hw ↦ hname ⟨w, hw⟩, environment_other fun w hw ↦ hname ⟨w, hw⟩]

end Launch

namespace Run

variable {sur : Launch.Surroundings} {s s' : Settings} {segs : List Segment}

def toldAddonDir (sur : Launch.Surroundings) (s : Settings) : Option String :=
  (s.addonDir.map Path.text).or (sur.env.get? "EMUCLI_ADDON_DIR")

theorem value_clean {game : Game} (hmode : Segment.lastMode segs = some .clean)
    {v : SessionVariable} (hv : v ≠ .addonDir) :
    let meant := Progress.meaning (.opened dir s) fs segs
    let meant' := Progress.meaning (.opened dir s') fs segs
    v.value game meant.invocation meant'.session = v.value game meant.invocation meant.session := by
  intro meant meant'
  have hvalue : v.value game meant.invocation meant.session = v.told segs s game :=
    v.value_meaning
  have hvalue' : v.value game meant.invocation meant'.session = v.told segs s' game :=
    v.value_meaning
  rw [hvalue, hvalue']
  cases v with
  | addonDir => exact absurd rfl hv
  | fullscreen | showFps => simp [SessionVariable.told, FullscreenOn, FpsShown, hmode]
  | gameFolder | ignoreGamePatch | waitForDebugger | configMode | patchFile | splash => rfl

theorem playEvents_cases (sur : Launch.Surroundings) (base : FileSystem) (invocation : Invocation)
    {session session' : Session}
    (hresolve : Library.resolve base invocation session' = Library.resolve base invocation session)
    (hcore : session'.settings.coreExecutable = session.settings.coreExecutable) :
    playEvents sur base invocation session = [] ∧ playEvents sur base invocation session' = [] ∨
      ∃ before argv, ∃ game : Game,
        playEvents sur base invocation session = before ++ [.spawn argv game.folder.text
          (Launch.environment game invocation session sur.env)] ∧
        playEvents sur base invocation session' = before ++ [.spawn argv game.folder.text
          (Launch.environment game invocation session' sur.env)] := by
  simp only [playEvents, hresolve]
  cases invocation.gamePath.isNone with
  | true => exact .inl ⟨rfl, rfl⟩
  | false =>
    rw [if_neg Bool.false_ne_true, if_neg Bool.false_ne_true]
    rcases (Library.resolve base invocation session).result with f | game
    · exact .inl ⟨rfl, rfl⟩
    · rcases Launch.events_run sur base game invocation hcore with
        hnone | ⟨before, argv, hrun, hrun'⟩
      · exact .inl hnone
      · exact .inr ⟨before, argv, game, hrun, hrun'⟩

theorem playEvents_clean (sur : Launch.Surroundings) (fs base : FileSystem) (dir : Path)
    (hmode : Segment.lastMode segs = some .clean) (hdirs : s'.installDirs = s.installDirs)
    (hcore : s'.coreExecutable = s.coreExecutable) :
    let meant := Progress.meaning (.opened dir s) fs segs
    let meant' := Progress.meaning (.opened dir s') fs segs
    let events := playEvents sur base meant.invocation meant.session
    let events' := playEvents sur base meant'.invocation meant'.session
    List.Forall₂ (Event.AgreeOn (· ≠ "EMUCLI_ADDON_DIR")) events events' ∧
      (List.Forall₂ (Event.AgreeOn fun _ ↦ True) events events' ↔
        events = [] ∧ events' = [] ∨ toldAddonDir sur s = toldAddonDir sur s') := by
  intro meant meant' events events'
  have hsearched : meant'.session.settings.searchedDirs = meant.session.settings.searchedDirs :=
    congrArg (fun dirs : List InstallDir ↦ (dirs.filter InstallDir.enabled).map InstallDir.path)
      hdirs
  have hresolve : Library.resolve base meant.invocation meant'.session =
      Library.resolve base meant.invocation meant.session := by
    simp only [Library.resolve, hsearched]
  have hinvocation : meant'.invocation = meant.invocation := rfl
  simp only [events, events', hinvocation]
  obtain ⟨hnone, hnone'⟩ | ⟨before, argv, game, hspawn, hspawn'⟩ :=
    playEvents_cases sur base meant.invocation hresolve hcore
  · rw [hnone, hnone']
    exact ⟨.nil, by simp⟩
  · rw [hspawn, hspawn']
    have hother : ∀ m, m ≠ "EMUCLI_ADDON_DIR" →
        (Launch.environment game meant.invocation meant'.session sur.env).get? m =
          (Launch.environment game meant.invocation meant.session sur.env).get? m := fun m hm ↦
      Launch.get?_environment_congr (v := .addonDir) (fun w hw ↦ value_clean hmode hw) hm
    have htold : (Launch.environment game meant.invocation meant.session sur.env).get?
        "EMUCLI_ADDON_DIR" = toldAddonDir sur s := Launch.environment_session sur.env .addonDir
    have htold' : (Launch.environment game meant.invocation meant'.session sur.env).get?
        "EMUCLI_ADDON_DIR" = toldAddonDir sur s' := Launch.environment_session sur.env .addonDir
    rw [Launch.forall₂_concat_iff (Event.agreeOn_refl _),
      Launch.forall₂_concat_iff (Event.agreeOn_refl _)]
    refine ⟨⟨rfl, rfl, hother⟩, ?_⟩
    constructor
    · rintro ⟨-, -, hall⟩
      refine .inr ?_
      rw [← htold, ← htold', hall _ trivial]
    · rintro (⟨hnil, -⟩ | hsame)
      · simp at hnil
      · refine ⟨rfl, rfl, fun m _ ↦ ?_⟩
        by_cases hm : m = "EMUCLI_ADDON_DIR"
        · rw [hm, htold, htold', hsame]
        · exact hother m hm

/-- Two runs in clean mode, on configurations with the same core and the same directories to search,
do the same to the world outside, except that the core is told the add-on directory, and that a run
that does not know the level of its log starts none. -/
theorem run_clean {env : Environment} {userDir : Option Path} {logging : Logging}
    {tokens : List String} (sur : Launch.Surroundings) (clock : Clock)
    (hdir : userDir.elim (UserDirectory.default env) .ok = .ok dir) (hfs : fs.SameBut P fs')
    (hload : (Settings.load fs (dir.child UserDirectory.configName)).result = .ok s)
    (hload' : (Settings.load fs' (dir.child UserDirectory.configName)).result = .ok s')
    (hdirs : s'.installDirs = s.installDirs) (hcore : s'.coreExecutable = s.coreExecutable)
    (hcut : Segment.CutInto tokens.tail segs) (hmode : Segment.lastMode segs = some .clean)
    (hread : (readCommandLine (.opened dir s) fs tokens).2 = none)
    (hlog : ∀ l, fs.lead (Logging.openedPath fs dir) = some l → P l)
    (houtputs : ∀ f ∈ logging.outputs, ∀ l, f.place = some l → P l)
    (hsplash : ∀ folder l, fs.lead (Library.splashIn folder) = some l → ¬ P l) :
    let o := run (Launch.run sur) clock env userDir fs logging tokens
    let o' := run (Launch.run sur) clock env userDir fs' logging tokens
    let levelsKnown := (Logging.levelOf s.logLevel).isOk ∧ (Logging.levelOf s'.logLevel).isOk
    (levelsKnown →
      List.Forall₂ (Event.AgreeOn (· ≠ "EMUCLI_ADDON_DIR")) o.events o'.events) ∧
    (List.Forall₂ (Event.AgreeOn fun _ ↦ True) o.events o'.events ↔
      o.events = [] ∧ o'.events = [] ∨
        levelsKnown ∧ toldAddonDir sur s = toldAddonDir sur s') := by
  intro o o' levelsKnown
  obtain ⟨hlen, haccepted, -⟩ := Progress.readCommandLine_eq_none (Prod.ext rfl hread)
  rw [← hcut.eq_ofTokens] at haccepted
  obtain ⟨base, isReady, hevents⟩ := run_events_near sur clock hdir hcut hlen haccepted hlog
    houtputs hsplash
  have ho : o.events = _ := hevents fs s (.refl P fs) hload
  have ho' : o'.events = _ := hevents fs' s' hfs hload'
  by_cases hknown : levelsKnown
  · obtain ⟨hagree, hsame⟩ := playEvents_clean sur fs base dir hmode hdirs hcore
    rw [hknown.1, Bool.and_true] at ho
    rw [hknown.2, Bool.and_true] at ho'
    cases isReady with
    | false =>
      rw [if_neg Bool.false_ne_true] at ho ho'
      rw [ho, ho']
      exact ⟨fun _ ↦ .nil, by simp⟩
    | true =>
      rw [if_pos rfl] at ho ho'
      rw [ho, ho']
      exact ⟨fun _ ↦ hagree, hsame.trans (by simp [hknown])⟩
  · refine ⟨fun h ↦ absurd h hknown, ?_⟩
    have hnone : o.events = [] ∨ o'.events = [] := by
      rcases hlevel : (Logging.levelOf s.logLevel).isOk with _ | _
      · exact .inl (by rw [ho, hlevel, Bool.and_false, if_neg Bool.false_ne_true])
      · rcases hlevel' : (Logging.levelOf s'.logLevel).isOk with _ | _
        · exact .inr (by rw [ho', hlevel', Bool.and_false, if_neg Bool.false_ne_true])
        · exact absurd ⟨hlevel, hlevel'⟩ hknown
    rcases hnone with hnil | hnil
    · simp [hnil, hknown, List.forall₂_nil_left_iff]
    · simp [hnil, hknown, List.forall₂_nil_right_iff]

def settingsWithAddOns : Settings :=
  { coreExecutable := some (.ofString "core"), addonDir := some (.ofString "addons") }

def treeWithAddOns : FileSystem :=
  (treeWithCore "core").put (FileSystem.placeAt "user/config.toml")
    (.file (Text.encodeUtf8 settingsWithAddOns.render))

def cleanTokens : List String := [programName, "--config-clean", "g"]

def cleanVariables : Environment :=
  [("EMUCLI_GAME_FOLDER", "g"), ("EMUCLI_FULLSCREEN", "0"), ("EMUCLI_SHOW_FPS", "0"),
    ("EMUCLI_IGNORE_GAME_PATCH", "0"), ("EMUCLI_WAIT_FOR_DEBUGGER", "0"),
    ("EMUCLI_CONFIG_MODE", "clean")]

theorem load_treeWithCore :
    Settings.load (treeWithCore "core") ((Path.ofString "user").child UserDirectory.configName) =
      ⟨[], .ok { coreExecutable := some (.ofString "core") }⟩ := by
  have hwalk : (treeWithCore "core").walk .follow
      ((Path.ofString "user").child UserDirectory.configName) =
      .ok (.occupied (FileSystem.placeAt "user/config.toml") (.file (Text.encodeUtf8
        (Settings.render { coreExecutable := some (.ofString "core") })))) := rfl
  exact Settings.load_of_written rfl hwalk

theorem load_treeWithAddOns :
    Settings.load treeWithAddOns ((Path.ofString "user").child UserDirectory.configName) =
      ⟨[], .ok settingsWithAddOns⟩ := by
  have hwalk : treeWithAddOns.walk .follow
      ((Path.ofString "user").child UserDirectory.configName) =
      .ok (.occupied (FileSystem.placeAt "user/config.toml")
        (.file (Text.encodeUtf8 settingsWithAddOns.render))) := rfl
  exact Settings.load_of_written rfl hwalk

def cleanRun (fs : FileSystem) : Outcome Event :=
  run (Launch.run { env := [] }) .stopped [] (some (.ofString "user")) fs {} cleanTokens

theorem cleanRun_treeWithCore : (cleanRun (treeWithCore "core")).events =
    [.spawn ["core", "g/eboot.bin"] "g" cleanVariables] := by
  rw [cleanRun, run_of_load load_treeWithCore]
  rfl

theorem hasNoLink_treeWithCore (core : String) : (treeWithCore core).HasNoLink := by
  have hcore := (FileSystem.hasNoLink_bare []).withFile "core" [] (by decide)
  have hgame := hcore.withFile "g/eboot.bin" [] (by decide)
  exact hgame.withFile "user/config.toml" _ (by decide)

def isLogOrSettings (l : Location) : Prop :=
  l = FileSystem.placeAt "user/config.toml" ∨ l = FileSystem.placeAt "user/log/emucli.log"

theorem run_clean_addOns :
    (treeWithCore "core").SameBut isLogOrSettings treeWithAddOns ∧
      List.Forall₂ (Event.AgreeOn (· ≠ "EMUCLI_ADDON_DIR"))
        (cleanRun (treeWithCore "core")).events (cleanRun treeWithAddOns).events ∧
      ¬ List.Forall₂ (Event.AgreeOn fun _ ↦ True)
        (cleanRun (treeWithCore "core")).events (cleanRun treeWithAddOns).events := by
  have hdir : (some (Path.ofString "user")).elim (UserDirectory.default []) Except.ok =
      .ok (.ofString "user") := rfl
  have hconfig : (treeWithCore "core").get? (FileSystem.placeAt "user/config.toml") =
      some (.file (Text.encodeUtf8
        (Settings.render { coreExecutable := some (.ofString "core") }))) := rfl
  have hfs : (treeWithCore "core").SameBut isLogOrSettings treeWithAddOns :=
    .put_file (.inl rfl) hconfig _
  have hload : (Settings.load (treeWithCore "core")
      ((Path.ofString "user").child UserDirectory.configName)).result =
      .ok { coreExecutable := some (.ofString "core") } := by rw [load_treeWithCore]
  have hload' : (Settings.load treeWithAddOns
      ((Path.ofString "user").child UserDirectory.configName)).result =
      .ok settingsWithAddOns := by rw [load_treeWithAddOns]
  have hlog : (treeWithCore "core").lead
      (Logging.openedPath (treeWithCore "core") (.ofString "user")) =
      some (FileSystem.placeAt "user/log/emucli.log") := rfl
  have houtputs : ∀ f ∈ ({} : Logging).outputs, ∀ l, f.place = some l → isLogOrSettings l := by
    intro f hf
    cases hf
  have hsplash : ∀ folder l, (treeWithCore "core").lead (Library.splashIn folder) = some l →
      ¬ isLogOrSettings l := by
    intro folder l hl
    obtain ⟨k, hk⟩ := (hasNoLink_treeWithCore "core").lead_child
      (show Library.splashName ≠ Name.up by decide) (folder.child Library.systemDirName)
    cases hl.symm.trans hk
    rintro (h | h)
    · exact absurd (List.cons.inj h).1 (by decide)
    · exact absurd (List.cons.inj h).1 (by decide)
  obtain ⟨hagree, hsame⟩ := run_clean { env := [] } .stopped hdir hfs hload hload' rfl rfl
    (Segment.cutInto_ofTokens cleanTokens.tail) rfl rfl
    (fun l hl ↦ .inr (Option.some.inj (hl.symm.trans hlog))) houtputs hsplash
  refine ⟨hfs, ?_, ?_⟩
  · rw [cleanRun, cleanRun]
    exact hagree ⟨rfl, rfl⟩
  rw [cleanRun, cleanRun, hsame]
  rintro (⟨hnone, -⟩ | ⟨-, htold⟩)
  · rw [← cleanRun, cleanRun_treeWithCore] at hnone
    cases hnone
  · cases htold

/-- The add-on directory of a configuration that is to be passed over reaches the core. -/
theorem run_clean_tells_addonDir :
    let config := (Path.ofString "user").child UserDirectory.configName
    (Settings.load (treeWithCore "core") config).result =
        .ok { coreExecutable := some (.ofString "core") } ∧
      (Settings.load treeWithAddOns config).result =
        .ok { coreExecutable := some (.ofString "core"), addonDir := some (.ofString "addons") } ∧
      Segment.lastMode (Segment.ofTokens cleanTokens.tail) = some .clean ∧
      (cleanRun (treeWithCore "core")).events =
        [.spawn ["core", "g/eboot.bin"] "g" cleanVariables] ∧
      (cleanRun treeWithAddOns).events = [.spawn ["core", "g/eboot.bin"] "g"
        (cleanVariables ++ [("EMUCLI_ADDON_DIR", "addons")])] := by
  intro config
  refine ⟨by rw [load_treeWithCore], by rw [load_treeWithAddOns]; rfl, rfl,
    cleanRun_treeWithCore, ?_⟩
  rw [cleanRun, run_of_load load_treeWithAddOns]
  rfl

end Run

end GameLauncher
