import GameLauncher.Launch

namespace GameLauncher

namespace Environment

theorem get?_put (env : Environment) (name value m : String) :
    (env.put name value).get? m = if m = name then some value else env.get? m := by
  induction env with
  | nil =>
    by_cases hm : m = name
    · simp [put, get?, hm]
    · have hb : (m == name) = false := by simpa using hm
      simp [put, get?, List.lookup_cons, hm, hb]
  | cons e r ih =>
    obtain ⟨a, b⟩ := e
    simp only [get?] at ih ⊢
    by_cases ha : a = name <;> by_cases hm : m = a
    · simp [put, ha, hm]
    · have hb : (m == a) = false := by simpa using hm
      simp [put, ha, List.lookup_cons, ha ▸ hb, ha ▸ hm]
    · subst hm
      simp [put, ha]
    · have hb : (m == a) = false := by simpa using hm
      simp [put, ha, List.lookup_cons, hb, ih]

end Environment

inductive SessionVariable
  | gameFolder
  | fullscreen
  | showFps
  | ignoreGamePatch
  | waitForDebugger
  | configMode
  | patchFile
  | addonDir
  | splash
  deriving DecidableEq

namespace SessionVariable

def name : SessionVariable → String
  | gameFolder => "EMUCLI_GAME_FOLDER"
  | fullscreen => "EMUCLI_FULLSCREEN"
  | showFps => "EMUCLI_SHOW_FPS"
  | ignoreGamePatch => "EMUCLI_IGNORE_GAME_PATCH"
  | waitForDebugger => "EMUCLI_WAIT_FOR_DEBUGGER"
  | configMode => "EMUCLI_CONFIG_MODE"
  | patchFile => "EMUCLI_PATCH_FILE"
  | addonDir => "EMUCLI_ADDON_DIR"
  | splash => "EMUCLI_SPLASH"

/-- The value that a launch has for a variable. Only the last three may have none. -/
def value (game : Game) (invocation : Invocation) (session : Session) :
    SessionVariable → Option String
  | gameFolder => some game.folder.text
  | fullscreen => some (Launch.flagText session.effectiveFullscreen)
  | showFps => some (Launch.flagText session.effectiveShowFps)
  | ignoreGamePatch => some (Launch.flagText session.ignoreGamePatches)
  | waitForDebugger => some (Launch.flagText invocation.waitForDebugger)
  | configMode => some session.configMode.name
  | patchFile => session.patchFile.filter (· ≠ "")
  | addonDir => session.settings.addonDir.map Path.text
  | splash => game.splash.map fun s ↦ s.path.text

def all : List SessionVariable :=
  [gameFolder, fullscreen, showFps, ignoreGamePatch, waitForDebugger, configMode, patchFile,
    addonDir, splash]

theorem mem_all (v : SessionVariable) : v ∈ all := by cases v <;> decide

theorem name_inj {v w : SessionVariable} : v.name = w.name ↔ v = w := by
  cases v <;> cases w <;> simp [name]

variable {game : Game} {invocation : Invocation} {session : Session}

def assign (game : Game) (invocation : Invocation) (session : Session) (env : Environment)
    (v : SessionVariable) : Environment :=
  (v.value game invocation session).elim env (env.put v.name)

theorem get?_assign (env : Environment) (v : SessionVariable) (m : String) :
    (assign game invocation session env v).get? m =
      if m = v.name then (v.value game invocation session).or (env.get? m) else env.get? m := by
  unfold assign
  cases v.value game invocation session with
  | none => simp
  | some s => simpa using Environment.get?_put env v.name s m

theorem get?_foldl_assign (vs : List SessionVariable) (base : Environment) (v : SessionVariable) :
    (vs.foldl (assign game invocation session) base).get? v.name =
      if v ∈ vs then (v.value game invocation session).or (base.get? v.name)
      else base.get? v.name := by
  induction vs generalizing base with
  | nil => simp
  | cons w vs ih =>
    rw [List.foldl_cons, ih, get?_assign]
    simp only [name_inj, List.mem_cons]
    by_cases hw : v = w
    · subst hw
      cases v.value game invocation session <;> simp
    · simp [hw]

theorem get?_foldl_assign_other {m : String} (h : ∀ v : SessionVariable, m ≠ v.name)
    (vs : List SessionVariable) (base : Environment) :
    (vs.foldl (assign game invocation session) base).get? m = base.get? m := by
  induction vs generalizing base with
  | nil => rfl
  | cons w vs ih => rw [List.foldl_cons, ih, get?_assign, if_neg (h w)]

end SessionVariable

namespace Launch

variable {game : Game} {invocation : Invocation} {session : Session}

theorem environment_eq_foldl (base : Environment) :
    environment game invocation session base =
      SessionVariable.all.foldl (SessionVariable.assign game invocation session) base := by
  simp only [environment, SessionVariable.all, List.foldl_append, List.foldl_cons, List.foldl_nil,
    SessionVariable.assign, SessionVariable.value]
  cases session.patchFile.filter (· ≠ "") <;> cases session.settings.addonDir <;>
    cases game.splash <;> rfl

theorem environment_session (base : Environment) (v : SessionVariable) :
    (environment game invocation session base).get? v.name =
      (v.value game invocation session).or (base.get? v.name) := by
  rw [environment_eq_foldl, SessionVariable.get?_foldl_assign, if_pos v.mem_all]

theorem environment_other {m : String} (h : ∀ v : SessionVariable, m ≠ v.name)
    (base : Environment) :
    (environment game invocation session base).get? m = base.get? m := by
  rw [environment_eq_foldl, SessionVariable.get?_foldl_assign_other h]

/-- A variable of the session is inherited if and only if the launch has no value for it, and all
other variables are. So what the core is told is the same whatever is inherited only as far as the
launch has a patch file, an add-on directory and a splash. -/
theorem environment_agree_iff (game : Game) (invocation : Invocation) (session : Session)
    (base base' : Environment) :
    (∀ v : SessionVariable, (environment game invocation session base).get? v.name =
      (v.value game invocation session).or (base.get? v.name)) ∧
    ((∀ v : SessionVariable, (environment game invocation session base).get? v.name =
        (environment game invocation session base').get? v.name) ↔
      ∀ v : SessionVariable, v.value game invocation session = none →
        base.get? v.name = base'.get? v.name) ∧
    ∀ m, (∀ v : SessionVariable, m ≠ v.name) →
      (environment game invocation session base).get? m = base.get? m := by
  refine ⟨environment_session base, ?_, ?_⟩
  · simp only [environment_session]
    refine forall_congr' ?_
    intro v
    cases v.value game invocation session <;> simp
  · intro m h
    exact environment_other h base

def bareGame : Game where
  executable := .ofString "g/eboot.bin"
  folder := .ofString "g"
  source := .directPath
  raw := "g"

/-- What an earlier session left in the environment is handed on to a core that is started without
a patch file, an add-on directory and a splash. -/
theorem environment_keeps_stale :
    let session : Session := { settings := {}, settingsFile := .here, userDir := .here }
    let stale : Environment :=
      [("EMUCLI_PATCH_FILE", "old"), ("EMUCLI_ADDON_DIR", "old"), ("EMUCLI_SPLASH", "old")]
    ∀ v ∈ [SessionVariable.patchFile, .addonDir, .splash],
      (environment bareGame {} session stale).get? v.name = some "old" ∧
        (environment bareGame {} session []).get? v.name = none := by
  decide

end Launch

end GameLauncher
