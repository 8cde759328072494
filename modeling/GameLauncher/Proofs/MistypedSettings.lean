import GameLauncher.Proofs.DocumentSettings

namespace GameLauncher

namespace Toml

inductive Kind
  | text
  | integer
  | real
  | boolean
  | date
  | time
  | dateTime
  | array
  | table
  deriving DecidableEq

def Value.kind : Value → Kind
  | text _ => .text
  | integer _ => .integer
  | real _ => .real
  | boolean _ => .boolean
  | date _ => .date
  | time _ => .time
  | dateTime .. => .dateTime
  | array _ => .array
  | table _ => .table

end Toml

namespace Settings

open Toml (Kind Table Value)

variable {fs : FileSystem} {p : Path} {t : Table} {o : Option Value}

/-- A table that settings are kept in, or a key of one, and the type of what belongs there. -/
structure Slot where
  table : String
  key : Option String
  kind : Kind
  deriving DecidableEq

namespace Slot

def value? (s : Slot) (t : Table) : Option Value :=
  match s.key with
  | none => t.get? s.table
  | some key => valueAt t s.table key

def IsMistyped (s : Slot) (t : Table) : Prop := ∃ v, s.value? t = some v ∧ v.kind ≠ s.kind

/-- The keys of the general table are the ones whose values are taken as they are. -/
def IsChecked (s : Slot) : Prop := s.key = none ∨ s.table ≠ "General"

end Slot

def slots : List Slot :=
  [⟨"General", none, .table⟩, ⟨"GUI", none, .table⟩, ⟨"Launcher", none, .table⟩,
    ⟨"General", some "isFullscreen", .boolean⟩, ⟨"General", some "showFpsCounter", .boolean⟩,
    ⟨"General", some "logLevel", .text⟩, ⟨"GUI", some "installDirs", .array⟩,
    ⟨"GUI", some "installDirsEnabled", .array⟩, ⟨"GUI", some "addonInstallDir", .text⟩,
    ⟨"Launcher", some "coreExecutable", .text⟩]

theorem isTable_iff : isTable o = true ↔ ∀ v, o = some v → v.kind = .table := by
  rcases o with _ | v
  · simp [isTable]
  · cases v <;> simp [isTable, Value.kind]

theorem isArray_iff : isArray o = true ↔ ∀ v, o = some v → v.kind = .array := by
  rcases o with _ | v
  · simp [isArray]
  · cases v <;> simp [isArray, Value.kind]

theorem isText_iff : isText o = true ↔ ∀ v, o = some v → v.kind = .text := by
  rcases o with _ | v
  · simp [isText]
  · cases v <;> simp [isText, Value.kind]

theorem not_isMistyped_iff {s : Slot} :
    ¬ s.IsMistyped t ↔ ∀ v, s.value? t = some v → v.kind = s.kind := by
  simp [Slot.IsMistyped]

theorem wellTyped_iff : WellTyped t ↔ ∀ s ∈ slots, s.IsChecked → ¬ s.IsMistyped t := by
  have hfields : WellTyped t ↔ (∀ name ∈ ["General", "GUI", "Launcher"],
      isTable (t.get? name) = true) ∧ (∀ key ∈ ["installDirs", "installDirsEnabled"],
        isArray (valueAt t "GUI" key) = true) ∧
      isText (valueAt t "GUI" "addonInstallDir") = true ∧
      isText (valueAt t "Launcher" "coreExecutable") = true :=
    ⟨fun h ↦ ⟨h.tables, h.arrays, h.addonDir, h.coreExecutable⟩,
      fun ⟨htables, harrays, haddon, hcore⟩ ↦ ⟨htables, harrays, haddon, hcore⟩⟩
  rw [hfields]
  simp [slots, Slot.IsChecked, not_isMistyped_iff, Slot.value?, isTable_iff, isArray_iff,
    isText_iff, and_assoc]

theorem not_wellTyped_iff : ¬ WellTyped t ↔ ∃ s ∈ slots, s.IsMistyped t ∧ s.IsChecked := by
  rw [wellTyped_iff]
  simp only [Classical.not_forall, Classical.not_not, exists_prop, and_comm]

/-- Settings that come from what stands in the general table, of whatever type it is: from its truth
and its text. -/
structure TakesGeneral (stack : Toml.Stack) (t : Table) (s : Settings) : Prop where
  fullscreen : ∀ v, valueAt t "General" "isFullscreen" = some v → s.fullscreen = v.isTrue
  showFps : ∀ v, valueAt t "General" "showFpsCounter" = some v → s.showFps = v.isTrue
  logLevel : ∀ v, valueAt t "General" "logLevel" = some v → v.display stack = .ok s.logLevel

theorem takesGeneral_settingsOf {stack : Toml.Stack} {level : String}
    (h : levelOf stack t = .ok level) : TakesGeneral stack t (settingsOf t level) where
  fullscreen v hv := by simp [settingsOf, hv]
  showFps v hv := by simp [settingsOf, hv]
  logLevel v hv := by
    rw [levelOf, hv] at h
    exact h

theorem exists_warning_iff (h : ReadsAs fs p t) :
    (∃ text, load fs p = ⟨[⟨.warning, .settings, text⟩], .ok {}⟩) ↔ ¬ WellTyped t := by
  constructor
  · rintro ⟨text, hwarned⟩ htyped
    rw [load_of_wellTyped h htyped] at hwarned
    cases congrArg Traced.records hwarned
  · intro hwrong
    obtain ⟨m, -, hwarned⟩ := load_of_not_wellTyped h hwrong
    exact ⟨_, hwarned⟩

/-- A document gives the defaults and a warning exactly if there is a value of a wrong type in it at
a place that is checked. At the others a value of any type is used without a word, unless it is to
be the log level and cannot be written out. -/
theorem load_mistyped_iff (h : ReadsAs fs p t) :
    ((∃ text, load fs p = ⟨[⟨.warning, .settings, text⟩], .ok {}⟩) ↔
        ∃ s ∈ slots, s.IsMistyped t ∧ s.IsChecked) ∧
      ((∀ s ∈ slots, s.IsMistyped t → ¬ s.IsChecked) →
        (load fs p).records = [] ∧
          (∀ s, (load fs p).result = .ok s → TakesGeneral fs.host.stack t s) ∧
          ∀ f, (load fs p).result = .error f ↔
            ∃ v, valueAt t "General" "logLevel" = some v ∧ v.Unwritable fs.host.stack f) := by
  refine ⟨(exists_warning_iff h).trans not_wellTyped_iff, fun hfree ↦ ?_⟩
  have htyped : WellTyped t :=
    wellTyped_iff.2 fun s hs hchecked hwrong ↦ hfree s hs hwrong hchecked
  rw [load_of_wellTyped h htyped]
  refine ⟨rfl, fun s hs ↦ ?_, fun f ↦ ?_⟩
  · obtain ⟨level, hlevel, rfl⟩ := ok_of_map hs
    exact takesGeneral_settingsOf hlevel
  · exact map_eq_error.trans levelOf_eq_error

def fileOf (ss : List Toml.Writer.Section) : FileSystem :=
  (FileSystem.bare []).withFile "c.toml" (Text.encodeUtf8 (Toml.render ss))

def contentOf (ss : List Toml.Writer.Section) : Table := ss.map fun s ↦ (s.name, s.value)

def loose : List Toml.Writer.Section :=
  [⟨"General", [("isFullscreen", .text "false"), ("showFpsCounter", .texts ["no"]),
    ("logLevel", .booleans [true])]⟩]

theorem readsAs_loose : ReadsAs (fileOf loose) (.ofString "c.toml") (contentOf loose) :=
  readsAs_render ⟨by decide, by decide, by decide, by decide⟩ rfl

theorem wellTyped_loose : WellTyped (contentOf loose) :=
  ⟨by decide, by decide, by decide, by decide⟩

theorem load_mistyped_core :
    let core : List Toml.Writer.Section := [⟨"Launcher", [("coreExecutable", .boolean true)]⟩]
    (∃ text, load (fileOf core) (.ofString "c.toml") =
        ⟨[⟨.warning, .settings, text⟩], .ok {}⟩) ∧
      ∀ s, (load (fileOf loose) (.ofString "c.toml")).result = .ok s →
        s.fullscreen = true ∧ s.showFps = true := by
  intro core
  have hcore : ReadsAs (fileOf core) (.ofString "c.toml") (contentOf core) :=
    readsAs_render ⟨by decide, by decide, by decide, by decide⟩ rfl
  obtain ⟨hwarned, -⟩ := load_mistyped_iff hcore
  obtain ⟨-, hfree⟩ := load_mistyped_iff readsAs_loose
  obtain ⟨-, htaken, -⟩ := hfree fun s hs hwrong hchecked ↦
    wellTyped_iff.1 wellTyped_loose s hs hchecked hwrong
  refine ⟨hwarned.2 ⟨⟨"Launcher", some "coreExecutable", .text⟩, by decide, ?_, ?_⟩, fun s hs ↦ ?_⟩
  · exact ⟨.boolean true, rfl, by decide⟩
  · exact .inr (by decide)
  · exact ⟨(htaken s hs).fullscreen (.text "false") rfl,
      (htaken s hs).showFps (.array [.text "no"]) rfl⟩

/-- A text that says no to the whole screen is a yes. -/
theorem load_mistyped_general :
    ReadsAs (fileOf loose) (.ofString "c.toml") (contentOf loose) ∧
      (∃ s ∈ slots, s.IsMistyped (contentOf loose)) ∧
      load (fileOf loose) (.ofString "c.toml") =
        ⟨[], .ok { fullscreen := true, showFps := true, logLevel := "[True]" }⟩ := by
  refine ⟨readsAs_loose, ⟨⟨"General", some "isFullscreen", .boolean⟩, by decide, ?_⟩, ?_⟩
  · exact ⟨.text "false", rfl, by decide⟩
  · exact load_of_wellTyped readsAs_loose wellTyped_loose

end Settings

end GameLauncher
