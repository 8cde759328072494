import GameLauncher.Proofs.GrowingTree
import GameLauncher.Proofs.WrittenDocument
import GameLauncher.Settings.Storage

namespace GameLauncher

namespace Path

theorem text_ne_empty (p : Path) : p.text ≠ "" := by
  intro h
  have hp := ofString_text p
  rw [h] at hp
  subst hp
  exact absurd h (by decide)

end Path

namespace Settings

variable {fs fs' : FileSystem} {p : Path}

open Toml (Value)

theorem pathOf_text (p : Path) : pathOf p.text = some p := by
  rw [pathOf, if_neg p.text_ne_empty, Path.ofString_text]

theorem pathOf_pathText (p : Option Path) : pathOf (pathText p) = p := by
  cases p with
  | none => rfl
  | some p => exact pathOf_text p

theorem installDirsOf_written (ds : List InstallDir) :
    installDirsOf (ds.map fun d ↦ .text d.path.text) (ds.map fun d ↦ .boolean d.enabled) = ds := by
  induction ds with
  | nil => rfl
  | cons d ds ih => simp [installDirsOf, pathOf_text, ih]

theorem writable_sections (s : Settings) : Toml.Writer.Writable s.sections where
  bareNames := by
    simp only [sections, List.mem_cons, List.not_mem_nil, or_false, forall_eq_or_imp, forall_eq]
    decide
  bareKeys := by
    simp only [sections, List.mem_cons, List.not_mem_nil, or_false, forall_eq_or_imp, forall_eq]
    decide
  names := by
    simp only [sections, List.map_cons, List.map_nil]
    decide
  keys := by
    simp only [sections, List.mem_cons, List.not_mem_nil, or_false, forall_eq_or_imp, forall_eq,
      List.map_cons, List.map_nil]
    decide

def parts (s : Settings) : Parts where
  general := [("isFullscreen", .boolean s.fullscreen), ("showFpsCounter", .boolean s.showFps),
    ("logLevel", .text s.logLevel)]
  installDirs := s.installDirs
  addonDir := s.addonDir
  coreExecutable := s.coreExecutable

theorem ofTable_sections (s : Settings) :
    Parts.ofTable (s.sections.map fun e ↦ (e.name, e.value)) = .ok s.parts := by
  have hdirs := installDirsOf_written s.installDirs
  simp only [Parts.ofTable, sections, tableAt, arrayAt, textAt, Toml.Table.get?, bind, Except.bind,
    pure, Except.pure, List.map_cons, List.map_nil, List.lookup_cons, Toml.Writer.Section.value,
    Toml.Writer.Entry.value, List.map_map]
  simp [parts, pathOf_pathText, Function.comp_def, List.lookup_cons, hdirs]

theorem settings_parts (stack : Toml.Stack) (s : Settings) : s.parts.settings stack = .ok s := by
  simp only [parts, Parts.settings, logLevelAt, flagAt, Toml.Table.get?, List.lookup_cons]
  simp [Value.display, Except.map, Value.isTrue]

theorem ofText_render (stack : Toml.Stack) (p : Path) (s : Settings) :
    ofText stack p s.render = ⟨[], .ok s⟩ := by
  simp only [ofText, render, Toml.parse_render s.writable_sections, ofTable_sections,
    settings_parts, Traced.ofExcept]

theorem load_of_walk {content : Bytes} {l : Location} (hnull : p.hasNull = false)
    (h : fs.walk .follow p = .ok (.occupied l (.file content))) :
    load fs p = match Text.decodeUtf8 content with
      | .error fault => .fail (.notUtf8 fault)
      | .ok text => ofText fs.host.stack p text := by
  cases hd : Text.decodeUtf8 content <;>
    simp [load, FileSystem.exists?, FileSystem.status, FileSystem.read, FileSystem.resolve, hnull,
      h, hd, Except.map]

theorem load_of_written {s : Settings} {l : Location} (hnull : p.hasNull = false)
    (h : fs.walk .follow p = .ok (.occupied l (.file (Text.encodeUtf8 s.render)))) :
    load fs p = ⟨[], .ok s⟩ := by
  rw [load_of_walk hnull h, Text.decodeUtf8_encodeUtf8]
  exact ofText_render fs.host.stack p s

theorem save_eq_ok {s : Settings} (h : (save fs p s).2.result = .ok ()) :
    ∃ fs₁ l old, fs.makeDirectories p.parent = (fs₁, .ok ()) ∧
      fs₁.openForWriting p = .ok (l, old) ∧
      (save fs p s).1 = fs₁.put l (.file (Text.encodeUtf8 s.render)) := by
  unfold save at h ⊢
  rcases hm : fs.makeDirectories p.parent with ⟨fs₁, f | u⟩
  · simp [hm, Traced.fail] at h
  · simp only [hm] at h ⊢
    cases hw : fs₁.write p (Text.encodeUtf8 s.render) with
    | error f => simp [hw, Traced.fail] at h
    | ok fs₂ =>
      obtain ⟨l, old, ho, rfl⟩ := FileSystem.write_eq_ok hw
      exact ⟨fs₁, l, old, rfl, ho, rfl⟩

/-- Saved settings are loaded again as they were, and nothing is recorded. -/
theorem load_save {s : Settings} (h : (save fs p s).2.result = .ok ()) :
    load (save fs p s).1 p = ⟨[], .ok s⟩ := by
  obtain ⟨fs₁, l, old, -, ho, hsave⟩ := save_eq_ok h
  obtain ⟨hnull, -, hwalk⟩ := FileSystem.openForWriting_eq_ok ho
  rw [hsave]
  exact load_of_written hnull (hwalk _)

def unruly : Settings where
  installDirs := [⟨Path.ofString "/games", true⟩, ⟨Path.ofString "../a \x22b\x22\n", false⟩,
    ⟨Path.ofString "/games", true⟩]
  addonDir := some Path.here
  fullscreen := true
  coreExecutable := some (Path.ofString "//opt/cöre\x00")
  logLevel := "\\\t\r\x7f"

theorem load_save_unruly :
    (save (.bare []) (.ofString "user/config.toml") unruly).2.result = .ok () ∧
      load (save (.bare []) (.ofString "user/config.toml") unruly).1 (.ofString "user/config.toml") =
        ⟨[], .ok unruly⟩ := by
  have h : (save (.bare []) (.ofString "user/config.toml") unruly).2.result = .ok () := rfl
  exact ⟨h, load_save h⟩

end Settings

end GameLauncher
