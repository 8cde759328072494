import GameLauncher.Proofs.RunTree
import GameLauncher.Proofs.SettingsRoundTrip

namespace GameLauncher

variable {fs fs' : FileSystem} {p dir : Path} {l k : Location} {c : Bytes} {s s' : Settings}

namespace Settings

theorem load_congr (hhost : fs'.host = fs.host) (h : fs'.walk .follow p = fs.walk .follow p) :
    load fs' p = load fs p := by
  simp only [load, FileSystem.exists?, FileSystem.status, FileSystem.read, FileSystem.resolve, h,
    hhost]

theorem load_put_file (hk : fs.TakesFile k) (h : fs.lead p ≠ some k) :
    load (fs.put k (.file c)) p = load fs p := by
  rcases FileSystem.walk_put_file_elsewhere hk c h with hw | ⟨hold, hnew⟩
  · exact load_congr rfl hw
  · simp only [load, FileSystem.exists?, FileSystem.status, hold, hnew, ite_self, Except.map,
      Option.isSome_none]

theorem load_of_addsDirectories (h : fs.AddsDirectories fs')
    (hw : fs.walk .follow p = .ok (.occupied l (.file c))) : load fs' p = load fs p := by
  obtain ⟨node, hl, hw'⟩ := h.walk_occupied hw
  rw [(h.content l c).1 (FileSystem.get?_of_walk hw), Option.some.injEq] at hl
  exact load_congr h.toGrows.host (by rw [hw', hw, hl])

/-- What holds of the tree between two runs: the settings are loaded as they are, also when the
directories of the run that comes are there, and the log is kept elsewhere. -/
structure Kept (s : Settings) (fs : FileSystem) (dir : Path) : Prop where
  loaded : (load fs (dir.child UserDirectory.configName)).result = .ok s
  prepared :
    (load (UserDirectory.prepared fs dir) (dir.child UserDirectory.configName)).result = .ok s
  apart : ∀ l, fs.lead (dir.child UserDirectory.configName) = some l →
    fs.lead (Logging.openedPath fs dir) ≠ some l

theorem Kept.put_log (h : s.Kept fs dir) (hready : UserDirectory.IsReady fs dir)
    (hk : fs.TakesFile k) (hlog : fs.lead (Logging.openedPath fs dir) = some k) :
    s.Kept (fs.put k (.file c)) dir where
  loaded := by
    rw [load_put_file hk (fun hlead ↦ h.apart k hlead hlog), h.loaded]
  prepared := by
    have hgrows := FileSystem.Grows.put_file hk c
    rw [(hready.grows hgrows).prepared, load_put_file hk (fun hlead ↦ h.apart k hlead hlog),
      h.loaded]
  apart l := by
    have hgrows := FileSystem.Grows.put_file hk c
    rw [Logging.openedPath_grows hgrows, hgrows.lead, hgrows.lead]
    exact h.apart l

theorem Kept.prepare (h : s.Kept fs dir)
    (hready : UserDirectory.IsReady (UserDirectory.prepared fs dir) dir) :
    s.Kept (UserDirectory.prepared fs dir) dir where
  loaded := h.prepared
  prepared := by rw [hready.prepared, h.prepared]
  apart l := by
    have hgrows := (UserDirectory.prepared_adds fs dir).toGrows
    rw [Logging.openedPath_grows hgrows, hgrows.lead, hgrows.lead]
    exact h.apart l

theorem save_grows (h : (s.save fs p).2.result = .ok ()) : fs.Grows (s.save fs p).1 := by
  obtain ⟨fs₁, l, old, hmade, hopen, hfst⟩ := save_eq_ok h
  obtain ⟨-, htakes, -⟩ := FileSystem.openForWriting_eq_ok hopen
  have hadds := fs.makeDirectories_adds p.parent
  rw [hmade] at hadds
  rw [hfst]
  exact hadds.toGrows.trans (FileSystem.Grows.put_file htakes _)

theorem Kept.save (h : s.Kept fs dir)
    (hsave : (s'.save fs (dir.child UserDirectory.configName)).2.result = .ok ()) :
    s'.Kept (s'.save fs (dir.child UserDirectory.configName)).1 dir := by
  have hgrows := save_grows hsave
  obtain ⟨fs₁, l, old, -, hopen, hfst⟩ := save_eq_ok hsave
  obtain ⟨hnull, -, hwalk⟩ := FileSystem.openForWriting_eq_ok hopen
  have hload := load_of_written hnull (hwalk (Text.encodeUtf8 s'.render))
  rw [← hfst] at hload
  refine ⟨by rw [hload], ?_, ?_⟩
  · rw [load_of_addsDirectories (UserDirectory.prepared_adds _ dir) (hfst ▸ hwalk _), hload]
  · intro l
    rw [Logging.openedPath_grows hgrows, hgrows.lead, hgrows.lead]
    exact h.apart l

end Settings

namespace Logging

theorem writeAll_keeps {bytes : Bytes} {outputs : List LogFile} (h : s.Kept fs dir)
    (hready : UserDirectory.IsReady fs dir)
    (hout : ∀ f ∈ outputs, ∀ l, f.place = some l → fs.lead (openedPath fs dir) = some l) :
    s.Kept (writeAll bytes outputs fs).1 dir := by
  induction outputs generalizing fs with
  | nil => exact h
  | cons f r ih =>
    simp only [writeAll]
    rcases write_cases f fs bytes with hw | ⟨l, old, new, position, hplace, hold, hw⟩
    · rw [hw]
      exact ih h hready fun g hg ↦ hout g (List.mem_cons_of_mem f hg)
    · rw [hw]
      have htakes : fs.TakesFile l := .inr ⟨old, hold⟩
      have hgrows := FileSystem.Grows.put_file htakes new
      have hlog := hout f List.mem_cons_self l hplace
      apply ih (h.put_log hready htakes hlog) (hready.grows hgrows)
      intro g hg k hk
      rw [openedPath_grows hgrows, hgrows.lead]
      exact hout g (List.mem_cons_of_mem f hg) k hk

end Logging

namespace Desk

variable {d d' : Desk}

structure Keeps (d : Desk) (dir : Path) (s : Settings) : Prop where
  kept : s.Kept d.files dir
  outputs : ∀ f ∈ d.logging.outputs, ∀ l, f.place = some l →
    d.files.lead (Logging.openedPath d.files dir) = some l
  ready : d.logging.outputs ≠ [] → UserDirectory.IsReady d.files dir

theorem Keeps.congr (h : d.Keeps dir s) (hfiles : d'.files = d.files)
    (hlogging : d'.logging = d.logging) : d'.Keeps dir s := by
  obtain ⟨kept, outputs, ready⟩ := h
  exact ⟨hfiles ▸ kept, hfiles ▸ hlogging ▸ outputs, hfiles ▸ hlogging ▸ ready⟩

theorem Keeps.save (h : d.Keeps dir s)
    (hsave : (s'.save d.files (dir.child UserDirectory.configName)).2.result = .ok ()) :
    ({ d with files := (s'.save d.files (dir.child UserDirectory.configName)).1 } : Desk).Keeps
      dir s' := by
  have hgrows := Settings.save_grows hsave
  refine ⟨h.kept.save hsave, ?_, ?_⟩
  · intro f hf l hl
    simp only [Logging.openedPath_grows hgrows, hgrows.lead]
    exact h.outputs f hf l hl
  · intro hopen
    exact (h.ready hopen).grows hgrows

theorem Keeps.log (h : d.Keeps dir s) (clock : Clock) (r : Record) :
    (d.log clock r).Keeps dir s := by
  have hgrows := d.log_grows clock r
  rcases d.log_cases clock r with ⟨-, hlog⟩ | ⟨-, -, text, hlog⟩ | ⟨-, hopen, hlog⟩
  · rwa [hlog]
  · rw [hlog]
    exact h.congr rfl rfl
  · have hready := h.ready hopen
    refine ⟨?_, ?_, fun _ ↦ hready.grows hgrows⟩
    · rw [hlog]
      exact Logging.writeAll_keeps h.kept hready h.outputs
    · intro f hf l hl
      obtain ⟨g, hg, hplace⟩ := exists_output_of_log hf
      rw [Logging.openedPath_grows hgrows, hgrows.lead]
      exact h.outputs g hg l (hplace.trans hl)

theorem lasts_keeps (dir : Path) (s : Settings) (clock : Clock) : Lasts clock (·.Keeps dir s) where
  log r h := h.log clock r
  complain _ h := h.congr rfl rfl

end Desk

end GameLauncher
