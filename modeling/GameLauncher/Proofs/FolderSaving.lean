import GameLauncher.Proofs.CommandLineMeaning
import GameLauncher.Proofs.SystemFailures
import GameLauncher.Run

namespace GameLauncher

variable {fs : FileSystem} {p : Path} {s : Settings}

def Segment.namedFolder : List Segment → Option String
  | [] => none
  | .valued .addGameFolder _ v :: _ | .valued .setAddonFolder _ v :: _ => some v
  | _ :: rest => namedFolder rest

theorem Segment.namedFolder_of_accepted {seg : Segment} (h : seg.IsAccepted fs)
    (rest : List Segment) : namedFolder (seg :: rest) = namedFolder rest := by
  cases seg with
  | valued p t v => cases p <;> first | rfl | exact absurd h id
  | _ => rfl

theorem Segment.namedFolder_of_singleton {seg : Segment} {v : String}
    (h : namedFolder [seg] = some v) (rest : List Segment) :
    namedFolder (seg :: rest) = some v := by
  cases seg with
  | valued p t w => cases p <;> first | exact h | cases h
  | _ => cases h

theorem Settings.isSystem_of_save {f : Failure} (h : (s.save fs p).2.result = .error f) :
    f.IsSystem := by
  unfold save at h
  rcases hmade : fs.makeDirectories p.parent with ⟨fs₁, g | u⟩
  · simp only [hmade] at h
    cases h
    exact FileSystem.isSystem_of_makeDirectoriesAt (by rw [← FileSystem.makeDirectories, hmade])
  · simp only [hmade] at h
    split at h
    · cases h
      exact FileSystem.isSystem_of_write ‹_›
    · cases h

theorem Failure.IsSystem.isExpected_eq_false {f : Failure} (h : f.IsSystem) :
    f.isExpected = false := by
  cases f <;> first | rfl | exact absurd h id

namespace Progress

variable {a b : Progress} {e : Option Ending} {seg : Segment} {segs : List Segment}

structure SameStore (a b : Progress) : Prop where
  files : b.files = a.files
  records : b.records = a.records
  settings : b.session.settings = a.session.settings
  settingsFile : b.session.settingsFile = a.session.settingsFile
  userDir : b.session.userDir = a.session.userDir

theorem SameStore.refl (a : Progress) : SameStore a a := ⟨rfl, rfl, rfl, rfl, rfl⟩

theorem SameStore.trans {c : Progress} (h : SameStore a b) (h' : SameStore b c) : SameStore a c :=
  ⟨h'.files.trans h.files, h'.records.trans h.records, h'.settings.trans h.settings,
    h'.settingsFile.trans h.settingsFile, h'.userDir.trans h.userDir⟩

def SavesNothing (e : Option Ending) : Prop := ∀ c, e = some (.completed c) → c = .help

theorem savesNothing_none : SavesNothing none := by
  intro c h
  cases h

theorem savesNothing_failed (f : Failure) : SavesNothing (some (.failed f)) := by
  intro c h
  cases h

/-- A session that is saved with one folder more, and the message that says so. -/
inductive Saving (a : Progress) (v : String) : Session → Completion → Prop
  | game : Saving a v (a.session.addInstallDir (Path.ofString v)) .gameFolderSaved
  | addon : Saving a v (a.session.setAddonDir (Path.ofString v)) .addonFolderSaved

theorem withValue_cases {α : Type} {v : Except Failure α} {f : α → Progress × Option Ending}
    (h : a.withValue v f = (b, e)) :
    (b = a ∧ ∃ fault, v = .error fault ∧ e = some (.failed fault)) ∨
      ∃ x, v = .ok x ∧ f x = (b, e) := by
  cases v with
  | error fault =>
    simp only [withValue, stop, Prod.mk.injEq] at h
    exact .inl ⟨h.1.symm, fault, rfl, h.2.symm⟩
  | ok x => exact .inr ⟨x, rfl, h⟩

theorem step_cases (h : a.step seg = (b, e)) :
    (SameStore a b ∧ SavesNothing e) ∨
      ∃ v session c, Segment.namedFolder [seg] = some v ∧ Saving a v session c ∧
        a.persist session c = (b, e) := by
  cases seg with
  | separator rest =>
    simp only [step, proceed] at h
    cases h
    refine .inl ⟨?_, savesNothing_none⟩
    split <;> exact ⟨rfl, rfl, rfl, rfl, rfl⟩
  | switch f t =>
    refine .inl ?_
    cases f <;> cases h <;> refine ⟨⟨rfl, rfl, rfl, rfl, rfl⟩, ?_⟩
    all_goals simp [SavesNothing]
  | valued p t v =>
    cases p with
    | game | patch =>
      cases h
      exact .inl ⟨⟨rfl, rfl, rfl, rfl, rfl⟩, savesNothing_none⟩
    | fullscreen | overrideRoot | waitForPid =>
      rcases withValue_cases h with ⟨rfl, fault, -, rfl⟩ | ⟨x, -, hx⟩
      · exact .inl ⟨.refl b, savesNothing_failed fault⟩
      · cases hx
        exact .inl ⟨⟨rfl, rfl, rfl, rfl, rfl⟩, savesNothing_none⟩
    | addGameFolder =>
      rcases withValue_cases h with ⟨rfl, fault, -, rfl⟩ | ⟨x, hx, hsave⟩
      · exact .inl ⟨.refl b, savesNothing_failed fault⟩
      · obtain ⟨-, rfl⟩ := CommandLine.readFolder_eq_ok.1 hx
        exact .inr ⟨v, _, _, rfl, .game, hsave⟩
    | setAddonFolder =>
      rcases withValue_cases h with ⟨rfl, fault, -, rfl⟩ | ⟨x, hx, hsave⟩
      · exact .inl ⟨.refl b, savesNothing_failed fault⟩
      · obtain ⟨-, rfl⟩ := CommandLine.readFolder_eq_ok.1 hx
        exact .inr ⟨v, _, _, rfl, .addon, hsave⟩
  | cut p t =>
    cases h
    exact .inl ⟨.refl _, savesNothing_failed _⟩
  | unknown t =>
    simp only [step] at h
    split at h <;> cases h <;> exact .inl ⟨⟨rfl, rfl, rfl, rfl, rfl⟩, savesNothing_none⟩

/-- Reading either saves nothing, or it ends with the saving of the first folder that is named. -/
theorem run_cases (h : a.run segs = (b, e)) :
    (SameStore a b ∧ SavesNothing e) ∨
      ∃ m v session c, SameStore a m ∧ Segment.namedFolder segs = some v ∧ Saving m v session c ∧
        m.persist session c = (b, e) := by
  induction segs generalizing a with
  | nil =>
    cases h
    exact .inl ⟨.refl _, savesNothing_none⟩
  | cons seg rest ih =>
    rw [run] at h
    rcases hstep : a.step seg with ⟨m, _ | e'⟩
    · simp only [hstep] at h
      have hrest := Segment.namedFolder_of_accepted (step_eq_none hstep).1 rest
      rcases step_cases hstep with ⟨hsame, -⟩ | ⟨v, session, c, -, -, hsave⟩
      · rcases ih h with ⟨hsame', hnothing⟩ | ⟨m', v, session, c, hsame', hv, hsaving⟩
        · exact .inl ⟨hsame.trans hsame', hnothing⟩
        · exact .inr ⟨m', v, session, c, hsame.trans hsame', hrest.trans hv, hsaving⟩
      · exact absurd hsave persist_ne_none
    · simp only [hstep, stop] at h
      cases h
      rcases step_cases hstep with hsame | ⟨v, session, c, hv, hsaving⟩
      · exact .inl hsame
      · exact .inr ⟨a, v, session, c, .refl a, Segment.namedFolder_of_singleton hv rest, hsaving⟩

theorem readCommandLine_cases {session : Session} {tokens : List String}
    (h : readCommandLine session fs tokens = (b, e)) :
    (SameStore ⟨session, fs, {}, [], []⟩ b ∧ SavesNothing e) ∨
      ∃ m v kept c, SameStore ⟨session, fs, {}, [], []⟩ m ∧
        Segment.namedFolder (Segment.ofTokens tokens.tail) = some v ∧ Saving m v kept c ∧
        m.persist kept c = (b, e) := by
  unfold readCommandLine at h
  simp only at h
  split at h
  · cases h
    exact .inl ⟨.refl _, savesNothing_failed _⟩
  · exact run_cases h

theorem persist_cases {session : Session} {c : Completion} (h : a.persist session c = (b, e)) :
    b.files = (session.save a.files).1 ∧
      ((session.save a.files).2.result = .ok () ∧ e = some (.completed c) ∨
        ∃ f : Failure, f.IsSystem ∧ e = some (.failed f)) := by
  unfold persist at h
  simp only at h
  rcases withValue_cases h with ⟨rfl, f, hf, rfl⟩ | ⟨u, hu, hstop⟩
  · exact ⟨rfl, .inr ⟨f, Settings.isSystem_of_save hf, rfl⟩⟩
  · cases hstop
    exact ⟨rfl, .inl ⟨hu, rfl⟩⟩

end Progress

/-- A directory is listed behind all others, as one that is searched, unless it is listed already. -/
inductive Settings.Gains (s : Settings) (p : Path) : Settings → Prop
  | listed {d : InstallDir} : d ∈ s.installDirs → d.path = p → Gains s p s
  | new : (∀ d ∈ s.installDirs, d.path ≠ p) →
      Gains s p { s with installDirs := s.installDirs ++ [{ path := p, enabled := true }] }

theorem Settings.gains_addInstallDir (s : Settings) (p : Path) : s.Gains p (s.addInstallDir p) := by
  unfold addInstallDir
  split
  · rename_i hlisted
    obtain ⟨d, hd, hp⟩ := List.any_eq_true.1 hlisted
    exact .listed hd (of_decide_eq_true hp)
  · rename_i hnew
    exact .new fun d hd hp ↦ hnew (List.any_eq_true.2 ⟨d, hd, decide_eq_true hp⟩)

/-- How the reading of a command line changes what is kept: not at all, unless it ends with the
message that the folder it names was saved. -/
inductive Settings.ChangedBy (s : Settings) (segs : List Segment) : Option Ending → Settings → Prop
  | nothing {e : Option Ending} : Progress.SavesNothing e → ChangedBy s segs e s
  | game {v : String} {t : Settings} : Segment.namedFolder segs = some v →
      s.Gains (Path.ofString v) t → ChangedBy s segs (some (.completed .gameFolderSaved)) t
  | addon {v : String} : Segment.namedFolder segs = some v →
      ChangedBy s segs (some (.completed .addonFolderSaved))
        { s with addonDir := some (Path.ofString v) }

theorem Progress.Saving.settingsFile {a : Progress} {v : String} {kept : Session} {c : Completion}
    (h : Saving a v kept c) : kept.settingsFile = a.session.settingsFile := by
  cases h <;> rfl

theorem Progress.Saving.changedBy {a : Progress} {v : String} {kept : Session} {c : Completion}
    {segs : List Segment} (h : Saving a v kept c) (hv : Segment.namedFolder segs = some v) :
    a.session.settings.ChangedBy segs (some (.completed c)) kept.settings := by
  cases h with
  | game => exact .game hv (Settings.gains_addInstallDir _ _)
  | addon => exact .addon hv

end GameLauncher
