import GameLauncher.Proofs.DocumentSettings
import GameLauncher.Proofs.ScannedText

namespace GameLauncher.Settings

open Toml (Table Value)

variable {fs : FileSystem} {p : Path} {f : Failure} {content : Bytes}

/-- What keeps the settings at a path from being loaded at all. -/
inductive LoadFailure (fs : FileSystem) (p : Path) : Failure → Prop
  | path : fs.Overruns p → LoadFailure fs p (.overlong p)
  | encoding {content : Bytes} {fault : Text.Utf8Fault} : fs.read p = .ok content →
      Text.decodeUtf8 content = .error fault → LoadFailure fs p (.notUtf8 fault)
  | numeral {content : Bytes} {text : String} {digits : Nat} : fs.read p = .ok content →
      Text.decodeUtf8 content = .ok text →
      Toml.parse fs.host.stack text = .error (.longNumeral digits) →
      LoadFailure fs p (.longNumeral digits)
  | nesting {content : Bytes} {text complaint : String} : fs.read p = .ok content →
      Text.decodeUtf8 content = .ok text →
      Toml.parse fs.host.stack text = .error (.tooDeep complaint) →
      LoadFailure fs p (.tooDeep complaint)
  | logLevel {t : Table} {v : Value} {f : Failure} : ReadsAs fs p t → WellTyped t →
      valueAt t "General" "logLevel" = some v → v.Unwritable fs.host.stack f → LoadFailure fs p f

theorem load_of_content (h : fs.read p = .ok content) :
    load fs p = match Text.decodeUtf8 content with
      | .error fault => .fail (.notUtf8 fault)
      | .ok text => ofText fs.host.stack p text := by
  obtain ⟨hnull, l, hwalk⟩ := FileSystem.read_eq_ok.1 h
  exact load_of_walk hnull hwalk

theorem read_eq_error_of_exists (hexists : fs.exists? p = .ok true) (h : fs.read p = .error f) :
    ∃ e, f = .system e p.text := by
  obtain ⟨l, hnull, node, hwalk⟩ := FileSystem.exists?_eq_true.1 hexists
  unfold FileSystem.read FileSystem.resolve at h
  simp only [hnull, hwalk, Bool.false_eq_true, if_false] at h
  cases node <;> cases h <;> exact ⟨_, rfl⟩

theorem overruns_of_unread {g : Failure} (hread : fs.read p = .error g)
    (h : (load fs p).result = .error f) : fs.Overruns p ∧ f = .overlong p := by
  unfold load at h
  rcases hexists : fs.exists? p with g' | _ | _
  · rw [hexists] at h
    cases h
    exact FileSystem.exists?_eq_error.1 hexists
  · rw [hexists] at h
    cases h
  · obtain ⟨e, rfl⟩ := read_eq_error_of_exists hexists hread
    rw [hexists, hread] at h
    cases h

theorem LoadFailure.load_eq (h : LoadFailure fs p f) : load fs p = .fail f := by
  cases h with
  | path hpath => simp [load, FileSystem.exists?_eq_error.2 ⟨hpath, rfl⟩]
  | encoding hread hdecode => rw [load_of_content hread, hdecode]
  | numeral hread hdecode hparse | nesting hread hdecode hparse =>
    simp only [load_of_content hread, hdecode, ofText, hparse]
  | logLevel hdocument htyped hvalue hunwritable =>
    rw [load_of_wellTyped hdocument htyped, levelOf_eq_error.2 ⟨_, hvalue, hunwritable⟩]
    rfl

theorem loadFailure_of_load (h : (load fs p).result = .error f) : LoadFailure fs p f := by
  cases hread : fs.read p with
  | error g =>
    obtain ⟨hpath, rfl⟩ := overruns_of_unread hread h
    exact .path hpath
  | ok content =>
  cases hdecode : Text.decodeUtf8 content with
  | error fault =>
    rw [load_of_content hread, hdecode] at h
    cases h
    exact .encoding hread hdecode
  | ok text =>
  rcases hparse : Toml.parse fs.host.stack text with (_ | digits | complaint) | t
  · simp [load_of_content hread, hdecode, ofText, hparse, warn] at h
  · simp only [load_of_content hread, hdecode, ofText, hparse] at h
    cases h
    exact .numeral hread hdecode hparse
  · simp only [load_of_content hread, hdecode, ofText, hparse] at h
    cases h
    exact .nesting hread hdecode hparse
  · have hdocument : ReadsAs fs p t := ⟨content, text, hread, hdecode, hparse⟩
    by_cases htyped : WellTyped t
    · rw [load_of_wellTyped hdocument htyped] at h
      obtain ⟨v, hvalue, hunwritable⟩ := levelOf_eq_error.1 (map_eq_error.1 h)
      exact .logLevel hdocument htyped hvalue hunwritable
    · obtain ⟨m, -, hwarned⟩ := load_of_not_wellTyped hdocument htyped
      rw [hwarned] at h
      cases h

theorem load_eq_error : (load fs p).result = .error f ↔ LoadFailure fs p f := by
  constructor
  · exact loadFailure_of_load
  · intro h
    rw [h.load_eq]
    rfl

theorem LoadFailure.hasLongNumeral {digits : Nat} (h : LoadFailure fs p (.longNumeral digits)) :
    ∃ content text, fs.read p = .ok content ∧ Text.decodeUtf8 content = .ok text ∧
      Toml.HasLongNumeral text.toList digits := by
  cases h with
  | numeral hread hdecode hparse =>
    exact ⟨_, _, hread, hdecode, Toml.hasLongNumeral_of_parse hparse⟩
  | logLevel _ _ _ hunwritable => cases hunwritable

theorem LoadFailure.isDeep {complaint : String} (h : LoadFailure fs p (.tooDeep complaint)) :
    (∃ content text, fs.read p = .ok content ∧ Text.decodeUtf8 content = .ok text ∧
      Toml.IsDeep 0 text.toList) ∨
    ∃ t v, ReadsAs fs p t ∧ valueAt t "General" "logLevel" = some v ∧
      Toml.safeDepth < v.depth := by
  cases h with
  | nesting hread hdecode hparse =>
    exact .inl ⟨_, _, hread, hdecode, Toml.isDeep_of_parse hparse⟩
  | logLevel hdocument _ hvalue hunwritable =>
    cases hunwritable with
    | tooDeep hdeep => exact .inr ⟨_, _, hdocument, hvalue, Toml.safeDepth_lt hdeep⟩

theorem load_of_missing (h : fs.exists? p = .ok false) : load fs p = ⟨[], .ok {}⟩ := by
  simp [load, h, Traced.ofExcept]

theorem load_of_directory (h : fs.isDirectory p = .ok true) :
    load fs p = ⟨[⟨.warning, .settings,
      s!"Could not read {p.text}, using defaults: {Errno.isADirectory.message p.text}"⟩],
        .ok {}⟩ := by
  obtain ⟨hnull, l, hwalk⟩ := FileSystem.isDirectory_eq_true.1 h
  have hexists : fs.exists? p = .ok true :=
    FileSystem.exists?_eq_true.2 ⟨l, hnull, .directory, hwalk⟩
  have hread : fs.read p = .error (.system .isADirectory p.text) := by
    simp [FileSystem.read, FileSystem.resolve, hnull, hwalk]
  simp only [load, hexists, hread]
  rfl

theorem load_of_no_document (hread : fs.read p = .ok content) (hno : ∀ t, ¬ ReadsAs fs p t)
    (hfailure : ∀ f, ¬ LoadFailure fs p f) :
    load fs p = ⟨[⟨.warning, .settings,
      s!"Could not read {p.text}, using defaults: invalid TOML"⟩], .ok {}⟩ := by
  cases hdecode : Text.decodeUtf8 content with
  | error fault => exact absurd (.encoding hread hdecode) (hfailure _)
  | ok text =>
  rcases hparse : Toml.parse fs.host.stack text with (_ | digits | complaint) | t
  · simp only [load_of_content hread, hdecode, ofText, hparse]
    rfl
  · exact absurd (.numeral hread hdecode hparse) (hfailure _)
  · exact absurd (.nesting hread hdecode hparse) (hfailure _)
  · exact absurd ⟨content, text, hread, hdecode, hparse⟩ (hno t)

/-- Settings are loaded from whatever stands at a path, except for what is listed as a failure. What
is no document gives the defaults, with one warning if there is something to be read. -/
theorem load_answers (fs : FileSystem) (p : Path) :
    (∀ f, (load fs p).result = .error f ↔ LoadFailure fs p f) ∧
      (∀ digits, LoadFailure fs p (.longNumeral digits) → ∃ content text,
        fs.read p = .ok content ∧ Text.decodeUtf8 content = .ok text ∧
          Toml.HasLongNumeral text.toList digits) ∧
      (∀ complaint, LoadFailure fs p (.tooDeep complaint) →
        (∃ content text, fs.read p = .ok content ∧ Text.decodeUtf8 content = .ok text ∧
          Toml.IsDeep 0 text.toList) ∨
        ∃ t v, ReadsAs fs p t ∧ valueAt t "General" "logLevel" = some v ∧
          Toml.safeDepth < v.depth) ∧
      (fs.exists? p = .ok false → load fs p = ⟨[], .ok {}⟩) ∧
      (fs.isDirectory p = .ok true → load fs p = ⟨[⟨.warning, .settings,
        s!"Could not read {p.text}, using defaults: {Errno.isADirectory.message p.text}"⟩],
          .ok {}⟩) ∧
      ∀ content, fs.read p = .ok content → (∀ t, ¬ ReadsAs fs p t) → (∀ f, ¬ LoadFailure fs p f) →
        load fs p = ⟨[⟨.warning, .settings,
          s!"Could not read {p.text}, using defaults: invalid TOML"⟩], .ok {}⟩ := by
  refine ⟨fun f ↦ load_eq_error, ?_, ?_, load_of_missing, load_of_directory, ?_⟩
  · intro digits h
    exact h.hasLongNumeral
  · intro complaint h
    exact h.isDeep
  · intro content hread hno hfailure
    exact load_of_no_document hread hno hfailure

end GameLauncher.Settings

namespace GameLauncher

variable {ε : Type} {fs : FileSystem} {dir : Path} {f : Failure}

theorem Session.start_of_loadFailure
    (h : Settings.LoadFailure fs (dir.child UserDirectory.configName) f) :
    Session.start fs dir = .fail f := by
  simp only [Session.start, h.load_eq]
  rfl

theorem run_of_loadFailure (h : Settings.LoadFailure fs (dir.child UserDirectory.configName) f)
    (launcher : Launcher ε) (clock : Clock) (env : Environment) (logging : Logging)
    (tokens : List String) :
    run launcher clock env (some dir) fs logging tokens = ⟨.error f, [], { files := fs, logging }⟩ := by
  simp only [run, Option.elim_some, Session.start_of_loadFailure h]
  rfl

/-- A file of settings with one byte in it that begins no character keeps even the help from being
shown. -/
theorem load_notUtf8 :
    let files := (FileSystem.bare []).withFile "user/config.toml" [0xff]
    Settings.load files (.ofString "user/config.toml") = .fail (.notUtf8 ⟨0xff, 0, 1, .badStart⟩) ∧
      run (Launch.run { env := [] }) .stopped [] (some (.ofString "user")) files {} ["emucli", "--help"] =
        ⟨.error (.notUtf8 ⟨0xff, 0, 1, .badStart⟩), [], { files, logging := {} }⟩ := by
  intro files
  have hread : files.read (.ofString "user/config.toml") = .ok [0xff] := rfl
  have hinvalid : String.fromUTF8? ⟨#[0xff]⟩ = none := by decide
  have hdecode : Text.decodeUtf8 [0xff] = .error ⟨0xff, 0, 1, .badStart⟩ := by
    rw [Text.decodeUtf8, hinvalid]
    rfl
  have h := Settings.LoadFailure.encoding hread hdecode
  exact ⟨h.load_eq, run_of_loadFailure h _ _ _ _ _⟩

end GameLauncher
