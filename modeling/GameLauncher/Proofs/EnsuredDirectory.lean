import GameLauncher.Proofs.JoinedPaths
import GameLauncher.Proofs.OverlongPaths
import GameLauncher.Proofs.RunTree

namespace GameLauncher

namespace FileSystem

variable {fs fs' : FileSystem} {p : Path} {f : Failure} {a : Anchor} {ns : List Name}

/-- How the making of a directory leaves the tree when it fails: the directory is not there, and
only a null in its path is not for the system to complain of. -/
structure Unmade (fs : FileSystem) (p : Path) (f : Failure) : Prop where
  missing : fs.isDirectory p ≠ .ok true
  null : f = .embeddedNull → p.hasNull = true

theorem unmade_of_parentMissing (h : fs.makeDirectory p = .parentMissing) (text : String) :
    Unmade fs p (.system .notFound text) where
  missing hdir := by
    rw [makeDirectory_of_isDirectory hdir] at h
    cases h
  null := nofun

theorem unmade_of_failed (h : fs.makeDirectory p = .failed f) : Unmade fs p f where
  missing hdir := by
    rw [makeDirectory_of_isDirectory hdir] at h
    cases h
  null := by
    rintro rfl
    unfold makeDirectory at h
    split at h
    · assumption
    · split at h
      · cases h
      · cases h
      · split at h
        · cases h
          obtain ⟨-, hlong⟩ := isDirectory_eq_error.1 ‹_›
          cases hlong
        · cases h
        · cases h

theorem Unmade.child (h : Unmade fs p f) (n : Name) : Unmade fs (p.child n) f where
  missing hdir := by
    obtain ⟨l, hl⟩ := names_of_isDirectory hdir
    exact h.missing (isDirectory_of_names_child hl)
  null hf := Path.hasNull_child (h.null hf) n

theorem unmade_of_makeDirectoriesAt (h : fs.makeDirectoriesAt a ns = (fs', .error f)) :
    Unmade fs' ⟨a, ns.reverse⟩ f := by
  induction ns generalizing fs' f with
  | nil =>
    unfold makeDirectoriesAt at h
    split at h
    · cases h
    · rename_i hmade
      cases h
      exact unmade_of_parentMissing hmade _
    · rename_i hmade
      cases h
      exact unmade_of_failed hmade
  | cons n up ih =>
    unfold makeDirectoriesAt at h
    simp only at h
    split at h
    · cases h
    · rename_i hmade
      cases h
      exact unmade_of_failed hmade
    · split at h
      · rename_i hup
        cases h
        rw [List.reverse_cons]
        exact (ih hup).child n
      · split at h
        · cases h
        · rename_i hmade
          cases h
          exact unmade_of_parentMissing hmade _
        · rename_i hmade
          cases h
          exact unmade_of_failed hmade

theorem unmade_of_makeDirectories (h : fs.makeDirectories p = (fs', .error f)) :
    Unmade fs' p f := by
  have hunmade := unmade_of_makeDirectoriesAt h
  rwa [List.reverse_reverse] at hunmade

theorem makeDirectories_of_hasNull (h : p.hasNull = true) :
    fs.makeDirectories p = (fs, .error .embeddedNull) := by
  have hp : p = ⟨p.anchor, p.parts.reverse.reverse⟩ := by rw [List.reverse_reverse]
  have hmade : fs.makeDirectory p = .failed .embeddedNull := by rw [makeDirectory, if_pos h]
  rw [makeDirectories]
  cases hns : p.parts.reverse with
  | nil =>
    rw [hns] at hp
    rw [hp] at hmade
    simp only [List.reverse_nil] at hmade
    rw [makeDirectoriesAt, hmade]
  | cons n up =>
    rw [hns] at hp
    rw [makeDirectoriesAt]
    simp only [← hp, hmade]

end FileSystem

namespace UserDirectory

variable {fs : FileSystem} {p : Path}

def Blocked (fs : FileSystem) (p : Path) : Prop :=
  fs.exists? p = .ok true ∧ fs.isDirectory p = .ok false

/-- All that can come of it when a directory is asked for. -/
inductive Ensures (fs : FileSystem) (p : Path) : FileSystem × Traced Bool → Prop
  | overlong : fs.Overruns p → Ensures fs p (fs, .fail (.overlong p))
  | null : p.hasNull = true → Ensures fs p (fs, .fail .embeddedNull)
  | there : fs.exists? p = .ok true → Ensures fs p (fs, ⟨[], .ok true⟩)
  | made {fs' : FileSystem} : fs.exists? p = .ok false → fs'.isDirectory p = .ok true →
      Ensures fs p (fs', ⟨[], .ok true⟩)
  | unmade {fs' : FileSystem} {text : String} : fs.exists? p = .ok false → p.hasNull = false →
      fs'.isDirectory p ≠ .ok true → Ensures fs p (fs', ⟨[⟨.error, .utils, text⟩], .ok false⟩)

theorem ensures_ensureDirectory (fs : FileSystem) (p : Path) (purpose : String) :
    Ensures fs p (ensureDirectory fs p purpose) := by
  unfold ensureDirectory
  rcases hexists : fs.exists? p with f | _ | _
  · obtain ⟨hlong, rfl⟩ := FileSystem.exists?_eq_error.1 hexists
    exact .overlong hlong
  · cases hnull : p.hasNull with
    | true =>
      rw [FileSystem.makeDirectories_of_hasNull hnull]
      exact .null hnull
    | false =>
      rcases hmade : fs.makeDirectories p with ⟨fs', f | u⟩
      · have hunmade := FileSystem.unmade_of_makeDirectories hmade
        have hsystem := FileSystem.isSystem_of_makeDirectoriesAt (congrArg Prod.snd hmade)
        cases f with
        | system e text => exact .unmade hexists hnull hunmade.missing
        | embeddedNull =>
          rw [hunmade.null rfl] at hnull
          cases hnull
        | _ => exact hsystem.elim
      · exact .made hexists (FileSystem.isDirectory_of_makeDirectories hmade)
  · exact .there hexists

theorem isDirectory_or_blocked (h : fs.exists? p = .ok true) :
    fs.isDirectory p = .ok true ∨ Blocked fs p := by
  rcases hdir : fs.isDirectory p with f | _ | _
  · rw [FileSystem.exists?_eq_error.2 (FileSystem.isDirectory_eq_error.1 hdir)] at h
    cases h
  · exact .inr ⟨h, hdir⟩
  · exact .inl rfl

theorem not_blocked_of_exists (h : fs.exists? p = .ok false) : ¬ Blocked fs p := by
  rintro ⟨hexists, -⟩
  rw [h] at hexists
  cases hexists

def Fails (fs : FileSystem) (p : Path) (f : Failure) : Prop :=
  fs.Overruns p ∧ f = .overlong p ∨ p.hasNull = true ∧ f = .embeddedNull

theorem not_fails_of_exists {b : Bool} (hexists : fs.exists? p = .ok b)
    (hnull : p.hasNull = false) (f : Failure) : ¬ Fails fs p f := by
  rintro (⟨hlong, -⟩ | ⟨hnull', -⟩)
  · rw [FileSystem.exists?_eq_error.2 ⟨hlong, rfl⟩] at hexists
    cases hexists
  · rw [hnull] at hnull'
    cases hnull'

/-- The answer to the request for a directory, told by the trees before and after it. A yes means
that the directory is there, unless something else was in its place. -/
structure Answers (fs : FileSystem) (p : Path) (made : FileSystem × Traced Bool) : Prop where
  error : ∀ f, made.2.result = .error f ↔ Fails fs p f
  ok : ∀ b, made.2.result = .ok b →
    (b = true ↔ made.1.isDirectory p = .ok true ∨ Blocked fs p)
  blocked : Blocked fs p → made = (fs, ⟨[], .ok true⟩)
  complaint : made.2.result = .ok false → ∃ text, made.2.records = [⟨.error, .utils, text⟩]
  silence : made.2.result ≠ .ok false → made.2.records = []

theorem Ensures.answers {made : FileSystem × Traced Bool} (h : Ensures fs p made) :
    Answers fs p made := by
  cases h with
  | overlong hlong =>
    have hnull : p.hasNull = false := hlong.1
    have hexists := FileSystem.exists?_eq_error.2 ⟨hlong, rfl⟩
    refine ⟨fun f ↦ ?_, nofun, ?_, nofun, fun _ ↦ rfl⟩
    · simp [Traced.fail, Fails, hlong, hnull, @eq_comm _ f]
    · rintro ⟨hblocked, -⟩
      rw [hexists] at hblocked
      cases hblocked
  | null hnull =>
    refine ⟨fun f ↦ ?_, nofun, ?_, nofun, fun _ ↦ rfl⟩
    · simp [Traced.fail, Fails, FileSystem.Overruns, hnull, @eq_comm _ f]
    · rintro ⟨hblocked, -⟩
      obtain ⟨l, hnull', -⟩ := FileSystem.exists?_eq_true.1 hblocked
      rw [hnull] at hnull'
      cases hnull'
  | there hexists =>
    obtain ⟨l, hnull, -⟩ := FileSystem.exists?_eq_true.1 hexists
    refine ⟨fun f ↦ iff_of_false nofun (not_fails_of_exists hexists hnull f), ?_, fun _ ↦ rfl,
      nofun, fun _ ↦ rfl⟩
    rintro b hb
    cases hb
    exact iff_of_true rfl (isDirectory_or_blocked hexists)
  | made hexists hdir =>
    obtain ⟨l, hnull, -⟩ := FileSystem.names_of_isDirectory hdir
    refine ⟨fun f ↦ iff_of_false nofun (not_fails_of_exists hexists hnull f), ?_,
      fun hblocked ↦ absurd hblocked (not_blocked_of_exists hexists), nofun, fun _ ↦ rfl⟩
    rintro b hb
    cases hb
    exact iff_of_true rfl (.inl hdir)
  | unmade hexists hnull hdir =>
    have hblocked := not_blocked_of_exists hexists
    refine ⟨fun f ↦ iff_of_false nofun (not_fails_of_exists hexists hnull f), ?_,
      fun h ↦ absurd h hblocked, fun _ ↦ ⟨_, rfl⟩, fun h ↦ absurd rfl h⟩
    rintro b hb
    cases hb
    exact iff_of_false Bool.false_ne_true (not_or.2 ⟨hdir, hblocked⟩)

theorem Answers.refused_iff {made : FileSystem × Traced Bool} (h : Answers fs p made) :
    made.2.result = .ok false ↔
      (∀ f, ¬ Fails fs p f) ∧ made.1.isDirectory p ≠ .ok true ∧ ¬ Blocked fs p := by
  constructor
  · intro hno
    refine ⟨fun f hf ↦ ?_, ?_⟩
    · rw [(h.error f).2 hf] at hno
      cases hno
    · exact not_or.1 (mt (h.ok false hno).2 Bool.false_ne_true)
  · rintro ⟨hfails, hdir, hblocked⟩
    cases hresult : made.2.result with
    | error f => exact absurd ((h.error f).1 hresult) (hfails f)
    | ok b =>
      cases b with
      | false => rfl
      | true => exact absurd ((h.ok true hresult).1 rfl) (not_or.2 ⟨hdir, hblocked⟩)

theorem ensure_cases (fs : FileSystem) (p : Path) :
    ((ensure fs p).2.result = .ok () ↔ (ensureDirectory fs p "user").2.result = .ok true) ∧
      ∀ f, (ensure fs p).2.result = .error f ↔
        (ensureDirectory fs p "user").2.result = .error f ∨
          (ensureDirectory fs p "user").2.result = .ok false ∧ f = .noUserDirectory p := by
  unfold ensure
  rcases ensureDirectory fs p "user" with ⟨fs', records, f | _ | _⟩ <;>
    simp [@eq_comm _ _ (Failure.noUserDirectory p)]

/-- A request for a directory fails exactly if its path is too long to be looked at or has a null in
it. Else the answer tells whether the directory is there afterwards, and a no is recorded, except
that whatever stands in its place counts as one. The user directory is had or the run ends, with the
same exception. -/
theorem ensureDirectory_answers (fs : FileSystem) (p : Path) :
    let user := ensure fs p
    (∀ purpose, Answers fs p (ensureDirectory fs p purpose)) ∧
      (user.2.result = .ok () → (user.1.isDirectory p = .ok true ↔ ¬ Blocked fs p)) ∧
      ∀ f, user.2.result = .error f ↔ Fails fs p f ∨ f = .noUserDirectory p ∧
        (∀ g, ¬ Fails fs p g) ∧ user.1.isDirectory p ≠ .ok true ∧ ¬ Blocked fs p := by
  intro user
  have hanswers := fun purpose ↦ (ensures_ensureDirectory fs p purpose).answers
  obtain ⟨hok, herror⟩ := ensure_cases fs p
  refine ⟨hanswers, ?_, ?_⟩
  · intro huser
    rw [ensure_fst]
    rcases ((hanswers "user").ok true (hok.1 huser)).1 rfl with hdir | hblocked
    · refine iff_of_true hdir fun hblocked ↦ ?_
      rw [(hanswers "user").blocked hblocked, hblocked.2] at hdir
      cases hdir
    · refine iff_of_false (fun hdir ↦ ?_) (not_not_intro hblocked)
      rw [(hanswers "user").blocked hblocked, hblocked.2] at hdir
      cases hdir
  · intro f
    rw [herror, (hanswers "user").error, (hanswers "user").refused_iff, ← ensure_fst, and_comm]

/-- A file passes for the directory that it stands in the place of. -/
theorem ensureDirectory_blocked :
    let files := (FileSystem.bare []).withFile "f" []
    ensureDirectory files (.ofString "f") "" = (files, ⟨[], .ok true⟩) ∧
      files.isDirectory (.ofString "f") = .ok false ∧
      (ensure files (.ofString "f")).2.result = .ok () ∧
      (ensureDirectory files (.ofString "a\x00b") "").2.result = .error .embeddedNull ∧
      ∃ f, (ensureDirectory files (.ofString (Name.repeated 255).text) "").2.result = .error f := by
  intro files
  have hlong : Fails files (.ofString (Name.repeated 255).text)
      (.overlong (.ofString (Name.repeated 255).text)) :=
    .inl ⟨FileSystem.overruns_repeated (by decide) rfl, rfl⟩
  exact ⟨rfl, rfl, rfl, rfl, _, ((ensures_ensureDirectory files _ "").answers.error _).2 hlong⟩

end UserDirectory

end GameLauncher
