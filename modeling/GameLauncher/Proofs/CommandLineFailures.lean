import GameLauncher.Proofs.OverlongPaths
import GameLauncher.Proofs.RejectedCommandLine

namespace GameLauncher

/-- What is said of a command line that cannot be understood, or of a folder in it that is not
there. -/
def Failure.IsComplaint : Failure → Prop
  | .noArguments | .missingArgument _ | .notTrueOrFalse _ | .badPid .. | .missingFolder _ => True
  | _ => False

theorem Failure.IsSystem.not_isComplaint {f : Failure} (h : f.IsSystem) : ¬ f.IsComplaint := by
  cases f <;> first | exact id | exact absurd h id

namespace CommandLine

variable {t v : String} {f : Failure}

def digitsOf (v : String) : List Char := (Decimal.sign v.toList).2

/-- Decimal digits behind at most one sign. -/
def IsInteger (v : String) : Prop :=
  digitsOf v ≠ [] ∧ ∀ c ∈ digitsOf v, Decimal.isDigit c = true

instance : Decidable (IsInteger v) := inferInstanceAs (Decidable (_ ∧ _))

def IsPid (v : String) : Prop := IsInteger v ∧ 1 ≤ pidValue v ∧ pidValue v ≤ 2147483647

def IsLong (v : String) : Prop := IsInteger v ∧ 4300 < (digitsOf v).length

theorem isInteger_iff :
    ((digitsOf v).isEmpty || !(digitsOf v).all Decimal.isDigit) = !decide (IsInteger v) := by
  rw [Bool.eq_iff_iff]
  by_cases h : digitsOf v = [] <;> simp [IsInteger, h]

theorem readPid_eq_error :
    readPid t v = .error f ↔
      IsLong v ∧ f = .longNumeral (digitsOf v).length ∨
        ¬ IsLong v ∧ ¬ IsPid v ∧ f = .badPid t v := by
  have hread : readPid t v =
      if ((digitsOf v).isEmpty || !(digitsOf v).all Decimal.isDigit) = true then .error (.badPid t v)
      else if 4300 < (digitsOf v).length then .error (.longNumeral (digitsOf v).length)
      else if 1 ≤ pidValue v ∧ pidValue v ≤ 2147483647 then .ok (pidValue v)
      else .error (.badPid t v) := rfl
  rw [hread, isInteger_iff, IsPid, IsLong]
  by_cases hinteger : IsInteger v
  · by_cases hlong : 4300 < (digitsOf v).length
    · simp [hinteger, hlong, @eq_comm _ f]
    by_cases hpid : 1 ≤ pidValue v ∧ pidValue v ≤ 2147483647
    · simp [hinteger, hlong, hpid]
    · simp [hinteger, hlong, hpid, @eq_comm _ f]
  · simp [hinteger, @eq_comm _ f]

theorem readBoolean_eq_error :
    readBoolean t v = .error f ↔ v ≠ "true" ∧ v ≠ "false" ∧ f = .notTrueOrFalse t := by
  unfold readBoolean
  split
  · simp_all
  split
  · simp_all
  · simp_all [@eq_comm _ f]

theorem readFolder_eq_error {files : FileSystem} :
    readFolder files v = .error f ↔
      files.isDirectory (.ofString v) = .ok false ∧ f = .missingFolder v ∨
        files.Overruns (.ofString v) ∧ f = .overlong (.ofString v) := by
  rw [← FileSystem.isDirectory_eq_error]
  unfold readFolder
  cases files.isDirectory (.ofString v) with
  | error g => simp
  | ok isDir => cases isDir <;> simp [@eq_comm _ f]

end CommandLine

namespace Segment

open CommandLine

variable {files : FileSystem} {session : Session} {seg : Segment} {f : Failure}

/-- A segment that is turned down, and what is said of it. -/
inductive IsRejected (files : FileSystem) : Segment → Failure → Prop
  | cut (p : Parameter) (t : String) : IsRejected files (.cut p t) (.missingArgument t)
  | fullscreen {t v : String} : v ≠ "true" → v ≠ "false" →
      IsRejected files (.valued .fullscreen t v) (.notTrueOrFalse t)
  | pid {t v : String} : ¬ IsPid v → ¬ IsLong v →
      IsRejected files (.valued .waitForPid t v) (.badPid t v)
  | folder {p : Parameter} {t v : String} : p.kind = .folder →
      files.isDirectory (.ofString v) = .ok false →
        IsRejected files (.valued p t v) (.missingFolder v)

/-- A segment with a value too long to be checked at all. -/
inductive Leaks (files : FileSystem) : Segment → Failure → Prop
  | pid {t v : String} : IsLong v →
      Leaks files (.valued .waitForPid t v) (.longNumeral (digitsOf v).length)
  | folder {p : Parameter} {t v : String} : p.kind = .folder → files.Overruns (.ofString v) →
      Leaks files (.valued p t v) (.overlong (.ofString v))

/-- A folder that is there, and whose saving fails. -/
inductive FailsToSave (session : Session) (files : FileSystem) : Segment → Failure → Prop
  | game {t v : String} {f : Failure} : files.isDirectory (.ofString v) = .ok true →
      ((session.addInstallDir (.ofString v)).save files).2.result = .error f →
        FailsToSave session files (.valued .addGameFolder t v) f
  | addon {t v : String} {f : Failure} : files.isDirectory (.ofString v) = .ok true →
      ((session.setAddonDir (.ofString v)).save files).2.result = .error f →
        FailsToSave session files (.valued .setAddonFolder t v) f

/-- The segments before one at which reading stops are all accepted. -/
def StopsAt (files : FileSystem) (segs before : List Segment) (seg : Segment) : Prop :=
  (∃ after, segs = before ++ seg :: after) ∧ ∀ s ∈ before, s.IsAccepted files

theorem IsRejected.isComplaint (h : seg.IsRejected files f) : f.IsComplaint := by
  cases h <;> trivial

theorem Leaks.not_isComplaint (h : seg.Leaks files f) : ¬ f.IsComplaint := by
  cases h <;> exact id

theorem FailsToSave.not_isComplaint (h : seg.FailsToSave session files f) : ¬ f.IsComplaint := by
  cases h with
  | game _ hsave => exact (Settings.isSystem_of_save hsave).not_isComplaint
  | addon _ hsave => exact (Settings.isSystem_of_save hsave).not_isComplaint

end Segment

namespace Progress

open CommandLine

variable {a b m : Progress} {seg : Segment} {segs before after : List Segment} {ts : List String}
  {session : Session} {files : FileSystem} {f : Failure} {e : Ending} {c : Completion}

theorem withValue_failed {α : Type} {v : Except Failure α} {k : α → Progress × Option Ending} :
    (a.withValue v k).2 = some (.failed f) ↔
      v = .error f ∨ ∃ x, v = .ok x ∧ (k x).2 = some (.failed f) := by
  cases v <;> simp [withValue, stop]

theorem withValue_proceed_failed {α : Type} {v : Except Failure α} {k : α → Progress} :
    (a.withValue v fun x ↦ (k x).proceed).2 = some (.failed f) ↔ v = .error f := by
  rw [withValue_failed]
  simp [proceed]

theorem withValue_persist_failed {k : Path → Session} {v : String} :
    (a.withValue (readFolder a.files v) fun dir ↦ a.persist (k dir) c).2 = some (.failed f) ↔
      readFolder a.files v = .error f ∨ a.files.isDirectory (.ofString v) = .ok true ∧
        ((k (.ofString v)).save a.files).2.result = .error f := by
  have hpersist : ∀ kept, (a.persist kept c).2 = some (.failed f) ↔
      (kept.save a.files).2.result = .error f := by
    intro kept
    simp only [persist, withValue_failed]
    simp [stop]
  simp only [withValue_failed, readFolder_eq_ok, hpersist, and_assoc, exists_and_left,
    exists_eq_left]

theorem applyParameter_failed (p : Parameter) (t v : String) :
    (a.applyParameter p t v).2 = some (.failed f) ↔
      match p with
      | .game | .patch => False
      | .fullscreen => readBoolean t v = .error f
      | .waitForPid => readPid t v = .error f
      | .overrideRoot => readFolder a.files v = .error f
      | .addGameFolder => readFolder a.files v = .error f ∨
          a.files.isDirectory (.ofString v) = .ok true ∧
            ((a.session.addInstallDir (.ofString v)).save a.files).2.result = .error f
      | .setAddonFolder => readFolder a.files v = .error f ∨
          a.files.isDirectory (.ofString v) = .ok true ∧
            ((a.session.setAddonDir (.ofString v)).save a.files).2.result = .error f := by
  cases p with
  | game | patch => simp [applyParameter, proceed]
  | fullscreen | waitForPid | overrideRoot => exact withValue_proceed_failed
  | addGameFolder | setAddonFolder => exact withValue_persist_failed

theorem folder_failed {p : Parameter} {t v : String} (hp : p.kind = .folder)
    (hv : readFolder a.files v = .error f) : (a.step (.valued p t v)).2 = some (.failed f) := by
  apply (applyParameter_failed p t v).2
  cases p with
  | overrideRoot => exact hv
  | addGameFolder | setAddonFolder => exact .inl hv
  | game | patch | fullscreen | waitForPid => cases hp

theorem step_of_isRejected (h : seg.IsRejected a.files f) :
    (a.step seg).2 = some (.failed f) := by
  cases h with
  | cut p t => rfl
  | @fullscreen t v htrue hfalse =>
    apply (applyParameter_failed .fullscreen t v).2
    exact readBoolean_eq_error.2 ⟨htrue, hfalse, rfl⟩
  | @pid t v hpid hlong =>
    apply (applyParameter_failed .waitForPid t v).2
    exact readPid_eq_error.2 (.inr ⟨hlong, hpid, rfl⟩)
  | folder hp hdir => exact folder_failed hp (readFolder_eq_error.2 (.inl ⟨hdir, rfl⟩))

theorem step_of_leaks (h : seg.Leaks a.files f) : (a.step seg).2 = some (.failed f) := by
  cases h with
  | @pid t v hlong =>
    apply (applyParameter_failed .waitForPid t v).2
    exact readPid_eq_error.2 (.inl ⟨hlong, rfl⟩)
  | folder hp hlong => exact folder_failed hp (readFolder_eq_error.2 (.inr ⟨hlong, rfl⟩))

theorem step_of_failsToSave (h : seg.FailsToSave a.session a.files f) :
    (a.step seg).2 = some (.failed f) := by
  cases h with
  | @game t v f hdir hsave => exact (applyParameter_failed .addGameFolder t v).2 (.inr ⟨hdir, hsave⟩)
  | @addon t v f hdir hsave =>
    exact (applyParameter_failed .setAddonFolder t v).2 (.inr ⟨hdir, hsave⟩)

theorem isRejected_or_leaks_of_readFolder {p : Parameter} {v : String} (hp : p.kind = .folder)
    (hv : readFolder files v = .error f) (t : String) :
    Segment.IsRejected files (.valued p t v) f ∨ Segment.Leaks files (.valued p t v) f := by
  rcases readFolder_eq_error.1 hv with ⟨hdir, rfl⟩ | ⟨hlong, rfl⟩
  · exact .inl (.folder hp hdir)
  · exact .inr (.folder hp hlong)

/-- All that a segment can fail with. -/
theorem failed_of_step (h : (a.step seg).2 = some (.failed f)) :
    (seg.IsRejected a.files f ∨ seg.Leaks a.files f) ∨ seg.FailsToSave a.session a.files f := by
  cases seg with
  | separator rest => cases h
  | switch s t => cases s <;> cases h
  | unknown t =>
    simp only [step] at h
    split at h <;> cases h
  | cut p t =>
    cases h
    exact .inl (.inl (.cut p t))
  | valued p t v =>
    replace h := (applyParameter_failed p t v).1 h
    cases p with
    | game | patch => exact absurd h id
    | fullscreen =>
      obtain ⟨htrue, hfalse, rfl⟩ := readBoolean_eq_error.1 h
      exact .inl (.inl (.fullscreen htrue hfalse))
    | waitForPid =>
      rcases readPid_eq_error.1 h with ⟨hlong, rfl⟩ | ⟨hlong, hpid, rfl⟩
      · exact .inl (.inr (.pid hlong))
      · exact .inl (.inl (.pid hpid hlong))
    | overrideRoot => exact .inl (isRejected_or_leaks_of_readFolder rfl h t)
    | addGameFolder =>
      rcases h with h | ⟨hdir, hsave⟩
      · exact .inl (isRejected_or_leaks_of_readFolder rfl h t)
      · exact .inr (.game hdir hsave)
    | setAddonFolder =>
      rcases h with h | ⟨hdir, hsave⟩
      · exact .inl (isRejected_or_leaks_of_readFolder rfl h t)
      · exact .inr (.addon hdir hsave)

theorem step_failed :
    (a.step seg).2 = some (.failed f) ↔
      seg.IsRejected a.files f ∨ seg.Leaks a.files f ∨ seg.FailsToSave a.session a.files f := by
  rw [← or_assoc]
  constructor
  · exact failed_of_step
  · rintro ((h | h) | h)
    · exact step_of_isRejected h
    · exact step_of_leaks h
    · exact step_of_failsToSave h

theorem run_append (h : a.run before = (m, none)) (segs : List Segment) :
    a.run (before ++ segs) = m.run segs := by
  induction before generalizing a with
  | nil =>
    cases h
    rfl
  | cons seg before ih =>
    rw [List.cons_append, run]
    rw [run] at h
    rcases hstep : a.step seg with ⟨a', _ | e⟩
    · simp only [hstep] at h ⊢
      exact ih h
    · simp only [hstep] at h
      cases h

theorem run_before (hsegs : Segment.ofTokens ts = before ++ after)
    (haccepted : ∀ s ∈ before, s.IsAccepted files) :
    (meaning session files []).run before = (meaning session files before, none) := by
  have hcut := Segment.cutInto_ofTokens (before.flatMap Segment.tokens)
  rw [Segment.ofTokens_flatMap_tokens hsegs] at hcut
  exact run_meaning hcut (by simp) haccepted

/-- Reading fails exactly where a segment does after accepted ones, in the state that these mean. -/
theorem run_failed (hsegs : Segment.ofTokens ts = segs) :
    ((meaning session files []).run segs).2 = some (.failed f) ↔
      ∃ before seg, Segment.StopsAt files segs before seg ∧
        ((meaning session files before).step seg).2 = some (.failed f) := by
  constructor
  · intro h
    obtain ⟨before, seg, after, m, heq, hrun, hstep⟩ := run_eq_some (Prod.ext rfl h)
    have haccepted : ∀ s ∈ before, s.IsAccepted files := (run_eq_none hrun :)
    rw [run_before (hsegs.trans heq) haccepted] at hrun
    cases hrun
    exact ⟨before, seg, ⟨⟨after, heq⟩, haccepted⟩, by rw [hstep]⟩
  · rintro ⟨before, seg, ⟨⟨after, heq⟩, haccepted⟩, hstep⟩
    rw [heq, run_append (run_before (hsegs.trans heq) haccepted), run]
    rcases hs : (meaning session files before).step seg with ⟨m, _ | e⟩
    · rw [hs] at hstep
      cases hstep
    · rw [hs] at hstep
      exact hstep

theorem readCommandLine_failed {tokens : List String} (hcut : Segment.CutInto tokens.tail segs) :
    (readCommandLine session files tokens).2 = some (.failed f) ↔
      tokens.length ≤ 1 ∧ f = .noArguments ∨
        ∃ before seg, Segment.StopsAt files segs before seg ∧ (seg.IsRejected files f ∨
          seg.Leaks files f ∨ seg.FailsToSave (meaning session files before).session files f) := by
  have hsegs := hcut.eq_ofTokens
  rw [readCommandLine, start_eq_meaning]
  by_cases hlen : tokens.length ≤ 1
  · have hnil : segs = [] := by
      rw [hsegs, List.eq_nil_of_length_eq_zero (l := tokens.tail) (by simp; omega)]
      rfl
    simp [hlen, stop, hnil, Segment.StopsAt, @eq_comm _ f]
  · rw [if_neg hlen, ← hsegs, run_failed hsegs.symm]
    simp only [step_failed, hlen, false_and, false_or]
    rfl

end Progress

/-- Reading fails with something else than a complaint exactly if, behind accepted segments, a value
is too long to be checked or a folder cannot be saved. All else that is wrong is complained of. -/
theorem readCommandLine_leaks_iff {session : Session} {files : FileSystem} {tokens : List String}
    {segs : List Segment} (hcut : Segment.CutInto tokens.tail segs) :
    let failsWith (f : Failure) := (readCommandLine session files tokens).2 = some (.failed f)
    (∀ f, failsWith f ∧ ¬ f.IsComplaint ↔
      ∃ before seg, Segment.StopsAt files segs before seg ∧ (seg.Leaks files f ∨
        seg.FailsToSave (Progress.meaning session files before).session files f)) ∧
    ∀ f, failsWith f ∧ f.IsComplaint ↔
      tokens.length ≤ 1 ∧ f = .noArguments ∨
        ∃ before seg, Segment.StopsAt files segs before seg ∧ seg.IsRejected files f := by
  intro failsWith
  have hfails : ∀ f, failsWith f ↔ _ := fun f ↦ Progress.readCommandLine_failed hcut
  constructor
  · intro f
    rw [hfails]
    constructor
    · rintro ⟨⟨-, rfl⟩ | ⟨before, seg, hstop, hrejected | hleaks⟩, hf⟩
      · exact absurd trivial hf
      · exact absurd hrejected.isComplaint hf
      · exact ⟨before, seg, hstop, hleaks⟩
    · rintro ⟨before, seg, hstop, hleaks⟩
      refine ⟨.inr ⟨before, seg, hstop, .inr hleaks⟩, ?_⟩
      rcases hleaks with h | h
      · exact h.not_isComplaint
      · exact h.not_isComplaint
  · intro f
    rw [hfails]
    constructor
    · rintro ⟨h | ⟨before, seg, hstop, hrejected | hleaks | hsave⟩, hf⟩
      · exact .inl h
      · exact .inr ⟨before, seg, hstop, hrejected⟩
      · exact absurd hf hleaks.not_isComplaint
      · exact absurd hf hsave.not_isComplaint
    · rintro (⟨hlen, rfl⟩ | ⟨before, seg, hstop, hrejected⟩)
      · exact ⟨.inl ⟨hlen, rfl⟩, trivial⟩
      · exact ⟨.inr ⟨before, seg, hstop, .inl hrejected⟩, hrejected.isComplaint⟩

theorem readCommandLine_leaks_folder :
    let session : Session := { settings := {}, settingsFile := .here, userDir := .here }
    let v := (Name.repeated 255).text
    let tokens := ["emucli", "--show-fps", "--override-root", v, "-h"]
    Segment.CutInto tokens.tail [.switch .showFps "--show-fps",
        .valued .overrideRoot "--override-root" v, .switch .help "-h"] ∧
      (readCommandLine session (.bare []) tokens).2 =
        some (.failed (.overlong (.ofString v))) := by
  intro session v tokens
  have hcut : Segment.CutInto tokens.tail [.switch .showFps "--show-fps",
      .valued .overrideRoot "--override-root" v, .switch .help "-h"] :=
    .switch (by decide) (.valued v (by decide) (.switch (by decide) .nil))
  have hleaks : Segment.Leaks (.bare []) (.valued .overrideRoot "--override-root" v)
      (.overlong (.ofString v)) :=
    .folder rfl (FileSystem.overruns_repeated (by decide) rfl)
  obtain ⟨hiff, -⟩ := readCommandLine_leaks_iff hcut
  refine ⟨hcut, ((hiff _).2 ?_).1⟩
  refine ⟨[.switch .showFps "--show-fps"], _, ⟨⟨_, rfl⟩, ?_⟩, .inl hleaks⟩
  simp [Segment.IsAccepted]

def ones (k : Nat) : String := String.ofList (List.replicate k '1')

theorem isLong_ones {k : Nat} (h : 4300 < k) : CommandLine.IsLong (ones k) := by
  have hdigits : CommandLine.digitsOf (ones k) = List.replicate k '1' := by
    rw [CommandLine.digitsOf, ones, String.toList_ofList]
    cases k <;> rfl
  rw [CommandLine.IsLong, CommandLine.IsInteger, hdigits, List.length_replicate]
  refine ⟨⟨?_, ?_⟩, h⟩
  · rw [ne_eq, List.replicate_eq_nil_iff]
    omega
  · intro c hc
    rw [List.eq_of_mem_replicate hc]
    rfl

/-- A number with one digit more than are ever read, and a name with one byte more than there can be,
are not complained of. -/
theorem readCommandLine_uncaught :
    let session : Session := { settings := {}, settingsFile := .here, userDir := .here }
    (∃ f, (readCommandLine session (.bare []) ["emucli", "--wait-for-pid", ones 4301]).2 =
        some (.failed f) ∧ ¬ f.IsComplaint) ∧
      ∃ f, (readCommandLine session (.bare [])
        ["emucli", "--override-root", (Name.repeated 255).text]).2 = some (.failed f) ∧
          ¬ f.IsComplaint := by
  intro session
  have leaks : ∀ p t v f, t ∈ Parameter.spellings p →
      Segment.Leaks (.bare []) (.valued p t v) f →
      ∃ f, (readCommandLine session (.bare []) ["emucli", t, v]).2 = some (.failed f) ∧
        ¬ f.IsComplaint := by
    intro p t v f ht hleaks
    have hcut : Segment.CutInto (["emucli", t, v] : List String).tail [.valued p t v] :=
      .valued v ht .nil
    refine ⟨f, ?_, hleaks.not_isComplaint⟩
    rw [Progress.readCommandLine_failed hcut]
    exact .inr ⟨[], _, ⟨⟨[], rfl⟩, by simp⟩, .inr (.inl hleaks)⟩
  constructor
  · exact leaks .waitForPid _ _ _ (by decide) (.pid (isLong_ones (by decide)))
  · exact leaks .overrideRoot _ _ _ (by decide)
      (.folder rfl (FileSystem.overruns_repeated (by decide) rfl))

end GameLauncher
