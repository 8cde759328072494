import GameLauncher.Proofs.LogContent
import GameLauncher.Proofs.SettingsHistory

namespace GameLauncher

namespace FileSystem

variable {fs fs' fs₁ fs₂ : FileSystem} {dirs files dirs' files' : Location → Prop} {p q : Path}
  {k l : Location} {a : Anchor} {ns : List Name} {c : Bytes}

def LeadsTo (fs : FileSystem) (p : Path) (l : Location) : Prop := fs.lead p = some l

def OnWay (fs : FileSystem) (p : Path) (l : Location) : Prop :=
  ∃ ns, ns <+: p.parts ∧ fs.LeadsTo ⟨p.anchor, ns⟩ l

theorem Grows.onWay (h : Grows fs fs') (p : Path) : fs'.OnWay p = fs.OnWay p := by
  unfold OnWay LeadsTo
  simp only [h.lead]

theorem onWay_child (h : fs.OnWay p l) (n : Name) : fs.OnWay (p.child n) l := by
  obtain ⟨ns, hns, hlead⟩ := h
  exact ⟨ns, hns.trans (List.prefix_append p.parts [n]), hlead⟩

/-- Trees that differ at most in new directories at some places and in files at others. -/
structure ChangesOnly (dirs files : Location → Prop) (fs fs' : FileSystem) : Prop where
  workingDir : fs'.workingDir = fs.workingDir
  host : fs'.host = fs.host
  change : ∀ l, fs'.get? l = fs.get? l ∨
    dirs l ∧ fs.get? l = none ∧ fs'.get? l = some .directory ∨
    files l ∧ fs.TakesFile l ∧ ∃ c, fs'.get? l = some (.file c)

namespace ChangesOnly

theorem refl (dirs files : Location → Prop) (fs : FileSystem) : ChangesOnly dirs files fs fs :=
  ⟨rfl, rfl, fun _ ↦ .inl rfl⟩

theorem mono (h : ChangesOnly dirs files fs fs') (hdirs : ∀ l, dirs l → dirs' l)
    (hfiles : ∀ l, files l → files' l) : ChangesOnly dirs' files' fs fs' where
  workingDir := h.workingDir
  host := h.host
  change l := by
    rcases h.change l with hsame | ⟨hl, hdir⟩ | ⟨hl, hfile⟩
    · exact .inl hsame
    · exact .inr (.inl ⟨hdirs l hl, hdir⟩)
    · exact .inr (.inr ⟨hfiles l hl, hfile⟩)

theorem trans (h : ChangesOnly dirs files fs fs₁) (h' : ChangesOnly dirs files fs₁ fs₂) :
    ChangesOnly dirs files fs fs₂ where
  workingDir := h'.workingDir.trans h.workingDir
  host := h'.host.trans h.host
  change l := by
    rcases h'.change l with hsame | ⟨hdirs, hnone, hdir⟩ | ⟨hfiles, htakes, hfile⟩
    · rw [hsame]
      exact h.change l
    · rcases h.change l with hsame' | ⟨-, -, hdir'⟩ | ⟨-, -, c, hfile'⟩
      · exact .inr (.inl ⟨hdirs, hsame' ▸ hnone, hdir⟩)
      · rw [hnone] at hdir'
        cases hdir'
      · rw [hnone] at hfile'
        cases hfile'
    · rcases h.change l with hsame' | ⟨-, -, hdir'⟩ | ⟨-, htakes', -⟩
      · refine .inr (.inr ⟨hfiles, ?_, hfile⟩)
        rwa [TakesFile, ← hsame']
      · unfold TakesFile at htakes
        rw [hdir'] at htakes
        simp at htakes
      · exact .inr (.inr ⟨hfiles, htakes', hfile⟩)

theorem put_file (hl : files l) (h : fs.TakesFile l) (c : Bytes) :
    ChangesOnly dirs files fs (fs.put l (.file c)) where
  workingDir := rfl
  host := rfl
  change k := by
    by_cases hk : k = l
    · subst hk
      exact .inr (.inr ⟨hl, h, c, get?_put_self h.ne_nil⟩)
    · exact .inl (get?_put_of_ne h.ne_nil hk)

theorem put_directory (hl : dirs l) (h : fs.get? l = none) :
    ChangesOnly dirs files fs (fs.put l .directory) where
  workingDir := rfl
  host := rfl
  change k := by
    by_cases hk : k = l
    · subst hk
      exact .inr (.inl ⟨hl, h, get?_put_self (ne_nil_of_get?_none h)⟩)
    · exact .inl (get?_put_of_ne (ne_nil_of_get?_none h) hk)

theorem of_sameBut (h : SameBut files fs fs') : ChangesOnly dirs files fs fs' where
  workingDir := by rw [← workingDir_outline, h.outline, workingDir_outline]
  host := by rw [← host_outline, h.outline, host_outline]
  change l := by
    by_cases hl : files l
    · rcases get?_of_outline_eq h.outline l with hsame | ⟨c, c', hfile, hfile'⟩
      · exact .inl hsame
      · exact .inr (.inr ⟨hl, .inr ⟨c, hfile⟩, c', hfile'⟩)
    · exact .inl (h.elsewhere l hl)

theorem grows (h : ChangesOnly dirs files fs fs') : Grows fs fs' where
  workingDir := h.workingDir
  host := h.host
  directory l hl := by
    rcases h.change l with hsame | ⟨-, -, hdir⟩ | ⟨-, htakes, -⟩
    · rw [hsame, hl]
    · exact hdir
    · rcases htakes with hnone | ⟨c, hfile⟩ <;> simp_all
  file l c hl := by
    rcases h.change l with hsame | ⟨-, hnone, -⟩ | ⟨-, -, hfile⟩
    · exact ⟨c, by rw [hsame, hl]⟩
    · rw [hl] at hnone
      cases hnone
    · exact hfile
  link l t := by
    rcases h.change l with hsame | ⟨-, hnone, hdir⟩ | ⟨-, htakes, c, hfile⟩
    · rw [hsame]
    · simp [hnone, hdir]
    · rcases htakes with hnone | ⟨c, hfile'⟩ <;> simp_all

theorem bytesAt (h : ChangesOnly dirs files fs fs') (hl : ¬ files l) :
    fs'.bytesAt l = fs.bytesAt l := by
  unfold FileSystem.bytesAt
  rcases h.change l with hsame | ⟨-, hnone, hdir⟩ | ⟨hfiles, -⟩
  · rw [hsame]
  · rw [hnone, hdir]
  · exact absurd hfiles hl

theorem read (h : ChangesOnly dirs files fs fs') (hapart : ∀ l, fs.LeadsTo p l → ¬ files l)
    (hread : fs.read p = .ok c) : fs'.read p = .ok c := by
  obtain ⟨hnull, l, hw⟩ := read_eq_ok.1 hread
  obtain ⟨node, hnode, hw'⟩ := h.grows.walk_occupied hw
  have hbytes := h.bytesAt (hapart l (lead_of_walk hw))
  rw [bytesAt_eq_some.2 (get?_of_walk hw), bytesAt_eq_some, hnode, Option.some.injEq] at hbytes
  exact read_eq_ok.2 ⟨hnull, l, hbytes ▸ hw'⟩

end ChangesOnly

theorem makeDirectory_changes (h : fs.makeDirectory p = .done fs') :
    ChangesOnly (fs.LeadsTo p) files fs fs' := by
  unfold makeDirectory at h
  split at h
  · cases h
  split at h
  · rename_i l hl
    cases h
    have hfree : fs.get? l = none := by
      rcases p.parts_eq_nil_or_child with hnil | ⟨q, n, rfl⟩
      · exact absurd hl (freePlace_of_parts_eq_nil hnil l).1
      · obtain ⟨dir, rfl, -, -, -, -, hfree⟩ := freePlace_eq_ok hl
        exact hfree
    have hlead := lead_of_walk (walk_put_freePlace hl)
    rw [(Grows.put_directory hfree).lead] at hlead
    exact .put_directory hlead hfree
  · cases h
  · split at h
    · cases h
    · cases h
      exact .refl ..
    · cases h

theorem makeDirectoriesAt_changes (files : Location → Prop) (fs : FileSystem) (a : Anchor)
    (ns : List Name) :
    ChangesOnly (fs.OnWay ⟨a, ns.reverse⟩) files fs (fs.makeDirectoriesAt a ns).1 := by
  have hself : ∀ (gs : FileSystem) (ns : List Name) l, gs.LeadsTo ⟨a, ns.reverse⟩ l →
      gs.OnWay ⟨a, ns.reverse⟩ l := fun gs ns l hl ↦ ⟨_, List.prefix_rfl, hl⟩
  induction ns with
  | nil =>
    unfold makeDirectoriesAt
    split
    · exact (makeDirectory_changes ‹_›).mono (hself fs []) fun _ hl ↦ hl
    · exact .refl ..
    · exact .refl ..
  | cons n up ih =>
    have hup : ∀ l, fs.OnWay ⟨a, up.reverse⟩ l → fs.OnWay ⟨a, (n :: up).reverse⟩ l := by
      intro l hl
      rw [List.reverse_cons]
      exact onWay_child hl n
    have hgrows := (fs.makeDirectoriesAt_adds a up).toGrows
    unfold makeDirectoriesAt
    simp only
    split
    · exact (makeDirectory_changes ‹_›).mono (hself fs (n :: up)) fun _ hl ↦ hl
    · exact .refl ..
    · rcases hmade : fs.makeDirectoriesAt a up with ⟨fs₁, f | u⟩ <;>
        rw [hmade] at ih hgrows <;> simp only
      · exact ih.mono hup fun _ hl ↦ hl
      · have hfirst := ih.mono hup fun _ hl ↦ hl
        split
        · refine hfirst.trans ((makeDirectory_changes ‹_›).mono ?_ fun _ hl ↦ hl)
          intro l hl
          exact hgrows.onWay _ ▸ hself fs₁ (n :: up) l hl
        · exact hfirst
        · exact hfirst

theorem makeDirectories_changes (files : Location → Prop) (fs : FileSystem) (p : Path) :
    ChangesOnly (fs.OnWay p) files fs (fs.makeDirectories p).1 := by
  have h := makeDirectoriesAt_changes files fs p.anchor p.parts.reverse
  rwa [List.reverse_reverse] at h

end FileSystem

open FileSystem

section

variable {fs : FileSystem} {dir p : Path} {l : Location}

theorem UserDirectory.ensure_changes (files : Location → Prop) (fs : FileSystem) (dir : Path) :
    ChangesOnly (fs.OnWay dir) files fs (ensure fs dir).1 := by
  have h := makeDirectories_changes files fs dir
  rw [ensure_fst, ensureDirectory]
  split
  · exact .refl ..
  · exact .refl ..
  · split <;> rename_i hmade <;> rwa [hmade] at h

theorem UserDirectory.prepared_changes (files : Location → Prop) (fs : FileSystem) (dir : Path) :
    ChangesOnly (fs.OnWay (dir.child logName)) files fs (prepared fs dir) := by
  have hgrows := (ensure_adds fs dir).toGrows
  have hlog := makeDirectories_changes files (ensure fs dir).1 (dir.child logName)
  rw [hgrows.onWay] at hlog
  exact ((ensure_changes files fs dir).mono (fun _ hl ↦ onWay_child hl logName)
    fun _ hl ↦ hl).trans hlog

theorem Settings.save_changes {s : Settings} (h : (s.save fs p).2.result = .ok ()) :
    ChangesOnly (fs.OnWay p.parent) (fs.LeadsTo p) fs (s.save fs p).1 := by
  obtain ⟨fs₁, l, old, hmade, hopen, hsave⟩ := save_eq_ok h
  obtain ⟨htakes, hlead, -⟩ := openForWriting_bytesAt hopen
  have hdirs := makeDirectories_changes (fs.LeadsTo p) fs p.parent
  have hgrows := (fs.makeDirectories_adds p.parent).toGrows
  rw [hmade] at hdirs hgrows
  rw [hgrows.lead] at hlead
  rw [hsave]
  exact hdirs.trans (.put_file hlead htakes _)

end

namespace Run

variable {ε : Type} {launcher : Launcher ε} {clock : Clock} {env : Environment}
  {userDir : Option Path} {fs : FileSystem} {tokens : List String} {code : Int} {dir : Path}
  {desk d : Desk} {session : Session} {read : Progress} {e : Ending}

/-- What a run leaves of a tree, by how the reading of its command line ended. -/
inductive Leaves (fs : FileSystem) (dir : Path) : Option Ending → FileSystem → Prop
  | failed (f : Failure) : Leaves fs dir (some (.failed f)) fs
  | help : Leaves fs dir (some (.completed .help)) fs
  | saved {c : Completion} {fs' : FileSystem} : c ≠ .help →
      ChangesOnly (fs.OnWay dir) (fs.LeadsTo (dir.child UserDirectory.configName)) fs fs' →
        Leaves fs dir (some (.completed c)) fs'
  | played {fs' : FileSystem} :
      ChangesOnly (fs.OnWay (dir.child UserDirectory.logName))
        (fs.LeadsTo (Logging.openedPath fs dir)) fs fs' →
        Leaves fs dir none fs'

theorem leaves_of_finish {settings : Settings}
    (hread : readCommandLine (.opened dir settings) fs tokens = (read, some e))
    (hexit : (finish desk e : Outcome ε).exit = .ok code) : Leaves fs dir (some e) read.files := by
  obtain ⟨-, -, hexpected⟩ := finish_eq_ok hexit
  rcases Progress.readCommandLine_cases hread with ⟨hsame, hnothing⟩ |
    ⟨m, v, kept, c, hsame, -, hsaving, hpersist⟩
  · rw [hsame.files]
    cases e with
    | failed f => exact .failed f
    | completed c =>
      cases hnothing c rfl
      exact .help
  · obtain ⟨hfiles, ⟨hsaved, hend⟩ | ⟨f, hf, hend⟩⟩ := Progress.persist_cases hpersist
    · cases hend
      refine .saved ?_ ?_
      · rintro rfl
        cases hsaving
      · have hfile : kept.settingsFile = dir.child UserDirectory.configName := by
          rw [hsaving.settingsFile, hsame.settingsFile]
          rfl
        rw [Session.save, hfile, hsame.files] at hsaved hfiles
        rw [hfiles]
        have h := Settings.save_changes hsaved
        rwa [Path.parent_child] at h
    · cases hend
      have htrue := hexpected f rfl
      rw [hf.isExpected_eq_false] at htrue
      cases htrue

theorem leaves_of_opensLog {threshold : Level} {k : Location} {kept : Bytes}
    (hlog : OpensLog desk session threshold k kept d)
    (h : d.files.SameBut (· = k) fs) :
    Leaves desk.files session.userDir none fs := by
  have hdirs := UserDirectory.prepared_changes
    (desk.files.LeadsTo (Logging.openedPath desk.files session.userDir)) desk.files session.userDir
  rw [hlog.state] at h
  refine .played ((hdirs.trans (.put_file hlog.lead hlog.takesFile kept)).trans (.of_sameBut ?_))
  apply h.mono
  rintro l rfl
  exact hlog.lead

theorem exists_leaves (hexit : (run launcher clock env userDir fs {} tokens).exit = .ok code) :
    ∃ dir settings read ending, userDir.elim (UserDirectory.default env) .ok = .ok dir ∧
      (Settings.load fs (dir.child UserDirectory.configName)).result = .ok settings ∧
      readCommandLine (.opened dir settings) fs tokens = (read, ending) ∧
      Leaves fs dir ending (run launcher clock env userDir fs {} tokens).desk.files := by
  rw [run_eq_opened] at hexit ⊢
  rcases hopened : opened clock env userDir fs {} with ⟨desk, f | session⟩
  · simp only [hopened] at hexit
    cases hexit
  simp only [hopened] at hexit ⊢
  obtain ⟨dir, settings, hdir, hload, rfl, -⟩ := opened_eq_ok hopened
  rcases hread : readCommandLine (.opened dir settings) fs tokens with ⟨read, ending⟩
  obtain ⟨rfl, hheard⟩ := heard_of_new hopened read
  refine ⟨dir, settings, read, ending, hdir, hload, hread, ?_⟩
  cases ending with
  | some e =>
    rw [withSession_eq_finish hread] at hexit ⊢
    obtain ⟨hfiles, -, -⟩ := finish_eq_ok hexit
    rw [hfiles, hheard]
    exact leaves_of_finish hread hexit
  | none =>
    rw [withSession_eq_proceed hread, proceed_eq_ready] at hexit ⊢
    rcases hready : ready clock (heard clock desk read) read.session read.warnings with ⟨d, f | u⟩
    · simp only [hready] at hexit
      cases hexit
    obtain ⟨threshold, k, kept, opened, hlog, rfl⟩ := ready_eq_ok hready
    obtain ⟨_, -, hready⟩ := hlog.logsTo.logAll clock
      (openingRecords (logFile read.session) read.session.logAppend read.warnings)
    obtain ⟨_, -, hplay⟩ := play_logsTo hready launcher clock read.invocation read.session
    have hleaves := leaves_of_opensLog hlog hplay.elsewhere
    obtain ⟨-, -, hmeaning⟩ := Progress.readCommandLine_eq_none hread
    have huser : read.session.userDir = dir := by
      rw [hmeaning]
      rfl
    have hfiles : read.files = desk.files := by
      rw [hmeaning]
      rfl
    rw [hheard, hfiles, huser] at hleaves
    exact hleaves

/-- A run in a new process that gives an exit code leaves the tree as it was if its command line was
rejected or asked for help. If a folder was saved, only the settings' file and missing directories
above it were written, and if the line was read to its end only the log and missing directories
above it. Then the settings' file is untouched unless the log leads there. -/
theorem run_leaves (hexit : (run launcher clock env userDir fs {} tokens).exit = .ok code) :
    let after := (run launcher clock env userDir fs {} tokens).desk.files
    ∃ dir settings read ending, userDir.elim (UserDirectory.default env) .ok = .ok dir ∧
      (Settings.load fs (dir.child UserDirectory.configName)).result = .ok settings ∧
      readCommandLine (.opened dir settings) fs tokens = (read, ending) ∧
      Leaves fs dir ending after ∧
      (ending = none →
        (∀ l, fs.LeadsTo (dir.child UserDirectory.configName) l →
          ¬ fs.LeadsTo (Logging.openedPath fs dir) l) →
        (∀ l, fs.LeadsTo (dir.child UserDirectory.configName) l →
          after.bytesAt l = fs.bytesAt l) ∧
        ∀ c, fs.read (dir.child UserDirectory.configName) = .ok c →
          after.read (dir.child UserDirectory.configName) = .ok c) := by
  intro after
  obtain ⟨dir, settings, read, ending, hdir, hload, hread, hleaves⟩ := exists_leaves hexit
  refine ⟨dir, settings, read, ending, hdir, hload, hread, hleaves, ?_⟩
  rintro rfl hapart
  cases hleaves with
  | played hchanges =>
    exact ⟨fun l hl ↦ hchanges.bytesAt (hapart l hl), fun c ↦ hchanges.read hapart⟩

theorem run_leaves_fresh :
    let o := run (Launch.run { env := [] }) .stopped [] (some (.ofString "user")) (.bare []) {}
      [programName, "g"]
    o.exit = .ok 1 ∧ ∃ ending, Leaves (.bare []) (.ofString "user") ending o.desk.files := by
  intro o
  have hexit : o.exit = .ok 1 := rfl
  obtain ⟨dir, settings, read, ending, hdir, -, -, hleaves, -⟩ := run_leaves hexit
  cases hdir
  exact ⟨hexit, ending, hleaves⟩

/-- A run that saves nothing empties the settings' file, although this and the log as the user
directory has it lead apart: the log is opened under another spelling of its path. -/
theorem run_empties_settings :
    let dir := Path.ofString "l/../u"
    let config := dir.child UserDirectory.configName
    let tokens := [programName, "--show-fps"]
    let o := run (Launch.run { env := [] }) .stopped [] (some dir) Visit.behindLink {} tokens
    Visit.behindLink.lead config ≠
        Visit.behindLink.lead ((dir.child UserDirectory.logName).child Logging.fileName) ∧
      o.exit = .ok 1 ∧
      (readCommandLine (.opened dir Visit.quiet) Visit.behindLink tokens).2 = none ∧
      Visit.behindLink.read config = .ok (Text.encodeUtf8 Visit.quiet.render) ∧
      o.desk.files.read config = .ok [] := by
  intro dir config tokens o
  have hwalk : Visit.behindLink.walk .follow config =
      .ok (.occupied (FileSystem.placeAt "x/u/config.toml")
        (.file (Text.encodeUtf8 Visit.quiet.render))) := rfl
  have ho : o = withSession (Launch.run { env := [] }) .stopped
      { files := Visit.behindLink, logging := {} } (.opened dir Visit.quiet) tokens :=
    run_of_load (Settings.load_of_written rfl hwalk)
  refine ⟨by decide, ?_, rfl, read_eq_ok.2 ⟨rfl, _, hwalk⟩, ?_⟩
  · simp only [ho, dir, tokens]
    rfl
  · simp only [ho, config, dir, tokens]
    rfl

end Run

end GameLauncher
