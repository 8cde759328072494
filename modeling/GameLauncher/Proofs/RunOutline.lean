import GameLauncher.Proofs.LogContent
import GameLauncher.Proofs.LookupOutline
import GameLauncher.Proofs.SettingsHistory

namespace GameLauncher

variable {fs fs' gs gs' : FileSystem} {P : Location → Prop} {p dir : Path} {k l : Location}

namespace FileSystem.SameBut

theorem of_adds (h : fs.SameBut P fs') (hadds : fs.AddsDirectories gs)
    (hadds' : fs'.AddsDirectories gs') (houtline : gs'.outline = gs.outline) :
    gs.SameBut P gs' where
  outline := houtline
  elsewhere l hl := by
    rcases get?_of_outline_eq houtline l with hsame | ⟨c, c', hg, hg'⟩
    · exact hsame
    · have hkept := (hadds'.content l c').2 hg'
      rw [h.elsewhere l hl, (hadds.content l c).2 hg] at hkept
      rw [hg', hg, hkept]

theorem makeDirectories (h : fs.SameBut P fs') (p : Path) :
    (fs.makeDirectories p).1.SameBut P (fs'.makeDirectories p).1 ∧
      (fs'.makeDirectories p).2 = (fs.makeDirectories p).2 := by
  have hmade := makeDirectories_outline fs' p
  rw [h.outline, makeDirectories_outline, Prod.mk.injEq] at hmade
  exact ⟨h.of_adds (makeDirectories_adds fs p) (makeDirectories_adds fs' p) hmade.1.symm,
    hmade.2.symm⟩

theorem ensure (h : fs.SameBut P fs') (dir : Path) :
    (UserDirectory.ensure fs dir).1.SameBut P (UserDirectory.ensure fs' dir).1 ∧
      (UserDirectory.ensure fs' dir).2 = (UserDirectory.ensure fs dir).2 := by
  obtain ⟨hmade, hresult⟩ := h.makeDirectories dir
  unfold UserDirectory.ensure UserDirectory.ensureDirectory
  rw [h.exists?]
  rcases fs.exists? dir with f | _ | _
  · exact ⟨h, rfl⟩
  · rcases hfs : fs.makeDirectories dir with ⟨fs₁, f | u⟩ <;>
      rcases hfs' : fs'.makeDirectories dir with ⟨fs₁', f' | u'⟩ <;>
      rw [hfs, hfs'] at hmade hresult <;> cases hresult
    · cases f <;> exact ⟨hmade, rfl⟩
    · exact ⟨hmade, rfl⟩
  · exact ⟨h, rfl⟩

theorem put (h : fs.SameBut P fs') (hk : k ≠ []) (hP : P k) (c c' : Bytes) :
    (fs.put k (.file c)).SameBut P (fs'.put k (.file c')) where
  outline := by rw [outline_put, outline_put, h.outline, Node.outline, Node.outline]
  elsewhere l hl := by
    have hne : l ≠ k := by
      rintro rfl
      exact hl hP
    rw [get?_put_of_ne hk hne, get?_put_of_ne hk hne, h.elsewhere l hl]

theorem openFile (h : fs.SameBut P fs') (p : Path) (append : Bool) :
    match fs.openForWriting (.absolute (Logging.workingPath fs) p) with
    | .error f => Logging.openFile fs' p append = .error f
    | .ok (k, _) => ∃ kept : Bytes, Logging.openFile fs' p append =
        .ok (fs'.put k (.file kept), ⟨some k, append, kept.length⟩) := by
  have hworking : Logging.workingPath fs' = Logging.workingPath fs := by
    rw [Logging.workingPath, h.workingDir]
    rfl
  have hopen := openForWriting_outline fs' (.absolute (Logging.workingPath fs) p)
  rw [h.outline, openForWriting_outline] at hopen
  unfold Logging.openFile
  rw [hworking]
  rcases hfs : fs.openForWriting (.absolute (Logging.workingPath fs) p) with f | ⟨k, old⟩ <;>
    rcases hfs' : fs'.openForWriting (.absolute (Logging.workingPath fs) p) with f' | ⟨k', old'⟩ <;>
    rw [hfs, hfs'] at hopen <;> cases hopen
  · rfl
  · exact ⟨_, rfl⟩

end FileSystem.SameBut

theorem Logging.writeAll_sameBut {bytes : Bytes} {outputs : List LogFile}
    (hP : ∀ f ∈ outputs, ∀ l, f.place = some l → P l) :
    fs.SameBut P (writeAll bytes outputs fs).1 := by
  induction outputs generalizing fs with
  | nil => exact .refl P fs
  | cons f outputs ih =>
    have hrest : ∀ g ∈ outputs, ∀ l, g.place = some l → P l := fun g hg ↦
      hP g (List.mem_cons_of_mem f hg)
    rcases write_cases f fs bytes with hw | ⟨l, old, new, position, hplace, hold, hw⟩
    · rw [writeAll, hw]
      exact ih hrest
    · rw [writeAll, hw]
      exact (FileSystem.SameBut.put_file (hP f List.mem_cons_self l hplace) hold new).trans
        (ih hrest)

/-- How the setting up of a log comes out does not depend on what the files of the tree hold, once
the level is known to be one. -/
theorem Logging.setUp_sameBut (P : Location → Prop) (fs : FileSystem) (dir : Path)
    (hlog : ∀ l, fs.lead (.absolute (workingPath fs) (dir.child fileName)) = some l → P l) :
    ∃ (base : FileSystem) (result : Except Failure Path), fs.Grows base ∧
      ∀ (gs : FileSystem) (log : Logging) (append : Bool) (level : String) (threshold : Level),
        fs.SameBut P gs → levelOf level = .ok threshold →
          ∃ gs' logging, log.setUp gs dir append level = (gs', logging, result) ∧
            ∀ file, result = .ok file → base.SameBut P gs' ∧
              ∀ f ∈ logging.outputs, ∀ l, f.place = some l → P l := by
  have hgrows := (fs.makeDirectories_adds dir).toGrows
  rcases hmade : fs.makeDirectories dir with ⟨fs₁, f | u⟩
  · refine ⟨fs, .error f, .refl fs, ?_⟩
    intro gs log append level threshold h hlevel
    have hresult := (h.makeDirectories dir).2
    rcases hgs : gs.makeDirectories dir with ⟨gs₁, r⟩
    rw [hmade, hgs] at hresult
    cases hresult
    exact ⟨gs₁, log, by simp only [setUp_eq, hgs], by simp⟩
  · rw [hmade] at hgrows
    have hgs : ∀ gs, fs.SameBut P gs → ∃ gs₁, gs.makeDirectories dir = (gs₁, .ok ()) ∧
        fs₁.SameBut P gs₁ := by
      intro gs h
      obtain ⟨hfiles, hresult⟩ := h.makeDirectories dir
      rcases hgs : gs.makeDirectories dir with ⟨gs₁, r⟩
      rw [hmade, hgs] at hfiles hresult
      cases hresult
      exact ⟨gs₁, rfl, hfiles⟩
    rcases hopen : fs₁.openForWriting (.absolute (workingPath fs₁) (dir.child fileName)) with
      f | ⟨k, old⟩
    · refine ⟨fs, .error f, .refl fs, ?_⟩
      intro gs log append level threshold h hlevel
      obtain ⟨gs₁, hgs, hfiles⟩ := hgs gs h
      have hfile := hfiles.openFile (dir.child fileName) append
      rw [hopen] at hfile
      exact ⟨gs₁, ⟨threshold, []⟩, by simp only [setUp_eq, hgs, hlevel, hfile], by simp⟩
    · obtain ⟨htakes, hlead, -⟩ := FileSystem.openForWriting_bytesAt hopen
      refine ⟨fs₁.put k (.file []), .ok (dir.child fileName),
        hgrows.trans (.put_file htakes []), ?_⟩
      intro gs log append level threshold h hlevel
      obtain ⟨gs₁, hgs, hfiles⟩ := hgs gs h
      have hfile := hfiles.openFile (dir.child fileName) append
      rw [hopen] at hfile
      obtain ⟨kept, hfile⟩ := hfile
      have hP : P k := by
        apply hlog
        rw [← hgrows.lead, ← hlead, workingPath, workingPath, hgrows.workingDir]
      refine ⟨gs₁.put k (.file kept), ⟨threshold, [⟨some k, append, kept.length⟩]⟩,
        by simp only [setUp_eq, hgs, hlevel, hfile], ?_⟩
      intro file _
      refine ⟨hfiles.put htakes.ne_nil hP [] kept, ?_⟩
      intro f hf l hl
      rw [List.mem_singleton.1 hf, Option.some.injEq] at hl
      exact hl ▸ hP

namespace Desk

/-- A state whose tree is a given one but for the files at some places, and whose log goes to these
places alone. -/
structure Near (P : Location → Prop) (fs : FileSystem) (d : Desk) : Prop where
  files : fs.SameBut P d.files
  outputs : ∀ f ∈ d.logging.outputs, ∀ l, f.place = some l → P l

theorem Near.log {d : Desk} (h : d.Near P fs) (clock : Clock) (r : Record) :
    (d.log clock r).Near P fs := by
  constructor
  · rcases d.log_cases clock r with ⟨-, hlog⟩ | ⟨-, -, text, hlog⟩ | ⟨-, -, hlog⟩ <;> rw [hlog]
    · exact h.files
    · exact h.files
    · exact h.files.trans (Logging.writeAll_sameBut h.outputs)
  · intro f hf l hl
    obtain ⟨g, hg, hplace⟩ := exists_output_of_log hf
    exact h.outputs g hg l (hplace.trans hl)

theorem lasts_near (P : Location → Prop) (fs : FileSystem) (clock : Clock) :
    Lasts clock (Near P fs) where
  log r h := h.log clock r
  complain _ h := ⟨h.files, h.outputs⟩

end Desk

namespace Run

variable {sur : Launch.Surroundings} {clock : Clock} {d : Desk} {session : Session}
  {invocation : Invocation} {s : Settings} {segs : List Segment}

theorem ready_near (P : Location → Prop) (fs : FileSystem) (dir : Path)
    (hlog : ∀ l, fs.lead (Logging.openedPath fs dir) = some l → P l) :
    ∃ (base : FileSystem) (result : Except Failure Unit), fs.Grows base ∧
      ∀ (d : Desk) (session : Session) (clock : Clock) (warnings : List Warning)
        (threshold : Level), d.Near P fs → session.userDir = dir →
          Logging.levelOf session.settings.logLevel = .ok threshold →
            ∃ d', ready clock d session warnings = (d', result) ∧
              (result = .ok () → d'.Near P base) := by
  have hgrows := (UserDirectory.ensure_adds fs dir).toGrows
  rcases hensure : UserDirectory.ensure fs dir with ⟨fs₁, records, f | u⟩
  · refine ⟨fs, .error f, .refl fs, ?_⟩
    intro d session clock warnings threshold hd huser hlevel
    have hmade := (hd.files.ensure dir).2
    rcases hd' : UserDirectory.ensure d.files dir with ⟨fs', made⟩
    rw [hensure, hd'] at hmade
    cases hmade
    unfold ready
    simp only [huser, hd']
    exact ⟨_, rfl, by simp⟩
  · have hrecords := (UserDirectory.ensure_eq_ok
      (show (UserDirectory.ensure fs dir).2.result = .ok () by rw [hensure])).1
    rw [hensure] at hgrows hrecords
    cases hrecords
    obtain ⟨base, result, hbase, hsetUp⟩ := Logging.setUp_sameBut P fs₁
      (dir.child UserDirectory.logName) (by
        intro l hl
        apply hlog
        rw [← Logging.openedPath_grows hgrows, ← hgrows.lead]
        exact hl)
    refine ⟨base, result.map fun _ ↦ (), hgrows.trans hbase, ?_⟩
    intro d session clock warnings threshold hd huser hlevel
    obtain ⟨hfiles, hmade⟩ := hd.files.ensure dir
    rcases hd' : UserDirectory.ensure d.files dir with ⟨fs', made⟩
    rw [hensure, hd'] at hfiles hmade
    cases hmade
    obtain ⟨gs', logging, hset, hnear⟩ := hsetUp fs' d.logging session.logAppend
      session.settings.logLevel threshold hfiles hlevel
    unfold ready
    simp only [huser, hd', Desk.logAll, List.foldl_nil, hset]
    cases result with
    | error f => exact ⟨_, rfl, by simp [Except.map]⟩
    | ok file =>
      obtain ⟨hsame, houtputs⟩ := hnear file rfl
      exact ⟨_, rfl, fun _ ↦ (Desk.lasts_near P base clock).logAll _ ⟨hsame, houtputs⟩⟩

def playEvents (sur : Launch.Surroundings) (fs : FileSystem) (invocation : Invocation)
    (session : Session) : List Event :=
  if invocation.gamePath.isNone then []
  else match (Library.resolve fs invocation session).result with
    | .error _ => []
    | .ok game => (Launch.run sur fs game invocation session).events

theorem play_events (h : d.Near P fs)
    (hsplash : ∀ folder l, fs.lead (Library.splashIn folder) = some l → ¬ P l) :
    (play (Launch.run sur) clock d invocation session).events =
      playEvents sur fs invocation session := by
  unfold playEvents
  cases hgiven : invocation.gamePath.isNone with
  | true =>
    rw [play, if_pos hgiven, if_pos rfl]
    rfl
  | false =>
    have hsearch : (if session.settings.searchedDirs.isEmpty then d.complain noFolderInfo
        else d).Near P fs := by
      split
      · exact ⟨h.files, h.outputs⟩
      · exact h
    rw [play_eq_sought hgiven, if_neg Bool.false_ne_true]
    unfold sought
    simp only [Library.resolve_sameBut hsearch.files hsplash invocation rfl]
    have hfound := (Desk.lasts_near P fs clock).logAll
      (Library.resolve fs invocation session).records hsearch
    rcases (Library.resolve fs invocation session).result with f | game
    · simp only
      split <;> rfl
    · simp only [launch_eq_told, Launch.run, hfound.files.isFile]

theorem opened_near {env : Environment} {userDir : Option Path} {logging : Logging}
    (clock : Clock) (hdir : userDir.elim (UserDirectory.default env) .ok = .ok dir)
    (hload : (Settings.load fs' (dir.child UserDirectory.configName)).result = .ok s)
    (hfiles : fs.SameBut P fs')
    (houtputs : ∀ f ∈ logging.outputs, ∀ l, f.place = some l → P l) :
    ∃ desk, opened clock env userDir fs' logging = (desk, .ok (.opened dir s)) ∧
      desk.Near P fs := by
  have hopened : opened clock env userDir fs' logging =
      (Desk.logAll { files := fs', logging } clock (Session.start fs' dir).records,
        .ok (.opened dir s)) := by
    unfold opened
    simp only [hdir, Visit.start_result hload]
    rfl
  exact ⟨_, hopened, (Desk.lasts_near P fs clock).logAll _ ⟨hfiles, houtputs⟩⟩

theorem isAccepted_sameBut (h : fs.SameBut P fs') (seg : Segment) :
    seg.IsAccepted fs' ↔ seg.IsAccepted fs := by
  rcases seg with rest | sw | ⟨p, t, v⟩ | ⟨p, t⟩ | t
  · rfl
  · rfl
  · cases p <;> simp only [Segment.IsAccepted, h.isDirectory]
  · rfl
  · rfl

theorem readCommandLine_near {tokens : List String} (h : d.Near P fs)
    (hlen : 2 ≤ tokens.length)
    (haccepted : ∀ seg ∈ Segment.ofTokens tokens.tail, seg.IsAccepted fs) :
    readCommandLine session d.files tokens =
      (Progress.meaning session d.files (Segment.ofTokens tokens.tail), none) :=
  Progress.readCommandLine_of_accepted hlen fun seg hseg ↦
    (isAccepted_sameBut h.files seg).2 (haccepted seg hseg)

theorem heard_near {read : Progress} (h : d.Near P fs) (hfiles : read.files = d.files) :
    (heard clock d read).Near P fs := by
  have hlasts := Desk.lasts_near P fs clock
  refine hlasts.warnAll _ (hlasts.logAll _ ⟨?_, h.outputs⟩)
  exact hfiles ▸ h.files

/-- What a run does to the world outside depends on what the files of the tree hold through the
settings alone, as long as none of these files is a splash. -/
theorem run_events_near {env : Environment} {userDir : Option Path} {logging : Logging}
    {tokens : List String} (sur : Launch.Surroundings) (clock : Clock)
    (hdir : userDir.elim (UserDirectory.default env) .ok = .ok dir)
    (hcut : Segment.CutInto tokens.tail segs) (hlen : 2 ≤ tokens.length)
    (haccepted : ∀ seg ∈ segs, seg.IsAccepted fs)
    (hlog : ∀ l, fs.lead (Logging.openedPath fs dir) = some l → P l)
    (houtputs : ∀ f ∈ logging.outputs, ∀ l, f.place = some l → P l)
    (hsplash : ∀ folder l, fs.lead (Library.splashIn folder) = some l → ¬ P l) :
    ∃ (base : FileSystem) (isReady : Bool), ∀ (gs : FileSystem) (s : Settings), fs.SameBut P gs →
      (Settings.load gs (dir.child UserDirectory.configName)).result = .ok s →
        let meant := Progress.meaning (.opened dir s) fs segs
        (run (Launch.run sur) clock env userDir gs logging tokens).events =
          if isReady && (Logging.levelOf s.logLevel).isOk then
            playEvents sur base meant.invocation meant.session
          else [] := by
  obtain ⟨base, result, hgrows, hready⟩ := ready_near P fs dir hlog
  refine ⟨base, result.isOk, ?_⟩
  intro gs s hgs hload meant
  obtain ⟨desk, hopened, hdesk⟩ := opened_near clock hdir hload hgs houtputs
  have hread : readCommandLine (.opened dir s) desk.files tokens =
      (Progress.meaning (.opened dir s) desk.files segs, none) := by
    rw [hcut.eq_ofTokens] at haccepted ⊢
    exact readCommandLine_near hdesk hlen haccepted
  have hheard : (heard clock desk (Progress.meaning (.opened dir s) desk.files segs)).Near P fs :=
    heard_near hdesk rfl
  rw [run_eq_proceed hopened hread, proceed_eq_ready]
  generalize heard clock desk (Progress.meaning (.opened dir s) desk.files segs) = d at hheard
  rcases hlevel : Logging.levelOf s.logLevel with f | threshold
  · rcases hd : ready clock d (Progress.meaning (.opened dir s) desk.files segs).session
      (Progress.meaning (.opened dir s) desk.files segs).warnings with ⟨d', f | u⟩
    · simp [Except.isOk, Except.toBool, Desk.abort]
    · obtain ⟨threshold, k, kept, opened, hopens, -⟩ := ready_eq_ok hd
      have hlevel' := hopens.level
      rw [show (Progress.meaning (.opened dir s) desk.files segs).session.settings.logLevel =
        s.logLevel from rfl, hlevel] at hlevel'
      cases hlevel'
  · obtain ⟨d', hd, hnear⟩ := hready d
      (Progress.meaning (.opened dir s) desk.files segs).session clock
      (Progress.meaning (.opened dir s) desk.files segs).warnings threshold hheard rfl hlevel
    rw [hd]
    cases result with
    | error f => rfl
    | ok u =>
      have hsplash' : ∀ folder l, base.lead (Library.splashIn folder) = some l → ¬ P l := by
        intro folder l hl
        rw [hgrows.lead] at hl
        exact hsplash folder l hl
      simp only [play_events (hnear rfl) hsplash']
      rfl

end Run

end GameLauncher
