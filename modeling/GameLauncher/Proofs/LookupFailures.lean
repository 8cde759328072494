import GameLauncher.Proofs.LookupRules
import GameLauncher.Proofs.SearchFailures

namespace GameLauncher

namespace Traced

variable {α β : Type}

theorem result_pure (a : α) : (Pure.pure a : Traced α).result = .ok a := rfl

theorem result_bind (t : Traced α) (g : α → Traced β) :
    (t >>= g).result =
      match t.result with
      | .error e => .error e
      | .ok a => (g a).result := by
  simp only [Bind.bind, Traced.bind]
  cases t.result <;> rfl

end Traced

namespace Library

variable {fs : FileSystem} {raw id name base : String} {depth : Int} {dirs : List Path}
  {p e folder : Path} {f : Failure} {invocation : Invocation} {session : Session}
  {source : GameSource} {override : Option Path}

theorem findInDirs_eq_error :
    (findInDirs fs raw depth dirs).result = .error f ↔ ∃ before dir after,
      dirs = before ++ dir :: after ∧ (∀ d ∈ before, find fs d raw depth = .ok none) ∧
        find fs dir raw depth = .error f := by
  induction dirs with
  | nil => simp [findInDirs, Traced.ofExcept]
  | cons d dirs ih =>
    rw [exists_first_cons, ← ih, findInDirs]
    rcases find fs d raw depth with g | _ | p <;> simp [Traced.fail]

theorem dropSuffix?_eq_some {suffix cs ds : List Char} :
    dropSuffix? suffix cs = some ds ↔ cs = ds ++ suffix := by
  unfold dropSuffix?
  constructor
  · intro h
    split at h
    · rename_i hsuffix
      obtain ⟨t, rfl⟩ := List.isSuffixOf_iff_suffix.1 hsuffix
      simpa [eq_comm] using h
    · cases h
  · rintro rfl
    simp

theorem eq_append_iff (suffix : String) :
    name = base ++ suffix ↔ dropSuffix? suffix.toList name.toList = some base.toList := by
  rw [dropSuffix?_eq_some, ← String.toList_append, String.toList_inj]

/-- A folder's name that says that it holds an update or a patch of another's game. -/
def NamesAddOn (name base : String) : Prop := ∃ suffix ∈ addOnSuffixes, name = base ++ suffix

theorem baseName?_eq_some : baseName? name = some base ↔ NamesAddOn name base := by
  have hbase : ∀ ds : List Char, String.ofList ds = base ↔ ds = base.toList := by
    intro ds
    rw [← String.toList_inj, String.toList_ofList]
  simp only [NamesAddOn, addOnSuffixes, List.mem_cons, List.not_mem_nil, or_false, exists_eq_or_imp,
    exists_eq_left, eq_append_iff, baseName?, List.findSome?_cons, List.findSome?_nil]
  cases hupdate : dropSuffix? "-UPDATE".toList name.toList with
  | none => cases dropSuffix? "-patch".toList name.toList <;> simp [hbase]
  | some ds =>
    have hpatch : dropSuffix? "-patch".toList name.toList ≠ some base.toList := by
      intro h
      have hlast := congrArg List.getLast?
        ((dropSuffix?_eq_some.1 hupdate).symm.trans (dropSuffix?_eq_some.1 h))
      simp at hlast
    simp only [Option.map_some, Option.some.injEq, hbase, or_iff_left hpatch]

theorem narrow_eq_error :
    narrow fs p = .error f ↔ fs.Overruns p ∧ f = .overlong p ∨
      fs.isDirectory p = .ok true ∧ fs.Overruns (executableIn p) ∧
        f = .overlong (executableIn p) := by
  rw [narrow, ← FileSystem.isDirectory_eq_error, ← FileSystem.isFile_eq_error]
  rcases fs.isDirectory p with g | _ | _ <;> simp [map_eq_error]

theorem probe_eq_error :
    (Splash.probe fs folder).result = .error f ↔
      fs.Overruns (splashIn folder) ∧ f = .overlong (splashIn folder) ∨
        ∃ bytes size, fs.read (splashIn folder) = .ok bytes ∧ fs.host.pictureSize? bytes = some size ∧
          maxPixels < size.pixels ∧ f = .hugeImage size.pixels := by
  rw [← FileSystem.isFile_eq_error, Splash.probe]
  cases hread : fs.read (splashIn folder) with
  | ok bytes =>
    rw [FileSystem.isFile_eq_true.2 ⟨bytes, hread⟩]
    cases hsize : fs.host.pictureSize? bytes with
    | none => simp [hsize, Splash.ignore]
    | some size =>
      by_cases hhuge : maxPixels < size.pixels
      · simp [hsize, hhuge, Traced.fail, @eq_comm _ f]
      · by_cases hempty : size.width ≤ 0 ∨ size.height ≤ 0 <;>
          simp [hsize, hhuge, hempty, Traced.ofExcept]
  | error g =>
    rcases hfile : fs.isFile (splashIn folder) with g' | _ | _
    · simp [Traced.fail]
    · simp [Traced.ofExcept]
    · obtain ⟨bytes, hbytes⟩ := FileSystem.isFile_eq_true.1 hfile
      rw [hread] at hbytes
      cases hbytes

theorem slash_notMem_name (p : Path) : '/' ∉ p.name.toList := by
  rw [Path.name]
  cases p.parts.getLast? with
  | none => simp
  | some n => exact n.valid.2.2

theorem NamesAddOn.slash_notMem (h : NamesAddOn p.name base) : '/' ∉ base.toList := by
  obtain ⟨suffix, -, hname⟩ := h
  intro hmem
  apply slash_notMem_name p
  rw [hname, String.toList_append]
  exact List.mem_append_left _ hmem

theorem resolveFolder_eq_error :
    resolveFolder fs e override = .error f ↔ override = none ∧
      (NamesAddOn e.parent.name "." ∧ f = .invalidName "." ∨
        ∃ n : Name, NamesAddOn e.parent.name n.text ∧ fs.Overruns (e.parent.withName n) ∧
          f = .overlong (e.parent.withName n)) := by
  have hslash : ∀ base, NamesAddOn e.parent.name base → '/' ∉ base.toList :=
    fun base h ↦ h.slash_notMem
  simp only [← baseName?_eq_some] at hslash ⊢
  cases override with
  | some q => simp [resolveFolder]
  | none =>
    cases hbase : baseName? e.parent.name with
    | none => simp [resolveFolder, hbase]
    | some base =>
      simp only [resolveFolder, hbase, Option.some.injEq, true_and]
      split
      · rename_i hempty
        subst hempty
        simp [fun n : Name ↦ n.valid.1.symm]
      · rename_i hempty
        split
        · rename_i hnone
          have hdot : base = "." := by
            apply Decidable.byContradiction
            intro hne
            rw [Name.of?, dif_pos ⟨hempty, hne, hslash base hbase⟩] at hnone
            cases hnone
          subst hdot
          simp [@eq_comm _ f, fun n : Name ↦ n.valid.2.1.symm]
        · rename_i n hn
          obtain rfl := Name.text_of_of? hn
          rw [map_eq_error, FileSystem.isDirectory_eq_error]
          simp [n.valid.2.1, Name.text_inj]

theorem locate_of_path (h : fs.exists? (.ofString raw) = .ok true) :
    (locate fs raw dirs).result = .ok (.ofString raw, .directPath) := by
  simp [locate, resolvePath, Traced.result_bind, Traced.result_pure, Traced.ofExcept, h]

theorem locate_of_search (h : fs.exists? (.ofString raw) = .ok false) :
    (locate fs raw dirs).result =
      match (findInDirs fs raw maxDepth dirs).result with
      | .error f => .error f
      | .ok none => .error (.gameNotFound raw)
      | .ok (some p) => .ok (p, .idLookup) := by
  rcases hfound : (findInDirs fs raw maxDepth dirs).result with g | _ | p
  · simp [locate, resolvePath, Traced.result_bind, Traced.ofExcept, h, hfound]
  · simp [locate, resolvePath, Traced.result_bind, Traced.ofExcept, h, hfound, Traced.fail]
  · have hexists := FileSystem.exists?_of_isFile (isFile_of_findInDirs hfound)
    simp [locate, resolvePath, Traced.result_bind, Traced.result_pure, Traced.ofExcept, h, hfound,
      hexists]

theorem locate_eq_error_iff :
    (locate fs raw dirs).result = .error f ↔
      fs.Overruns (.ofString raw) ∧ f = .overlong (.ofString raw) ∨
        fs.exists? (.ofString raw) = .ok false ∧
          ((findInDirs fs raw maxDepth dirs).result = .error f ∨
            (findInDirs fs raw maxDepth dirs).result = .ok none ∧ f = .gameNotFound raw) := by
  rw [← FileSystem.exists?_eq_error]
  rcases hexists : fs.exists? (.ofString raw) with g | _ | _
  · simp [locate, Traced.result_bind, Traced.ofExcept, hexists]
  · rw [locate_of_search hexists]
    rcases (findInDirs fs raw maxDepth dirs).result with g | _ | p <;> simp [@eq_comm _ f]
  · simp [locate_of_path hexists]

theorem not_overruns_of_locate (h : (locate fs raw dirs).result = .ok (p, source)) :
    ¬ fs.Overruns p := by
  intro hlong
  have hexists : fs.exists? p = .ok true := by
    rcases locate_cases h with ⟨-, hexists, rfl⟩ | ⟨-, -, hfound⟩
    · exact hexists
    · exact FileSystem.exists?_of_isFile (isFile_of_findInDirs hfound)
  rw [FileSystem.exists?_eq_error.2 ⟨hlong, rfl⟩] at hexists
  cases hexists

/-- The executable that a word leads to. -/
def Picks (fs : FileSystem) (raw : String) (dirs : List Path) (e : Path) : Prop :=
  ∃ p source, (locate fs raw dirs).result = .ok (p, source) ∧ narrow fs p = .ok e

/-- The folder that its game is started in. -/
def Settles (fs : FileSystem) (raw : String) (dirs : List Path) (override : Option Path)
    (folder : Path) : Prop :=
  ∃ e, Picks fs raw dirs e ∧ resolveFolder fs e override = .ok folder

/-- The stages at which a lookup can fail. -/
theorem resolve_eq_error_iff (hraw : invocation.gamePath.getD "" = raw) (hne : raw ≠ "")
    (hdirs : session.settings.searchedDirs = dirs) (hover : invocation.folderOverride = override) :
    (resolve fs invocation session).result = .error f ↔
      (locate fs raw dirs).result = .error f ∨
        (∃ p source, (locate fs raw dirs).result = .ok (p, source) ∧ narrow fs p = .error f) ∨
        (∃ e, Picks fs raw dirs e ∧ resolveFolder fs e override = .error f) ∨
        ∃ folder, Settles fs raw dirs override folder ∧ (Splash.probe fs folder).result = .error f := by
  simp only [resolve, hraw, hne, hdirs, hover, if_false, Traced.result_bind, Traced.ofExcept,
    Traced.record, Picks, Settles]
  rcases (locate fs raw dirs).result with g | ⟨p, source⟩
  · simp
  rcases hnarrow : narrow fs p with g | e
  · simp [hnarrow]
  rcases hfolder : resolveFolder fs e override with g | folder
  · simp [hnarrow, hfolder]
  cases hprobe : (Splash.probe fs folder).result <;>
    simp [Traced.result_pure, hnarrow, hfolder, hprobe]

/-- What keeps a lookup from an answer: a look at a path that is too long, at a directory whose
path has a null in it or at a folder whose name would be a dot, and a picture of too many pixels. -/
inductive Hindrance (fs : FileSystem) (raw : String) (dirs : List Path) (override : Option Path) :
    Failure → Prop
  | word : fs.Overruns (.ofString raw) → Hindrance fs raw dirs override (.overlong (.ofString raw))
  | search {before after : List Path} {dir p : Path} {way : List Name} {f : Failure} :
      fs.exists? (.ofString raw) = .ok false → dirs = before ++ dir :: after →
      (∀ d ∈ before, find fs d raw maxDepth = .ok none) → FailsAt fs dir raw maxDepth way p f →
        Hindrance fs raw dirs override f
  | executable {p : Path} {source : GameSource} :
      (locate fs raw dirs).result = .ok (p, source) → fs.isDirectory p = .ok true →
      fs.Overruns (executableIn p) → Hindrance fs raw dirs override (.overlong (executableIn p))
  | dotFolder {e : Path} : Picks fs raw dirs e → override = none → NamesAddOn e.parent.name "." →
      Hindrance fs raw dirs override (.invalidName ".")
  | baseFolder {e : Path} {n : Name} : Picks fs raw dirs e → override = none →
      NamesAddOn e.parent.name n.text → fs.Overruns (e.parent.withName n) →
        Hindrance fs raw dirs override (.overlong (e.parent.withName n))
  | splash {folder : Path} : Settles fs raw dirs override folder → fs.Overruns (splashIn folder) →
      Hindrance fs raw dirs override (.overlong (splashIn folder))
  | hugeSplash {folder : Path} {bytes : Bytes} {size : Image.Size} :
      Settles fs raw dirs override folder → fs.read (splashIn folder) = .ok bytes →
      fs.host.pictureSize? bytes = some size → maxPixels < size.pixels →
        Hindrance fs raw dirs override (.hugeImage size.pixels)

theorem Hindrance.ne_gameNotFound (h : Hindrance fs raw dirs override f) (r : String) :
    f ≠ .gameNotFound r := by
  cases h with
  | search _ _ _ hfails =>
    exact (isSystem_of_find (find_eq_error.2 ⟨_, _, hfails⟩)).ne_gameNotFound r
  | word | executable | dotFolder | baseFolder | splash | hugeSplash => exact Failure.noConfusion

theorem hindrance_of_resolve (hne : invocation.gamePath.getD "" ≠ "")
    (h : (resolve fs invocation session).result = .error f) (hf : ∀ r, f ≠ .gameNotFound r) :
    Hindrance fs (invocation.gamePath.getD "") session.settings.searchedDirs
      invocation.folderOverride f := by
  rcases (resolve_eq_error_iff rfl hne rfl rfl).1 h with hlocate | ⟨p, source, hlocate, hnarrow⟩ |
    ⟨e, hpicks, hfolder⟩ | ⟨folder, hsettles, hprobe⟩
  · rcases locate_eq_error_iff.1 hlocate with ⟨hlong, rfl⟩ | ⟨hexists, hfind | ⟨-, rfl⟩⟩
    · exact .word hlong
    · obtain ⟨before, dir, after, hsplit, hbefore, hfind⟩ := findInDirs_eq_error.1 hfind
      obtain ⟨way, p, hfails⟩ := find_eq_error.1 hfind
      exact .search hexists hsplit hbefore hfails
    · exact absurd rfl (hf _)
  · rcases narrow_eq_error.1 hnarrow with ⟨hlong, -⟩ | ⟨hdir, hlong, rfl⟩
    · exact absurd hlong (not_overruns_of_locate hlocate)
    · exact .executable hlocate hdir hlong
  · obtain ⟨hnone, ⟨hdot, rfl⟩ | ⟨n, hname, hlong, rfl⟩⟩ := resolveFolder_eq_error.1 hfolder
    · exact .dotFolder hpicks hnone hdot
    · exact .baseFolder hpicks hnone hname hlong
  · rcases probe_eq_error.1 hprobe with ⟨hlong, rfl⟩ | ⟨bytes, size, hread, hsize, hhuge, rfl⟩
    · exact .splash hsettles hlong
    · exact .hugeSplash hsettles hread hsize hhuge

theorem Hindrance.resolve_eq_error (hne : invocation.gamePath.getD "" ≠ "")
    (h : Hindrance fs (invocation.gamePath.getD "") session.settings.searchedDirs
      invocation.folderOverride f) :
    (resolve fs invocation session).result = .error f := by
  apply (resolve_eq_error_iff rfl hne rfl rfl).2
  cases h with
  | word hlong => exact .inl (locate_eq_error_iff.2 (.inl ⟨hlong, rfl⟩))
  | search hexists hsplit hbefore hfails =>
    refine .inl (locate_eq_error_iff.2 (.inr ⟨hexists, .inl ?_⟩))
    exact findInDirs_eq_error.2 ⟨_, _, _, hsplit, hbefore, find_eq_error.2 ⟨_, _, hfails⟩⟩
  | executable hlocate hdir hlong =>
    refine .inr (.inl ⟨_, _, hlocate, ?_⟩)
    exact narrow_eq_error.2 (.inr ⟨hdir, hlong, rfl⟩)
  | dotFolder hpicks hnone hdot =>
    refine .inr (.inr (.inl ⟨_, hpicks, ?_⟩))
    exact resolveFolder_eq_error.2 ⟨hnone, .inl ⟨hdot, rfl⟩⟩
  | baseFolder hpicks hnone hname hlong =>
    refine .inr (.inr (.inl ⟨_, hpicks, ?_⟩))
    exact resolveFolder_eq_error.2 ⟨hnone, .inr ⟨_, hname, hlong, rfl⟩⟩
  | splash hsettles hlong =>
    refine .inr (.inr (.inr ⟨_, hsettles, ?_⟩))
    exact probe_eq_error.2 (.inl ⟨hlong, rfl⟩)
  | hugeSplash hsettles hread hsize hhuge =>
    refine .inr (.inr (.inr ⟨_, hsettles, ?_⟩))
    exact probe_eq_error.2 (.inr ⟨_, _, hread, hsize, hhuge, rfl⟩)

theorem resolve_of_empty (h : invocation.gamePath.getD "" = "") :
    (resolve fs invocation session).result =
      .error (.gameNotFound (invocation.gamePath.getD "")) := by
  simp only [resolve, h, if_true, Traced.fail]

/-- A lookup ends with a game or the complaint that there is none exactly if nothing hinders it, and
else with what does. A directory that cannot be listed is passed over. -/
theorem resolve_hindered_iff (fs : FileSystem) (invocation : Invocation) (session : Session) :
    let raw := invocation.gamePath.getD ""
    let result := (resolve fs invocation session).result
    let hinders (f : Failure) := raw ≠ "" ∧
      Hindrance fs raw session.settings.searchedDirs invocation.folderOverride f
    ((∃ game, result = .ok game) ∨ result = .error (.gameNotFound raw) ↔ ∀ f, ¬ hinders f) ∧
      (∀ f, hinders f → result = .error f) ∧
      ∀ dir e text, fs.list dir = .error (.system e text) →
        (dir.name = raw → ¬ fs.Overruns (parametersIn dir)) →
          find fs dir raw maxDepth = .ok none := by
  intro raw result hinders
  have fails : ∀ f, hinders f → result = .error f := by
    rintro f ⟨hne, h⟩
    exact h.resolve_eq_error hne
  refine ⟨⟨?_, ?_⟩, fails, fun dir e text hlist hshort ↦ find_of_unlistable hlist hshort⟩
  · rintro (⟨game, hgame⟩ | hnone) f hf
    · rw [fails f hf] at hgame
      cases hgame
    · rw [fails f hf, Except.error.injEq] at hnone
      exact hf.2.ne_gameNotFound raw hnone
  · intro hfree
    cases hresult : result with
    | ok game => exact .inl ⟨game, rfl⟩
    | error f =>
      by_cases hraw : raw = ""
      · exact .inr (hresult.symm.trans (resolve_of_empty hraw))
      by_cases hf : f = .gameNotFound raw
      · exact .inr (congrArg _ hf)
      · refine absurd ⟨hraw, hindrance_of_resolve hraw hresult ?_⟩ (hfree f)
        rintro r rfl
        exact hf (congrArg _ (resolve_eq_gameNotFound hresult).1)

def oneDir (text : String) : Session where
  settings.installDirs := [⟨.ofString text, true⟩]
  settingsFile := .here
  userDir := .here

/-- A word with one byte too many, a directory with a null in its path and a folder that would be a
dot's patch. -/
theorem resolve_unanswered :
    (∃ e text, (resolve (.bare []) { gamePath := some (Name.repeated 255).text }
        (oneDir "on")).result = .error (.system e text)) ∧
      (resolve (.bare []) { gamePath := some "G" } (oneDir "a\x00b")).result =
        .error .embeddedNull ∧
      (resolve ((FileSystem.bare []).withFile ".-patch/eboot.bin" [])
        { gamePath := some ".-patch" } (oneDir "on")).result = .error (.invalidName ".") := by
  refine ⟨⟨.nameTooLong, _, Hindrance.resolve_eq_error ?_ (.word ?_)⟩, ?_, ?_⟩
  · exact (Name.repeated 255).valid.1
  · exact FileSystem.overruns_repeated (by decide) rfl
  · have hfails : FailsAt (.bare []) (.ofString "a\x00b") "G" maxDepth [] (.ofString "a\x00b")
        .embeddedNull :=
      ⟨⟨[], .here _⟩, .here _, by decide, .null rfl⟩
    apply Hindrance.resolve_eq_error (by decide)
    exact .search rfl (List.nil_append _).symm (by simp) hfails
  · rfl

end Library

end GameLauncher
