import GameLauncher.Proofs.GameSearch
import GameLauncher.Proofs.RunTree

namespace GameLauncher

namespace Traced

variable {α β : Type} {t : Traced α} {f : α → Traced β}

theorem bind_eq_ok {b : β} (h : (t >>= f).result = .ok b) :
    ∃ a, t.result = .ok a ∧ (f a).result = .ok b := by
  simp only [Bind.bind, Traced.bind] at h
  split at h
  · cases h
  · exact ⟨_, ‹_›, h⟩

theorem bind_eq_error {e : Failure} (h : (t >>= f).result = .error e) :
    t.result = .error e ∨ ∃ a, t.result = .ok a ∧ (f a).result = .error e := by
  simp only [Bind.bind, Traced.bind] at h
  split at h
  · rename_i hresult
    cases h
    exact .inl hresult
  · exact .inr ⟨_, ‹_›, h⟩

end Traced

namespace Settings

theorem mem_searchedDirs {s : Settings} {p : Path} :
    p ∈ s.searchedDirs ↔ ∃ d ∈ s.installDirs, d.enabled = true ∧ d.path = p := by
  simp [searchedDirs, and_assoc]

theorem searchedDirs_eq_append {s : Settings} {p : Path} {before after : List Path}
    (h : s.searchedDirs = before ++ p :: after) :
    ∃ ds d ds', s.installDirs = ds ++ d :: ds' ∧ d.enabled = true ∧ d.path = p ∧
      ∀ x ∈ ds, x.enabled = true → x.path ∈ before := by
  obtain ⟨on, on', hon, rfl, hon'⟩ := List.map_eq_append_iff.1 h
  obtain ⟨d, on', rfl, hd, -⟩ := List.map_eq_cons_iff.1 hon'
  obtain ⟨ds, tail, hds, rfl, htail⟩ := List.filter_eq_append_iff.1 hon
  obtain ⟨off, ds', rfl, hoff, hen, -⟩ := List.filter_eq_cons_iff.1 htail
  refine ⟨ds ++ off, d, ds', by rw [hds, List.append_assoc], hen, hd, ?_⟩
  intro x hx hxen
  rcases List.mem_append.1 hx with hx | hx
  · exact List.mem_map_of_mem (List.mem_filter.2 ⟨hx, hxen⟩)
  · exact absurd hxen (hoff x hx)

end Settings

namespace FileSystem

variable {fs : FileSystem} {p : Path}

theorem exists?_of_isFile (h : fs.isFile p = .ok true) : fs.exists? p = .ok true :=
  exists?_eq_true.2 (names_of_isFile h)

theorem isDirectory_of_isFile (h : fs.isFile p = .ok true) : fs.isDirectory p = .ok false := by
  obtain ⟨node, hstatus, hfile⟩ := ok_of_map h
  rw [isDirectory, hstatus]
  rcases node with _ | c | _ | t
  · cases hfile
  · rfl
  · cases hfile
  · cases hfile

end FileSystem

namespace Library

variable {fs : FileSystem} {raw : String} {depth : Int} {dirs : List Path} {p q e : Path}
  {f : Failure} {invocation : Invocation} {session : Session} {game : Game} {source : GameSource}

theorem findInDirs_eq_some (h : (findInDirs fs raw depth dirs).result = .ok (some e)) :
    ∃ before dir after, dirs = before ++ dir :: after ∧
      (∀ d ∈ before, ¬ HoldsWithin fs d raw depth) ∧ find fs dir raw depth = .ok (some e) := by
  induction dirs with
  | nil => cases h
  | cons d dirs ih =>
    rw [findInDirs] at h
    split at h
    · cases h
    · rename_i hnone
      obtain ⟨before, dir, after, rfl, hbefore, hfind⟩ := ih h
      refine ⟨d :: before, dir, after, rfl, ?_, hfind⟩
      exact List.forall_mem_cons.2 ⟨find_eq_none hnone, hbefore⟩
    · rename_i hfind
      cases h
      exact ⟨[], d, dirs, rfl, by simp, hfind⟩

theorem findInDirs_eq_none (h : (findInDirs fs raw depth dirs).result = .ok none) :
    ∀ d ∈ dirs, ¬ HoldsWithin fs d raw depth := by
  induction dirs with
  | nil => simp
  | cons d dirs ih =>
    rw [findInDirs] at h
    split at h
    · cases h
    · rename_i hnone
      exact List.forall_mem_cons.2 ⟨find_eq_none hnone, ih h⟩
    · cases h

theorem isSystem_of_findInDirs (h : (findInDirs fs raw depth dirs).result = .error f) :
    f.IsSystem := by
  induction dirs with
  | nil => cases h
  | cons d dirs ih =>
    rw [findInDirs] at h
    split at h
    · cases h
      exact isSystem_of_find ‹_›
    · exact ih h
    · cases h

theorem isFile_of_findInDirs (h : (findInDirs fs raw depth dirs).result = .ok (some e)) :
    fs.isFile e = .ok true := by
  obtain ⟨before, dir, after, -, -, hfind⟩ := findInDirs_eq_some h
  obtain ⟨way, p, -, -, hgame, rfl⟩ := find_eq_some hfind
  exact hgame.executable

theorem locate_cases (h : (locate fs raw dirs).result = .ok (p, source)) :
    source = .directPath ∧ fs.exists? (.ofString raw) = .ok true ∧ p = .ofString raw ∨
      source = .idLookup ∧ fs.exists? (.ofString raw) = .ok false ∧
        (findInDirs fs raw maxDepth dirs).result = .ok (some p) := by
  obtain ⟨isPath, hisPath, h⟩ := Traced.bind_eq_ok h
  obtain ⟨path, hpath, h⟩ := Traced.bind_eq_ok h
  cases path with
  | none => cases h
  | some p' =>
    obtain ⟨there, -, h⟩ := Traced.bind_eq_ok h
    replace hisPath : fs.exists? (.ofString raw) = .ok isPath := hisPath
    rw [resolvePath, hisPath] at hpath
    cases there with
    | false => cases h
    | true =>
      cases h
      cases isPath with
      | true =>
        cases hpath
        exact .inl ⟨rfl, hisPath, rfl⟩
      | false => exact .inr ⟨rfl, hisPath, hpath⟩

theorem locate_eq_error (h : (locate fs raw dirs).result = .error f) :
    f.IsSystem ∨ f = .gameNotFound raw ∧ fs.exists? (.ofString raw) = .ok false ∧
      (findInDirs fs raw maxDepth dirs).result = .ok none := by
  rcases Traced.bind_eq_error h with h | ⟨isPath, hisPath, h⟩
  · exact .inl (FileSystem.isSystem_of_exists? h)
  · replace hisPath : fs.exists? (.ofString raw) = .ok isPath := hisPath
    rcases Traced.bind_eq_error h with h | ⟨path, hpath, h⟩
    · rw [resolvePath, hisPath] at h
      cases isPath with
      | true => cases h
      | false => exact .inl (isSystem_of_findInDirs h)
    · rw [resolvePath, hisPath] at hpath
      cases path with
      | none =>
        cases h
        cases isPath with
        | true => cases hpath
        | false => exact .inr ⟨rfl, hisPath, hpath⟩
      | some p =>
        rcases Traced.bind_eq_error h with h | ⟨there, hthere, h⟩
        · exact .inl (FileSystem.isSystem_of_exists? h)
        · replace hthere : fs.exists? p = .ok there := hthere
          have hfound : fs.exists? p = .ok true := by
            cases isPath with
            | true =>
              cases hpath
              exact hisPath
            | false => exact FileSystem.exists?_of_isFile (isFile_of_findInDirs hpath)
          rw [hthere, Except.ok.injEq] at hfound
          subst hfound
          cases h

theorem narrow_eq_ok_cases (h : narrow fs p = .ok q) :
    fs.isDirectory p = .ok true ∧ fs.isFile (executableIn p) = .ok true ∧ q = executableIn p ∨
      ¬ (fs.isDirectory p = .ok true ∧ fs.isFile (executableIn p) = .ok true) ∧ q = p := by
  unfold narrow at h
  split at h
  · cases h
  · rename_i hdir
    cases h
    exact .inr ⟨by simp [hdir], rfl⟩
  · rename_i hdir
    obtain ⟨isFile, hfile, rfl⟩ := ok_of_map h
    cases isFile with
    | false => exact .inr ⟨by simp [hfile], rfl⟩
    | true => exact .inl ⟨hdir, hfile, rfl⟩

theorem isSystem_of_narrow (h : narrow fs p = .error f) : f.IsSystem := by
  unfold narrow at h
  split at h
  · cases h
    exact FileSystem.isSystem_of_isDirectory ‹_›
  · cases h
  · exact FileSystem.isSystem_of_isFile (error_of_map h)

theorem resolveFolder_cases {override : Option Path}
    (h : resolveFolder fs p override = .ok q) :
    override = some q ∨ override = none ∧ (q = p.parent ∨ fs.isDirectory q = .ok true) := by
  unfold resolveFolder at h
  cases override with
  | some folder =>
    cases h
    exact .inl rfl
  | none =>
    refine .inr ⟨rfl, ?_⟩
    simp only at h
    split at h
    · cases h
      exact .inl rfl
    · split at h
      · cases h
        exact .inl rfl
      · split at h
        · cases h
        · obtain ⟨isDir, hdir, rfl⟩ := ok_of_map h
          cases isDir with
          | false => exact .inl rfl
          | true => exact .inr hdir

theorem ne_gameNotFound_of_resolveFolder {override : Option Path}
    (h : resolveFolder fs p override = .error f) (r : String) : f ≠ .gameNotFound r := by
  unfold resolveFolder at h
  split at h
  · cases h
  · simp only at h
    split at h
    · cases h
    · split at h
      · cases h
      · split at h
        · cases h
          simp
        · exact (FileSystem.isSystem_of_isDirectory (error_of_map h)).ne_gameNotFound r

theorem ne_gameNotFound_of_probe (h : (Splash.probe fs p).result = .error f) (r : String) :
    f ≠ .gameNotFound r := by
  unfold Splash.probe at h
  simp only at h
  split at h
  · cases h
    exact (FileSystem.isSystem_of_isFile ‹_›).ne_gameNotFound r
  · cases h
  · split at h
    · cases h
    · cases h
      exact (FileSystem.isSystem_of_read ‹_›).ne_gameNotFound r
    · split at h
      · cases h
      · split at h
        · cases h
          simp
        · split at h <;> cases h

theorem resolve_eq_game (h : (resolve fs invocation session).result = .ok game) :
    ∃ found, invocation.gamePath.getD "" ≠ "" ∧ game.raw = invocation.gamePath.getD "" ∧
      (locate fs game.raw session.settings.searchedDirs).result = .ok (found, game.source) ∧
      narrow fs found = .ok game.executable ∧
      resolveFolder fs game.executable invocation.folderOverride = .ok game.folder ∧
      (Splash.probe fs game.folder).result = .ok game.splash := by
  unfold resolve at h
  simp only at h
  split at h
  · cases h
  · rename_i hraw
    obtain ⟨⟨found, source⟩, hfound, h⟩ := Traced.bind_eq_ok h
    obtain ⟨executable, hexecutable, h⟩ := Traced.bind_eq_ok h
    obtain ⟨folder, hfolder, h⟩ := Traced.bind_eq_ok h
    obtain ⟨_, -, h⟩ := Traced.bind_eq_ok h
    obtain ⟨_, -, h⟩ := Traced.bind_eq_ok h
    obtain ⟨splash, hsplash, h⟩ := Traced.bind_eq_ok h
    cases h
    exact ⟨found, hraw, rfl, hfound, hexecutable, hfolder, hsplash⟩

theorem resolve_eq_gameNotFound {r : String}
    (h : (resolve fs invocation session).result = .error (.gameNotFound r)) :
    r = invocation.gamePath.getD "" ∧ (invocation.gamePath.getD "" = "" ∨
      (locate fs (invocation.gamePath.getD "") session.settings.searchedDirs).result =
        .error (.gameNotFound r)) := by
  unfold resolve at h
  simp only at h
  split at h
  · rename_i hraw
    cases h
    exact ⟨rfl, .inl hraw⟩
  · rcases Traced.bind_eq_error h with h | ⟨⟨found, source⟩, -, h⟩
    · refine ⟨?_, .inr h⟩
      rcases locate_eq_error h with hf | ⟨hf, -⟩
      · exact absurd rfl (hf.ne_gameNotFound r)
      · cases hf
        rfl
    rcases Traced.bind_eq_error h with h | ⟨executable, -, h⟩
    · exact absurd rfl ((isSystem_of_narrow h).ne_gameNotFound r)
    rcases Traced.bind_eq_error h with h | ⟨folder, -, h⟩
    · exact absurd rfl (ne_gameNotFound_of_resolveFolder h r)
    rcases Traced.bind_eq_error h with h | ⟨_, -, h⟩
    · cases h
    rcases Traced.bind_eq_error h with h | ⟨_, -, h⟩
    · cases h
    rcases Traced.bind_eq_error h with h | ⟨splash, -, h⟩
    · exact absurd rfl (ne_gameNotFound_of_probe h r)
    · cases h

/-- What the rules of the lookup say of a game that was found. Of the directories that are switched
on the first that holds the game counts, whatever lies in others. -/
structure FollowsRules (fs : FileSystem) (invocation : Invocation) (settings : Settings)
    (game : Game) : Prop where
  raw : invocation.gamePath = some game.raw ∧ game.raw ≠ ""
  source : game.source = .directPath ↔ fs.exists? (.ofString game.raw) = .ok true
  direct : game.source = .directPath →
    let p := Path.ofString game.raw
    fs.isDirectory p = .ok true ∧ fs.isFile (executableIn p) = .ok true ∧
        game.executable = executableIn p ∨
      ¬ (fs.isDirectory p = .ok true ∧ fs.isFile (executableIn p) = .ok true) ∧
        game.executable = p
  lookup : game.source = .idLookup → ∃ before dir after,
    settings.installDirs = before ++ dir :: after ∧ dir.enabled = true ∧
      (∀ d ∈ before, d.enabled = true → ¬ HoldsWithin fs d.path game.raw 5) ∧
      HoldsWithin fs dir.path game.raw 5 ∧
      find fs dir.path game.raw 5 = .ok (some game.executable)
  override : ∀ folder, invocation.folderOverride = some folder → game.folder = folder
  folder : invocation.folderOverride = none →
    resolveFolder fs game.executable none = .ok game.folder

theorem lookup_of_findInDirs {settings : Settings}
    (h : (findInDirs fs raw maxDepth settings.searchedDirs).result = .ok (some e)) :
    ∃ before dir after, settings.installDirs = before ++ dir :: after ∧ dir.enabled = true ∧
      (∀ d ∈ before, d.enabled = true → ¬ HoldsWithin fs d.path raw 5) ∧
      HoldsWithin fs dir.path raw 5 ∧ find fs dir.path raw 5 = .ok (some e) := by
  obtain ⟨before, p, after, hdirs, hbefore, hfind⟩ := findInDirs_eq_some h
  obtain ⟨ds, d, ds', hinstall, hen, rfl, hds⟩ := Settings.searchedDirs_eq_append hdirs
  obtain ⟨way, q, hlength, hway, hgame, -⟩ := find_eq_some hfind
  refine ⟨ds, d, ds', hinstall, hen, ?_, ⟨way, q, hlength, hway, hgame⟩, hfind⟩
  intro x hx hxen
  exact hbefore x.path (hds x hx hxen)

theorem followsRules_of_resolve (h : (resolve fs invocation session).result = .ok game) :
    FollowsRules fs invocation session.settings game := by
  obtain ⟨found, hne, hraw, hlocate, hnarrow, hfolder, -⟩ := resolve_eq_game h
  have hgiven : invocation.gamePath = some game.raw ∧ game.raw ≠ "" := by
    rw [hraw]
    cases hpath : invocation.gamePath with
    | none => simp [hpath] at hne
    | some s => simpa [hpath] using hne
  have hoverride : ∀ folder, invocation.folderOverride = some folder → game.folder = folder := by
    intro folder hsome
    rw [hsome] at hfolder
    cases hfolder
    rfl
  have hnone : invocation.folderOverride = none →
      resolveFolder fs game.executable none = .ok game.folder := by
    intro hnone
    rwa [hnone] at hfolder
  rcases locate_cases hlocate with ⟨hsource, hexists, rfl⟩ | ⟨hsource, hexists, hfound⟩
  · refine ⟨hgiven, ⟨fun _ ↦ hexists, fun _ ↦ hsource⟩, fun _ ↦ narrow_eq_ok_cases hnarrow, ?_,
      hoverride, hnone⟩
    intro hlookup
    rw [hsource] at hlookup
    cases hlookup
  · have hsame : game.executable = found := by
      have hdir := FileSystem.isDirectory_of_isFile (isFile_of_findInDirs hfound)
      rcases narrow_eq_ok_cases hnarrow with ⟨hdir', -⟩ | ⟨-, hsame⟩
      · rw [hdir] at hdir'
        cases hdir'
      · exact hsame
    refine ⟨hgiven, ?_, ?_, fun _ ↦ hsame ▸ lookup_of_findInDirs hfound, hoverride, hnone⟩
    · simp [hsource, hexists]
    · intro hdirect
      rw [hsource] at hdirect
      cases hdirect

theorem nothing_of_resolve {r : String}
    (h : (resolve fs invocation session).result = .error (.gameNotFound r)) :
    invocation.gamePath.getD "" = "" ∨
      fs.exists? (.ofString (invocation.gamePath.getD "")) = .ok false ∧
        ∀ d ∈ session.settings.installDirs, d.enabled = true →
          ¬ HoldsWithin fs d.path (invocation.gamePath.getD "") 5 := by
  obtain ⟨-, hempty | hlocate⟩ := resolve_eq_gameNotFound h
  · exact .inl hempty
  · refine .inr ?_
    rcases locate_eq_error hlocate with hf | ⟨-, hexists, hfound⟩
    · exact absurd rfl (hf.ne_gameNotFound r)
    · refine ⟨hexists, ?_⟩
      intro d hd hen
      exact findInDirs_eq_none hfound d.path (Settings.mem_searchedDirs.2 ⟨d, hd, hen, rfl⟩)

/-- As far as nothing but a missing game stops the lookup, a game is missing exactly if nothing is
named, or neither a path nor a game in a directory that is switched on has the name, and a game that
is found is the one that the rules say. -/
theorem resolve_follows_rules {fs : FileSystem} {invocation : Invocation} {session : Session}
    (h : (∃ game, (resolve fs invocation session).result = .ok game) ∨
      ∃ r, (resolve fs invocation session).result = .error (.gameNotFound r)) :
    let raw := invocation.gamePath.getD ""
    ((resolve fs invocation session).result = .error (.gameNotFound raw) ↔
      raw = "" ∨ fs.exists? (.ofString raw) = .ok false ∧
        ∀ d ∈ session.settings.installDirs, d.enabled = true → ¬ HoldsWithin fs d.path raw 5) ∧
    (∀ r, (resolve fs invocation session).result = .error (.gameNotFound r) → r = raw) ∧
    ∀ game, (resolve fs invocation session).result = .ok game →
      FollowsRules fs invocation session.settings game := by
  intro raw
  refine ⟨⟨nothing_of_resolve, ?_⟩, ?_, fun game hgame ↦ followsRules_of_resolve hgame⟩
  · intro hnothing
    rcases h with ⟨game, hgame⟩ | ⟨r, hr⟩
    · obtain ⟨⟨hpath, hne⟩, hsource, -, hlookup, -⟩ := followsRules_of_resolve hgame
      have hraw : raw = game.raw := by simp [raw, hpath]
      rw [hraw] at hnothing
      rcases hnothing with hempty | ⟨hexists, hnone⟩
      · exact absurd hempty hne
      · cases hs : game.source with
        | directPath =>
          rw [hsource.1 hs] at hexists
          cases hexists
        | idLookup =>
          obtain ⟨before, dir, after, hdirs, hen, -, hholds, -⟩ := hlookup hs
          exact absurd hholds (hnone dir (by simp [hdirs]) hen)
    · rw [hr, (resolve_eq_gameNotFound hr).1]
  · intro r hr
    exact (resolve_eq_gameNotFound hr).1

def treeWithGame : FileSystem :=
  ["/off/G/sce_sys/param.sfo", "/off/G/eboot.bin", "/on/a/G/sce_sys/param.sfo",
    "/on/a/G/eboot.bin"].foldl (fun fs text ↦ fs.withFile text []) (.bare [])

def threeDirs : Session where
  settings.installDirs :=
    [⟨.ofString "/off", false⟩, ⟨.ofString "/gone", true⟩, ⟨.ofString "/on", true⟩]
  settingsFile := .here
  userDir := .here

def nestedGame : Game where
  executable := .ofString "/on/a/G/eboot.bin"
  folder := .ofString "/on/a/G"
  source := .idLookup
  raw := "G"

theorem find_gone : find treeWithGame (.ofString "/gone") "G" maxDepth = .ok none := by
  have hturn : Search.turn treeWithGame "G" 6 ⟨.ofString "/gone", 0⟩ [] = .ok (.goOn []) := rfl
  change Search.run treeWithGame "G" 6 [⟨.ofString "/gone", 0⟩] = _
  rw [Search.run_of_goOn hturn, Search.run]

theorem find_nested : find treeWithGame (.ofString "/on") "G" maxDepth =
    .ok (some nestedGame.executable) := by
  have hroot : Search.run treeWithGame "G" 6 [⟨.ofString "/on", 0⟩] =
      Search.run treeWithGame "G" 6 [⟨.ofString "/on/a", 1⟩] :=
    Search.run_of_single ⟨"a", by decide⟩ (by decide) rfl rfl rfl
  have hinner : Search.run treeWithGame "G" 6 [⟨.ofString "/on/a", 1⟩] =
      Search.run treeWithGame "G" 6 [⟨.ofString "/on/a/G", 2⟩] :=
    Search.run_of_single ⟨"G", by decide⟩ (by decide) rfl rfl rfl
  have hgame : Search.turn treeWithGame "G" 6 ⟨.ofString "/on/a/G", 2⟩ [] =
      .ok (.found nestedGame.executable) := rfl
  exact hroot.trans (hinner.trans (Search.run_of_found hgame))

theorem resolve_nested :
    (resolve treeWithGame { gamePath := some "G" } threeDirs).result = .ok nestedGame := by
  have hpath : treeWithGame.exists? (.ofString "G") = .ok false := rfl
  have hfound : findInDirs treeWithGame "G" maxDepth threeDirs.settings.searchedDirs =
      ⟨[info "Found game G in /on"], .ok (some nestedGame.executable)⟩ := by
    change findInDirs treeWithGame "G" maxDepth [.ofString "/gone", .ofString "/on"] = _
    simp only [findInDirs, find_gone, find_nested]
    rfl
  simp only [resolve, locate, resolvePath, Option.getD_some, hpath, hfound]
  rfl

theorem resolve_follows_rules_nested :
    (resolve treeWithGame { gamePath := some "G" } threeDirs).result = .ok nestedGame ∧
      FollowsRules treeWithGame { gamePath := some "G" } threeDirs.settings nestedGame := by
  obtain ⟨-, -, hrules⟩ := resolve_follows_rules (.inl ⟨nestedGame, resolve_nested⟩)
  exact ⟨resolve_nested, hrules nestedGame resolve_nested⟩

end Library

end GameLauncher
