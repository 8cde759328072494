import GameLauncher.Proofs.GameExecutable
import GameLauncher.Proofs.SettingsRoundTrip

namespace GameLauncher

namespace Library

variable {fs : FileSystem} {p e dir folder : Path} {splash : Option Splash}
  {invocation : Invocation} {session : Session} {game : Game}

theorem narrow_of_isFile (h : fs.isFile e = .ok true) : narrow fs e = .ok e := by
  rw [narrow, FileSystem.isDirectory_of_isFile h]

theorem narrow_of_executableIn (h : fs.isFile (executableIn dir) = .ok true) :
    narrow fs dir = .ok (executableIn dir) := by
  rw [narrow, isDirectory_of_executableIn h, h]
  rfl

theorem isGame_of_idLookup (h : (resolve fs invocation session).result = .ok game)
    (hsource : game.source = .idLookup) :
    ∃ dir, IsGame fs dir game.raw ∧ game.executable = executableIn dir := by
  have hrules := followsRules_of_resolve h
  obtain ⟨-, root, -, -, -, -, -, hfind⟩ := hrules.lookup hsource
  obtain ⟨way, dir, -, -, hgame, hexecutable⟩ := find_eq_some hfind
  exact ⟨dir, hgame, hexecutable⟩

theorem resolve_of_path (hthere : fs.exists? p = .ok true) (hnarrow : narrow fs p = .ok e)
    (hfolder : resolveFolder fs e invocation.folderOverride = .ok folder)
    (hsplash : (Splash.probe fs folder).result = .ok splash) (session : Session) :
    (resolve fs { invocation with gamePath := some p.text } session).result =
      .ok ⟨e, folder, .directPath, p.text, splash⟩ := by
  have hlocate : ∀ dirs, (locate fs p.text dirs).result = .ok (p, .directPath) := by
    intro dirs
    rw [← Path.ofString_text p] at hthere
    rw [locate_of_path hthere, Path.ofString_text]
  simp [resolve, p.text_ne_empty, Traced.result_bind, Traced.result_pure, Traced.ofExcept,
    Traced.record, hlocate, hnarrow, hfolder, hsplash]

/-- The path of an executable that was found by its game's ID leads to the same game, and so does
the path of the folder that it lies in. No directory has to be searched for that. -/
theorem resolve_of_idLookup {fs : FileSystem} {invocation : Invocation} {session : Session}
    {game : Game} (h : (resolve fs invocation session).result = .ok game)
    (hsource : game.source = .idLookup) :
    ∀ word ∈ [game.executable.text, game.executable.parent.text], ∀ session',
      (resolve fs { invocation with gamePath := some word } session').result =
        .ok { game with source := .directPath, raw := word } := by
  obtain ⟨-, -, -, -, -, hfolder, hsplash⟩ := resolve_eq_game h
  obtain ⟨dir, hgame, hexecutable⟩ := isGame_of_idLookup h hsource
  have hparent : game.executable.parent = dir := by
    rw [hexecutable, executableIn, Path.parent_child]
  have hfile := hgame.executable
  have hnarrow : narrow fs dir = .ok game.executable := by
    rw [narrow_of_executableIn hfile, hexecutable]
  rw [← hexecutable] at hfile
  have hthere : fs.exists? dir = .ok true :=
    FileSystem.exists?_eq_true.2 (FileSystem.names_of_isDirectory
      (isDirectory_of_executableIn hgame.executable))
  intro word hword session'
  simp only [List.mem_cons, List.not_mem_nil, or_false] at hword
  rcases hword with rfl | rfl
  · apply resolve_of_path (FileSystem.exists?_of_isFile hfile) (narrow_of_isFile hfile)
    · exact hfolder
    · exact hsplash
  · rw [hparent]
    apply resolve_of_path hthere hnarrow
    · exact hfolder
    · exact hsplash

def treeWithSearchedUpdate : FileSystem :=
  ["/on/G/eboot.bin", "/on/G-UPDATE/sce_sys/param.sfo", "/on/G-UPDATE/eboot.bin"].foldl
    (fun fs text ↦ fs.withFile text []) (.bare [])

def searchedUpdate : Game where
  executable := .ofString "/on/G-UPDATE/eboot.bin"
  folder := .ofString "/on/G"
  source := .idLookup
  raw := "G-UPDATE"

theorem resolve_searchedUpdate :
    (resolve treeWithSearchedUpdate { gamePath := some "G-UPDATE" }
      (oneDir "/on/G-UPDATE")).result = .ok searchedUpdate := by
  have hturn : Search.turn treeWithSearchedUpdate "G-UPDATE" 6 ⟨.ofString "/on/G-UPDATE", 0⟩ [] =
      .ok (.found searchedUpdate.executable) := rfl
  have hfind : find treeWithSearchedUpdate (.ofString "/on/G-UPDATE") "G-UPDATE" maxDepth =
      .ok (some searchedUpdate.executable) := Search.run_of_found hturn
  have hpath : treeWithSearchedUpdate.exists? (.ofString "G-UPDATE") = .ok false := rfl
  have hfound : findInDirs treeWithSearchedUpdate "G-UPDATE" maxDepth
      (oneDir "/on/G-UPDATE").settings.searchedDirs =
        ⟨[info "Found game G-UPDATE in /on/G-UPDATE"], .ok (some searchedUpdate.executable)⟩ := by
    change findInDirs treeWithSearchedUpdate "G-UPDATE" maxDepth [.ofString "/on/G-UPDATE"] = _
    simp only [findInDirs, hfind]
    rfl
  simp only [resolve, locate, resolvePath, Option.getD_some, hpath, hfound]
  rfl

/-- An update that is found by its name is started in the base game's folder beside it, by its
folder's path too. -/
theorem resolve_of_idLookup_update :
    (resolve treeWithSearchedUpdate { gamePath := some "G-UPDATE" }
        (oneDir "/on/G-UPDATE")).result = .ok searchedUpdate ∧
      (resolve treeWithSearchedUpdate { gamePath := some "/on/G-UPDATE" } (oneDir "on")).result =
        .ok { searchedUpdate with source := .directPath, raw := "/on/G-UPDATE" } := by
  refine ⟨resolve_searchedUpdate, ?_⟩
  apply resolve_of_idLookup resolve_searchedUpdate rfl
  decide

end Library

end GameLauncher
