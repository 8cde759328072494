import GameLauncher.Proofs.LookupFailures
import GameLauncher.Proofs.SpawnPaths

namespace GameLauncher

namespace FileSystem

variable {fs : FileSystem} {p : Path}

theorem held_of_isFile (hcwd : fs.get? fs.workingDir = some .directory)
    (h : fs.isFile p = .ok true) :
    fs.isDirectory p.parent = .ok true ∧ ∃ n, p = p.parent.child n := by
  rcases p.parts_eq_nil_or_child with hnil | ⟨q, n, rfl⟩
  · obtain ⟨c, hread⟩ := isFile_eq_true.1 h
    obtain ⟨-, l, hwalk⟩ := read_eq_ok.1 hread
    have hstart : fs.get? (fs.startOf p) = some .directory := by
      unfold startOf
      split
      · exact hcwd
      · rfl
    have hglide : fs.glide .follow (fs.startOf p) [] = .reached (fs.startOf p) .directory := by
      simp only [glide, hstart]
    have hshort := isTooLong_of_walk hwalk
    rw [walk, hshort, hnil, List.map_nil, walkFrom_of_reached hglide] at hwalk
    cases hwalk
  · obtain ⟨l, hl⟩ := names_of_isFile h
    rw [Path.parent_child]
    exact ⟨isDirectory_of_names_child hl, n, rfl⟩

end FileSystem

namespace Library

variable {fs : FileSystem} {p q e folder : Path} {invocation : Invocation} {session : Session}
  {game : Game}

/-- Something that is there, but neither a file nor a directory with an executable in it. -/
structure IsBare (fs : FileSystem) (p : Path) : Prop where
  there : fs.exists? p = .ok true
  noFile : fs.isFile p ≠ .ok true
  empty : fs.isFile (executableIn p) ≠ .ok true

theorem isDirectory_of_executableIn (h : fs.isFile (executableIn p) = .ok true) :
    fs.isDirectory p = .ok true := by
  obtain ⟨l, hl⟩ := FileSystem.names_of_isFile h
  exact FileSystem.isDirectory_of_names_child hl

theorem isFile_of_narrow (hp : fs.exists? p = .ok true) (h : narrow fs p = .ok e) :
    fs.isFile e = .ok true ↔ ¬ IsBare fs p := by
  rcases narrow_eq_ok_cases h with ⟨-, hfile, rfl⟩ | ⟨hnot, rfl⟩
  · exact iff_of_true hfile fun hbare ↦ hbare.empty hfile
  · have hempty : fs.isFile (executableIn e) ≠ .ok true := fun hfile ↦
      hnot ⟨isDirectory_of_executableIn hfile, hfile⟩
    constructor
    · intro hfile hbare
      exact hbare.noFile hfile
    · intro hbare
      by_cases hfile : fs.isFile e = .ok true
      · exact hfile
      · exact absurd ⟨hp, hfile, hempty⟩ hbare

theorem not_isBare_of_isFile (h : fs.isFile p = .ok true) : ¬ IsBare fs p :=
  fun hbare ↦ hbare.noFile h

theorem resolveFolder_none_cases (h : resolveFolder fs e none = .ok folder) :
    folder = e.parent ∨ ∃ base : Name, NamesAddOn e.parent.name base.text ∧
      folder = e.parent.withName base ∧ fs.isDirectory folder = .ok true := by
  unfold resolveFolder at h
  simp only at h
  split at h
  · cases h
    exact .inl rfl
  · rename_i base hbase
    split at h
    · cases h
      exact .inl rfl
    · split at h
      · cases h
      · rename_i n hn
        obtain ⟨isDir, hdir, rfl⟩ := ok_of_map h
        cases isDir with
        | false => exact .inl rfl
        | true =>
          obtain rfl := Name.text_of_of? hn
          exact .inr ⟨n, baseName?_eq_some.1 hbase, rfl, hdir⟩

/-- What a lookup finds is there, and is a file unless a path was typed that leads to something else
than a file or a directory with an executable. A file lies in the folder that the game is started
in, or in an update's or a patch's beside it. -/
theorem resolve_isFile_iff {fs : FileSystem} {invocation : Invocation} {session : Session}
    {game : Game} (hcwd : fs.get? fs.workingDir = some .directory)
    (h : (resolve fs invocation session).result = .ok game) :
    let holder := game.executable.parent
    fs.exists? game.executable = .ok true ∧
    (fs.isFile game.executable = .ok true ↔ ¬ IsBare fs (.ofString game.raw)) ∧
    (fs.isFile game.executable = .ok true →
      fs.isDirectory game.executable = .ok false ∧ fs.isDirectory holder = .ok true ∧
        ∃ n, game.executable = holder.child n) ∧
    (invocation.folderOverride = none → game.folder = holder ∨
      ∃ base : Name, NamesAddOn holder.name base.text ∧ game.folder = holder.withName base ∧
        fs.isDirectory game.folder = .ok true) := by
  obtain ⟨found, -, -, hfound, hnarrow, hfolder, -⟩ := resolve_eq_game h
  have hthere : fs.exists? found = .ok true := locate_eq_ok hfound
  have hfile := isFile_of_narrow hthere hnarrow
  refine ⟨FileSystem.exists?_eq_true.2 (narrow_eq_ok hthere hnarrow), hfile.trans ?_, ?_, ?_⟩
  · rcases locate_cases hfound with ⟨-, -, rfl⟩ | ⟨-, hnone, hsearch⟩
    · rfl
    · have hword : ¬ IsBare fs (.ofString game.raw) := by
        intro hbare
        rw [hbare.there] at hnone
        cases hnone
      exact iff_of_true (not_isBare_of_isFile (isFile_of_findInDirs hsearch)) hword
  · intro hexecutable
    exact ⟨FileSystem.isDirectory_of_isFile hexecutable, FileSystem.held_of_isFile hcwd hexecutable⟩
  · intro hnone
    rw [hnone] at hfolder
    exact resolveFolder_none_cases hfolder

def treeWithUpdate : FileSystem :=
  ((FileSystem.bare []).withFile "games/G/eboot.bin" []).withFile "games/G-UPDATE/eboot.bin" []

def updatedGame : Game where
  executable := .ofString "games/G-UPDATE/eboot.bin"
  folder := .ofString "games/G"
  source := .directPath
  raw := "games/G-UPDATE"

theorem resolve_update :
    (resolve treeWithUpdate { gamePath := some "games/G-UPDATE" } (oneDir "on")).result =
      .ok updatedGame := by
  simp only [resolve, Option.getD_some]
  rfl

/-- An update's folder holds the executable, and the game is started in the base game's beside it. -/
theorem resolve_isFile_iff_update :
    let holder := updatedGame.executable.parent
    (resolve treeWithUpdate { gamePath := some "games/G-UPDATE" } (oneDir "on")).result =
        .ok updatedGame ∧
      treeWithUpdate.get? treeWithUpdate.workingDir = some .directory ∧
      treeWithUpdate.isFile updatedGame.executable = .ok true ∧
      ∃ base : Name, NamesAddOn holder.name base.text ∧
        updatedGame.folder = holder.withName base := by
  intro holder
  obtain ⟨-, hfile, -, hfolder⟩ := resolve_isFile_iff rfl resolve_update
  refine ⟨resolve_update, rfl, hfile.2 ?_, ?_⟩
  · intro hbare
    exact hbare.empty rfl
  · rcases hfolder rfl with hsame | ⟨base, hname, hbase, -⟩
    · exact absurd hsame (by decide)
    · exact ⟨base, hname, hbase⟩

/-- A directory without an executable is found as it is, and its own parent is started in. -/
theorem resolve_finds_directory :
    let fs := (FileSystem.bare []).withDirectory (FileSystem.placeAt "games/empty")
    ∃ game, (resolve fs { gamePath := some "games/empty" } (oneDir "on")).result = .ok game ∧
      fs.isDirectory game.executable = .ok true ∧ game.folder = .ofString "games" := by
  intro fs
  exact ⟨⟨.ofString "games/empty", .ofString "games", .directPath, "games/empty", none⟩, rfl, rfl, rfl⟩

end Library

end GameLauncher
