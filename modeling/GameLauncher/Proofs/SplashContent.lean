import GameLauncher.Proofs.LookupFailures
import GameLauncher.Proofs.LookupOutline
import GameLauncher.Proofs.RunTree

namespace GameLauncher

variable {fs fs' : FileSystem} {P : Location → Prop} {folder : Path} {f : Failure}
  {splash : Option Splash} {game game' : Game} {invocation : Invocation} {session : Session}

theorem FileSystem.SameBut.overruns (h : fs.SameBut P fs') (p : Path) :
    fs'.Overruns p ↔ fs.Overruns p := by
  have hfile := h.isFile p
  constructor <;> intro hlong
  · exact (isFile_eq_error.1 (hfile.symm.trans (isFile_eq_error.2 ⟨hlong, rfl⟩))).1
  · exact (isFile_eq_error.1 (hfile.trans (isFile_eq_error.2 ⟨hlong, rfl⟩))).1

namespace Library

def HugeSplash (fs : FileSystem) (folder : Path) (pixels : Nat) : Prop :=
  ∃ bytes size, fs.read (splashIn folder) = .ok bytes ∧ fs.host.pictureSize? bytes = some size ∧
    size.pixels = pixels ∧ maxPixels < pixels

def FitsFolder (folder : Path) (splash : Option Splash) : Prop :=
  ∀ s ∈ splash, s.path = splashIn folder ∧ 0 < s.size.width ∧ 0 < s.size.height

theorem probe_eq_error_iff :
    (Splash.probe fs folder).result = .error f ↔
      fs.Overruns (splashIn folder) ∧ f = .overlong (splashIn folder) ∨
        ∃ n, HugeSplash fs folder n ∧ f = .hugeImage n := by
  rw [probe_eq_error]
  apply or_congr_right
  constructor
  · rintro ⟨bytes, size, hread, hsize, hhuge, rfl⟩
    exact ⟨_, ⟨bytes, size, hread, hsize, rfl, hhuge⟩, rfl⟩
  · rintro ⟨_, ⟨bytes, size, hread, hsize, rfl, hhuge⟩, rfl⟩
    exact ⟨bytes, size, hread, hsize, hhuge, rfl⟩

theorem fitsFolder_of_probe (h : (Splash.probe fs folder).result = .ok splash) :
    FitsFolder folder splash := by
  rintro s rfl
  unfold Splash.probe at h
  simp only at h
  split at h
  · cases h
  · cases h
  · split at h
    · cases h
    · cases h
    · split at h
      · cases h
      · split at h
        · cases h
        · split at h
          · cases h
          · rename_i hempty
            cases h
            simpa using hempty

/-- The game that a lookup has settled on before it looks at the picture. -/
def chosen (fs : FileSystem) (invocation : Invocation) (session : Session) :
    Except Failure Game :=
  let raw := invocation.gamePath.getD ""
  if raw = "" then .error (.gameNotFound raw)
  else do
    let (found, source) ← (locate fs raw session.settings.searchedDirs).result
    let executable ← narrow fs found
    let folder ← resolveFolder fs executable invocation.folderOverride
    return { executable, folder, source, raw }

theorem result_resolve (fs : FileSystem) (invocation : Invocation) (session : Session) :
    (resolve fs invocation session).result =
      (chosen fs invocation session).bind fun game ↦
        (Splash.probe fs game.folder).result.map fun splash ↦ { game with splash } := by
  simp only [resolve, chosen]
  split
  · rfl
  simp only [Traced.result_bind, Traced.ofExcept, Traced.record]
  rcases (locate fs (invocation.gamePath.getD "") session.settings.searchedDirs).result
    with g | ⟨p, source⟩
  · rfl
  simp only [Bind.bind, Except.bind]
  rcases narrow fs p with g | e
  · rfl
  simp only
  rcases resolveFolder fs e invocation.folderOverride with g | folder
  · rfl
  simp only [Pure.pure, Except.pure]
  rcases (Splash.probe fs folder).result <;> rfl

theorem chosen_sameBut (h : fs.SameBut P fs') (invocation : Invocation) (session : Session) :
    chosen fs' invocation session = chosen fs invocation session :=
  h.congr (fun gs ↦ chosen gs invocation session) fun gs ↦ by
    simp only [chosen, locate_outline, narrow_outline, resolveFolder_outline]

theorem resolve_eq_ok_iff :
    (resolve fs invocation session).result = .ok game' ↔ ∃ game splash,
      chosen fs invocation session = .ok game ∧
        (Splash.probe fs game.folder).result = .ok splash ∧ game' = { game with splash } := by
  rw [result_resolve]
  rcases chosen fs invocation session with f | game
  · simp [Except.bind]
  · rcases hprobe : (Splash.probe fs game.folder).result with f | splash <;>
      simp [Except.bind, Except.map, hprobe, @eq_comm _ game']

theorem resolve_eq_error_of_chosen :
    (resolve fs invocation session).result = .error f ↔
      chosen fs invocation session = .error f ∨ ∃ game,
        chosen fs invocation session = .ok game ∧
          (Splash.probe fs game.folder).result = .error f := by
  rw [result_resolve]
  rcases chosen fs invocation session with g | game
  · simp [Except.bind]
  · rcases hprobe : (Splash.probe fs game.folder).result with g | splash <;>
      simp [Except.bind, Except.map, hprobe]

/-- Trees that differ in the bytes of files alone give one game, apart from its picture, unless a
picture has more pixels than are put up with. Only that, and a path that is too long, makes the look
at a picture fail. -/
theorem resolve_splash (h : fs.SameBut P fs') (invocation : Invocation) (session : Session) :
    let found (gs : FileSystem) := (resolve gs invocation session).result
    (∀ game, found fs = .ok game → FitsFolder game.folder game.splash ∧
        (∀ f, found fs' = .error f ↔ ∃ n, HugeSplash fs' game.folder n ∧ f = .hugeImage n) ∧
        ∀ game', found fs' = .ok game' → game' = { game with splash := game'.splash }) ∧
      (∀ f, found fs = .error f → (∀ n, f ≠ .hugeImage n) → found fs' = .error f) ∧
      ∀ folder f, (Splash.probe fs folder).result = .error f ↔
        fs.Overruns (splashIn folder) ∧ f = .overlong (splashIn folder) ∨
          ∃ n, HugeSplash fs folder n ∧ f = .hugeImage n := by
  intro found
  have hchosen := chosen_sameBut h invocation session
  refine ⟨fun game hgame ↦ ?_, fun f hf hhuge ↦ ?_, fun folder f ↦ probe_eq_error_iff⟩
  · obtain ⟨game, splash, hok, hprobe, rfl⟩ := resolve_eq_ok_iff.1 hgame
    rw [hok] at hchosen
    refine ⟨fitsFolder_of_probe hprobe, fun f ↦ ?_, fun game' hgame' ↦ ?_⟩
    · have hshort : ¬ fs'.Overruns (splashIn game.folder) := by
        intro hlong
        rw [probe_eq_error_iff.2 (.inl ⟨(h.overruns _).1 hlong, rfl⟩)] at hprobe
        cases hprobe
      rw [resolve_eq_error_of_chosen, hchosen]
      simp [probe_eq_error_iff, hshort]
    · obtain ⟨_, splash', hok', -, rfl⟩ := resolve_eq_ok_iff.1 hgame'
      cases hchosen.symm.trans hok'
      rfl
  · apply resolve_eq_error_of_chosen.2
    rw [hchosen]
    rcases resolve_eq_error_of_chosen.1 hf with hnone | ⟨game, hok, hprobe⟩
    · exact .inl hnone
    rcases probe_eq_error_iff.1 hprobe with ⟨hlong, rfl⟩ | ⟨n, -, rfl⟩
    · exact .inr ⟨game, hok, probe_eq_error_iff.2 (.inl ⟨(h.overruns _).2 hlong, rfl⟩)⟩
    · exact absurd rfl (hhuge n)

def IsSplash : Location → Prop
  | name :: dir :: _ => name = splashName ∧ dir = systemDirName
  | _ => False

def treeWithSplash (content : Bytes) : FileSystem :=
  (((FileSystem.bare []).withFile "g/eboot.bin" []).withFile "g/sce_sys/pic1.png" []).put
    (FileSystem.placeAt "g/sce_sys/pic1.png") (.file content)

theorem treeWithSplash_sameBut (c c' : Bytes) :
    (treeWithSplash c).SameBut IsSplash (treeWithSplash c') := by
  have hplace : IsSplash (FileSystem.placeAt "g/sce_sys/pic1.png") := ⟨rfl, rfl⟩
  exact (FileSystem.SameBut.put_file hplace rfl c).symm.trans (.put_file hplace rfl c')

def gameWithSplash (splash : Option Splash) : Game where
  executable := .ofString "g/eboot.bin"
  folder := .ofString "g"
  source := .directPath
  raw := "g"
  splash := splash

def resolveByPath (fs : FileSystem) : Except Failure Game :=
  (resolve fs { gamePath := some "g" } (oneDir "on")).result

def squareGif (b : UInt8) : Bytes :=
  Image.ascii "GIF89a" ++ [b, b, b, b, 0, 0, 0, 0x2c, 0, 0, 0, 0, 1, 0, 1, 0, 0, 2]

theorem resolveByPath_empty :
    resolveByPath (treeWithSplash []) = .ok (gameWithSplash none) := rfl

theorem resolve_splash_small :
    let fs := treeWithSplash (squareGif 1)
    let game := gameWithSplash (some ⟨.ofString "g/sce_sys/pic1.png", ⟨257, 257⟩⟩)
    fs.SameBut IsSplash (treeWithSplash []) ∧ resolveByPath fs = .ok game ∧
      FitsFolder game.folder game.splash ∧ gameWithSplash none = { game with splash := none } := by
  intro fs game
  have hsame := treeWithSplash_sameBut (squareGif 1) []
  have hgame : resolveByPath fs = .ok game := rfl
  obtain ⟨hok, -⟩ := resolve_splash hsame { gamePath := some "g" } (oneDir "on")
  obtain ⟨hfits, -, hlike⟩ := hok game hgame
  exact ⟨hsame, hgame, hfits, hlike _ resolveByPath_empty⟩

/-- A file that only says that it is a picture of four thousand million pixels stops the lookup. -/
theorem resolve_splash_huge :
    let fs := treeWithSplash (squareGif 0xff)
    (treeWithSplash []).SameBut IsSplash fs ∧
      resolveByPath (treeWithSplash []) = .ok (gameWithSplash none) ∧
      (Splash.probe fs (.ofString "g")).result = .error (.hugeImage (0xffff * 0xffff)) ∧
      resolveByPath fs = .error (.hugeImage (0xffff * 0xffff)) :=
  ⟨treeWithSplash_sameBut .., resolveByPath_empty, rfl, rfl⟩

end Library

end GameLauncher
