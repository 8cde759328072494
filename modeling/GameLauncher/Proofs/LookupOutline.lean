import GameLauncher.Proofs.GameSearch
import GameLauncher.Proofs.TreeOutline

namespace GameLauncher

variable {fs fs' gs gs' : FileSystem} {P : Location → Prop} {p dir folder : Path} {id raw : String}
  {l : Location}

namespace FileSystem.SameBut

/-- Whatever finds the same in a tree and in its outline finds the same in both trees. -/
theorem congr {α : Type} (h : fs.SameBut P fs') (look : FileSystem → α)
    (hlook : ∀ gs : FileSystem, look gs.outline = look gs) : look fs' = look fs := by
  rw [← hlook, h.outline, hlook]

theorem isFile (h : fs.SameBut P fs') (p : Path) : fs'.isFile p = fs.isFile p :=
  h.congr (fun gs ↦ gs.isFile p) fun gs ↦ isFile_outline gs p

theorem isDirectory (h : fs.SameBut P fs') (p : Path) : fs'.isDirectory p = fs.isDirectory p :=
  h.congr (fun gs ↦ gs.isDirectory p) fun gs ↦ isDirectory_outline gs p

theorem exists? (h : fs.SameBut P fs') (p : Path) : fs'.exists? p = fs.exists? p :=
  h.congr (fun gs ↦ gs.exists? p) fun gs ↦ exists?_outline gs p

theorem lead (h : fs.SameBut P fs') (p : Path) : fs'.lead p = fs.lead p :=
  h.congr (fun gs ↦ gs.lead p) fun gs ↦ lead_outline gs p

theorem workingDir (h : fs.SameBut P fs') : fs'.workingDir = fs.workingDir :=
  h.congr FileSystem.workingDir workingDir_outline

theorem host (h : fs.SameBut P fs') : fs'.host = fs.host := h.congr FileSystem.host host_outline

theorem walk (h : fs.SameBut P fs') (hp : ∀ l, fs.lead p = some l → ¬ P l) :
    fs'.walk .follow p = fs.walk .follow p := by
  have houtline : (fs'.walk .follow p).map Place.outline =
      (fs.walk .follow p).map Place.outline := by
    rw [← walk_outline, h.outline, walk_outline]
  rcases hw : fs.walk .follow p with e | ⟨l, node⟩ | ⟨dir, n⟩ <;>
    rcases hw' : fs'.walk .follow p with e' | ⟨l', node'⟩ | ⟨dir', n'⟩ <;>
    rw [hw, hw'] at houtline <;>
    simp only [Except.map, Place.outline, reduceCtorEq, Except.ok.injEq, Except.error.injEq,
      Place.occupied.injEq, Place.free.injEq] at houtline
  · rw [houtline]
  · obtain ⟨rfl, hnode⟩ := houtline
    have hsame := h.elsewhere l' (hp l' (lead_of_walk hw))
    rw [get?_of_walk hw, get?_of_walk hw', Option.some.injEq] at hsame
    rw [hsame]
  · rw [houtline.1, houtline.2]

theorem read (h : fs.SameBut P fs') (hp : ∀ l, fs.lead p = some l → ¬ P l) :
    fs'.read p = fs.read p := by
  unfold FileSystem.read resolve
  rw [h.walk hp]

end FileSystem.SameBut

namespace Library

open FileSystem

theorem isGameDir_outline (fs : FileSystem) (dir : Path) (id : String) :
    isGameDir fs.outline dir id = isGameDir fs dir id := by
  simp only [isGameDir, isFile_outline]

namespace Search

theorem directories_outline (fs : FileSystem) (dir : Path) (ns : List Name) :
    directories fs.outline dir ns = directories fs dir ns := by
  induction ns with
  | nil => rfl
  | cons n ns ih => simp only [directories, isDirectory_outline, ih]

theorem subdirectories_outline (fs : FileSystem) (dir : Path) :
    subdirectories fs.outline dir = subdirectories fs dir := by
  simp only [subdirectories, list_outline, directories_outline]

theorem turn_outline (fs : FileSystem) (id : String) (levels : Nat) (item : Item)
    (rest : List Item) : turn fs.outline id levels item rest = turn fs id levels item rest := by
  simp only [turn, isGameDir_outline, subdirectories_outline]

theorem run_outline (fs : FileSystem) (id : String) (levels : Nat) (queue : List Item) :
    run fs.outline id levels queue = run fs id levels queue := by
  fun_induction run fs id levels queue with
  | case1 => rw [run]
  | case2 item rest f hturn =>
    rw [run]
    split <;> simp_all [turn_outline]
  | case3 item rest executable hturn =>
    rw [← turn_outline] at hturn
    exact run_of_found hturn
  | case4 item rest queue hturn ih =>
    rw [← turn_outline] at hturn
    rw [run_of_goOn hturn, ih]

end Search

theorem find_outline (fs : FileSystem) (root : Path) (id : String) (maxDepth : Int) :
    find fs.outline root id maxDepth = find fs root id maxDepth :=
  Search.run_outline ..

theorem findInDirs_outline (fs : FileSystem) (raw : String) (maxDepth : Int) (dirs : List Path) :
    findInDirs fs.outline raw maxDepth dirs = findInDirs fs raw maxDepth dirs := by
  induction dirs with
  | nil => rfl
  | cons dir dirs ih => simp only [findInDirs, find_outline, ih]

theorem locate_outline (fs : FileSystem) (raw : String) (dirs : List Path) :
    locate fs.outline raw dirs = locate fs raw dirs := by
  simp only [locate, resolvePath, exists?_outline, findInDirs_outline]

theorem narrow_outline (fs : FileSystem) (p : Path) : narrow fs.outline p = narrow fs p := by
  simp only [narrow, isDirectory_outline, isFile_outline]

theorem resolveFolder_outline (fs : FileSystem) (executable : Path) (override : Option Path) :
    resolveFolder fs.outline executable override = resolveFolder fs executable override := by
  simp only [resolveFolder, isDirectory_outline]

/-- A lookup sees the bytes of no file but of a splash. -/
theorem resolve_sameBut (h : fs.SameBut P fs')
    (hsplash : ∀ folder l, fs.lead (splashIn folder) = some l → ¬ P l) (invocation : Invocation)
    {session session' : Session}
    (hdirs : session'.settings.searchedDirs = session.settings.searchedDirs) :
    resolve fs' invocation session' = resolve fs invocation session := by
  have hprobe : ∀ folder, Splash.probe fs' folder = Splash.probe fs folder := by
    intro folder
    simp only [Splash.probe, h.isFile, h.read (hsplash folder), h.host]
  have hlocate : ∀ raw dirs, locate fs' raw dirs = locate fs raw dirs := fun raw dirs ↦
    h.congr (fun gs ↦ locate gs raw dirs) fun gs ↦ locate_outline gs raw dirs
  have hnarrow : ∀ p, narrow fs' p = narrow fs p := fun p ↦
    h.congr (fun gs ↦ narrow gs p) fun gs ↦ narrow_outline gs p
  have hfolder : ∀ p q, resolveFolder fs' p q = resolveFolder fs p q := fun p q ↦
    h.congr (fun gs ↦ resolveFolder gs p q) fun gs ↦ resolveFolder_outline gs p q
  simp only [resolve, hdirs, hlocate, hnarrow, hfolder, hprobe]

end Library

end GameLauncher
