import GameLauncher.Library.Resolution
import GameLauncher.Proofs.LinkLead

namespace GameLauncher

def Node.outline : Node → Node
  | .file _ => .file []
  | node => node

theorem Node.outline_inj {a b : Node} (h : a.outline = b.outline) :
    a = b ∨ ∃ c c', a = .file c ∧ b = .file c' := by
  cases a <;> cases b <;> simp_all [Node.outline]

def Stop.outline : Stop → Stop
  | .reached l node => .reached l node.outline
  | stop => stop

def Place.outline : Place → Place
  | .occupied l node => .occupied l node.outline
  | place => place

namespace FileSystem

variable {fs fs' gs gs' : FileSystem} {aim : Aim} {l k : Location} {node : Node} {c : Bytes}
  {p : Path}

/-- The same tree with all its files empty. Whatever looks at names and kinds alone finds the same
in it. -/
def outline (fs : FileSystem) : FileSystem where
  entries := fs.entries.map fun e ↦ (e.1, e.2.outline)
  distinct := by simpa [Function.comp_def] using fs.distinct
  workingDir := fs.workingDir
  host := fs.host

@[simp] theorem workingDir_outline (fs : FileSystem) : fs.outline.workingDir = fs.workingDir := rfl

@[simp] theorem host_outline (fs : FileSystem) : fs.outline.host = fs.host := rfl

theorem eq_of_entries {fs fs' : FileSystem} (h : fs.entries = fs'.entries)
    (hdir : fs.workingDir = fs'.workingDir) (hhost : fs.host = fs'.host) : fs = fs' := by
  cases fs
  cases fs'
  simp_all

theorem lookup_map_outline (l : Location) (es : List (Location × Node)) :
    (es.map fun e ↦ (e.1, e.2.outline)).lookup l = (es.lookup l).map Node.outline := by
  induction es with
  | nil => rfl
  | cons e r ih =>
    obtain ⟨a, b⟩ := e
    cases hb : l == a <;> simp [List.lookup_cons, hb, ih]

theorem get?_outline (fs : FileSystem) (l : Location) :
    fs.outline.get? l = (fs.get? l).map Node.outline := by
  cases l with
  | nil => rfl
  | cons n up => exact lookup_map_outline (n :: up) fs.entries

theorem get?_of_outline_eq (h : fs'.outline = fs.outline) (l : Location) :
    fs'.get? l = fs.get? l ∨
      ∃ c c', fs.get? l = some (.file c) ∧ fs'.get? l = some (.file c') := by
  have hnode : (fs'.get? l).map Node.outline = (fs.get? l).map Node.outline := by
    rw [← get?_outline, ← get?_outline, h]
  rcases hl : fs.get? l with _ | node <;> rcases hl' : fs'.get? l with _ | node' <;>
    rw [hl, hl'] at hnode
  · exact .inl rfl
  · cases hnode
  · cases hnode
  · rcases Node.outline_inj (Option.some.inj hnode) with rfl | ⟨c', c, rfl, rfl⟩
    · exact .inl rfl
    · exact .inr ⟨c, c', rfl, rfl⟩

theorem map_putEntry (l : Location) (node : Node) (es : List (Location × Node)) :
    (putEntry l node es).map (fun e ↦ (e.1, e.2.outline)) =
      putEntry l node.outline (es.map fun e ↦ (e.1, e.2.outline)) := by
  induction es with
  | nil => rfl
  | cons e r ih => by_cases h : e.1 = l <;> simp [putEntry, h, ih]

theorem outline_put (fs : FileSystem) (l : Location) (node : Node) :
    (fs.put l node).outline = fs.outline.put l node.outline :=
  eq_of_entries (map_putEntry l node fs.entries) rfl rfl

theorem putEntry_of_lookup {es : List (Location × Node)} (h : es.lookup l = some node) :
    putEntry l node es = es := by
  induction es with
  | nil => cases h
  | cons e r ih =>
    obtain ⟨a, b⟩ := e
    by_cases ha : a = l
    · subst ha
      simp only [List.lookup_cons, beq_self_eq_true, Option.some.injEq] at h
      simp [putEntry, h]
    · have hb : (l == a) = false := by simpa using Ne.symm ha
      simp only [List.lookup_cons, hb] at h
      simp [putEntry, ha, ih h]

theorem put_of_get? (hl : l ≠ []) (h : fs.get? l = some node) : fs.put l node = fs := by
  cases l with
  | nil => exact absurd rfl hl
  | cons n up => exact eq_of_entries (putEntry_of_lookup h) rfl rfl

theorem outline_put_file (h : fs.get? l = some (.file c)) (c' : Bytes) :
    (fs.put l (.file c')).outline = fs.outline := by
  rw [outline_put]
  apply put_of_get? (ne_nil_of_get?_file h)
  rw [get?_outline, h]
  rfl

theorem glide_outline (fs : FileSystem) (aim : Aim) (l : Location) (ms : List Move) :
    fs.outline.glide aim l ms = (fs.glide aim l ms).outline := by
  induction ms generalizing l with
  | nil =>
    simp only [glide, get?_outline]
    cases fs.get? l <;> rfl
  | cons m rest ih =>
    simp only [glide, get?_outline]
    rcases fs.get? l with _ | _ | _ | _
    · rfl
    · rfl
    · simp only [Option.map_some, Node.outline]
      cases m with
      | stay | slash => exact ih l
      | up => exact ih l.tail
      | enter n =>
        simp only
        split
        · rfl
        split
        · rfl
        rcases fs.get? (n :: l) with _ | _ | _ | _
        · simp only [Option.map_none]
          split <;> rfl
        · exact ih (n :: l)
        · exact ih (n :: l)
        · simp only [Option.map_some, Node.outline]
          split <;> rfl
    · rfl

theorem walkFrom_outline (fs : FileSystem) (aim : Aim) (links : Nat) (l : Location)
    (ms : List Move) :
    fs.outline.walkFrom aim links l ms = (fs.walkFrom aim links l ms).map Place.outline := by
  rw [walkFrom.eq_def, walkFrom.eq_def fs, glide_outline]
  cases fs.glide aim l ms with
  | reached | missing | refused => rfl
  | detour dir target rest =>
    cases links with
    | zero => rfl
    | succ links => exact walkFrom_outline fs aim links _ _

theorem walk_outline (fs : FileSystem) (aim : Aim) (p : Path) :
    fs.outline.walk aim p = (fs.walk aim p).map Place.outline := by
  unfold walk
  split
  · rfl
  · exact walkFrom_outline ..

theorem status_outline (fs : FileSystem) (p : Path) :
    fs.outline.status p = (fs.status p).map (Option.map Node.outline) := by
  unfold status
  split
  · rfl
  · rw [walk_outline]
    rcases fs.walk .follow p with e | ⟨l, node⟩ | ⟨dir, n⟩
    · cases e <;> rfl
    · rfl
    · rfl

theorem exists?_outline (fs : FileSystem) (p : Path) : fs.outline.exists? p = fs.exists? p := by
  unfold exists?
  rw [status_outline]
  rcases fs.status p with f | _ | node <;> rfl

theorem isDirectory_outline (fs : FileSystem) (p : Path) :
    fs.outline.isDirectory p = fs.isDirectory p := by
  unfold isDirectory
  rw [status_outline]
  rcases fs.status p with f | _ | _ | _ | _ <;> rfl

theorem isFile_outline (fs : FileSystem) (p : Path) : fs.outline.isFile p = fs.isFile p := by
  unfold isFile
  rw [status_outline]
  rcases fs.status p with f | _ | _ | _ | _ <;> rfl

theorem resolve_outline (fs : FileSystem) (aim : Aim) (p : Path) :
    fs.outline.resolve aim p = (fs.resolve aim p).map Place.outline := by
  unfold resolve
  split
  · rfl
  · rw [walk_outline]
    cases fs.walk aim p <;> rfl

theorem namesIn_outline (fs : FileSystem) (dir : Location) :
    fs.outline.namesIn dir = fs.namesIn dir := by
  simp only [namesIn, outline, List.filterMap_map, Function.comp_def]

theorem list_outline (fs : FileSystem) (p : Path) : fs.outline.list p = fs.list p := by
  unfold list
  rw [resolve_outline]
  rcases fs.resolve .follow p with f | ⟨l, _ | _ | _⟩ | ⟨dir, n⟩
  · rfl
  · rfl
  · simp only [Except.map, Place.outline, Node.outline, namesIn_outline]
  · rfl
  · rfl

theorem openForWriting_outline (fs : FileSystem) (p : Path) :
    fs.outline.openForWriting p = (fs.openForWriting p).map fun opened ↦ (opened.1, []) := by
  unfold openForWriting
  rw [resolve_outline]
  rcases fs.resolve .create p with f | ⟨l, _ | _ | _⟩ | ⟨dir, n⟩ <;> rfl

theorem freePlace_outline (fs : FileSystem) (p : Path) :
    fs.outline.freePlace p = fs.freePlace p := by
  unfold freePlace
  split
  · rfl
  split
  · rfl
  · rw [walk_outline]
    rcases fs.walk .follow p.parent with e | ⟨l, _ | _ | _⟩ | ⟨dir, n⟩
    · rfl
    · rfl
    · simp only [Except.map, Place.outline, Node.outline, get?_outline]
      split
      · rfl
      split
      · rfl
      · rename_i n _ _ _
        cases fs.get? (n :: l) <;> rfl
    · rfl
    · rfl

end FileSystem

def FileSystem.Made.outline : FileSystem.Made → FileSystem.Made
  | .done fs => .done fs.outline
  | made => made

namespace FileSystem

variable {fs fs' gs gs' : FileSystem} {l : Location} {node : Node} {c : Bytes} {p : Path}

theorem makeDirectory_outline (fs : FileSystem) (p : Path) :
    fs.outline.makeDirectory p = (fs.makeDirectory p).outline := by
  unfold makeDirectory
  split
  · rfl
  · rw [freePlace_outline, isDirectory_outline]
    rcases fs.freePlace p with e | l
    · cases e <;> first | rfl | (simp only; rcases fs.isDirectory p with f | _ | _ <;> rfl)
    · simp only [Made.outline, outline_put, Node.outline]

theorem makeDirectoriesAt_outline (fs : FileSystem) (a : Anchor) (ns : List Name) :
    fs.outline.makeDirectoriesAt a ns =
      ((fs.makeDirectoriesAt a ns).1.outline, (fs.makeDirectoriesAt a ns).2) := by
  induction ns with
  | nil =>
    simp only [makeDirectoriesAt, makeDirectory_outline]
    cases fs.makeDirectory ⟨a, []⟩ <;> rfl
  | cons n up ih =>
    simp only [makeDirectoriesAt, makeDirectory_outline, ih]
    cases fs.makeDirectory ⟨a, (n :: up).reverse⟩ with
    | done | failed => rfl
    | parentMissing =>
      simp only [Made.outline]
      rcases fs.makeDirectoriesAt a up with ⟨fs₁, f | u⟩
      · rfl
      · simp only [makeDirectory_outline]
        cases fs₁.makeDirectory ⟨a, (n :: up).reverse⟩ <;> rfl

theorem makeDirectories_outline (fs : FileSystem) (p : Path) :
    fs.outline.makeDirectories p = ((fs.makeDirectories p).1.outline, (fs.makeDirectories p).2) :=
  fs.makeDirectoriesAt_outline _ _

theorem drift_outline (fs : FileSystem) (l : Location) (ms : List Move) :
    fs.outline.drift l ms = fs.drift l ms := by
  induction ms generalizing l with
  | nil => rfl
  | cons m rest ih =>
    cases m with
    | stay | slash => simpa only [drift] using ih l
    | up => simpa only [drift] using ih l.tail
    | enter n =>
      simp only [drift, get?_outline]
      rcases fs.get? (n :: l) with _ | _ | _ | _
      · exact ih (n :: l)
      · exact ih (n :: l)
      · exact ih (n :: l)
      · rfl

theorem leadFrom_outline (fs : FileSystem) (links : Nat) (l : Location) (ms : List Move) :
    fs.outline.leadFrom links l ms = fs.leadFrom links l ms := by
  rw [leadFrom.eq_def, leadFrom.eq_def fs, drift_outline]
  split
  · rfl
  · cases links with
    | zero => rfl
    | succ links => exact leadFrom_outline fs links _ _

theorem lead_outline (fs : FileSystem) (p : Path) : fs.outline.lead p = fs.lead p :=
  leadFrom_outline ..

/-- Trees that differ at most in the bytes of files, and of these only at some places. -/
structure SameBut (P : Location → Prop) (fs fs' : FileSystem) : Prop where
  outline : fs'.outline = fs.outline
  elsewhere : ∀ l, ¬ P l → fs'.get? l = fs.get? l

namespace SameBut

variable {P : Location → Prop}

theorem refl (P : Location → Prop) (fs : FileSystem) : SameBut P fs fs := ⟨rfl, fun _ _ ↦ rfl⟩

theorem symm (h : SameBut P fs fs') : SameBut P fs' fs :=
  ⟨h.outline.symm, fun l hl ↦ (h.elsewhere l hl).symm⟩

theorem trans (h : SameBut P fs fs') (h' : SameBut P fs' gs) : SameBut P fs gs :=
  ⟨h'.outline.trans h.outline, fun l hl ↦ (h'.elsewhere l hl).trans (h.elsewhere l hl)⟩

theorem mono {Q : Location → Prop} (h : SameBut P fs fs') (hPQ : ∀ l, P l → Q l) :
    SameBut Q fs fs' :=
  ⟨h.outline, fun l hl ↦ h.elsewhere l fun hP ↦ hl (hPQ l hP)⟩

theorem put_file (hl : P l) (h : fs.get? l = some (.file c)) (c' : Bytes) :
    SameBut P fs (fs.put l (.file c')) where
  outline := outline_put_file h c'
  elsewhere k hk := by
    apply get?_put_of_ne (ne_nil_of_get?_file h)
    rintro rfl
    exact hk hl

end SameBut

end FileSystem

end GameLauncher
