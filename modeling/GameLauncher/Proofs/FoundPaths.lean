import GameLauncher.Proofs.GrowingTree

namespace GameLauncher.FileSystem

variable {fs fs' : FileSystem} {p : Path} {l : Location}

/-- The place of what a path leads to, which is there. -/
def Names (fs : FileSystem) (p : Path) (l : Location) : Prop :=
  p.hasNull = false ∧ ∃ node, fs.walk .follow p = .ok (.occupied l node)

theorem exists?_eq_true : fs.exists? p = .ok true ↔ ∃ l, fs.Names p l := by
  unfold exists? status Names
  split
  · simp_all [Except.map]
  · rcases hw : fs.walk .follow p with e | ⟨l, node⟩ | ⟨dir, n⟩
    · cases e <;> simp [Except.map]
    · simp_all [Except.map]
    · simp [Except.map]

theorem isDirectory_eq_true :
    fs.isDirectory p = .ok true ↔
      p.hasNull = false ∧ ∃ l, fs.walk .follow p = .ok (.occupied l .directory) := by
  unfold isDirectory status
  split
  · simp_all [Except.map]
  · rename_i hnull
    rcases hw : fs.walk .follow p with e | ⟨l, node⟩ | ⟨dir, n⟩
    · cases e <;> simp [Except.map]
    · simp_all [Except.map]
    · simp [Except.map]

theorem names_of_isDirectory (h : fs.isDirectory p = .ok true) : ∃ l, fs.Names p l := by
  obtain ⟨hnull, l, hw⟩ := isDirectory_eq_true.1 h
  exact ⟨l, hnull, _, hw⟩

theorem names_of_isFile (h : fs.isFile p = .ok true) : ∃ l, fs.Names p l := by
  unfold isFile status at h
  split at h
  · simp [Except.map] at h
  · rename_i hnull
    rcases hw : fs.walk .follow p with e | ⟨l, node⟩ | ⟨dir, n⟩
    · cases e <;> simp [hw, Except.map] at h
    · exact ⟨l, by simpa using hnull, node, hw⟩
    · simp [hw, Except.map] at h

theorem read_eq_ok {c : Bytes} :
    fs.read p = .ok c ↔
      p.hasNull = false ∧ ∃ l, fs.walk .follow p = .ok (.occupied l (.file c)) := by
  cases hnull : p.hasNull with
  | true => simp [read, resolve, hnull]
  | false =>
    rcases hw : fs.walk .follow p with e | ⟨l, _ | _ | _⟩ | ⟨dir, n⟩ <;>
      simp [read, resolve, hnull, hw]

theorem isFile_eq_true : fs.isFile p = .ok true ↔ ∃ c, fs.read p = .ok c := by
  simp only [read_eq_ok]
  unfold isFile status
  split
  · simp_all [Except.map]
  · rename_i hnull
    rcases hw : fs.walk .follow p with e | ⟨l, _ | _ | _⟩ | ⟨dir, n⟩
    · cases e <;> simp [Except.map]
    all_goals simp [hnull, Except.map]

theorem Grows.names (h : Grows fs fs') (hp : fs.Names p l) : fs'.Names p l := by
  obtain ⟨hnull, node, hwalk⟩ := hp
  obtain ⟨node', -, hwalk'⟩ := h.walk_occupied hwalk
  exact ⟨hnull, node', hwalk'⟩

theorem Grows.exists? (h : Grows fs fs') (hp : fs.exists? p = .ok true) :
    fs'.exists? p = .ok true := by
  obtain ⟨l, hl⟩ := exists?_eq_true.1 hp
  exact exists?_eq_true.2 ⟨l, h.names hl⟩

theorem Grows.isDirectory (h : Grows fs fs') (hp : fs.isDirectory p = .ok true) :
    fs'.isDirectory p = .ok true := by
  obtain ⟨hnull, l, hw⟩ := isDirectory_eq_true.1 hp
  obtain ⟨node, hl, hw'⟩ := h.walk_occupied hw
  rw [h.directory l (get?_of_walk hw), Option.some.injEq] at hl
  exact isDirectory_eq_true.2 ⟨hnull, l, hl ▸ hw'⟩

end GameLauncher.FileSystem
