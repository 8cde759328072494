import GameLauncher.FileSystem.Access

namespace GameLauncher

def Failure.IsSystem : Failure → Prop
  | .system _ _ | .embeddedNull => True
  | _ => False

theorem Failure.IsSystem.ne_gameNotFound {f : Failure} (h : f.IsSystem) (raw : String) :
    f ≠ .gameNotFound raw := by
  rintro rfl
  exact h

section

variable {α β : Type} {r : Except Failure α} {g : α → β}

theorem error_of_map {f : Failure} (h : r.map g = .error f) : r = .error f := by
  cases r with
  | error e =>
    cases h
    rfl
  | ok a => cases h

theorem ok_of_map {b : β} (h : r.map g = .ok b) : ∃ a, r = .ok a ∧ g a = b := by
  cases r with
  | error e => cases h
  | ok a =>
    cases h
    exact ⟨a, rfl, rfl⟩

end

namespace FileSystem

variable {fs fs' : FileSystem} {p : Path} {c : Bytes} {f : Failure}

theorem isSystem_of_status (h : fs.status p = .error f) : f.IsSystem := by
  unfold status at h
  split at h
  · cases h
  · split at h <;> cases h
    trivial

theorem isSystem_of_exists? (h : fs.exists? p = .error f) : f.IsSystem :=
  isSystem_of_status (error_of_map h)

theorem isSystem_of_isDirectory (h : fs.isDirectory p = .error f) : f.IsSystem :=
  isSystem_of_status (error_of_map h)

theorem isSystem_of_isFile (h : fs.isFile p = .error f) : f.IsSystem :=
  isSystem_of_status (error_of_map h)

theorem isSystem_of_makeDirectory (h : fs.makeDirectory p = .failed f) : f.IsSystem := by
  unfold makeDirectory at h
  split at h
  · cases h
    trivial
  · split at h
    · cases h
    · cases h
    · split at h
      · cases h
        exact isSystem_of_isDirectory ‹_›
      · cases h
      · cases h
        trivial

theorem isSystem_of_makeDirectoriesAt {a : Anchor} {ns : List Name}
    (h : (fs.makeDirectoriesAt a ns).2 = .error f) : f.IsSystem := by
  induction ns with
  | nil =>
    unfold makeDirectoriesAt at h
    split at h
    · cases h
    · cases h
      trivial
    · cases h
      exact isSystem_of_makeDirectory ‹_›
  | cons n up ih =>
    unfold makeDirectoriesAt at h
    simp only at h
    split at h
    · cases h
    · cases h
      exact isSystem_of_makeDirectory ‹_›
    · split at h
      · rename_i hup
        exact ih (by rw [hup, h])
      · split at h
        · cases h
        · cases h
          trivial
        · cases h
          exact isSystem_of_makeDirectory ‹_›

theorem isSystem_of_resolve {aim : Aim} (h : fs.resolve aim p = .error f) : f.IsSystem := by
  unfold resolve at h
  split at h
  · cases h
    trivial
  · split at h <;> cases h
    trivial

theorem isSystem_of_list (h : fs.list p = .error f) : f.IsSystem := by
  unfold list at h
  split at h
  · cases h
    exact isSystem_of_resolve ‹_›
  all_goals cases h <;> trivial

theorem isSystem_of_read (h : fs.read p = .error f) : f.IsSystem := by
  unfold read at h
  split at h
  · cases h
    exact isSystem_of_resolve ‹_›
  all_goals cases h <;> trivial

theorem isSystem_of_write (h : fs.write p c = .error f) : f.IsSystem := by
  unfold write openForWriting at h
  split at h
  · cases h
    exact isSystem_of_resolve ‹_›
  all_goals cases h <;> trivial

end FileSystem

end GameLauncher
