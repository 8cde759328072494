import GameLauncher.Proofs.FoundPaths
import GameLauncher.Proofs.WalkParts

namespace GameLauncher

theorem Path.parts_eq_nil_or_child (p : Path) : p.parts = [] ∨ ∃ q n, p = Path.child q n := by
  rcases List.eq_nil_or_concat p.parts with h | ⟨up, n, h⟩
  · exact .inl h
  · rw [List.concat_eq_append] at h
    exact .inr ⟨⟨p.anchor, up⟩, n, by rw [Path.child, ← h]⟩

namespace FileSystem

variable {fs fs' fs'' : FileSystem} {l k dir : Location} {n : Name} {node : Node} {p q : Path}

/-- A later state of a tree in which nothing but directories was made. -/
structure AddsDirectories (fs fs' : FileSystem) : Prop extends Grows fs fs' where
  content : ∀ l c, fs.get? l = some (.file c) ↔ fs'.get? l = some (.file c)

namespace AddsDirectories

theorem refl (fs : FileSystem) : AddsDirectories fs fs :=
  ⟨Grows.refl fs, fun _ _ ↦ Iff.rfl⟩

theorem trans (h : AddsDirectories fs fs') (h' : AddsDirectories fs' fs'') :
    AddsDirectories fs fs'' :=
  ⟨h.toGrows.trans h'.toGrows, fun l c ↦ (h.content l c).trans (h'.content l c)⟩

theorem put (h : fs.get? l = none) : AddsDirectories fs (fs.put l .directory) where
  toGrows := Grows.put_directory h
  content k c := by
    have hl := ne_nil_of_get?_none h
    by_cases hk : k = l
    · subst hk
      simp [get?_put_self hl, h]
    · rw [get?_put_of_ne hl hk]

end AddsDirectories

theorem freePlace_child (fs : FileSystem) (q : Path) (n : Name) :
    fs.freePlace (q.child n) =
      if (q.child n).isTooLong then .error .nameTooLong
      else match fs.walk .follow q with
        | .error e => .error e
        | .ok (.free _ _) => .error .notFound
        | .ok (.occupied dir .directory) =>
          if n = Name.up then .error .exists
          else if n.isTooLong then .error .nameTooLong
          else match fs.get? (n :: dir) with
            | some _ => .error .exists
            | none => .ok (n :: dir)
        | .ok (.occupied _ _) => .error .notADirectory := by
  have hlast : (q.child n).parts.getLast? = some n := by simp [Path.child]
  rewrite [freePlace, hlast, Path.parent_child]
  rfl

theorem freePlace_of_parts_eq_nil (h : p.parts = []) (l : Location) :
    fs.freePlace p ≠ .ok l ∧ fs.freePlace p ≠ .error .notFound := by
  unfold freePlace
  rw [h]
  split <;> simp

theorem freePlace_eq_ok (h : fs.freePlace (q.child n) = .ok l) :
    ∃ dir, l = n :: dir ∧ (q.child n).isTooLong = false ∧
      fs.walk .follow q = .ok (.occupied dir .directory) ∧ n ≠ Name.up ∧ n.isTooLong = false ∧
      fs.get? (n :: dir) = none := by
  rw [freePlace_child] at h
  split at h
  · cases h
  rename_i hlong
  split at h
  · cases h
  · cases h
  · rename_i dir hq
    split at h
    · cases h
    rename_i hup
    split at h
    · cases h
    rename_i hname
    split at h
    · cases h
    · rename_i hfree
      cases h
      exact ⟨dir, rfl, by simpa using hlong, hq, hup, by simpa using hname, hfree⟩
  · cases h

theorem trail_enter (links : Nat) (hdir : fs.get? dir = some .directory) (hup : n ≠ Name.up)
    (hlong : n.isTooLong = false) :
    (fs.get? (n :: dir) = none → fs.trail links dir [Move.ofName n] = .ok (.free dir n, links)) ∧
      (fs.get? (n :: dir) = some .directory →
        fs.trail links dir [Move.ofName n] = .ok (.occupied (n :: dir) .directory, links)) := by
  rw [trail.eq_def, Move.ofName, if_neg hup]
  constructor <;> intro hn <;> simp [FileSystem.glide, hdir, hlong, hn]

theorem walk_put_freePlace (h : fs.freePlace p = .ok l) :
    (fs.put l .directory).walk .follow p = .ok (.occupied l .directory) := by
  rcases p.parts_eq_nil_or_child with hnil | ⟨q, n, rfl⟩
  · exact absurd h (freePlace_of_parts_eq_nil hnil l).1
  · obtain ⟨dir, rfl, hlong, hq, hup, hname, hfree⟩ := freePlace_eq_ok h
    have hgrows := Grows.put_directory hfree
    have hdir := hgrows.directory dir (get?_of_walk hq)
    obtain ⟨node, -, hq'⟩ := hgrows.walk_occupied hq
    obtain ⟨left, hw⟩ := walk_child hlong hq'
    rw [hw, (trail_enter left hdir hup hname).2 (get?_put_self (ne_nil_of_get?_none hfree))]
    rfl

theorem freePlace_of_walk (h : fs.walk .follow p = .ok (.occupied k .directory)) :
    fs.freePlace p ≠ .ok l ∧ fs.freePlace p ≠ .error .notFound := by
  rcases p.parts_eq_nil_or_child with hnil | ⟨q, n, rfl⟩
  · exact freePlace_of_parts_eq_nil hnil l
  · constructor
    · intro hfree
      obtain ⟨dir, rfl, hlong, hq, hup, hname, hfree⟩ := freePlace_eq_ok hfree
      obtain ⟨left, hw⟩ := walk_child hlong hq
      rw [hw, (trail_enter left (get?_of_walk hq) hup hname).1 hfree] at h
      cases h
    · rw [freePlace_child]
      by_cases hlong : q.isTooLong = true
      · have hq : fs.walk .follow q = .error .nameTooLong := by rw [FileSystem.walk, if_pos hlong]
        rw [hq]
        split <;> simp
      · obtain ⟨dir, hq⟩ := walk_of_walk_child (by simpa using hlong) h
        rw [hq]
        simp only
        repeat' split
        all_goals simp

theorem makeDirectory_of_isDirectory (h : fs.isDirectory p = .ok true) :
    fs.makeDirectory p = .done fs := by
  obtain ⟨hnull, l, hw⟩ := isDirectory_eq_true.1 h
  have hfree := fun k ↦ freePlace_of_walk (l := k) hw
  rw [makeDirectory, hnull]
  rcases hf : fs.freePlace p with e | k
  · cases e <;> simp [h]
    exact (hfree []).2 hf
  · exact absurd hf (hfree k).1

theorem makeDirectory_eq_done (h : fs.makeDirectory p = .done fs') :
    AddsDirectories fs fs' ∧ fs'.isDirectory p = .ok true := by
  unfold makeDirectory at h
  split at h
  · cases h
  rename_i hnull
  split at h
  · rename_i l hl
    cases h
    refine ⟨AddsDirectories.put ?_,
      isDirectory_eq_true.2 ⟨by simpa using hnull, l, walk_put_freePlace hl⟩⟩
    rcases p.parts_eq_nil_or_child with hnil | ⟨q, n, rfl⟩
    · exact absurd hl (freePlace_of_parts_eq_nil hnil l).1
    · obtain ⟨dir, rfl, -, -, -, -, hfree⟩ := freePlace_eq_ok hl
      exact hfree
  · cases h
  · split at h
    · cases h
    · rename_i hdir
      cases h
      exact ⟨AddsDirectories.refl fs, hdir⟩
    · cases h

theorem makeDirectoriesAt_adds (fs : FileSystem) (a : Anchor) (ns : List Name) :
    AddsDirectories fs (fs.makeDirectoriesAt a ns).1 := by
  induction ns with
  | nil =>
    unfold makeDirectoriesAt
    split
    · exact (makeDirectory_eq_done ‹_›).1
    · exact AddsDirectories.refl fs
    · exact AddsDirectories.refl fs
  | cons n up ih =>
    unfold makeDirectoriesAt
    simp only
    split
    · exact (makeDirectory_eq_done ‹_›).1
    · exact AddsDirectories.refl fs
    · split
      · rename_i hup
        rwa [hup] at ih
      · rename_i fs₁ hup
        rw [hup] at ih
        split
        · exact ih.trans (makeDirectory_eq_done ‹_›).1
        · exact ih
        · exact ih

theorem makeDirectories_adds (fs : FileSystem) (p : Path) :
    AddsDirectories fs (fs.makeDirectories p).1 :=
  fs.makeDirectoriesAt_adds _ _

theorem isDirectory_of_makeDirectories (h : fs.makeDirectories p = (fs', .ok ())) :
    fs'.isDirectory p = .ok true := by
  unfold makeDirectories at h
  have hp : p = ⟨p.anchor, p.parts.reverse.reverse⟩ := by rw [List.reverse_reverse]
  cases hns : p.parts.reverse with
  | nil =>
    rw [hns] at h hp
    unfold makeDirectoriesAt at h
    split at h
    · rename_i hdone
      cases h
      exact hp ▸ (makeDirectory_eq_done hdone).2
    · cases h
    · cases h
  | cons n up =>
    rw [hns] at h hp
    unfold makeDirectoriesAt at h
    simp only [← hp] at h
    split at h
    · rename_i hdone
      cases h
      exact (makeDirectory_eq_done hdone).2
    · cases h
    · split at h
      · cases h
      · split at h
        · rename_i hdone
          cases h
          exact (makeDirectory_eq_done hdone).2
        · cases h
        · cases h

theorem makeDirectories_of_isDirectory (h : fs.isDirectory p = .ok true) :
    fs.makeDirectories p = (fs, .ok ()) := by
  have hdone := makeDirectory_of_isDirectory h
  have hp : p = ⟨p.anchor, p.parts.reverse.reverse⟩ := by rw [List.reverse_reverse]
  rw [makeDirectories]
  cases hns : p.parts.reverse with
  | nil =>
    rw [hns] at hp
    rw [hp] at hdone
    rw [makeDirectoriesAt]
    simp only [List.reverse_nil] at hdone
    rw [hdone]
  | cons n up =>
    rw [hns] at hp
    rw [makeDirectoriesAt]
    simp only [← hp, hdone]

end FileSystem

end GameLauncher
