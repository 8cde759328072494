import GameLauncher.Proofs.FoundPaths
import GameLauncher.Proofs.WalkParts

namespace GameLauncher

namespace Path

variable {p : Path} {n : Name}

/-- A path read from another directory than the working directory. An absolute one stays itself. -/
def join (base p : Path) : Path :=
  match p.anchor with
  | .here => ⟨base.anchor, base.parts ++ p.parts⟩
  | _ => p

theorem utf8ByteSize_joinNames_le (ns : List Name) (n : Name) :
    (joinNames ns).utf8ByteSize ≤ (joinNames (ns ++ [n])).utf8ByteSize := by
  induction ns with
  | nil => simp [joinNames]
  | cons m r ih =>
    cases r with
    | nil =>
      simp only [joinNames, List.cons_append, List.nil_append, String.utf8ByteSize_append]
      omega
    | cons k r =>
      simp only [List.cons_append, joinNames, String.utf8ByteSize_append] at ih ⊢
      omega

theorem text_child (a : Anchor) (ns : List Name) (n : Name) :
    (Path.child ⟨a, ns⟩ n).text = anchorText a ++ joinNames (ns ++ [n]) := by
  cases ns <;> cases a <;> rfl

theorem utf8ByteSize_text_le (p : Path) (n : Name) :
    p.text.utf8ByteSize ≤ (p.child n).text.utf8ByteSize := by
  obtain ⟨a, ns⟩ := p
  have hnames := utf8ByteSize_joinNames_le ns n
  rw [text_child, String.utf8ByteSize_append]
  unfold text
  split
  · rename_i heq
    cases heq
    have hn : n.text.utf8ByteSize ≠ 0 := fun h ↦ n.valid.1 (String.utf8ByteSize_eq_zero_iff.1 h)
    have hdot : ".".utf8ByteSize = 1 := rfl
    simp only [List.nil_append, joinNames]
    omega
  · rename_i heq
    cases heq
    rw [String.utf8ByteSize_append]
    omega

theorem isTooLong_of_child (h : (p.child n).isTooLong = false) : p.isTooLong = false := by
  have hle := utf8ByteSize_text_le p n
  simp only [isTooLong, decide_eq_false_iff_not] at h ⊢
  omega

theorem hasNull_child (h : p.hasNull = true) (n : Name) : (p.child n).hasNull = true := by
  simp only [hasNull, child, List.any_append, Bool.or_eq_true] at h ⊢
  exact .inl h

end Path

namespace FileSystem

variable {fs fs' : FileSystem} {l k : Location} {p folder : Path} {ms rest : List Move}
  {node : Node} {n : Name} {links left : Nat}

/-- Whether the parts of a path lead to a place when they are read from where a folder leads, with
as many links to follow as the way to the folder leaves. -/
def LeadsFrom (fs : FileSystem) (folder p : Path) (l : Location) : Prop :=
  ∃ k node left node' left',
    fs.trail maxLinks (fs.startOf folder) (folder.parts.map Move.ofName) =
      .ok (.occupied k node, left) ∧
    fs.trail left k (p.parts.map Move.ofName) = .ok (.occupied l node', left')

theorem trail_append_of_occupied (h : fs.trail links l ms = .ok (.occupied k node, left))
    (rest : List Move) : fs.trail links l (ms ++ rest) = fs.trail left k rest := by
  by_cases hrest : rest = []
  · have hk : fs.get? k = some node := by
      refine get?_of_walkFrom (?_ : fs.walkFrom .follow links l ms = _)
      rw [walkFrom_follow, h, Except.map]
    rw [hrest, List.append_nil, h, trail.eq_def]
    simp only [FileSystem.glide, hk]
  · rw [trail_append hrest, h, resume]

theorem walk_eq_occupied (hlong : p.isTooLong = false) :
    (∃ node, fs.walk .follow p = .ok (.occupied l node)) ↔
      ∃ node left, fs.trail maxLinks (fs.startOf p) (p.parts.map Move.ofName) =
        .ok (.occupied l node, left) := by
  rw [trail_follow hlong]
  rcases fs.trail maxLinks (fs.startOf p) (p.parts.map Move.ofName) with e | ⟨place, left⟩
  · simp [Except.map]
  · simp [Except.map]

theorem isTooLong_of_walk {place : Place} (h : fs.walk .follow p = .ok place) :
    p.isTooLong = false := by
  unfold FileSystem.walk at h
  split at h
  · cases h
  · rename_i hlong
    simpa using hlong

theorem names_join_of_relative (hfolder : fs.Names folder k) (hp : p.hasNull = false)
    (hhere : p.anchor = .here) :
    fs.Names (folder.join p) l ↔ (folder.join p).isTooLong = false ∧ fs.LeadsFrom folder p l := by
  obtain ⟨hfolderNull, node, hwalk⟩ := hfolder
  obtain ⟨node, left, htrail⟩ := (walk_eq_occupied (isTooLong_of_walk hwalk)).1 ⟨node, hwalk⟩
  have hjoin : folder.join p = ⟨folder.anchor, folder.parts ++ p.parts⟩ := by rw [Path.join, hhere]
  have hnull : (folder.join p).hasNull = false := by
    rw [hjoin]
    simp only [Path.hasNull, List.any_append, Bool.or_eq_false_iff] at hfolderNull hp ⊢
    exact ⟨hfolderNull, hp⟩
  -- The links that were followed on the way to the folder are not given back.
  have hparts :
      fs.trail maxLinks (fs.startOf (folder.join p)) ((folder.join p).parts.map Move.ofName) =
        fs.trail left k (p.parts.map Move.ofName) := by
    rw [hjoin, List.map_append, ← trail_append_of_occupied htrail]
    rfl
  constructor
  · rintro ⟨-, node', hwalk'⟩
    have hlong := isTooLong_of_walk hwalk'
    obtain ⟨node', left', htrail'⟩ := (walk_eq_occupied hlong).1 ⟨node', hwalk'⟩
    exact ⟨hlong, k, node, left, node', left', htrail, hparts ▸ htrail'⟩
  · rintro ⟨hlong, k', node', left', node'', left'', hfolder', hrest⟩
    rw [htrail] at hfolder'
    cases hfolder'
    exact ⟨hnull, (walk_eq_occupied hlong).2 ⟨node'', left'', hparts.trans hrest⟩⟩

/-- A path names the same from another directory exactly if it is absolute or leads there. -/
theorem names_join_iff (hfolder : fs.Names folder k) (hp : fs.Names p l) :
    fs.Names (folder.join p) l ↔
      p.anchor ≠ .here ∨ (folder.join p).isTooLong = false ∧ fs.LeadsFrom folder p l := by
  by_cases hhere : p.anchor = .here
  · rw [names_join_of_relative hfolder hp.1 hhere]
    simp [hhere]
  · have hjoin : folder.join p = p := by
      unfold Path.join
      split
      · exact absurd ‹_› hhere
      · rfl
    rw [hjoin]
    simp [hhere, hp]

theorem isDirectory_of_names_child (h : fs.Names (p.child n) l) : fs.isDirectory p = .ok true := by
  obtain ⟨hnull, node, hwalk⟩ := h
  have hshort := Path.isTooLong_of_child (isTooLong_of_walk hwalk)
  refine isDirectory_eq_true.2 ⟨?_, walk_of_walk_child hshort hwalk⟩
  simp only [Path.hasNull, Path.child, List.any_append, Bool.or_eq_false_iff] at hnull ⊢
  exact hnull.1

theorem names_of_child (h : fs.Names (p.child n) l) : ∃ k, fs.Names p k :=
  names_of_isDirectory (isDirectory_of_names_child h)

end FileSystem

end GameLauncher
