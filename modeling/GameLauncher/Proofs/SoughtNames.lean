import GameLauncher.Proofs.JoinedPaths
import GameLauncher.Proofs.OverlongPaths

namespace GameLauncher

namespace Path

variable {p : Path} {n m : Name}

theorem length_le_joinNames (ns : List Name) : ns.length ≤ (joinNames ns).utf8ByteSize := by
  have hpos : ∀ n : Name, n.text.utf8ByteSize ≠ 0 := fun n h ↦
    n.valid.1 (String.utf8ByteSize_eq_zero_iff.1 h)
  induction ns with
  | nil => simp
  | cons n r ih =>
    have hn := hpos n
    cases r with
    | nil =>
      simp only [joinNames, List.length_cons, List.length_nil]
      omega
    | cons m r =>
      simp only [joinNames, String.utf8ByteSize_append, List.length_cons] at ih ⊢
      omega

theorem isTooLong_of_length (h : maxBytes < p.parts.length) : p.isTooLong = true := by
  obtain ⟨a, ns⟩ := p
  have hlength := length_le_joinNames ns
  have htext : (joinNames ns).utf8ByteSize ≤ (Path.text ⟨a, ns⟩).utf8ByteSize := by
    unfold text
    split
    · rename_i heq
      cases heq
      cases h
    · rename_i heq
      cases heq
      rw [String.utf8ByteSize_append]
      omega
  simp only [isTooLong, decide_eq_true_iff]
  simp only at h
  omega

def deep : Path := ⟨.here, List.replicate maxBytes (Name.repeated 0)⟩

theorem isTooLong_deep_child (n : Name) : (deep.child n).isTooLong = true := by
  apply isTooLong_of_length
  simp [child, deep]

theorem eq_of_mem_deep_child (h : m ∈ (deep.child n).parts) : m = Name.repeated 0 ∨ m = n := by
  rcases List.mem_append.1 h with hdeep | hlast
  · exact .inl (List.eq_of_mem_replicate hdeep)
  · exact .inr (List.mem_singleton.1 hlast)

end Path

namespace FileSystem

variable {fs : FileSystem} {aim : Aim} {l dir : Location} {n : Name} {ms rest : List Move}
  {target : String} {links : Nat} {p : Path}

def originOf (dir : Location) (target : String) : Location :=
  match Path.anchorOf target.toList with
  | .here => dir
  | _ => []

/-- A walk along moves looks for a name, in a directory that it gets to before or behind the links
that it follows. -/
inductive SeeksFrom (fs : FileSystem) (n : Name) : Location → List Move → Prop
  | name {l dir : Location} {before after : List Move} :
      fs.glide .follow l before = .reached dir .directory →
        SeeksFrom fs n l (before ++ .enter n :: after)
  | link {l dir : Location} {ms rest : List Move} {target : String} :
      fs.glide .follow l ms = .detour dir target rest →
        SeeksFrom fs n (originOf dir target) (Move.ofTarget target ++ rest) → SeeksFrom fs n l ms

def Seeks (fs : FileSystem) (p : Path) (n : Name) : Prop :=
  fs.SeeksFrom n (fs.startOf p) (p.parts.map Move.ofName)

/-- From a directory a move leads on, or it is to a name that is too long or where the walk ends in
another way. -/
theorem glide_cons_cases (hl : fs.get? l = some .directory) (m : Move) :
    (∃ k, ∀ ms, fs.glide .follow l (m :: ms) = fs.glide .follow k ms) ∨
      (∃ n, m = .enter n ∧ n.isTooLong = true) ∨
      ∀ ms, fs.glide .follow l (m :: ms) ≠ .refused .nameTooLong := by
  cases m with
  | stay | slash => exact .inl ⟨l, fun ms ↦ by simp only [glide, hl]⟩
  | up => exact .inl ⟨l.tail, fun ms ↦ by simp only [glide, hl]⟩
  | enter n =>
    cases hn : n.isTooLong with
    | true => exact .inr (.inl ⟨n, rfl, hn⟩)
    | false =>
      cases hnode : fs.get? (n :: l) with
      | none =>
        refine .inr (.inr fun ms ↦ ?_)
        cases ms <;> simp [glide, hl, hn, hnode]
      | some node => cases node with
        | link t => exact .inr (.inr fun ms ↦ by simp [glide, hl, hn, hnode])
        | file c => exact .inl ⟨n :: l, fun ms ↦ by simp [glide, hl, hn, hnode]⟩
        | directory => exact .inl ⟨n :: l, fun ms ↦ by simp [glide, hl, hn, hnode]⟩

theorem glide_eq_nameTooLong (h : fs.glide .follow l ms = .refused .nameTooLong) :
    ∃ before n after dir, ms = before ++ .enter n :: after ∧
      fs.glide .follow l before = .reached dir .directory ∧ n.isTooLong = true := by
  induction ms generalizing l with
  | nil =>
    rw [glide] at h
    split at h <;> cases h
  | cons m ms ih =>
    cases hl : fs.get? l with
    | none =>
      rw [glide_none hl] at h
      cases h
    | some node => cases node with
      | file c =>
        rw [glide_file hl] at h
        cases h
      | link t =>
        rw [glide_link hl] at h
        cases h
      | directory =>
        obtain ⟨k, hk⟩ | ⟨n, rfl, hn⟩ | hend := glide_cons_cases hl m
        · rw [hk] at h
          obtain ⟨before, n, after, dir, rfl, hbefore, hn⟩ := ih h
          exact ⟨m :: before, n, after, dir, rfl, (hk before).trans hbefore, hn⟩
        · refine ⟨[], n, ms, l, rfl, ?_, hn⟩
          simp only [glide, hl]
        · exact absurd h (hend ms)

theorem seeksFrom_of_walkFrom {links : Nat} {l : Location} {ms : List Move}
    (h : fs.walkFrom .follow links l ms = .error .nameTooLong) :
    ∃ n, fs.SeeksFrom n l ms ∧ n.isTooLong = true := by
  rw [walkFrom.eq_def] at h
  cases hs : fs.glide .follow l ms <;> simp only [hs] at h
  case reached | missing => cases h
  case refused e =>
    cases h
    obtain ⟨before, n, after, dir, rfl, hbefore, hn⟩ := glide_eq_nameTooLong hs
    exact ⟨n, .name hbefore, hn⟩
  case detour dir target rest =>
    cases links with
    | zero => cases h
    | succ links =>
      simp only at h
      obtain ⟨n, hn, hlong⟩ := seeksFrom_of_walkFrom h
      exact ⟨n, .link hs hn, hlong⟩

/-- A look at a path fails only if the path is too long or a name that it has to do with is. -/
theorem Overruns.cause (h : fs.Overruns p) :
    p.isTooLong = true ∨ ∃ n, fs.Seeks p n ∧ n.isTooLong = true := by
  obtain ⟨-, hwalk⟩ := h
  cases hlong : p.isTooLong with
  | true => exact .inl rfl
  | false =>
    rw [walk, hlong] at hwalk
    exact .inr (seeksFrom_of_walkFrom hwalk)

theorem overruns_iff_of_short (h : ∀ n, fs.Seeks p n → n.isTooLong = false) :
    fs.Overruns p ↔ p.hasNull = false ∧ p.isTooLong = true := by
  constructor
  · intro hlong
    refine ⟨hlong.1, ?_⟩
    obtain hp | ⟨n, hn, hname⟩ := hlong.cause
    · exact hp
    · rw [h n hn] at hname
      cases hname
  · rintro ⟨hnull, hlong⟩
    exact ⟨hnull, by simp only [walk, hlong, if_true]⟩

theorem detour_of_glide (h : fs.glide .follow l ms = .detour dir target rest) :
    (∃ k, fs.get? k = some (.link target)) ∧ rest ⊆ ms := by
  fun_induction glide fs .follow l ms <;> simp_all
  exact ⟨_, ‹_›⟩

theorem overruns_deep (fs : FileSystem) (hn : n.hasNull = false) :
    fs.Overruns (Path.deep.child n) := by
  have hnull : (Path.deep.child n).hasNull = false := by
    rw [Path.hasNull, List.any_eq_false]
    intro m hm
    rcases Path.eq_of_mem_deep_child hm with rfl | rfl
    · simp [Name.hasNull_repeated]
    · simp [hn]
  refine ⟨hnull, ?_⟩
  simp only [walk, Path.isTooLong_deep_child, if_true]

theorem mem_or_linked_of_seeks (h : fs.Seeks p n) :
    n ∈ p.parts ∨ ∃ l target, fs.get? l = some (.link target) ∧ n ∈ Path.names target.toList := by
  have hmoves : ∀ {l ms}, fs.SeeksFrom n l ms → .enter n ∈ ms ∨
      ∃ l target, fs.get? l = some (.link target) ∧ .enter n ∈ Move.ofTarget target := by
    intro l ms hn
    induction hn with
    | name _ => simp
    | link hs _ ih =>
      obtain ⟨⟨k, hk⟩, hrest⟩ := detour_of_glide hs
      rcases ih with hmem | hlinked
      · rcases List.mem_append.1 hmem with hmem | hmem
        · exact .inr ⟨k, _, hk, hmem⟩
        · exact .inl (hrest hmem)
      · exact .inr hlinked
  have hname : ∀ {m : Name}, Move.ofName m = .enter n → m = n := by
    intro m hm
    unfold Move.ofName at hm
    split at hm <;> cases hm
    rfl
  rcases hmoves h with hmem | ⟨l, target, hl, hmem⟩
  · obtain ⟨m, hm, hmn⟩ := List.mem_map.1 hmem
    exact .inl (hname hmn ▸ hm)
  · obtain ⟨piece, hpiece, hmove⟩ := List.mem_map.1 hmem
    refine .inr ⟨l, target, hl, List.mem_filterMap.2 ⟨piece, hpiece, ?_⟩⟩
    unfold Move.ofPiece at hmove
    split at hmove
    · cases hmove
    · cases hof : Name.of? (String.ofList piece) with
      | none => simp [hof] at hmove
      | some m =>
        rw [hof, Option.map_some, Option.getD_some] at hmove
        rw [hname hmove]

end FileSystem

end GameLauncher
