import GameLauncher.Proofs.FoundPaths
import GameLauncher.Proofs.SystemFailures

namespace GameLauncher

theorem map_eq_error {α β : Type} {r : Except Failure α} {g : α → β} {f : Failure} :
    r.map g = .error f ↔ r = .error f := by
  constructor
  · exact error_of_map
  · rintro rfl
    rfl

namespace Name

variable {n m : Name} {k : Nat}

theorem text_inj : n.text = m.text ↔ n = m := by
  obtain ⟨s, hs⟩ := n
  obtain ⟨t, ht⟩ := m
  simp

theorem ne_up_of_isTooLong (h : n.isTooLong = true) : n ≠ up := by
  rintro rfl
  exact absurd h (by decide)

def repeated (k : Nat) : Name where
  text := String.ofList (List.replicate (k + 1) 'n')
  valid := by simp [← String.toList_inj, List.replicate_succ]

theorem utf8ByteSize_repeated (k : Nat) : (repeated k).text.utf8ByteSize = k + 1 := by
  induction k with
  | zero => rfl
  | succ k ih =>
    have hcons : (repeated (k + 1)).text = "n" ++ (repeated k).text := by
      simp [repeated, List.replicate_succ (n := k + 1)]
    rw [hcons, String.utf8ByteSize_append, ih]
    exact Nat.add_comm 1 (k + 1)

theorem isTooLong_repeated (h : maxBytes ≤ k) : (repeated k).isTooLong = true := by
  rw [isTooLong, utf8ByteSize_repeated, decide_eq_true_iff]
  omega

theorem hasNull_repeated (k : Nat) : (repeated k).hasNull = false := by
  simp [hasNull, repeated]

end Name

theorem Path.ofString_name (n : Name) : Path.ofString n.text = ⟨.here, [n]⟩ := by
  have htext : Path.text ⟨.here, [n]⟩ = n.text := by
    simp [Path.text, anchorText, joinNames]
  rw [← htext, ofString_text]

theorem Path.anchorOf_text (n : Name) : anchorOf n.text.toList = .here := by
  have hslash := n.valid.2.2
  unfold anchorOf
  split <;> simp_all

theorem Move.ofTarget_text (n : Name) : ofTarget n.text = [ofName n] := by
  have hne : n.text.toList ≠ [] := fun h ↦ n.valid.1 (String.toList_eq_nil_iff.1 h)
  simp [ofTarget, Path.pieces_of_notMem n.valid.2.2, ofPiece, hne, Name.of?_text]

def Failure.overlong (p : Path) : Failure := .system .nameTooLong p.text

namespace FileSystem

variable {fs : FileSystem} {p : Path} {f : Failure} {n : Name}

/-- A path whose walk comes upon a name that is too long to exist, or that is too long itself. -/
def Overruns (fs : FileSystem) (p : Path) : Prop :=
  p.hasNull = false ∧ fs.walk .follow p = .error .nameTooLong

theorem status_eq_error : fs.status p = .error f ↔ fs.Overruns p ∧ f = .overlong p := by
  unfold status Overruns Failure.overlong
  split
  · simp_all
  · rename_i hnull
    rcases hw : fs.walk .follow p with e | ⟨l, node⟩ | ⟨dir, n⟩
    · cases e <;> simp [hnull, @eq_comm _ f]
    · simp
    · simp

theorem exists?_eq_error : fs.exists? p = .error f ↔ fs.Overruns p ∧ f = .overlong p := by
  rw [exists?, map_eq_error, status_eq_error]

theorem isDirectory_eq_error :
    fs.isDirectory p = .error f ↔ fs.Overruns p ∧ f = .overlong p := by
  rw [isDirectory, map_eq_error, status_eq_error]

theorem isFile_eq_error : fs.isFile p = .error f ↔ fs.Overruns p ∧ f = .overlong p := by
  rw [isFile, map_eq_error, status_eq_error]

theorem overruns_of_isTooLong {ns : List Name} (hnull : p.hasNull = false)
    (hparts : p.parts = n :: ns) (hlong : n.isTooLong = true)
    (hstart : fs.get? (fs.startOf p) = some .directory) : fs.Overruns p := by
  refine ⟨hnull, ?_⟩
  have hmove : Move.ofName n = .enter n := if_neg (Name.ne_up_of_isTooLong hlong)
  have hglide : fs.glide .follow (fs.startOf p) (.enter n :: ns.map Move.ofName) =
      .refused .nameTooLong := by
    simp [glide, hstart, hlong]
  rw [walk, hparts, List.map_cons, hmove]
  split
  · rfl
  · rw [maxLinks, walkFrom, hglide]

theorem overruns_repeated {k : Nat} (h : Name.maxBytes ≤ k)
    (hdir : fs.get? fs.workingDir = some .directory) :
    fs.Overruns (.ofString (Name.repeated k).text) := by
  rw [Path.ofString_name]
  apply overruns_of_isTooLong
  · simp [Path.hasNull, Name.hasNull_repeated]
  · rfl
  · exact Name.isTooLong_repeated h
  · exact hdir

theorem walkFrom_of_longLink {l dir : Location} {ms : List Move} {links : Nat}
    (hlink : fs.glide .follow l ms = .detour dir n.text [])
    (hdir : fs.get? dir = some .directory) (hlong : n.isTooLong = true) :
    fs.walkFrom .follow (links + 1) l ms = .error .nameTooLong := by
  have hmove : Move.ofName n = .enter n := if_neg (Name.ne_up_of_isTooLong hlong)
  have hname : fs.glide .follow dir [.enter n] = .refused .nameTooLong := by
    simp [glide, hdir, hlong]
  rw [walkFrom, hlink]
  simp only [Path.anchorOf_text, Move.ofTarget_text, List.append_nil, hmove]
  rw [walkFrom, hname]

end FileSystem

end GameLauncher
