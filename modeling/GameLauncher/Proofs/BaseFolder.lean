import GameLauncher.Proofs.GameExecutable
import GameLauncher.Proofs.LinkLead
import GameLauncher.Proofs.SoughtNames

namespace GameLauncher

namespace Path

variable {p : Path} {n m : Name}

theorem exists_joinNames_concat (ns : List Name) :
    ∃ s, ∀ n : Name, joinNames (ns ++ [n]) = s ++ n.text := by
  induction ns with
  | nil => exact ⟨"", fun n ↦ by simp [joinNames]⟩
  | cons m r ih =>
    obtain ⟨s, hs⟩ := ih
    refine ⟨m.text ++ "/" ++ s, fun n ↦ ?_⟩
    have hcons : joinNames (m :: (r ++ [n])) = m.text ++ "/" ++ joinNames (r ++ [n]) := by
      cases r <;> rfl
    simp only [List.cons_append, hcons, hs, String.append_assoc]

theorem isTooLong_of_shorter (hle : n.text.utf8ByteSize ≤ m.text.utf8ByteSize)
    (h : (p.child m).isTooLong = false) : (p.child n).isTooLong = false := by
  obtain ⟨a, ns⟩ := p
  obtain ⟨s, hs⟩ := exists_joinNames_concat ns
  simp only [isTooLong, text_child, hs, String.utf8ByteSize_append, decide_eq_false_iff_not]
    at h ⊢
  omega

theorem eq_child_of_name_ne_empty (h : p.name ≠ "") :
    ∃ n, p = p.parent.child n ∧ n.text = p.name := by
  rcases p.parts_eq_nil_or_child with hnil | ⟨q, n, rfl⟩
  · simp [name, hnil] at h
  · exact ⟨n, by simp⟩

end Path

namespace Library

variable {fs : FileSystem} {e : Path} {n : Name} {name base : String}

def beforeHyphen (name : String) : String :=
  String.ofList ((name.toList.reverse.dropWhile (· ≠ '-')).drop 1).reverse

theorem NamesAddOn.beforeHyphen_eq (h : NamesAddOn name base) : beforeHyphen name = base := by
  obtain ⟨suffix, hsuffix, rfl⟩ := h
  obtain ⟨word, hword, hno⟩ : ∃ word, suffix.toList = '-' :: word ∧ '-' ∉ word := by
    simp only [addOnSuffixes, List.mem_cons, List.not_mem_nil, or_false] at hsuffix
    rcases hsuffix with rfl | rfl
    · exact ⟨['U', 'P', 'D', 'A', 'T', 'E'], rfl, by decide⟩
    · exact ⟨['p', 'a', 't', 'c', 'h'], rfl, by decide⟩
  have hword' : ∀ c ∈ word.reverse, decide (c ≠ '-') = true := by
    intro c hc
    apply decide_eq_true
    rintro rfl
    exact hno (List.mem_reverse.1 hc)
  rw [beforeHyphen, String.toList_append, hword, List.reverse_append, List.reverse_cons,
    List.append_assoc, List.dropWhile_append_of_pos hword']
  simp

theorem NamesAddOn.utf8ByteSize_le (h : NamesAddOn name base) :
    base.utf8ByteSize ≤ name.utf8ByteSize := by
  obtain ⟨suffix, -, rfl⟩ := h
  rw [String.utf8ByteSize_append]
  exact Nat.le_add_right _ _

theorem NamesAddOn.name_ne_empty (h : NamesAddOn name base) : name ≠ "" := by
  obtain ⟨suffix, hsuffix, rfl⟩ := h
  intro hempty
  rw [String.append_eq_empty_iff] at hempty
  rw [hempty.2] at hsuffix
  exact absurd hsuffix (by decide)

theorem NamesAddOn.exists_name (h : NamesAddOn e.parent.name base) (hempty : base ≠ "")
    (hdot : base ≠ ".") : ∃ n : Name, n.text = base :=
  ⟨⟨base, hempty, hdot, h.slash_notMem⟩, rfl⟩

theorem resolveFolder_of_addOn (fs : FileSystem) (h : NamesAddOn e.parent.name n.text) :
    resolveFolder fs e none = (fs.isDirectory (e.parent.withName n)).map fun isDir ↦
      if isDir then e.parent.withName n else e.parent := by
  simp [resolveFolder, baseName?_eq_some.2 h, n.valid.1, Name.of?_text]

theorem namesAddOn_iff :
    NamesAddOn name base ↔ name = base ++ "-UPDATE" ∨ name = base ++ "-patch" := by
  simp [NamesAddOn, addOnSuffixes]

theorem resolveFolder_of_plain (h : ∀ base, NamesAddOn e.parent.name base → base = "") :
    resolveFolder fs e none = .ok e.parent := by
  cases hbase : baseName? e.parent.name with
  | none => simp [resolveFolder, hbase]
  | some base =>
    obtain rfl := h base (baseName?_eq_some.1 hbase)
    simp [resolveFolder, hbase]

theorem isTooLong_withName (h : NamesAddOn e.parent.name n.text) (he : fs.exists? e = .ok true) :
    (e.parent.withName n).isTooLong = false := by
  obtain ⟨l, -, node, hwalk⟩ := FileSystem.exists?_eq_true.1 he
  have hshort := FileSystem.isTooLong_of_walk hwalk
  obtain ⟨m, hfolder, hm⟩ := Path.eq_child_of_name_ne_empty h.name_ne_empty
  have hparent : e.parent.isTooLong = false := by
    rcases e.parts_eq_nil_or_child with hnil | ⟨q, k, rfl⟩
    · refine absurd ?_ h.name_ne_empty
      simp [Path.parent, Path.name, hnil]
    · rw [Path.parent_child]
      exact Path.isTooLong_of_child hshort
  have hle := h.utf8ByteSize_le
  rw [← hm] at hle
  rw [hfolder] at hparent
  exact Path.isTooLong_of_shorter hle hparent

/-- A game is started in the folder of its executable, or in place of an update's or a patch's in
the base game's, which has its name up to the last hyphen, if it is there. With no name on the way
too long, a look at that folder fails exactly if its path is too long, which it is not if the
executable is there. -/
theorem resolveFolder_base_iff (fs : FileSystem) (e : Path) :
    let folder := e.parent
    (∀ override, resolveFolder fs e (some override) = .ok override) ∧
    ((∀ base, folder.name = base ++ "-UPDATE" ∨ folder.name = base ++ "-patch" → base = "") →
      resolveFolder fs e none = .ok folder) ∧
    ∀ base, folder.name = base ++ "-UPDATE" ∨ folder.name = base ++ "-patch" →
      base ≠ "" → base ≠ "." → beforeHyphen folder.name = base ∧ ∃ n : Name, n.text = base ∧
        let beside := folder.parent.child n
        (fs.exists? e = .ok true → beside.isTooLong = false) ∧
        ((∀ m, fs.Seeks beside m → m.isTooLong = false) →
          (fs.isDirectory beside = .ok true → resolveFolder fs e none = .ok beside) ∧
          (fs.isDirectory beside ≠ .ok true → (beside.isTooLong = true → beside.hasNull = true) →
            resolveFolder fs e none = .ok folder) ∧
          ∀ f, resolveFolder fs e none = .error f ↔
            beside.hasNull = false ∧ beside.isTooLong = true ∧ f = .overlong beside) := by
  intro folder
  simp only [← namesAddOn_iff]
  refine ⟨fun override ↦ rfl, resolveFolder_of_plain, ?_⟩
  intro base hbase hempty hdot
  obtain ⟨n, rfl⟩ := hbase.exists_name hempty hdot
  refine ⟨hbase.beforeHyphen_eq, n, rfl, isTooLong_withName hbase, ?_⟩
  intro hshort
  have hlong := FileSystem.overruns_iff_of_short hshort
  have hlook := resolveFolder_of_addOn fs hbase
  refine ⟨?_, ?_, ?_⟩
  · intro hdir
    rw [hlook, Path.withName, hdir]
    rfl
  · intro hdir hnull
    cases hlooked : fs.isDirectory (folder.parent.child n) with
    | error f =>
      obtain ⟨hnone, htext⟩ := hlong.1 (FileSystem.isDirectory_eq_error.1 hlooked).1
      rw [hnull htext] at hnone
      cases hnone
    | ok isDir =>
      cases isDir with
      | true => exact absurd hlooked hdir
      | false =>
        rw [hlook, Path.withName, hlooked]
        rfl
  · intro f
    rw [hlook, map_eq_error, FileSystem.isDirectory_eq_error, Path.withName, hlong, and_assoc]

def treeWithPatches : FileSystem :=
  ["a/My-Game/eboot.bin", "a/My-Game-patch/eboot.bin", "a/My-Game-patch-UPDATE/eboot.bin"].foldl
    (fun fs text ↦ fs.withFile text []) (.bare [])

theorem hasNoLink_treeWithPatches : treeWithPatches.HasNoLink := by
  have hgame := (FileSystem.hasNoLink_bare []).withFile "a/My-Game/eboot.bin" [] (by decide)
  have hpatch := hgame.withFile "a/My-Game-patch/eboot.bin" [] (by decide)
  exact hpatch.withFile "a/My-Game-patch-UPDATE/eboot.bin" [] (by decide)

/-- Of two endings only the last one is taken off. -/
theorem resolveFolder_base_iff_update :
    resolveFolder treeWithPatches (.ofString "a/My-Game-patch-UPDATE/eboot.bin") none =
      .ok (.ofString "a/My-Game-patch") := by
  obtain ⟨-, -, hbase⟩ := resolveFolder_base_iff treeWithPatches
    (.ofString "a/My-Game-patch-UPDATE/eboot.bin")
  obtain ⟨-, n, hn, -, hlook⟩ := hbase "My-Game-patch" (.inl rfl) (by decide) (by decide)
  obtain rfl : n = ⟨"My-Game-patch", by decide⟩ := Name.text_inj.1 hn
  refine (hlook ?_).1 rfl
  intro m hm
  rcases FileSystem.mem_or_linked_of_seeks hm with hmem | ⟨l, t, hl, -⟩
  · have hnames : ∀ k ∈ [(⟨"a", by decide⟩ : Name), ⟨"My-Game-patch", by decide⟩],
        k.isTooLong = false := by decide
    exact hnames m hmem
  · exact absurd hl (hasNoLink_treeWithPatches l t)

def baseGameName : Name := ⟨"G", by decide⟩

def deepUpdate : Path := (Path.deep.child ⟨"G-UPDATE", by decide⟩).child executableName

/-- So far down the base game's folder cannot be looked at. -/
theorem resolveFolder_deepUpdate :
    let fs := FileSystem.bare []
    let beside := Path.deep.child baseGameName
    deepUpdate.parent.parent = Path.deep ∧
      deepUpdate.parent.name = baseGameName.text ++ "-UPDATE" ∧
      (∀ m, fs.Seeks beside m → m.isTooLong = false) ∧
      fs.isDirectory beside ≠ .ok true ∧
      resolveFolder fs deepUpdate none ≠ .ok deepUpdate.parent := by
  intro fs beside
  have hfolder : deepUpdate.parent.parent = Path.deep := by simp [deepUpdate]
  have hname : deepUpdate.parent.name = baseGameName.text ++ "-UPDATE" := by
    simp [deepUpdate, baseGameName]
  have hlong : fs.Overruns beside := FileSystem.overruns_deep fs rfl
  have herror := FileSystem.isDirectory_eq_error.2 ⟨hlong, rfl⟩
  refine ⟨hfolder, hname, ?_, ?_, ?_⟩
  · intro m hm
    rcases FileSystem.mem_or_linked_of_seeks hm with hmem | ⟨l, t, hl, -⟩
    · rcases Path.eq_of_mem_deep_child hmem with rfl | rfl <;> decide
    · exact absurd hl (FileSystem.hasNoLink_bare [] l t)
  · rw [herror]
    simp
  · rw [resolveFolder_of_addOn fs (namesAddOn_iff.2 (.inl hname)), Path.withName, hfolder, herror]
    simp [Except.map]

end Library

end GameLauncher
