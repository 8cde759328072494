import GameLauncher.Proofs.GameSearch
import GameLauncher.Proofs.JoinedPaths
import GameLauncher.Proofs.OverlongPaths

namespace GameLauncher

theorem exists_first_cons {α : Type} {P Q : α → Prop} {x : α} {l : List α} :
    (∃ before y after, x :: l = before ++ y :: after ∧ (∀ b ∈ before, P b) ∧ Q y) ↔
      Q x ∨ P x ∧ ∃ before y after, l = before ++ y :: after ∧ (∀ b ∈ before, P b) ∧ Q y := by
  constructor
  · rintro ⟨before, y, after, heq, hbefore, hy⟩
    cases before with
    | nil =>
      cases heq
      exact .inl hy
    | cons b before =>
      cases heq
      obtain ⟨hb, hbefore⟩ := List.forall_mem_cons.1 hbefore
      exact .inr ⟨hb, before, y, after, rfl, hbefore, hy⟩
  · rintro (hx | ⟨hx, before, y, after, rfl, hbefore, hy⟩)
    · exact ⟨[], x, l, rfl, by simp, hx⟩
    · exact ⟨x :: before, y, after, rfl, List.forall_mem_cons.2 ⟨hx, hbefore⟩, hy⟩

theorem exists_first_of_mem {α : Type} {Q : α → Prop} {x : α} {l : List α} (hx : x ∈ l)
    (hQ : Q x) : ∃ before y after, l = before ++ y :: after ∧ (∀ b ∈ before, ¬ Q b) ∧ Q y := by
  induction l with
  | nil => cases hx
  | cons y l ih =>
    rw [exists_first_cons]
    by_cases hy : Q y
    · exact .inl hy
    · refine .inr ⟨hy, ih ?_⟩
      rcases List.mem_cons.1 hx with rfl | hx
      · exact absurd hQ hy
      · exact hx

namespace FileSystem

variable {fs : FileSystem} {p : Path} {f : Failure}

theorem list_of_hasNull (h : p.hasNull = true) : fs.list p = .error .embeddedNull := by
  simp [list, resolve, h]

theorem system_of_list (hnull : p.hasNull = false) (h : fs.list p = .error f) :
    ∃ e text, f = .system e text := by
  simp only [list, resolve, hnull, Bool.false_eq_true, if_false] at h
  split at h
  · rename_i hresolve
    split at hresolve
    · cases hresolve
    · cases hresolve
      cases h
      exact ⟨_, _, rfl⟩
  all_goals
    cases h
    try exact ⟨_, _, rfl⟩

theorem list_of_names_child {n : Name} {l : Location} (h : fs.Names (p.child n) l) :
    ∃ ns, fs.list p = .ok ns := by
  obtain ⟨k, hnull, -⟩ := names_of_child h
  obtain ⟨-, node, hwalk⟩ := h
  obtain ⟨dir, hdir⟩ := walk_of_walk_child (Path.isTooLong_of_child (isTooLong_of_walk hwalk)) hwalk
  exact ⟨fs.namesIn dir, by simp [list, resolve, hnull, hdir]⟩

theorem isFile_of_hasNull (h : p.hasNull = true) : fs.isFile p = .ok false := by
  simp [isFile, status, h, Except.map]

end FileSystem

namespace Library

variable {fs : FileSystem} {id : String} {dir root p : Path} {f : Failure} {ns : List Name}
  {n : Name}

theorem isGameDir_eq_error :
    isGameDir fs dir id = .error f ↔ dir.name = id ∧
      (fs.Overruns (parametersIn dir) ∧ f = .overlong (parametersIn dir) ∨
        fs.isFile (parametersIn dir) = .ok true ∧ fs.Overruns (executableIn dir) ∧
          f = .overlong (executableIn dir)) := by
  rw [← FileSystem.isFile_eq_error, ← FileSystem.isFile_eq_error]
  unfold isGameDir
  by_cases hname : dir.name = id
  · rcases hfile : fs.isFile (parametersIn dir) with g | _ | _ <;> simp [hname]
  · simp [hname]

namespace Search

/-- Of the entries that are too long to be looked at the first by its name is come upon. -/
def FirstOverlong (fs : FileSystem) (dir : Path) (ns : List Name) (n : Name) : Prop :=
  n ∈ ns ∧ fs.Overruns (dir.child n) ∧
    ∀ m ∈ ns, fs.Overruns (dir.child m) → n.text ≤ m.text

theorem directories_eq_error :
    directories fs dir ns = .error f ↔ ∃ before n after, ns = before ++ n :: after ∧
      (∀ m ∈ before, ¬ fs.Overruns (dir.child m)) ∧ fs.Overruns (dir.child n) ∧
        f = .overlong (dir.child n) := by
  induction ns with
  | nil => simp [directories]
  | cons k r ih =>
    rw [exists_first_cons, ← ih, directories, ← FileSystem.isDirectory_eq_error]
    have hshort : ¬ fs.Overruns (dir.child k) ↔ ∃ isDir, fs.isDirectory (dir.child k) = .ok isDir := by
      cases hdir : fs.isDirectory (dir.child k) with
      | error g => simpa using (FileSystem.isDirectory_eq_error.1 hdir).1
      | ok isDir =>
        simp only [Except.ok.injEq, exists_eq', iff_true]
        intro hlong
        rw [FileSystem.isDirectory_eq_error.2 ⟨hlong, rfl⟩] at hdir
        cases hdir
    rw [hshort]
    cases fs.isDirectory (dir.child k) with
    | error g => simp
    | ok isDir => cases directories fs dir r <;> simp

theorem pairwise_sortNames (ns : List Name) :
    (sortNames ns).Pairwise fun a b ↦ a.text ≤ b.text := by
  have htrans : ∀ a b c : Name, decide (a.text ≤ b.text) = true → decide (b.text ≤ c.text) = true →
      decide (a.text ≤ c.text) = true := by
    intro a b c
    simpa only [decide_eq_true_eq] using String.le_trans
  have htotal : ∀ a b : Name, (decide (a.text ≤ b.text) || decide (b.text ≤ a.text)) = true := by
    intro a b
    simpa only [Bool.or_eq_true, decide_eq_true_eq] using String.le_total ..
  rw [sortNames]
  simpa only [decide_eq_true_eq] using List.pairwise_mergeSort htrans htotal ns

theorem firstOverlong_of_split {before after : List Name}
    (hsplit : sortNames ns = before ++ n :: after)
    (hbefore : ∀ m ∈ before, ¬ fs.Overruns (dir.child m)) (hn : fs.Overruns (dir.child n)) :
    FirstOverlong fs dir ns n := by
  have hmem : ∀ m, m ∈ ns ↔ m ∈ before ++ n :: after := by
    intro m
    rw [← hsplit, sortNames, List.mem_mergeSort]
  have hsorted := pairwise_sortNames ns
  rw [hsplit, List.pairwise_append, List.pairwise_cons] at hsorted
  refine ⟨(hmem n).2 (by simp), hn, ?_⟩
  intro m hm hlong
  rcases List.mem_append.1 ((hmem m).1 hm) with hm | hm
  · exact absurd hlong (hbefore m hm)
  · rcases List.mem_cons.1 hm with rfl | hm
    · exact String.le_refl _
    · exact hsorted.2.1.1 m hm

theorem FirstOverlong.unique {m : Name} (hn : FirstOverlong fs dir ns n)
    (hm : FirstOverlong fs dir ns m) : n = m := by
  apply Name.text_inj.1
  exact String.le_antisymm (hn.2.2 m hm.1 hm.2.1) (hm.2.2 n hn.1 hn.2.1)

theorem subdirectories_eq_error :
    subdirectories fs dir = .error f ↔ dir.hasNull = true ∧ f = .embeddedNull ∨
      ∃ ns n, fs.list dir = .ok ns ∧ FirstOverlong fs dir ns n ∧ f = .overlong (dir.child n) := by
  unfold subdirectories
  cases hlist : fs.list dir with
  | error g =>
    cases hnull : dir.hasNull with
    | true =>
      rw [FileSystem.list_of_hasNull hnull] at hlist
      cases hlist
      simp [@eq_comm _ f]
    | false =>
      obtain ⟨e, text, rfl⟩ := FileSystem.system_of_list hnull hlist
      simp
  | ok ns =>
    have hnull : dir.hasNull = false := by
      cases hnull : dir.hasNull with
      | true =>
        rw [FileSystem.list_of_hasNull hnull] at hlist
        cases hlist
      | false => rfl
    simp only [hnull, Bool.false_eq_true, false_and, false_or, directories_eq_error,
      Except.ok.injEq]
    constructor
    · rintro ⟨before, n, after, hsplit, hbefore, hn, rfl⟩
      exact ⟨ns, n, rfl, firstOverlong_of_split hsplit hbefore hn, rfl⟩
    · rintro ⟨_, n, rfl, hfirst, rfl⟩
      have hmem : n ∈ sortNames ns := List.mem_mergeSort.2 hfirst.1
      obtain ⟨before, m, after, hsplit, hbefore, hm⟩ := exists_first_of_mem
        (Q := fun m ↦ fs.Overruns (dir.child m)) hmem hfirst.2.1
      obtain rfl := (firstOverlong_of_split hsplit hbefore hm).unique hfirst
      exact ⟨before, m, after, hsplit, hbefore, hm, rfl⟩

/-- What can go wrong at a directory that the search has come to, other than that it cannot be
listed or does not hold the game. -/
inductive Bars (fs : FileSystem) (id : String) (dir : Path) : Failure → Prop
  | null : dir.hasNull = true → Bars fs id dir .embeddedNull
  | parameters : dir.name = id → fs.Overruns (parametersIn dir) →
      Bars fs id dir (.overlong (parametersIn dir))
  | executable : dir.name = id → fs.isFile (parametersIn dir) = .ok true →
      fs.Overruns (executableIn dir) → Bars fs id dir (.overlong (executableIn dir))
  | entry {ns : List Name} {n : Name} : isGameDir fs dir id = .ok false → fs.list dir = .ok ns →
      FirstOverlong fs dir ns n → Bars fs id dir (.overlong (dir.child n))

theorem bars_iff :
    Bars fs id dir f ↔ isGameDir fs dir id = .error f ∨
      isGameDir fs dir id = .ok false ∧ subdirectories fs dir = .error f := by
  constructor
  · intro h
    cases h with
    | null hnull =>
      refine .inr ⟨?_, subdirectories_eq_error.2 (.inl ⟨hnull, rfl⟩)⟩
      have hfile : fs.isFile (parametersIn dir) = .ok false :=
        FileSystem.isFile_of_hasNull (Path.hasNull_child (Path.hasNull_child hnull _) _)
      unfold isGameDir
      split
      · rfl
      · rw [hfile]
    | parameters hname hlong => exact .inl (isGameDir_eq_error.2 ⟨hname, .inl ⟨hlong, rfl⟩⟩)
    | executable hname hfile hlong =>
      exact .inl (isGameDir_eq_error.2 ⟨hname, .inr ⟨hfile, hlong, rfl⟩⟩)
    | entry hgame hlist hfirst =>
      exact .inr ⟨hgame, subdirectories_eq_error.2 (.inr ⟨_, _, hlist, hfirst, rfl⟩)⟩
  · rintro (h | ⟨hgame, h⟩)
    · obtain ⟨hname, ⟨hlong, rfl⟩ | ⟨hfile, hlong, rfl⟩⟩ := isGameDir_eq_error.1 h
      · exact .parameters hname hlong
      · exact .executable hname hfile hlong
    · rcases subdirectories_eq_error.1 h with ⟨hnull, rfl⟩ | ⟨ns, n, hlist, hfirst, rfl⟩
      · exact .null hnull
      · exact .entry hgame hlist hfirst

variable {levels : Nat} {item : Item} {rest queue later : List Item}

theorem turn_eq_error :
    turn fs id levels item rest = .error f ↔ item.depth < levels ∧ Bars fs id item.path f := by
  rw [bars_iff, turn]
  by_cases hlevel : levels ≤ item.depth
  · simp only [hlevel, if_true, reduceCtorEq, false_iff, not_and]
    omega
  · have hlevel' : item.depth < levels := by omega
    rcases isGameDir fs item.path id with g | _ | _
    · simp [hlevel, hlevel']
    · cases subdirectories fs item.path <;> simp [hlevel, hlevel']
    · simp [hlevel]

/-- What waits at some turn of a search that has not ended before. -/
inductive Reaches (fs : FileSystem) (id : String) (levels : Nat) : List Item → List Item → Prop
  | here (queue : List Item) : Reaches fs id levels queue queue
  | turn {item : Item} {rest queue later : List Item} :
      turn fs id levels item rest = .ok (.goOn queue) → Reaches fs id levels queue later →
        Reaches fs id levels (item :: rest) later

theorem run_eq_error :
    run fs id levels queue = .error f ↔ ∃ item rest, Reaches fs id levels queue (item :: rest) ∧
      item.depth < levels ∧ Bars fs id item.path f := by
  constructor
  · intro h
    fun_induction run fs id levels queue with
    | case1 => cases h
    | case2 item rest g hturn =>
      cases h
      exact ⟨item, rest, .here _, turn_eq_error.1 hturn⟩
    | case3 item rest executable hturn => cases h
    | case4 item rest queue hturn ih =>
      obtain ⟨item', rest', hreaches, hbars⟩ := ih h
      exact ⟨item', rest', .turn hturn hreaches, hbars⟩
  · rintro ⟨item, rest, hreaches, hbars⟩
    generalize hlast : item :: rest = last at hreaches
    induction hreaches with
    | here queue =>
      subst hlast
      rw [run]
      split <;> simp_all [turn_eq_error.2 hbars]
    | turn hturn _ ih =>
      rw [run_of_goOn hturn]
      exact ih hlast

theorem Descends.concat {way : List Name} (h : Descends fs root way p) (hlist : fs.list p = .ok ns)
    (hn : n ∈ ns) (hdir : fs.isDirectory (p.child n) = .ok true) :
    Descends fs root (way ++ [n]) (p.child n) := by
  induction h with
  | here p => exact .enter hlist hn hdir (.here _)
  | enter hlist' hn' hdir' _ ih => exact .enter hlist' hn' hdir' (ih hlist hdir)

theorem descends_of_reaches (h : Reaches fs id levels queue later)
    (hqueue : ∀ item ∈ queue, ∃ way, Descends fs root way item.path ∧ way.length = item.depth) :
    ∀ item ∈ later, ∃ way, Descends fs root way item.path ∧ way.length = item.depth := by
  induction h with
  | here queue => exact hqueue
  | @turn item rest queue later hturn _ ih =>
    apply ih
    obtain ⟨⟨way, hway, hdepth⟩, hrest⟩ := List.forall_mem_cons.1 hqueue
    rcases turn_cases hturn with ⟨-, hq⟩ | ⟨-, -, hq⟩ | ⟨-, -, ds, hds, hq⟩
    · cases hq
      exact hrest
    · cases hq
    · cases hq
      intro x hx
      rcases List.mem_append.1 hx with hx | hx
      · exact hrest x hx
      · obtain ⟨d, hd, rfl⟩ := List.mem_map.1 hx
        obtain ⟨ns, hlist, n, hn, hdir, rfl⟩ := (mem_subdirectories hds).1 hd
        exact ⟨way ++ [n], hway.concat hlist hn hdir, by simp [hdepth]⟩

end Search

open Search

variable {depth : Int}

/-- Where a search fails: at a directory at or below its root, no deeper than it goes. -/
structure FailsAt (fs : FileSystem) (root : Path) (id : String) (depth : Int) (way : List Name)
    (dir : Path) (f : Failure) : Prop where
  reached : ∃ rest, Reaches fs id (depth + 1).toNat [⟨root, 0⟩] (⟨dir, way.length⟩ :: rest)
  below : Descends fs root way dir
  near : (way.length : Int) ≤ depth
  barred : Bars fs id dir f

theorem find_eq_error :
    find fs root id depth = .error f ↔ ∃ way dir, FailsAt fs root id depth way dir f := by
  rw [find, run_eq_error]
  constructor
  · rintro ⟨⟨dir, k⟩, rest, hreaches, hlevel, hbars⟩
    have hroot : ∀ item ∈ [(⟨root, 0⟩ : Item)],
        ∃ way, Descends fs root way item.path ∧ way.length = item.depth := by
      intro item hitem
      rw [List.mem_singleton] at hitem
      subst hitem
      exact ⟨[], .here root, rfl⟩
    obtain ⟨way, hway, rfl⟩ := descends_of_reaches hreaches hroot _ List.mem_cons_self
    refine ⟨way, dir, ⟨rest, hreaches⟩, hway, ?_, hbars⟩
    simp only at hlevel
    omega
  · rintro ⟨way, dir, ⟨rest, hreaches⟩, -, hnear, hbars⟩
    refine ⟨_, rest, hreaches, ?_, hbars⟩
    simp only
    omega

theorem find_of_unlistable {e : Errno} {text : String}
    (hlist : fs.list root = .error (.system e text))
    (hshort : root.name = id → ¬ fs.Overruns (parametersIn root)) :
    find fs root id depth = .ok none := by
  have hempty : ∀ {n l}, ¬ fs.Names (root.child n) l := by
    intro n l h
    obtain ⟨ns, hns⟩ := FileSystem.list_of_names_child h
    rw [hlist] at hns
    cases hns
  have hfile : fs.isFile (parametersIn root) ≠ .ok true := by
    intro h
    obtain ⟨l, hl⟩ := FileSystem.names_of_isFile h
    obtain ⟨k, hk⟩ := FileSystem.names_of_child hl
    exact hempty hk
  have hgame : isGameDir fs root id = .ok false := by
    rcases hgame : isGameDir fs root id with f | _ | _
    · obtain ⟨hname, ⟨hlong, -⟩ | ⟨hparameters, -⟩⟩ := isGameDir_eq_error.1 hgame
      · exact absurd hlong (hshort hname)
      · exact absurd hparameters hfile
    · rfl
    · exact absurd (isGameDir_eq_true.1 hgame).parameters hfile
  have hturn : turn fs id (depth + 1).toNat ⟨root, 0⟩ [] = .ok (.goOn []) := by
    simp only [turn, hgame, subdirectories, hlist]
    split <;> rfl
  rw [find, run_of_goOn hturn, run]

end Library

end GameLauncher
