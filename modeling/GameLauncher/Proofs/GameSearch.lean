import GameLauncher.Library.Search
import GameLauncher.Proofs.SystemFailures

namespace GameLauncher.Library

variable {fs : FileSystem} {id : String} {dir p q e : Path} {f : Failure}

/-- A directory with the name `id` that has the files of a game. -/
structure IsGame (fs : FileSystem) (dir : Path) (id : String) : Prop where
  name : dir.name = id
  parameters : fs.isFile (parametersIn dir) = .ok true
  executable : fs.isFile (executableIn dir) = .ok true

theorem isGameDir_eq_true : isGameDir fs dir id = .ok true ↔ IsGame fs dir id := by
  constructor
  · intro h
    unfold isGameDir at h
    split at h
    · cases h
    · rename_i hname
      split at h
      · cases h
      · cases h
      · exact ⟨Decidable.of_not_not hname, ‹_›, h⟩
  · rintro ⟨hname, hparameters, hexecutable⟩
    rw [isGameDir, if_neg (fun h ↦ h hname), hparameters]
    exact hexecutable

theorem isSystem_of_isGameDir (h : isGameDir fs dir id = .error f) : f.IsSystem := by
  unfold isGameDir at h
  split at h
  · cases h
  · split at h
    · cases h
      exact FileSystem.isSystem_of_isFile ‹_›
    · cases h
    · exact FileSystem.isSystem_of_isFile h

namespace Search

/-- The way down from one directory to another by names that are listed, links followed. -/
inductive Descends (fs : FileSystem) : Path → List Name → Path → Prop
  | here (p : Path) : Descends fs p [] p
  | enter {p q : Path} {n : Name} {ns way : List Name} :
      fs.list p = .ok ns → n ∈ ns → fs.isDirectory (p.child n) = .ok true →
        Descends fs (p.child n) way q → Descends fs p (n :: way) q

/-- What a waiting directory can still contribute: the executable of a game at most as deep as the
search goes. -/
def Item.Offers (fs : FileSystem) (id : String) (levels : Nat) (item : Item) (e : Path) : Prop :=
  ∃ way q, item.depth + way.length < levels ∧ Descends fs item.path way q ∧ IsGame fs q id ∧
    e = executableIn q

def Offered (fs : FileSystem) (id : String) (levels : Nat) (queue : List Item) (e : Path) : Prop :=
  ∃ item ∈ queue, item.Offers fs id levels e

theorem mem_directories {ns : List Name} {ds : List Path} (h : directories fs dir ns = .ok ds) :
    q ∈ ds ↔ ∃ n ∈ ns, fs.isDirectory (dir.child n) = .ok true ∧ q = dir.child n := by
  induction ns generalizing ds with
  | nil =>
    cases h
    simp
  | cons n r ih =>
    rw [directories] at h
    split at h
    · cases h
    · rename_i isDir hdir
      split at h
      · cases h
      · rename_i rest hrest
        cases h
        cases isDir <;> simp [hdir, ih hrest]

theorem mem_subdirectories {ds : List Path} (h : subdirectories fs dir = .ok ds) :
    q ∈ ds ↔ ∃ ns, fs.list dir = .ok ns ∧ ∃ n ∈ ns, fs.isDirectory (dir.child n) = .ok true ∧
      q = dir.child n := by
  unfold subdirectories at h
  split at h
  · rename_i hlist
    cases h
    simp [hlist]
  · cases h
  · rename_i ns hlist
    simp [mem_directories h, hlist, sortNames, List.mem_mergeSort]

theorem isSystem_of_directories {ns : List Name} (h : directories fs dir ns = .error f) :
    f.IsSystem := by
  induction ns with
  | nil => cases h
  | cons n r ih =>
    rw [directories] at h
    split at h
    · cases h
      exact FileSystem.isSystem_of_isDirectory ‹_›
    · split at h
      · cases h
        exact ih ‹_›
      · cases h

theorem isSystem_of_subdirectories (h : subdirectories fs dir = .error f) : f.IsSystem := by
  unfold subdirectories at h
  split at h
  · cases h
  · cases h
    exact FileSystem.isSystem_of_list ‹_›
  · exact isSystem_of_directories h

variable {levels : Nat} {item : Item} {rest queue : List Item}

/-- All that a turn can do: pass over a directory that is too deep, find a game, or let the
directories in a directory wait behind the others. -/
theorem turn_cases {t : Turn} (h : turn fs id levels item rest = .ok t) :
    levels ≤ item.depth ∧ t = .goOn rest ∨
      item.depth < levels ∧ IsGame fs item.path id ∧ t = .found (executableIn item.path) ∨
      item.depth < levels ∧ ¬ IsGame fs item.path id ∧ ∃ ds, subdirectories fs item.path = .ok ds ∧
        t = .goOn (rest ++ ds.map fun d ↦ ⟨d, item.depth + 1⟩) := by
  unfold turn at h
  split at h
  · cases h
    exact .inl ⟨‹_›, rfl⟩
  · rename_i hlevel
    refine .inr ?_
    split at h
    · cases h
    · rename_i hgame
      cases h
      exact .inl ⟨by omega, isGameDir_eq_true.1 hgame, rfl⟩
    · rename_i hgame
      split at h
      · cases h
      · rename_i ds hds
        cases h
        refine .inr ⟨by omega, ?_, ds, hds, rfl⟩
        rw [← isGameDir_eq_true, hgame]
        simp

theorem isSystem_of_turn (h : turn fs id levels item rest = .error f) : f.IsSystem := by
  unfold turn at h
  split at h
  · cases h
  · split at h
    · cases h
      exact isSystem_of_isGameDir ‹_›
    · cases h
    · split at h
      · cases h
        exact isSystem_of_subdirectories ‹_›
      · cases h

theorem Item.offers_of_le (h : levels ≤ item.depth) : ¬ item.Offers fs id levels e := by
  rintro ⟨way, q, hdepth, -⟩
  omega

theorem Item.offers_iff_of_not_isGame (hgame : ¬ IsGame fs item.path id) {ds : List Path}
    (hds : subdirectories fs item.path = .ok ds) :
    item.Offers fs id levels e ↔
      Offered fs id levels (ds.map fun d ↦ ⟨d, item.depth + 1⟩) e := by
  constructor
  · rintro ⟨way, q, hdepth, hway, hq, he⟩
    cases hway with
    | here => exact absurd hq hgame
    | @enter _ _ n ns way hlist hn hdir hway =>
      refine ⟨⟨item.path.child n, item.depth + 1⟩, ?_, way, q, ?_, hway, hq, he⟩
      · exact List.mem_map_of_mem ((mem_subdirectories hds).2 ⟨ns, hlist, n, hn, hdir, rfl⟩)
      · change item.depth + 1 + way.length < levels
        simp only [List.length_cons] at hdepth
        omega
  · rintro ⟨x, hx, way, q, hdepth, hway, hq, he⟩
    obtain ⟨d, hd, rfl⟩ := List.mem_map.1 hx
    obtain ⟨ns, hlist, n, hn, hdir, rfl⟩ := (mem_subdirectories hds).1 hd
    refine ⟨n :: way, q, ?_, .enter hlist hn hdir hway, hq, he⟩
    simp only [List.length_cons] at hdepth ⊢
    omega

/-- A turn that finds nothing changes what waits, but not what can be found from there. -/
theorem offered_iff_of_turn (h : turn fs id levels item rest = .ok (.goOn queue)) :
    Offered fs id levels (item :: rest) e ↔ Offered fs id levels queue e := by
  have hcons : Offered fs id levels (item :: rest) e ↔
      item.Offers fs id levels e ∨ Offered fs id levels rest e := by
    simp [Offered]
  rw [hcons]
  rcases turn_cases h with ⟨hlevel, hqueue⟩ | ⟨-, -, hqueue⟩ | ⟨-, hgame, ds, hds, hqueue⟩
  · cases hqueue
    simp [Item.offers_of_le hlevel]
  · cases hqueue
  · cases hqueue
    rw [Item.offers_iff_of_not_isGame hgame hds]
    simp [Offered, or_and_right, exists_or, or_comm]

theorem run_of_found (h : turn fs id levels item rest = .ok (.found e)) :
    run fs id levels (item :: rest) = .ok (some e) := by
  rw [run]
  split <;> simp_all

theorem run_of_goOn (h : turn fs id levels item rest = .ok (.goOn queue)) :
    run fs id levels (item :: rest) = run fs id levels queue := by
  rw [run]
  split <;> simp_all

theorem turn_of_single (n : Name) (hlevel : item.depth < levels)
    (hgame : isGameDir fs item.path id = .ok false) (hlist : fs.list item.path = .ok [n])
    (hdir : fs.isDirectory (item.path.child n) = .ok true) :
    turn fs id levels item rest = .ok (.goOn (rest ++ [⟨item.path.child n, item.depth + 1⟩])) := by
  have hsubdirectories : subdirectories fs item.path = .ok [item.path.child n] := by
    simp [subdirectories, hlist, sortNames, directories, hdir]
  rw [turn, if_neg (by omega), hgame]
  simp only [hsubdirectories, List.map_cons, List.map_nil]

theorem run_of_single (n : Name) (hlevel : item.depth < levels)
    (hgame : isGameDir fs item.path id = .ok false) (hlist : fs.list item.path = .ok [n])
    (hdir : fs.isDirectory (item.path.child n) = .ok true) :
    run fs id levels [item] = run fs id levels [⟨item.path.child n, item.depth + 1⟩] :=
  run_of_goOn (turn_of_single n hlevel hgame hlist hdir)

theorem run_finds {found : Option Path} (h : run fs id levels queue = .ok found) :
    (∀ e, found = some e → Offered fs id levels queue e) ∧
      (found = none → ∀ e, ¬ Offered fs id levels queue e) := by
  fun_induction run fs id levels queue with
  | case1 =>
    cases h
    simp [Offered]
  | case2 item rest f hturn => cases h
  | case3 item rest executable hturn =>
    cases h
    refine ⟨?_, by simp⟩
    rintro e ⟨⟩
    rcases turn_cases hturn with ⟨-, hfound⟩ | ⟨hlevel, hgame, hfound⟩ | ⟨-, -, ds, -, hfound⟩
    · cases hfound
    · cases hfound
      exact ⟨item, List.mem_cons_self, [], item.path, hlevel, .here _, hgame, rfl⟩
    · cases hfound
  | case4 item rest queue hturn ih =>
    simpa only [offered_iff_of_turn hturn] using ih h

theorem isSystem_of_run (h : run fs id levels queue = .error f) : f.IsSystem := by
  fun_induction run fs id levels queue with
  | case1 => cases h
  | case2 item rest f hturn =>
    cases h
    exact isSystem_of_turn hturn
  | case3 item rest executable hturn => cases h
  | case4 item rest queue hturn ih => exact ih h

end Search

/-- Whether the game `id` lies at or below a directory, at most `depth` names down. -/
def HoldsWithin (fs : FileSystem) (root : Path) (id : String) (depth : Int) : Prop :=
  ∃ way p, (way.length : Int) ≤ depth ∧ Search.Descends fs root way p ∧ IsGame fs p id

variable {root : Path} {depth : Int}

theorem offered_root : Search.Offered fs id (depth + 1).toNat [⟨root, 0⟩] e ↔
    ∃ way p, (way.length : Int) ≤ depth ∧ Search.Descends fs root way p ∧ IsGame fs p id ∧
      e = executableIn p := by
  have hlevels : ∀ n : Nat, n < (depth + 1).toNat ↔ (n : Int) ≤ depth := by omega
  simp [Search.Offered, Search.Item.Offers, hlevels]

theorem find_eq_some (h : find fs root id depth = .ok (some e)) :
    ∃ way p, (way.length : Int) ≤ depth ∧ Search.Descends fs root way p ∧ IsGame fs p id ∧
      e = executableIn p :=
  offered_root.1 ((Search.run_finds h).1 e rfl)

theorem find_eq_none (h : find fs root id depth = .ok none) : ¬ HoldsWithin fs root id depth := by
  rintro ⟨way, p, hlength, hway, hgame⟩
  exact (Search.run_finds h).2 rfl _ (offered_root.2 ⟨way, p, hlength, hway, hgame, rfl⟩)

theorem isSystem_of_find (h : find fs root id depth = .error f) : f.IsSystem :=
  Search.isSystem_of_run h

end GameLauncher.Library
