import GameLauncher.Proofs.SearchOrder

namespace GameLauncher.Library

open Search

variable {fs : FileSystem} {root : Path} {id : String} {depth : Int} {way : List Name}

/-- A way down from the root of a search, no longer than the search goes: each name on it is listed
where the names before it lead, and is a directory's, links followed. -/
structure GoesDown (fs : FileSystem) (root : Path) (depth : Int) (way : List Name) : Prop where
  near : (way.length : Int) ≤ depth
  steps : ∀ before n after, way = before ++ n :: after →
    ∃ ns, fs.list (root.below before) = .ok ns ∧ n ∈ ns ∧
      fs.isDirectory ((root.below before).child n) = .ok true

/-- A way to a directory that has the name of a game and its files. -/
structure LeadsToGame (fs : FileSystem) (root : Path) (id : String) (depth : Int)
    (way : List Name) : Prop extends GoesDown fs root depth way where
  game : IsGame fs (root.below way) id

/-- A way to a directory at which a search fails when it comes there. -/
structure LeadsToFailure (fs : FileSystem) (root : Path) (id : String) (depth : Int)
    (way : List Name) (f : Failure) : Prop extends GoesDown fs root depth way where
  barred : Bars fs id (root.below way) f

theorem visits_root :
    Visits fs root (depth + 1).toNat [[]] way ↔ GoesDown fs root depth way := by
  have hlevels : way.length < (depth + 1).toNat ↔ (way.length : Int) ≤ depth := by omega
  simp only [Visits, hlevels, List.mem_singleton, exists_eq_left, List.nil_append,
    exists_eq_left', Path.below_nil, descends_iff]
  constructor
  · rintro ⟨hnear, hsteps⟩
    exact ⟨hnear, hsteps⟩
  · rintro ⟨hnear, hsteps⟩
    exact ⟨hnear, hsteps⟩

/-- A search ends as the first directory it comes to on its ways makes it end. -/
theorem find_outcome {r : Except Failure (Option Path)} :
    find fs root id depth = r ↔ Outcome fs root id (GoesDown fs root depth) r := by
  have hroot : [(⟨root, 0⟩ : Item)] = waiting root [[]] := by
    simp [waiting]
  have horder : InOrder [[]] := List.pairwise_singleton _ _
  have hvisits : Visits fs root (depth + 1).toNat [[]] = GoesDown fs root depth := by
    funext way
    exact propext visits_root
  rw [find, hroot, run_outcome horder, hvisits]

theorem LeadsToGame.ne_of_leadsToFailure {other : List Name} {f : Failure}
    (h : LeadsToGame fs root id depth way) (h' : LeadsToFailure fs root id depth other f) :
    way ≠ other := by
  rintro rfl
  exact not_bars_of_isGame h.game f h'.barred

theorem find_eq_some_iff {e : Path} :
    find fs root id depth = .ok (some e) ↔ ∃ way, LeadsToGame fs root id depth way ∧
      e = executableIn (root.below way) ∧
      (∀ other, LeadsToGame fs root id depth other → other = way ∨ Precedes way other) ∧
        ∀ other f, LeadsToFailure fs root id depth other f → Precedes way other := by
  rw [find_outcome]
  constructor
  · rintro (⟨hway, hends, hleast⟩ | -)
    rename_i way
    cases hends with
    | game hgame =>
      have hfound : LeadsToGame fs root id depth way := ⟨hway, hgame⟩
      refine ⟨way, hfound, rfl, ?_, ?_⟩
      · intro other hother
        exact hleast other _ hother.toGoesDown (.game hother.game)
      · intro other f hother
        have hor := hleast other _ hother.toGoesDown (.barred hother.barred)
        exact hor.resolve_left (hfound.ne_of_leadsToFailure hother).symm
  · rintro ⟨way, hway, rfl, hgames, hfailures⟩
    refine .first hway.toGoesDown (.game hway.game) ?_
    intro other s hother hs
    cases hs with
    | game hgame => exact hgames other ⟨hother, hgame⟩
    | barred hbarred => exact .inr (hfailures other _ ⟨hother, hbarred⟩)

theorem find_eq_none_iff :
    find fs root id depth = .ok none ↔ (∀ way, ¬ LeadsToGame fs root id depth way) ∧
      ∀ way f, ¬ LeadsToFailure fs root id depth way f := by
  rw [find_outcome]
  constructor
  · rintro (⟨-, hends, -⟩ | hnone)
    · cases hends
    · refine ⟨?_, ?_⟩
      · intro way hway
        exact hnone way _ hway.toGoesDown (.game hway.game)
      · intro way f hway
        exact hnone way _ hway.toGoesDown (.barred hway.barred)
  · rintro ⟨hgames, hfailures⟩
    refine .nothing ?_
    intro way s hway hs
    cases hs with
    | game hgame => exact hgames way ⟨hway, hgame⟩
    | barred hbarred => exact hfailures way _ ⟨hway, hbarred⟩

theorem find_eq_error_iff {f : Failure} :
    find fs root id depth = .error f ↔ ∃ way, LeadsToFailure fs root id depth way f ∧
      (∀ other, LeadsToGame fs root id depth other → Precedes way other) ∧
        ∀ other g, LeadsToFailure fs root id depth other g → other = way ∨ Precedes way other := by
  rw [find_outcome]
  constructor
  · rintro (⟨hway, hends, hleast⟩ | -)
    rename_i way
    cases hends with
    | barred hbarred =>
      have hfails : LeadsToFailure fs root id depth way f := ⟨hway, hbarred⟩
      refine ⟨way, hfails, ?_, ?_⟩
      · intro other hother
        have hor := hleast other _ hother.toGoesDown (.game hother.game)
        exact hor.resolve_left (hother.ne_of_leadsToFailure hfails)
      · intro other g hother
        exact hleast other _ hother.toGoesDown (.barred hother.barred)
  · rintro ⟨way, hway, hgames, hfailures⟩
    refine .first hway.toGoesDown (.barred hway.barred) ?_
    intro other s hother hs
    cases hs with
    | game hgame => exact .inr (hgames other ⟨hother, hgame⟩)
    | barred hbarred => exact hfailures other _ ⟨hother, hbarred⟩

/-- The game that is found is the one at the end of the first way that leads to one, shorter ways
before longer ones and ways of one length by their names, and none is found exactly if no way leads
to one; unless a way that comes before leads to a directory at which the search fails. -/
theorem find_nearest_iff (fs : FileSystem) (root : Path) (id : String) (depth : Int) :
    let found := find fs root id depth
    let game := LeadsToGame fs root id depth
    let failure := LeadsToFailure fs root id depth
    (∀ e, found = .ok (some e) ↔ ∃ way, game way ∧ e = executableIn (root.below way) ∧
      (∀ other, game other → other = way ∨ Precedes way other) ∧
        ∀ other f, failure other f → Precedes way other) ∧
    (found = .ok none ↔ (∀ way, ¬ game way) ∧ ∀ way f, ¬ failure way f) ∧
    ∀ f, found = .error f ↔ ∃ way, failure way f ∧
      (∀ other, game other → Precedes way other) ∧
        ∀ other g, failure other g → other = way ∨ Precedes way other :=
  ⟨fun _ ↦ find_eq_some_iff, find_eq_none_iff, fun _ ↦ find_eq_error_iff⟩

def dirName : Name := ⟨"d", by decide⟩

def linkName : Name := ⟨"l", by decide⟩

def treeWithLongLink : FileSystem :=
  ((FileSystem.bare []).withDirectory [dirName]).put [linkName, dirName]
    (.link (Name.repeated 255).text)

theorem overruns_longLink : treeWithLongLink.Overruns ((Path.ofString "d").child linkName) := by
  refine ⟨rfl, ?_⟩
  have hlink : treeWithLongLink.glide .follow [] [.enter dirName, .enter linkName] =
      .detour [dirName] (Name.repeated 255).text [] := rfl
  have hdir : treeWithLongLink.get? [dirName] = some .directory := rfl
  have hlong : (Name.repeated 255).isTooLong = true := Name.isTooLong_repeated (by decide)
  have hshort : ((Path.ofString "d").child linkName).isTooLong = false := rfl
  rw [FileSystem.walk, if_neg (by simp [hshort])]
  exact FileSystem.walkFrom_of_longLink hlink hdir hlong

/-- No way leads to the game, and yet the search does not say so: the link cannot be looked at. -/
theorem find_stops_at_link :
    let root := Path.ofString "d"
    (root.hasNull = false ∧ ∀ n ∈ root.parts, n.isTooLong = false) ∧
      (∀ way, ¬ LeadsToGame treeWithLongLink root "G" maxDepth way) ∧
      find treeWithLongLink root "G" maxDepth =
        .error (.system .nameTooLong (root.child linkName).text) := by
  intro root
  have hlist : treeWithLongLink.list root = .ok [linkName] := rfl
  have hname : root.name ≠ "G" := by decide
  refine ⟨by decide, ?_, ?_⟩
  · rintro way ⟨⟨-, hsteps⟩, hgame⟩
    cases way with
    | nil => exact hname (by simpa using hgame.name)
    | cons n way =>
      obtain ⟨ns, hns, hn, hdir⟩ := hsteps [] n way rfl
      rw [Path.below_nil] at hns hdir
      rw [hlist, Except.ok.injEq] at hns
      subst hns
      rw [List.mem_singleton] at hn
      subst hn
      rw [FileSystem.isDirectory_eq_error.2 ⟨overruns_longLink, rfl⟩] at hdir
      cases hdir
  · have hgame : isGameDir treeWithLongLink root "G" = .ok false := if_pos hname
    have hfirst : FirstOverlong treeWithLongLink root [linkName] linkName := by
      refine ⟨List.mem_singleton_self _, overruns_longLink, ?_⟩
      intro m hm _
      obtain rfl := List.mem_singleton.1 hm
      exact String.le_refl _
    exact find_eq_error.2 ⟨[], root, ⟨[], .here _⟩, .here _, by decide, .entry hgame hlist hfirst⟩

end GameLauncher.Library
