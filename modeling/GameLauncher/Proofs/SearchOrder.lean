import GameLauncher.Proofs.SearchFailures
import Mathlib.Data.List.Nodup
import Mathlib.Data.List.Shortlex

namespace GameLauncher

namespace Path

variable (p : Path) (v w : List Name) (n : Name)

def below : Path := { p with parts := p.parts ++ w }

@[simp] theorem below_nil : p.below [] = p := by
  simp [below]

@[simp] theorem below_append : p.below (v ++ w) = (p.below v).below w := by
  simp [below]

@[simp] theorem below_cons : p.below (n :: w) = (p.child n).below w := by
  simp [below, child]

end Path

namespace FileSystem

theorem nodup_namesIn (fs : FileSystem) (dir : Location) : (fs.namesIn dir).Nodup := by
  have hplaces : fs.namesIn dir = (fs.entries.map Prod.fst).filterMap (nameIn dir) := by
    rw [List.filterMap_map]
    rfl
  rw [hplaces]
  refine List.Nodup.filterMap ?_ fs.distinct
  intro l k n hl hk
  cases l with
  | nil => cases hl
  | cons a up =>
    cases k with
    | nil => cases hk
    | cons b down => simp_all [nameIn]

theorem nodup_list {fs : FileSystem} {p : Path} {ns : List Name} (h : fs.list p = .ok ns) :
    ns.Nodup := by
  unfold list at h
  split at h <;> try cases h
  exact fs.nodup_namesIn _

end FileSystem

namespace Library

/-- Of two ways the shorter comes first, and of ways of one length the one whose names come first. -/
def Precedes : List Name → List Name → Prop := List.Shortlex fun n m ↦ n.text < m.text

namespace Precedes

variable {v w : List Name} {n m : Name}

theorem of_length_lt (h : v.length < w.length) : Precedes v w :=
  List.Shortlex.of_length_lt h

theorem asymm (h : Precedes v w) : ¬ Precedes w v := by
  have : Std.Asymm fun n m : Name ↦ n.text < m.text := ⟨fun n m ↦ String.lt_asymm⟩
  exact List.Shortlex.asymm.asymm v w h

theorem eq_or (v w : List Name) : v = w ∨ Precedes v w ∨ Precedes w v := by
  have : Std.Trichotomous fun n m : Name ↦ n.text < m.text := by
    refine ⟨fun n m hnm hmn ↦ Name.text_inj.1 ?_⟩
    exact String.le_antisymm hmn hnm
  by_contra h
  simp only [not_or] at h
  exact h.1 (List.Shortlex.trichotomous.trichotomous v w h.2.1 h.2.2)

theorem append (h : Precedes v w) (u : List Name) : Precedes v (w ++ u) :=
  List.Shortlex.append_right u h

theorem not_append (v u : List Name) : ¬ Precedes (v ++ u) v := by
  cases u with
  | nil =>
    rw [List.append_nil]
    intro h
    exact h.asymm h
  | cons n u => exact asymm (of_length_lt (by simp))

theorem concat (h : n.text < m.text) (w : List Name) : Precedes (w ++ [n]) (w ++ [m]) :=
  List.Shortlex.append_left ((List.shortlex_singleton_iff n m).2 h) w

theorem concat_of_dropLast (h : Precedes v.dropLast w) (n : Name) : Precedes v (w ++ [n]) := by
  have hlex : ∀ {s t : List Name}, s.length = t.length →
      List.Lex (fun n m ↦ n.text < m.text) s t → ∀ a b : List Name,
        List.Lex (fun n m ↦ n.text < m.text) (s ++ a) (t ++ b) := by
    intro s t hlength hst a b
    induction hst with
    | nil => simp at hlength
    | rel hab => exact .rel hab
    | cons _ ih => exact .cons (ih (by simpa using hlength))
  rcases List.eq_nil_or_concat' v with rfl | ⟨u, m, rfl⟩
  · exact of_length_lt (by simp)
  · rw [List.dropLast_concat] at h
    rcases List.shortlex_def.1 h with hlength | ⟨hlength, hless⟩
    · exact of_length_lt (by simpa using hlength)
    · exact List.Shortlex.of_lex (by simp [hlength]) (hlex hlength hless [m] [n])

end Precedes

namespace Search

variable {fs : FileSystem} {root dir p q : Path} {id : String} {levels : Nat} {v w way : List Name}
  {ways rest : List (List Name)} {n : Name} {kids : List Name}

def IsKid (fs : FileSystem) (dir : Path) (n : Name) : Prop :=
  ∃ ns, fs.list dir = .ok ns ∧ n ∈ ns ∧ fs.isDirectory (dir.child n) = .ok true

theorem descends_cons :
    Descends fs p (n :: way) q ↔ IsKid fs p n ∧ Descends fs (p.child n) way q := by
  constructor
  · rintro (_ | ⟨hlist, hn, hdir, htail⟩)
    exact ⟨⟨_, hlist, hn, hdir⟩, htail⟩
  · rintro ⟨⟨ns, hlist, hn, hdir⟩, htail⟩
    exact .enter hlist hn hdir htail

theorem descends_iff : Descends fs p way (p.below way) ↔
    ∀ before n after, way = before ++ n :: after → IsKid fs (p.below before) n := by
  induction way generalizing p with
  | nil => simpa using Descends.here p
  | cons m way ih =>
    rw [descends_cons, Path.below_cons, ih]
    constructor
    · rintro ⟨hm, htail⟩ before n after hsplit
      cases before with
      | nil =>
        cases hsplit
        simpa using hm
      | cons k before =>
        cases hsplit
        simpa using htail before n after rfl
    · intro h
      refine ⟨by simpa using h [] m way rfl, ?_⟩
      rintro before n after rfl
      simpa using h (m :: before) n after rfl

theorem directories_eq_map {ns : List Name} {ds : List Path} (h : directories fs dir ns = .ok ds) :
    ∃ kids : List Name, kids.Sublist ns ∧ ds = kids.map dir.child ∧
      ∀ n, n ∈ kids ↔ n ∈ ns ∧ fs.isDirectory (dir.child n) = .ok true := by
  induction ns generalizing ds with
  | nil =>
    cases h
    exact ⟨[], .refl _, rfl, by simp⟩
  | cons m r ih =>
    rw [directories] at h
    split at h
    · cases h
    · rename_i isDir hdir
      split at h
      · cases h
      · rename_i ds hds
        obtain ⟨kids, hsub, rfl, hkids⟩ := ih hds
        cases h
        cases isDir with
        | false => exact ⟨kids, hsub.cons m, rfl, by grind⟩
        | true => exact ⟨m :: kids, hsub.cons_cons m, rfl, by grind⟩

theorem strict_sortNames {ns : List Name} (h : fs.list dir = .ok ns) :
    (sortNames ns).Pairwise fun n m ↦ n.text < m.text := by
  have hnodup : (sortNames ns).Nodup := by
    rw [sortNames, (List.mergeSort_perm ns _).nodup_iff]
    exact FileSystem.nodup_list h
  refine (pairwise_sortNames ns).imp₂ (S := (· ≠ ·)) ?_ hnodup
  intro n m hle hne
  by_contra hlt
  exact hne (Name.text_inj.1 (String.le_antisymm hle (String.not_lt.1 hlt)))

theorem subdirectories_eq_map {ds : List Path} (h : subdirectories fs dir = .ok ds) :
    ∃ kids : List Name, kids.Pairwise (fun n m ↦ n.text < m.text) ∧ ds = kids.map dir.child ∧
      ∀ n, n ∈ kids ↔ IsKid fs dir n := by
  unfold subdirectories at h
  split at h
  · rename_i hlist
    cases h
    exact ⟨[], .nil, rfl, by simp [IsKid, hlist]⟩
  · cases h
  · rename_i ns hlist
    obtain ⟨kids, hsub, rfl, hkids⟩ := directories_eq_map h
    refine ⟨kids, (strict_sortNames hlist).sublist hsub, rfl, ?_⟩
    intro n
    rw [hkids, sortNames, List.mem_mergeSort]
    simp [IsKid, hlist]

/-- Where a search that waits at the ends of some ways can come to. -/
def Visits (fs : FileSystem) (root : Path) (levels : Nat) (ways : List (List Name))
    (way : List Name) : Prop :=
  way.length < levels ∧ ∃ w ∈ ways, ∃ v, way = w ++ v ∧
    Descends fs (root.below w) v (root.below way)

theorem visits_cons : Visits fs root levels (w :: rest) way ↔
    Visits fs root levels [w] way ∨ Visits fs root levels rest way := by
  simp only [Visits, List.exists_mem_cons_iff, List.not_mem_nil, false_and, exists_false, or_false,
    and_or_left]

theorem visits_append : Visits fs root levels (ways ++ rest) way ↔
    Visits fs root levels ways way ∨ Visits fs root levels rest way := by
  simp only [Visits, List.mem_append, or_and_right, exists_or, and_or_left]

theorem visits_self (h : w.length < levels) : Visits fs root levels (w :: rest) w :=
  ⟨h, w, List.mem_cons_self, [], (List.append_nil w).symm, .here _⟩

theorem not_visits_of_le (h : levels ≤ w.length) : ¬ Visits fs root levels [w] way := by
  rintro ⟨hlength, _, hw, v, rfl, -⟩
  rw [List.mem_singleton] at hw
  subst hw
  rw [List.length_append] at hlength
  omega

theorem visits_kids (hkids : ∀ n, n ∈ kids ↔ IsKid fs (root.below w) n) (hlevel : w.length < levels) :
    Visits fs root levels [w] way ↔
      way = w ∨ Visits fs root levels (kids.map fun n ↦ w ++ [n]) way := by
  constructor
  · rintro ⟨hlength, _, hw, v, rfl, hdescends⟩
    rw [List.mem_singleton] at hw
    subst hw
    cases v with
    | nil => exact .inl (List.append_nil _)
    | cons n v =>
      obtain ⟨hn, htail⟩ := descends_cons.1 hdescends
      exact .inr ⟨hlength, _, List.mem_map_of_mem ((hkids n).2 hn), v, by simp, by simpa using htail⟩
  · rintro (rfl | ⟨hlength, _, hw, v, rfl, hdescends⟩)
    · exact visits_self hlevel
    · obtain ⟨n, hn, rfl⟩ := List.mem_map.1 hw
      refine ⟨hlength, w, List.mem_singleton_self w, n :: v, by simp, ?_⟩
      exact descends_cons.2 ⟨(hkids n).1 hn, by simpa using hdescends⟩

/-- Ways in the order of a search: each comes before those behind it, and the way to the directory
that holds one comes before all that still wait. -/
def InOrder (ways : List (List Name)) : Prop :=
  ways.Pairwise fun v w ↦ Precedes v w ∧ Precedes w.dropLast v

theorem InOrder.turn (h : InOrder (w :: rest))
    (hkids : kids.Pairwise fun n m ↦ n.text < m.text) :
    InOrder (rest ++ kids.map fun n ↦ w ++ [n]) := by
  obtain ⟨hw, hrest⟩ := List.pairwise_cons.1 h
  refine List.pairwise_append.2 ⟨hrest, ?_, ?_⟩
  · rw [List.pairwise_map]
    refine hkids.imp fun {n m} hnm ↦ ⟨Precedes.concat hnm w, ?_⟩
    rw [List.dropLast_concat]
    exact Precedes.of_length_lt (by simp)
  · intro v hv u hu
    obtain ⟨n, -, rfl⟩ := List.mem_map.1 hu
    obtain ⟨hbefore, habove⟩ := hw v hv
    rw [List.dropLast_concat]
    exact ⟨habove.concat_of_dropLast n, hbefore⟩

theorem InOrder.not_precedes (h : InOrder (w :: rest)) (hway : Visits fs root levels (w :: rest) way) :
    ¬ Precedes way w := by
  obtain ⟨-, v, hv, u, rfl, -⟩ := hway
  rcases List.mem_cons.1 hv with rfl | hv
  · exact Precedes.not_append v u
  · have hbefore := ((List.pairwise_cons.1 h).1 v hv).1
    exact (hbefore.append u).asymm

/-- What a search ends with when it looks at a directory, if it ends there. -/
inductive Ends (fs : FileSystem) (id : String) (dir : Path) :
    Except Failure (Option Path) → Prop
  | game : IsGame fs dir id → Ends fs id dir (.ok (some (executableIn dir)))
  | barred {f : Failure} : Bars fs id dir f → Ends fs id dir (.error f)

/-- What comes of looking at directories in the order of the ways to them: what the first of them
ends with that ends the search. -/
inductive Outcome (fs : FileSystem) (root : Path) (id : String) (P : List Name → Prop) :
    Except Failure (Option Path) → Prop
  | first {way : List Name} {r : Except Failure (Option Path)} :
      P way → Ends fs id (root.below way) r →
      (∀ other s, P other → Ends fs id (root.below other) s → other = way ∨ Precedes way other) →
        Outcome fs root id P r
  | nothing : (∀ way s, P way → ¬ Ends fs id (root.below way) s) →
      Outcome fs root id P (.ok none)

variable {P Q : List Name → Prop} {r s : Except Failure (Option Path)} {queue : List Item}
  {f : Failure} {e : Path}

theorem not_bars_of_isGame (h : IsGame fs dir id) (f : Failure) : ¬ Bars fs id dir f := by
  intro hbars
  have hgame := isGameDir_eq_true.2 h
  rcases bars_iff.1 hbars with hfails | ⟨hfalse, -⟩
  · rw [hgame] at hfails
    cases hfails
  · rw [hgame] at hfalse
    cases hfalse

theorem Bars.unique {f g : Failure} (hf : Bars fs id dir f) (hg : Bars fs id dir g) : f = g := by
  have hturn : ∀ {f}, Bars fs id dir f → turn fs id 1 ⟨dir, 0⟩ [] = .error f :=
    fun h ↦ turn_eq_error.2 ⟨Nat.one_pos, h⟩
  have hsame := (hturn hf).symm.trans (hturn hg)
  cases hsame
  rfl

theorem Ends.unique (hr : Ends fs id dir r) (hs : Ends fs id dir s) : r = s := by
  cases hr with
  | game hgame =>
    cases hs with
    | game => rfl
    | barred hbars => exact absurd hbars (not_bars_of_isGame hgame _)
  | barred hbars =>
    cases hs with
    | game hgame => exact absurd hbars (not_bars_of_isGame hgame _)
    | barred hbars' => rw [hbars.unique hbars']

theorem outcome_of_first (hw : P w) (hends : Ends fs id (root.below w) s)
    (hfirst : ∀ way, P way → ¬ Precedes way w) : Outcome fs root id P r ↔ r = s := by
  constructor
  · rintro (⟨hway, hr, hleast⟩ | hnone)
    · rename_i way
      rcases hleast w s hw hends with rfl | hbefore
      · exact hr.unique hends
      · exact absurd hbefore (hfirst way hway)
    · exact absurd hends (hnone w s hw)
  · rintro rfl
    refine .first hw hends ?_
    intro way s hway _
    rcases Precedes.eq_or way w with hsame | hbefore | hafter
    · exact .inl hsame
    · exact absurd hbefore (hfirst way hway)
    · exact .inr hafter

theorem outcome_congr
    (h : ∀ way s, Ends fs id (root.below way) s → (P way ↔ Q way)) :
    Outcome fs root id P r ↔ Outcome fs root id Q r := by
  have hone : ∀ {P Q : List Name → Prop},
      (∀ way s, Ends fs id (root.below way) s → (P way ↔ Q way)) →
        Outcome fs root id P r → Outcome fs root id Q r := by
    intro P Q h hout
    cases hout with
    | first hway hends hleast =>
      refine .first ((h _ _ hends).1 hway) hends ?_
      intro other s hother hs
      exact hleast other s ((h other s hs).2 hother) hs
    | nothing hnone =>
      refine .nothing ?_
      intro way s hway hs
      exact hnone way s ((h way s hs).2 hway) hs
  exact ⟨hone h, hone fun way s hs ↦ (h way s hs).symm⟩

def waiting (root : Path) (ways : List (List Name)) : List Item :=
  ways.map fun w ↦ ⟨root.below w, w.length⟩

/-- A turn that the search goes on after keeps the order, and what can still end the search. -/
theorem turn_goOn_cases (horder : InOrder (w :: rest))
    (h : turn fs id levels ⟨root.below w, w.length⟩ (waiting root rest) = .ok (.goOn queue)) :
    ∃ ways, queue = waiting root ways ∧ InOrder ways ∧
      ∀ way s, Ends fs id (root.below way) s →
        (Visits fs root levels (w :: rest) way ↔ Visits fs root levels ways way) := by
  rcases turn_cases h with ⟨hlevel, hqueue⟩ | ⟨-, -, hqueue⟩ | ⟨hlevel, hgame, ds, hds, hqueue⟩
  · cases hqueue
    refine ⟨rest, rfl, horder.of_cons, ?_⟩
    intro way s _
    rw [visits_cons, or_iff_right (not_visits_of_le hlevel)]
  · cases hqueue
  · obtain ⟨kids, hsorted, rfl, hkids⟩ := subdirectories_eq_map hds
    cases hqueue
    refine ⟨rest ++ kids.map fun n ↦ w ++ [n], by simp [waiting], horder.turn hsorted, ?_⟩
    intro way s hs
    have hne : way ≠ w := by
      rintro rfl
      cases hs with
      | game hgame' => exact hgame hgame'
      | barred hbars =>
        rw [turn_eq_error.2 ⟨hlevel, hbars⟩] at h
        cases h
    rw [visits_cons, visits_kids hkids hlevel, visits_append, or_iff_right hne, or_comm]

theorem ends_of_turn (h : turn fs id levels ⟨root.below w, w.length⟩ queue = .error f) :
    w.length < levels ∧ Ends fs id (root.below w) (.error f) := by
  obtain ⟨hlevel, hbars⟩ := turn_eq_error.1 h
  exact ⟨hlevel, .barred hbars⟩

theorem ends_of_turn_found (h : turn fs id levels ⟨root.below w, w.length⟩ queue = .ok (.found e)) :
    w.length < levels ∧ Ends fs id (root.below w) (.ok (some e)) := by
  rcases turn_cases h with ⟨-, hfound⟩ | ⟨hlevel, hgame, hfound⟩ | ⟨-, -, ds, -, hfound⟩
  · cases hfound
  · cases hfound
    exact ⟨hlevel, .game hgame⟩
  · cases hfound

/-- A search takes the directories in the order of the ways to them. -/
theorem run_outcome (horder : InOrder ways) :
    run fs id levels (waiting root ways) = r ↔
      Outcome fs root id (Visits fs root levels ways) r := by
  have hends : ∀ {w rest s}, InOrder (w :: rest) →
      w.length < levels ∧ Ends fs id (root.below w) s →
        (s = r ↔ Outcome fs root id (Visits fs root levels (w :: rest)) r) := by
    rintro w rest s horder ⟨hlevel, hends⟩
    rw [outcome_of_first (visits_self hlevel) hends fun way ↦ horder.not_precedes, eq_comm]
  generalize hqueue : waiting root ways = queue
  fun_induction run fs id levels queue generalizing ways with
  | case1 =>
    obtain rfl := List.map_eq_nil_iff.1 hqueue
    constructor
    · rintro rfl
      refine .nothing ?_
      rintro way s ⟨-, w, hw, -⟩
      cases hw
    · rintro (⟨⟨-, w, hw, -⟩, -, -⟩ | -)
      · cases hw
      · rfl
  | case2 item rest f hturn =>
    obtain ⟨w, ways, rfl, rfl, rfl⟩ := List.map_eq_cons_iff.1 hqueue
    exact hends horder (ends_of_turn hturn)
  | case3 item rest executable hturn =>
    obtain ⟨w, ways, rfl, rfl, rfl⟩ := List.map_eq_cons_iff.1 hqueue
    exact hends horder (ends_of_turn_found hturn)
  | case4 item rest queue hturn ih =>
    obtain ⟨w, ways, rfl, rfl, rfl⟩ := List.map_eq_cons_iff.1 hqueue
    obtain ⟨later, rfl, horder', hvisits⟩ := turn_goOn_cases horder hturn
    rw [outcome_congr hvisits]
    exact ih horder' rfl

end Search

end Library

end GameLauncher
