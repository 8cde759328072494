import GameLauncher.Proofs.NearestGame

namespace GameLauncher.Library

namespace Precedes

variable {v w : List Name}

theorem length_le (h : Precedes v w) : v.length ≤ w.length := by
  rcases List.shortlex_def.1 h with hlength | ⟨hlength, -⟩
  · exact hlength.le
  · exact hlength.le

theorem nodup {ways : List (List Name)} (h : ways.Pairwise Precedes) : ways.Nodup := by
  refine h.imp ?_
  rintro v w hvw rfl
  exact hvw.asymm hvw

end Precedes

namespace Search

variable {fs : FileSystem} {root : Path} {id : String} {levels : Nat} {w : List Name}
  {looked rest : List (List Name)} {kids : List Name}

/-- The ways of a search that were looked at and those that still wait: none comes up out of order,
and each that waits was come to through directories that are listed. -/
structure WellKept (fs : FileSystem) (root : Path) (levels : Nat)
    (looked waits : List (List Name)) : Prop where
  increasing : (looked ++ waits).Pairwise Precedes
  inOrder : InOrder waits
  descends : ∀ w ∈ waits, Descends fs root w (root.below w)
  length_le : ∀ w ∈ waits, w.length ≤ levels

namespace WellKept

theorem start (fs : FileSystem) (root : Path) (levels : Nat) :
    WellKept fs root levels [] [[]] where
  increasing := List.pairwise_singleton _ _
  inOrder := List.pairwise_singleton _ _
  descends w hw := by
    rw [List.mem_singleton.1 hw, Path.below_nil]
    exact .here root
  length_le w hw := by
    rw [List.mem_singleton.1 hw]
    exact Nat.zero_le levels

theorem pass (h : WellKept fs root levels looked (w :: rest)) :
    WellKept fs root levels (looked ++ [w]) rest where
  increasing := by
    rw [List.append_assoc]
    exact h.increasing
  inOrder := h.inOrder.of_cons
  descends v hv := h.descends v (List.mem_cons_of_mem w hv)
  length_le v hv := h.length_le v (List.mem_cons_of_mem w hv)

theorem add (h : WellKept fs root levels looked (w :: rest)) (hlevel : w.length < levels)
    (hsorted : kids.Pairwise fun n m ↦ n.text < m.text)
    (hkids : ∀ n ∈ kids, IsKid fs (root.below w) n) :
    WellKept fs root levels (looked ++ [w]) (rest ++ kids.map fun n ↦ w ++ [n]) where
  increasing := by
    -- What waits with `w` was come to from a way before `w`, so it precedes the kids of `w`.
    have hbefore : ∀ v ∈ looked ++ w :: rest, ∀ n, Precedes v (w ++ [n]) := by
      intro v hv n
      obtain ⟨-, hwaits, hlooked⟩ := List.pairwise_append.1 h.increasing
      rcases List.mem_append.1 hv with hv | hv
      · exact (hlooked v hv w List.mem_cons_self).append [n]
      rcases List.mem_cons.1 hv with rfl | hv
      · exact .of_length_lt (by simp)
      · exact ((List.pairwise_cons.1 h.inOrder).1 v hv).2.concat_of_dropLast n
    rw [List.append_assoc, List.singleton_append, ← List.cons_append, ← List.append_assoc]
    refine List.pairwise_append.2 ⟨h.increasing, ?_, ?_⟩
    · rw [List.pairwise_map]
      exact hsorted.imp fun hnm ↦ Precedes.concat hnm w
    · intro v hv u hu
      obtain ⟨n, -, rfl⟩ := List.mem_map.1 hu
      exact hbefore v hv n
  inOrder := h.inOrder.turn hsorted
  descends v hv := by
    rcases List.mem_append.1 hv with hv | hv
    · exact h.descends v (List.mem_cons_of_mem w hv)
    · obtain ⟨n, hn, rfl⟩ := List.mem_map.1 hv
      obtain ⟨ns, hlist, hmem, hdir⟩ := hkids n hn
      have hconcat := (h.descends w List.mem_cons_self).concat hlist hmem hdir
      rw [Path.below_append, Path.below_cons, Path.below_nil]
      exact hconcat
  length_le v hv := by
    rcases List.mem_append.1 hv with hv | hv
    · exact h.length_le v (List.mem_cons_of_mem w hv)
    · obtain ⟨n, -, rfl⟩ := List.mem_map.1 hv
      rw [List.length_append, List.length_singleton]
      exact hlevel

end WellKept

variable {item : Item} {queue seen later : List Item} {r : Except Failure (Option Path)}

/-- What a search has looked at when a turn begins, in this order, and what waits then. All that has
ever waited is in one of the two. -/
inductive Stands (fs : FileSystem) (root : Path) (id : String) (levels : Nat) :
    List Item → List Item → Prop
  | start : Stands fs root id levels [] [⟨root, 0⟩]
  | turn {seen rest queue : List Item} {item : Item} : Stands fs root id levels seen (item :: rest) →
      turn fs id levels item rest = .ok (.goOn queue) →
        Stands fs root id levels (seen ++ [item]) queue

/-- The same at any moment, also within a turn, when some of the entries of a directory are still to
be looked at. -/
inductive Passes (fs : FileSystem) (root : Path) (id : String) (levels : Nat) :
    List Item → List Item → Prop
  | between {seen queue : List Item} : Stands fs root id levels seen queue →
      Passes fs root id levels seen queue
  | taken {seen rest : List Item} {item : Item} : Stands fs root id levels seen (item :: rest) →
      Passes fs root id levels (seen ++ [item]) rest
  | adding {seen rest : List Item} {item : Item} {ns names : List Name} {ds : List Path} :
      Stands fs root id levels seen (item :: rest) → item.depth < levels →
      isGameDir fs item.path id = .ok false → fs.list item.path = .ok ns →
      names <+: sortNames ns → directories fs item.path names = .ok ds →
        Passes fs root id levels (seen ++ [item]) (rest ++ ds.map fun d ↦ ⟨d, item.depth + 1⟩)

theorem waiting_append (root : Path) (v w : List (List Name)) :
    waiting root (v ++ w) = waiting root v ++ waiting root w :=
  List.map_append

theorem waiting_kids (root : Path) (w : List Name) (kids : List Name) :
    waiting root (kids.map fun n ↦ w ++ [n]) =
      (kids.map (root.below w).child).map fun d ↦ ⟨d, w.length + 1⟩ := by
  simp [waiting]

theorem kids_of_directories {dir : Path} {ns names : List Name} {ds : List Path}
    (hlist : fs.list dir = .ok ns) (hnames : names <+: sortNames ns)
    (h : directories fs dir names = .ok ds) :
    ∃ kids : List Name, kids.Pairwise (fun n m ↦ n.text < m.text) ∧ ds = kids.map dir.child ∧
      ∀ n ∈ kids, IsKid fs dir n := by
  obtain ⟨kids, hsub, rfl, hkids⟩ := directories_eq_map h
  refine ⟨kids, (strict_sortNames hlist).sublist (hsub.trans hnames.sublist), rfl, ?_⟩
  intro n hn
  obtain ⟨hmem, hdir⟩ := (hkids n).1 hn
  exact ⟨ns, hlist, List.mem_mergeSort.1 (hnames.subset hmem), hdir⟩

theorem Stands.wellKept (h : Stands fs root id levels seen queue) :
    ∃ looked waits, seen = waiting root looked ∧ queue = waiting root waits ∧
      WellKept fs root levels looked waits := by
  induction h with
  | start => exact ⟨[], [[]], rfl, by simp [waiting], .start fs root levels⟩
  | turn _ hturn ih =>
    obtain ⟨looked, waits, rfl, hwaits, hkept⟩ := ih
    obtain ⟨w, rest, rfl, rfl, rfl⟩ := List.map_eq_cons_iff.1 hwaits.symm
    refine ⟨looked ++ [w], ?_⟩
    rcases turn_cases hturn with ⟨-, hqueue⟩ | ⟨-, -, hqueue⟩ | ⟨hlevel, -, ds, hds, hqueue⟩
    · cases hqueue
      exact ⟨rest, (waiting_append root looked [w]).symm, rfl, hkept.pass⟩
    · cases hqueue
    · obtain ⟨kids, hsorted, rfl, hkids⟩ := subdirectories_eq_map hds
      cases hqueue
      refine ⟨rest ++ kids.map fun n ↦ w ++ [n], (waiting_append root looked [w]).symm, ?_,
        hkept.add hlevel hsorted fun n hn ↦ (hkids n).1 hn⟩
      rw [waiting_append, waiting_kids]
      rfl

theorem Passes.wellKept (h : Passes fs root id levels seen queue) :
    ∃ looked waits, seen = waiting root looked ∧ queue = waiting root waits ∧
      WellKept fs root levels looked waits := by
  cases h with
  | between h => exact h.wellKept
  | taken h =>
    obtain ⟨looked, waits, rfl, hwaits, hkept⟩ := h.wellKept
    obtain ⟨w, rest, rfl, rfl, rfl⟩ := List.map_eq_cons_iff.1 hwaits.symm
    exact ⟨looked ++ [w], rest, (waiting_append root looked [w]).symm, rfl, hkept.pass⟩
  | adding h hlevel _ hlist hnames hds =>
    obtain ⟨looked, waits, rfl, hwaits, hkept⟩ := h.wellKept
    obtain ⟨w, rest, rfl, rfl, rfl⟩ := List.map_eq_cons_iff.1 hwaits.symm
    obtain ⟨kids, hsorted, rfl, hkids⟩ := kids_of_directories hlist hnames hds
    refine ⟨looked ++ [w], rest ++ kids.map fun n ↦ w ++ [n],
      (waiting_append root looked [w]).symm, ?_, hkept.add hlevel hsorted hkids⟩
    rw [waiting_append, waiting_kids]
    rfl

/-- A queue that is worked off level by level, in which nothing comes up twice. -/
structure IsOrderly (fs : FileSystem) (root : Path) (maxDepth : Int) (seen queue : List Item) :
    Prop where
  sorted : queue.Pairwise fun a b ↦ a.depth ≤ b.depth
  near : ∀ a ∈ queue, ∀ b ∈ queue, b.depth ≤ a.depth + 1
  shallow : ∀ item ∈ queue, (item.depth : Int) ≤ max 0 (maxDepth + 1)
  descends : ∀ item ∈ queue, ∃ way, item.path = root.below way ∧ way.length = item.depth ∧
    Descends fs root way item.path
  once : ((seen ++ queue).map Item.path).Nodup

theorem WellKept.sorted {looked waits : List (List Name)}
    (h : WellKept fs root levels looked waits) :
    (waiting root waits).Pairwise fun a b ↦ a.depth ≤ b.depth := by
  rw [waiting, List.pairwise_map]
  exact (List.pairwise_append.1 h.increasing).2.1.imp Precedes.length_le

theorem WellKept.isOrderly {maxDepth : Int} {looked waits : List (List Name)}
    (h : WellKept fs root (maxDepth + 1).toNat looked waits) :
    IsOrderly fs root maxDepth (waiting root looked) (waiting root waits) where
  sorted := h.sorted
  near := by
    have hbehind : (waiting root waits).Pairwise fun a b ↦ b.depth ≤ a.depth + 1 := by
      rw [waiting, List.pairwise_map]
      refine h.inOrder.imp ?_
      rintro v w ⟨-, hup⟩
      have hlength := hup.length_le
      rw [List.length_dropLast] at hlength
      change w.length ≤ v.length + 1
      omega
    have hbefore : (waiting root waits).Pairwise (flip fun a b ↦ b.depth ≤ a.depth + 1) :=
      h.sorted.imp fun hab ↦ Nat.le_succ_of_le hab
    intro a ha b hb
    exact List.Pairwise.forall_of_forall_of_flip (fun a _ ↦ Nat.le_succ a.depth) hbehind hbefore ha hb
  shallow := by
    intro item hitem
    obtain ⟨w, hw, rfl⟩ := List.mem_map.1 hitem
    have := h.length_le w hw
    simp only
    omega
  descends := by
    intro item hitem
    obtain ⟨w, hw, rfl⟩ := List.mem_map.1 hitem
    exact ⟨w, rfl, rfl, h.descends w hw⟩
  once := by
    rw [← waiting_append, waiting, List.map_map]
    refine (Precedes.nodup h.increasing).map ?_
    intro v w hvw
    simpa [Path.below] using hvw

/-- How a search ends: with nothing left to look at, with a game, or with what cannot be read. -/
inductive Stops (fs : FileSystem) (id : String) (levels : Nat) :
    List Item → Except Failure (Option Path) → Prop
  | empty : Stops fs id levels [] (.ok none)
  | found {item : Item} {rest : List Item} {e : Path} :
      turn fs id levels item rest = .ok (.found e) → Stops fs id levels (item :: rest) (.ok (some e))
  | failed {item : Item} {rest : List Item} {f : Failure} :
      turn fs id levels item rest = .error f → Stops fs id levels (item :: rest) (.error f)

theorem Stands.exists_stops (h : Stands fs root id levels seen queue) :
    ∃ seen' queue', Stands fs root id levels seen' queue' ∧
      Stops fs id levels queue' (run fs id levels queue) := by
  fun_induction run fs id levels queue generalizing seen with
  | case1 => exact ⟨seen, [], h, .empty⟩
  | case2 item rest f hturn => exact ⟨seen, item :: rest, h, .failed hturn⟩
  | case3 item rest e hturn => exact ⟨seen, item :: rest, h, .found hturn⟩
  | case4 item rest queue hturn ih => exact ih (h.turn hturn)

theorem leaves_eq_pow (children height : Nat) : leaves children height = children ^ height := by
  induction height with
  | zero => rfl
  | succ height ih => rw [leaves, ih, Nat.pow_succ]

/-- Each turn uses up some of what the search may cost. -/
theorem Stands.length_add_measure_le (h : Stands fs root id levels seen queue) :
    seen.length + measure fs levels queue ≤ (fs.entries.length + 1) ^ levels := by
  induction h with
  | start =>
    rw [measure, measure, weight, leaves_eq_pow]
    simp
  | turn _ hturn ih =>
    have hless := measure_turn_lt hturn
    rw [List.length_append, List.length_singleton]
    omega

end Search

open Search

/-- The queue of a search is in order at any moment, each turn leaves less to do, and the search ends
after at most as many turns as there can be ways down. -/
theorem find_queue (fs : FileSystem) (root : Path) (id : String) (maxDepth : Int) :
    let levels := (maxDepth + 1).toNat
    (∀ seen queue, Passes fs root id levels seen queue → IsOrderly fs root maxDepth seen queue) ∧
    (∀ seen item rest queue, Stands fs root id levels seen (item :: rest) →
      turn fs id levels item rest = .ok (.goOn queue) →
        Search.measure fs levels queue < Search.measure fs levels (item :: rest)) ∧
    (∀ seen queue, Stands fs root id levels seen queue →
      seen.length + Search.measure fs levels queue ≤ (fs.entries.length + 1) ^ levels) ∧
    ∃ seen queue, Stands fs root id levels seen queue ∧
      Stops fs id levels queue (find fs root id maxDepth) := by
  intro levels
  refine ⟨?_, ?_, ?_, ?_⟩
  · intro seen queue h
    obtain ⟨looked, waits, rfl, rfl, hkept⟩ := h.wellKept
    exact hkept.isOrderly
  · intro seen item rest queue _ hturn
    exact measure_turn_lt hturn
  · intro seen queue h
    exact h.length_add_measure_le
  · exact Stands.start.exists_stops

def treeWithLoop : FileSystem :=
  ((FileSystem.bare []).withDirectory [dirName]).put [linkName, dirName] (.link ".")

/-- The same folder comes up again and again, each time under another path. -/
theorem find_queue_loop :
    let root := Path.ofString "d"
    let seen : List Item := [⟨root, 0⟩, ⟨root.child linkName, 1⟩]
    let queue : List Item := [⟨(root.child linkName).child linkName, 2⟩]
    Stands treeWithLoop root "G" 2 seen queue ∧ IsOrderly treeWithLoop root 1 seen queue ∧
      Search.measure treeWithLoop 2 queue < Search.measure treeWithLoop 2 [⟨root.child linkName, 1⟩] ∧
      2 + Search.measure treeWithLoop 2 queue ≤ 9 := by
  intro root seen queue
  obtain ⟨horderly, hless, hbound, -⟩ := find_queue treeWithLoop root "G" 1
  have hfirst : turn treeWithLoop "G" 2 ⟨root, 0⟩ [] = .ok (.goOn [⟨root.child linkName, 1⟩]) :=
    turn_of_single linkName (by decide) rfl rfl rfl
  have hsecond : turn treeWithLoop "G" 2 ⟨root.child linkName, 1⟩ [] = .ok (.goOn queue) :=
    turn_of_single linkName (by decide) rfl rfl rfl
  have hbefore : Stands treeWithLoop root "G" 2 [⟨root, 0⟩] [⟨root.child linkName, 1⟩] :=
    .turn .start hfirst
  have hstands : Stands treeWithLoop root "G" 2 seen queue := .turn hbefore hsecond
  refine ⟨hstands, horderly seen queue (.between hstands), ?_, hbound seen queue hstands⟩
  exact hless _ _ [] queue hbefore hsecond

end GameLauncher.Library
