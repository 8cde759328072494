import GameLauncher.Library.Layout

namespace GameLauncher.Library.Search

structure Item where
  path : Path
  depth : Nat
  deriving DecidableEq

def directories (fs : FileSystem) (dir : Path) : List Name → Except Failure (List Path)
  | [] => .ok []
  | n :: r => match fs.isDirectory (dir.child n) with
    | .error f => .error f
    | .ok isDir => match directories fs dir r with
      | .error f => .error f
      | .ok ds => .ok (if isDir then dir.child n :: ds else ds)

def sortNames (ns : List Name) : List Name := ns.mergeSort fun a b ↦ decide (a.text ≤ b.text)

def subdirectories (fs : FileSystem) (dir : Path) : Except Failure (List Path) :=
  match fs.list dir with
  | .error (.system _ _) => .ok []
  | .error f => .error f
  | .ok ns => directories fs dir (sortNames ns)

inductive Turn
  | found (executable : Path)
  | goOn (queue : List Item)

/-- Looks at a directory, and puts those in it behind all others that wait. From `levels` on
directories are passed over. -/
def turn (fs : FileSystem) (id : String) (levels : Nat) (item : Item) (rest : List Item) :
    Except Failure Turn :=
  if levels ≤ item.depth then .ok (.goOn rest)
  else match isGameDir fs item.path id with
    | .error f => .error f
    | .ok true => .ok (.found (executableIn item.path))
    | .ok false => match subdirectories fs item.path with
      | .error f => .error f
      | .ok ds => .ok (.goOn (rest ++ ds.map fun d ↦ ⟨d, item.depth + 1⟩))

theorem length_directories_le {fs : FileSystem} {dir : Path} {ns : List Name} {ds : List Path}
    (h : directories fs dir ns = .ok ds) : ds.length ≤ ns.length := by
  induction ns generalizing ds with
  | nil => cases h; simp
  | cons n r ih =>
    simp only [directories] at h
    split at h
    · cases h
    · split at h
      · cases h
      · rename_i es hes
        have := ih hes
        cases h
        split <;> simp <;> omega

theorem length_list_le {fs : FileSystem} {dir : Path} {ns : List Name}
    (h : fs.list dir = .ok ns) : ns.length ≤ fs.entries.length := by
  unfold FileSystem.list at h
  split at h <;> try cases h
  exact fs.length_namesIn_le _

theorem length_subdirectories_le {fs : FileSystem} {dir : Path} {ds : List Path}
    (h : subdirectories fs dir = .ok ds) : ds.length ≤ fs.entries.length := by
  unfold subdirectories at h
  split at h
  · cases h; simp
  · cases h
  · rename_i ns hns
    have h₁ := length_directories_le h
    have h₂ := length_list_le hns
    rw [sortNames, List.length_mergeSort] at h₁
    omega

def leaves (children : Nat) : Nat → Nat
  | 0 => 1
  | height + 1 => leaves children height * children

theorem leaves_pos (children height : Nat) : 0 < leaves (children + 1) height := by
  induction height with
  | zero => exact Nat.one_pos
  | succ k ih => exact Nat.mul_pos ih (Nat.succ_pos children)

/-- What a waiting directory can still cost: more than all that can come to wait because of it. -/
def weight (fs : FileSystem) (levels : Nat) (item : Item) : Nat :=
  leaves (fs.entries.length + 1) (levels - item.depth)

def measure (fs : FileSystem) (levels : Nat) : List Item → Nat
  | [] => 0
  | item :: rest => weight fs levels item + measure fs levels rest

theorem measure_append (fs : FileSystem) (levels : Nat) (xs ys : List Item) :
    measure fs levels (xs ++ ys) = measure fs levels xs + measure fs levels ys := by
  induction xs with
  | nil => simp [measure]
  | cons x r ih => simp [measure, ih, Nat.add_assoc]

theorem measure_map (fs : FileSystem) (levels depth : Nat) (ds : List Path) :
    measure fs levels (ds.map fun d ↦ ⟨d, depth⟩) =
      ds.length * leaves (fs.entries.length + 1) (levels - depth) := by
  induction ds with
  | nil => simp [measure]
  | cons d r ih => simp [measure, weight, ih, Nat.succ_mul, Nat.add_comm]

theorem measure_turn_lt {fs : FileSystem} {id : String} {levels : Nat} {item : Item}
    {rest queue : List Item} (h : turn fs id levels item rest = .ok (.goOn queue)) :
    measure fs levels queue < measure fs levels (item :: rest) := by
  unfold turn at h
  split at h
  · cases h
    have := leaves_pos fs.entries.length (levels - item.depth)
    simp only [measure, weight]
    omega
  · rename_i hlevel
    split at h <;> try cases h
    split at h <;> try cases h
    rename_i ds hds
    have hheight : levels - item.depth = levels - (item.depth + 1) + 1 := by omega
    have hlen := Nat.mul_le_mul_left (leaves (fs.entries.length + 1) (levels - (item.depth + 1)))
      (length_subdirectories_le hds)
    have hpos := leaves_pos fs.entries.length (levels - (item.depth + 1))
    simp only [measure_append, measure_map, measure, weight, hheight, leaves, Nat.mul_succ]
    rw [Nat.mul_comm ds.length]
    omega

def run (fs : FileSystem) (id : String) (levels : Nat) : List Item → Except Failure (Option Path)
  | [] => .ok none
  | item :: rest => match _h : turn fs id levels item rest with
    | .error f => .error f
    | .ok (.found executable) => .ok (some executable)
    | .ok (.goOn queue) => run fs id levels queue
termination_by queue => measure fs levels queue
decreasing_by exact measure_turn_lt _h

end Search

def maxDepth : Int := 5

/-- The executable of the nearest directory at or below `root` that holds the game `id`, of equally
near ones the first by the names on the way. -/
def find (fs : FileSystem) (root : Path) (id : String) (maxDepth : Int) : Except Failure (Option Path) :=
  Search.run fs id (maxDepth + 1).toNat [⟨root, 0⟩]

end GameLauncher.Library
