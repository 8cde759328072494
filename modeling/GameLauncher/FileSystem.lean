import GameLauncher.Host
import GameLauncher.Path

namespace GameLauncher

/-- A place in the tree: the names on the way from the root, innermost first. -/
abbrev Location := List Name

inductive Node
  | file (content : Bytes)
  | directory
  | link (target : String)
  deriving DecidableEq

/-- A tree of files on a machine, kept as one entry for each place in it; the root itself is always a
directory. -/
structure FileSystem where
  entries : List (Location × Node)
  distinct : (entries.map Prod.fst).Nodup
  workingDir : Location
  host : Host

namespace FileSystem

def get? (fs : FileSystem) : Location → Option Node
  | [] => some .directory
  | l => fs.entries.lookup l

def putEntry (l : Location) (node : Node) : List (Location × Node) → List (Location × Node)
  | [] => [(l, node)]
  | e :: r => if e.1 = l then (l, node) :: r else e :: putEntry l node r

theorem map_fst_putEntry (l : Location) (node : Node) (es : List (Location × Node)) :
    (putEntry l node es).map Prod.fst =
      if l ∈ es.map Prod.fst then es.map Prod.fst else es.map Prod.fst ++ [l] := by
  induction es with
  | nil => simp [putEntry]
  | cons e r ih =>
    by_cases h : e.1 = l
    · simp [putEntry, h]
    · have h' : ¬l = e.1 := fun k ↦ h k.symm
      simp only [putEntry, h, ↓reduceIte, List.map_cons, ih, List.mem_cons, h', false_or]
      split <;> simp

theorem nodup_putEntry {l : Location} {node : Node} {es : List (Location × Node)}
    (h : (es.map Prod.fst).Nodup) : ((putEntry l node es).map Prod.fst).Nodup := by
  rw [map_fst_putEntry]
  split
  · exact h
  · rename_i hl
    rw [List.nodup_append]
    refine ⟨h, by simp, ?_⟩
    intro a ha b hb
    rw [List.mem_singleton] at hb
    rintro rfl
    exact hl (hb ▸ ha)

def put (fs : FileSystem) (l : Location) (node : Node) : FileSystem :=
  { fs with entries := putEntry l node fs.entries, distinct := nodup_putEntry fs.distinct }

def erase (fs : FileSystem) (l : Location) : FileSystem where
  entries := fs.entries.filter fun e ↦ !l.isSuffixOf e.1
  distinct := fs.distinct.sublist (List.filter_sublist.map _)
  workingDir := fs.workingDir
  host := fs.host

def nameIn (dir : Location) : Location → Option Name
  | [] => none
  | n :: up => if up = dir then some n else none

def namesIn (fs : FileSystem) (dir : Location) : List Name :=
  fs.entries.filterMap fun e ↦ nameIn dir e.1

theorem length_namesIn_le (fs : FileSystem) (dir : Location) :
    (fs.namesIn dir).length ≤ fs.entries.length :=
  List.length_filterMap_le ..

theorem lookup_putEntry (l k : Location) (node : Node) (es : List (Location × Node)) :
    (putEntry l node es).lookup k = if k = l then some node else es.lookup k := by
  induction es with
  | nil =>
    by_cases h : k = l
    · simp [putEntry, h]
    · have hb : (k == l) = false := by simpa using h
      simp [putEntry, List.lookup_cons, h, hb]
  | cons e r ih =>
    obtain ⟨a, b⟩ := e
    by_cases h : a = l <;> by_cases hk : k = a
    · simp [putEntry, h, hk]
    · have hb : (k == a) = false := by simpa using hk
      simp [putEntry, h, h ▸ hk, h ▸ hb, List.lookup_cons]
    · subst hk
      simp [putEntry, h]
    · have hb : (k == a) = false := by simpa using hk
      simp [putEntry, h, List.lookup_cons, hb, ih]

theorem get?_put (fs : FileSystem) {l : Location} (hl : l ≠ []) (k : Location) (node : Node) :
    (fs.put l node).get? k = if k = l then some node else fs.get? k := by
  cases k with
  | nil => simp [get?, Ne.symm hl]
  | cons n up => simpa [get?, put] using lookup_putEntry l (n :: up) node fs.entries

def withDirectory (fs : FileSystem) : Location → FileSystem
  | [] => fs
  | n :: up => (fs.withDirectory up).put (n :: up) .directory

theorem host_withDirectory (fs : FileSystem) (l : Location) :
    (fs.withDirectory l).host = fs.host := by
  induction l with
  | nil => rfl
  | cons n up ih => exact ih

def bare (workingDir : Location) : FileSystem :=
  withDirectory ⟨[], List.nodup_nil, workingDir, .standard⟩ workingDir

end FileSystem

end GameLauncher
