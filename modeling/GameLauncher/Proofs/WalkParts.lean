import GameLauncher.Proofs.GrowingTree

namespace GameLauncher

def Stop.goOn (fs : FileSystem) (rest : List Move) : Stop → Stop
  | .reached k _ => fs.glide .follow k rest
  | .missing _ _ => .refused .notFound
  | .detour dir target ms => .detour dir target (ms ++ rest)
  | .refused e => .refused e

namespace FileSystem

variable {fs fs' : FileSystem} {aim : Aim} {l k dir : Location} {n : Name} {node : Node}
  {c : Bytes} {ms rest : List Move} {p : Path} {links left : Nat}

/-- A walk that follows all links, together with how many it may still follow at its end. -/
def trail (fs : FileSystem) (links : Nat) (l : Location) (ms : List Move) :
    Except Errno (Place × Nat) :=
  match fs.glide .follow l ms with
  | .reached k node => .ok (.occupied k node, links)
  | .missing dir n => .ok (.free dir n, links)
  | .refused e => .error e
  | .detour dir target rest => match links with
    | 0 => .error .tooManyLinks
    | links + 1 =>
      let start := match Path.anchorOf target.toList with
        | .here => dir
        | _ => []
      trail fs links start (Move.ofTarget target ++ rest)

theorem walkFrom_follow (fs : FileSystem) (links : Nat) (l : Location) (ms : List Move) :
    fs.walkFrom .follow links l ms = (fs.trail links l ms).map Prod.fst := by
  rw [FileSystem.walkFrom.eq_def, trail.eq_def]
  cases fs.glide .follow l ms with
  | reached | missing | refused => rfl
  | detour dir target rest =>
    cases links with
    | zero => rfl
    | succ links => exact walkFrom_follow fs links _ _

theorem glide_append (hrest : rest ≠ []) (l : Location) (ms : List Move) :
    fs.glide .follow l (ms ++ rest) = (fs.glide .follow l ms).goOn fs rest := by
  induction ms generalizing l with
  | nil =>
    cases hl : fs.get? l with
    | none => rw [glide_none hl, glide_none hl, Stop.goOn]
    | some node => simp only [List.nil_append, FileSystem.glide, hl, Stop.goOn]
  | cons m ms ih =>
    rw [List.cons_append]
    cases hl : fs.get? l with
    | none => rw [glide_none hl, glide_none hl, Stop.goOn]
    | some node => cases node with
      | file c => rw [glide_file hl, glide_file hl, Stop.goOn]
      | link t => rw [glide_link hl, glide_link hl, Stop.goOn]
      | directory =>
        cases m with
        | stay | slash => simpa only [FileSystem.glide, hl] using ih l
        | up => simpa only [FileSystem.glide, hl] using ih l.tail
        | enter n =>
          simp only [FileSystem.glide, hl, reduceCtorEq, decide_false, Bool.false_and,
            Bool.false_eq_true, ↓reduceIte, Bool.and_false]
          split
          · rfl
          · cases fs.get? (n :: l) with
            | none => cases ms <;> simp [hrest, Stop.goOn]
            | some node => cases node with
              | link t => rfl
              | file c => exact ih (n :: l)
              | directory => exact ih (n :: l)

def resume (fs : FileSystem) (rest : List Move) :
    Except Errno (Place × Nat) → Except Errno (Place × Nat)
  | .ok (.occupied k _, left) => fs.trail left k rest
  | .ok (.free _ _, _) => .error .notFound
  | .error e => .error e

theorem trail_append (hrest : rest ≠ []) (links : Nat) (l : Location) (ms : List Move) :
    fs.trail links l (ms ++ rest) = fs.resume rest (fs.trail links l ms) := by
  rw [trail.eq_def, trail.eq_def fs links l ms, glide_append hrest]
  cases fs.glide .follow l ms with
  | reached k node => rw [Stop.goOn, ← trail.eq_def, resume]
  | missing | refused => rfl
  | detour dir target ms' =>
    cases links with
    | zero => rfl
    | succ links =>
      have ih := trail_append hrest links (match Path.anchorOf target.toList with
        | .here => dir
        | _ => []) (Move.ofTarget target ++ ms')
      rw [List.append_assoc] at ih
      exact ih

theorem trail_follow (h : p.isTooLong = false) :
    fs.walk .follow p =
      (fs.trail maxLinks (fs.startOf p) (p.parts.map Move.ofName)).map Prod.fst := by
  rw [FileSystem.walk, h, walkFrom_follow]
  rfl

theorem trail_child (fs : FileSystem) (p : Path) (n : Name) :
    fs.trail maxLinks (fs.startOf (p.child n)) ((p.child n).parts.map Move.ofName) =
      fs.resume [Move.ofName n]
        (fs.trail maxLinks (fs.startOf p) (p.parts.map Move.ofName)) := by
  rw [Path.child, List.map_append, ← trail_append (by simp)]
  rfl

theorem walk_child (hlong : (p.child n).isTooLong = false)
    (h : fs.walk .follow p = .ok (.occupied dir node)) :
    ∃ left, fs.walk .follow (p.child n) =
      (fs.trail left dir [Move.ofName n]).map Prod.fst := by
  unfold FileSystem.walk at h
  split at h
  · cases h
  · rw [walkFrom_follow] at h
    rw [trail_follow hlong, trail_child]
    rcases ht : fs.trail maxLinks (fs.startOf p) (p.parts.map Move.ofName) with e | ⟨place, left⟩
    · simp [ht, Except.map] at h
    · simp only [ht, Except.map, Except.ok.injEq] at h
      subst h
      exact ⟨left, rfl⟩

theorem directory_of_walkFrom_cons {place : Place} {m : Move}
    (h : fs.walkFrom aim links l (m :: rest) = .ok place) : fs.get? l = some .directory := by
  cases hl : fs.get? l with
  | none =>
    rw [walkFrom_of_refused (glide_none hl)] at h
    cases h
  | some node => cases node with
    | directory => rfl
    | file c =>
      rw [walkFrom_of_refused (glide_file hl m)] at h
      cases h
    | link t =>
      rw [walkFrom_of_refused (glide_link hl m)] at h
      cases h

theorem walk_of_walk_child {place : Place} (hp : p.isTooLong = false)
    (h : fs.walk .follow (p.child n) = .ok place) :
    ∃ dir, fs.walk .follow p = .ok (.occupied dir .directory) := by
  unfold FileSystem.walk at h
  split at h
  · cases h
  · rw [walkFrom_follow, trail_child] at h
    rw [trail_follow hp]
    rcases ht : fs.trail maxLinks (fs.startOf p) (p.parts.map Move.ofName) with
      e | ⟨⟨k, node⟩ | ⟨k, n⟩, left⟩
    · simp [ht, resume, Except.map] at h
    · have hw : fs.walkFrom .follow maxLinks (fs.startOf p) (p.parts.map Move.ofName) =
          .ok (.occupied k node) := by
        rw [walkFrom_follow, ht, Except.map]
      have hk := get?_of_walkFrom hw
      rw [ht, resume, ← walkFrom_follow] at h
      have hdir := directory_of_walkFrom_cons h
      rw [hk, Option.some.injEq] at hdir
      exact ⟨k, by rw [Except.map, hdir]⟩
    · simp [ht, resume, Except.map] at h

end FileSystem

end GameLauncher
