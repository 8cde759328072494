import GameLauncher.Proofs.GrowingTree

namespace GameLauncher

namespace FileSystem

variable {fs fs' : FileSystem} {aim : Aim} {l k dir : Location} {n : Name} {node : Node}
  {c : Bytes} {ms rest : List Move} {p : Path}

/-- Where moves end, and the link that they end before, if one has to be followed. It does not
matter what else there is on the way. -/
def drift (fs : FileSystem) (l : Location) : List Move → Location × Option (String × List Move)
  | [] => (l, none)
  | .stay :: rest | .slash :: rest => drift fs l rest
  | .up :: rest => drift fs l.tail rest
  | .enter n :: rest => match fs.get? (n :: l) with
    | some (.link target) => (l, some (target, rest))
    | _ => drift fs (n :: l) rest

def leadFrom (fs : FileSystem) (links : Nat) (l : Location) (ms : List Move) : Option Location :=
  match fs.drift l ms with
  | (k, none) => some k
  | (dir, some (target, rest)) => match links with
    | 0 => none
    | links + 1 =>
      let start := match Path.anchorOf target.toList with
        | .here => dir
        | _ => []
      leadFrom fs links start (Move.ofTarget target ++ rest)

/-- The place that a path leads to through the links on its way, be there something or not. There is
none if the links are too many. -/
def lead (fs : FileSystem) (p : Path) : Option Location :=
  fs.leadFrom maxLinks (fs.startOf p) (p.parts.map Move.ofName)

theorem Grows.drift (h : Grows fs fs') (l : Location) (ms : List Move) :
    fs'.drift l ms = fs.drift l ms := by
  fun_induction FileSystem.drift fs l ms with
  | case1 l => rfl
  | case2 l rest ih => simpa only [FileSystem.drift] using ih
  | case3 l rest ih => simpa only [FileSystem.drift] using ih
  | case4 l rest ih => simpa only [FileSystem.drift] using ih
  | case5 l n rest t hn => simp only [FileSystem.drift, (h.link _ t).1 hn]
  | case6 l n rest hn ih =>
    have hn' : ∀ t, fs'.get? (n :: l) ≠ some (.link t) := fun t ht ↦ hn t ((h.link _ t).2 ht)
    simpa only [FileSystem.drift] using ih

theorem Grows.leadFrom (h : Grows fs fs') (links : Nat) (l : Location) (ms : List Move) :
    fs'.leadFrom links l ms = fs.leadFrom links l ms := by
  rw [FileSystem.leadFrom.eq_def, FileSystem.leadFrom.eq_def fs, h.drift]
  split
  · rfl
  · cases links with
    | zero => rfl
    | succ links => exact h.leadFrom links _ _

theorem Grows.startOf (h : Grows fs fs') (p : Path) : fs'.startOf p = fs.startOf p := by
  simp only [FileSystem.startOf, h.workingDir]

theorem Grows.lead (h : Grows fs fs') (p : Path) : fs'.lead p = fs.lead p := by
  simp only [FileSystem.lead, h.startOf, h.leadFrom]

def HasNoLink (fs : FileSystem) : Prop := ∀ l t, fs.get? l ≠ some (.link t)

theorem HasNoLink.put (h : fs.HasNoLink) (hl : l ≠ []) (hnode : ∀ t, node ≠ .link t) :
    (fs.put l node).HasNoLink := by
  intro k t
  rw [get?_put fs hl]
  split
  · intro ht
    exact hnode t (Option.some.inj ht)
  · exact h k t

theorem HasNoLink.withDirectory (h : fs.HasNoLink) (l : Location) :
    (fs.withDirectory l).HasNoLink := by
  induction l with
  | nil => exact h
  | cons n up ih => exact ih.put (List.cons_ne_nil n up) (by simp)

theorem hasNoLink_bare (dir : Location) : (bare dir).HasNoLink := by
  apply HasNoLink.withDirectory
  rintro (_ | ⟨n, up⟩) t
  · simp
  · simp [get?]

theorem drift_enter (h : ∀ t, fs.get? (n :: l) ≠ some (.link t)) (rest : List Move) :
    fs.drift l (.enter n :: rest) = fs.drift (n :: l) rest := by
  rw [FileSystem.drift]
  split
  · exact absurd ‹_› (h _)
  · rfl

theorem HasNoLink.drift_concat (h : fs.HasNoLink) (l : Location) (ms : List Move) (n : Name) :
    ∃ k, fs.drift l (ms ++ [.enter n]) = (n :: k, none) := by
  induction ms generalizing l with
  | nil => exact ⟨l, by rw [List.nil_append, drift_enter (h _), FileSystem.drift]⟩
  | cons m ms ih =>
    cases m with
    | stay | slash => exact ih l
    | up => exact ih l.tail
    | enter n' =>
      rw [List.cons_append, drift_enter (h _)]
      exact ih (n' :: l)

theorem HasNoLink.lead_child (h : fs.HasNoLink) (hn : n ≠ Name.up) (p : Path) :
    ∃ k, fs.lead (p.child n) = some (n :: k) := by
  obtain ⟨k, hk⟩ := h.drift_concat (fs.startOf p) (p.parts.map Move.ofName) n
  have hstart : fs.startOf (p.child n) = fs.startOf p := rfl
  have hmoves : (p.child n).parts.map Move.ofName =
      p.parts.map Move.ofName ++ [.enter n] := by
    rw [Path.child, List.map_append, List.map_singleton, Move.ofName, if_neg hn]
  exact ⟨k, by rw [FileSystem.lead, FileSystem.leadFrom, hmoves, hstart, hk]⟩

theorem drift_of_reached (h : fs.glide .follow l ms = .reached k node) :
    fs.drift l ms = (k, none) := by
  fun_induction glide fs .follow l ms <;> simp_all [drift]

theorem drift_of_missing (h : fs.glide .follow l ms = .missing dir n) :
    fs.drift l ms = (n :: dir, none) := by
  fun_induction glide fs .follow l ms <;> simp_all [drift]

theorem drift_of_detour {t : String} (h : fs.glide .follow l ms = .detour dir t rest) :
    fs.drift l ms = (dir, some (t, rest)) := by
  fun_induction glide fs .follow l ms <;> simp_all [drift]

end FileSystem

def Place.location : Place → Location
  | .occupied l _ => l
  | .free dir n => n :: dir

namespace FileSystem

variable {fs fs' : FileSystem} {aim : Aim} {l k dir : Location} {n : Name} {node : Node}
  {c : Bytes} {ms rest : List Move} {p : Path} {place : Place}

theorem leadFrom_of_walkFrom {links : Nat} {l : Location} {ms : List Move}
    (h : fs.walkFrom .follow links l ms = .ok place) :
    fs.leadFrom links l ms = some place.location := by
  rw [FileSystem.walkFrom.eq_def] at h
  rw [leadFrom.eq_def]
  cases hs : fs.glide .follow l ms <;> simp only [hs] at h
  case reached k node =>
    cases h
    simp [drift_of_reached hs, Place.location]
  case missing dir n =>
    cases h
    simp [drift_of_missing hs, Place.location]
  case refused e => cases h
  case detour dir t rest =>
    simp only [drift_of_detour hs]
    cases links with
    | zero => cases h
    | succ links =>
      simp only at h
      exact leadFrom_of_walkFrom h

theorem lead_of_walk (h : fs.walk .follow p = .ok place) : fs.lead p = some place.location := by
  unfold FileSystem.walk at h
  split at h
  · cases h
  · exact leadFrom_of_walkFrom h

theorem glide_of_file (h : fs.get? l = some (.file c)) (ms : List Move) :
    fs.glide aim l ms = .reached l (.file c) ∨ fs.glide aim l ms = .refused .notADirectory := by
  cases ms with
  | nil => exact .inl (by simp only [FileSystem.glide, h])
  | cons m rest => exact .inr (glide_file h m)

theorem glide_put_file (hk : fs.TakesFile k) (c : Bytes) (l : Location) (ms : List Move) :
    (fs.put k (.file c)).glide aim l ms = fs.glide aim l ms ∨
      (fs.put k (.file c)).glide aim l ms = .reached k (.file c) ∨
      (fs.put k (.file c)).glide aim l ms = .refused .notADirectory := by
  have hself : (fs.put k (.file c)).get? k = some (.file c) := get?_put_self hk.ne_nil
  have hother : ∀ l ≠ k, (fs.put k (.file c)).get? l = fs.get? l :=
    fun l hl ↦ get?_put_of_ne hk.ne_nil hl
  induction ms generalizing l with
  | nil =>
    by_cases hl : l = k
    · exact .inr (hl ▸ glide_of_file hself [])
    · exact .inl (by simp only [FileSystem.glide, hother l hl])
  | cons m rest ih =>
    by_cases hl : l = k
    · exact .inr (hl ▸ glide_of_file hself (m :: rest))
    · have hput := hother l hl
      cases hg : fs.get? l with
      | none => exact .inl (by rw [glide_none hg, glide_none (hput.trans hg)])
      | some node => cases node with
        | file b => exact .inl (by rw [glide_file hg, glide_file (hput.trans hg)])
        | link t => exact .inl (by rw [glide_link hg, glide_link (hput.trans hg)])
        | directory =>
          have hg' := hput.trans hg
          cases m with
          | stay | slash => simpa only [FileSystem.glide, hg, hg'] using ih l
          | up => simpa only [FileSystem.glide, hg, hg'] using ih l.tail
          | enter n =>
            simp only [FileSystem.glide, hg, hg']
            split
            · exact .inl rfl
            split
            · exact .inl rfl
            by_cases hn : n :: l = k
            · simp only [hn, hself]
              exact .inr (glide_of_file hself rest)
            · simp only [hother _ hn]
              cases hc : fs.get? (n :: l) with
              | none => exact .inl rfl
              | some node => cases node with
                | link t => exact .inl rfl
                | file b => exact ih (n :: l)
                | directory => exact ih (n :: l)

theorem walkFrom_put_file (hk : fs.TakesFile k) (c : Bytes) (links : Nat) (l : Location)
    (ms : List Move) :
    (fs.put k (.file c)).walkFrom aim links l ms = fs.walkFrom aim links l ms ∨
      (fs.put k (.file c)).walkFrom aim links l ms = .ok (.occupied k (.file c)) ∨
      (fs.put k (.file c)).walkFrom aim links l ms = .error .notADirectory := by
  rcases glide_put_file hk c l ms with hg | hg | hg
  · rw [FileSystem.walkFrom.eq_def, FileSystem.walkFrom.eq_def fs, hg]
    split
    · exact .inl rfl
    · exact .inl rfl
    · exact .inl rfl
    · cases links with
      | zero => exact .inl rfl
      | succ links => exact walkFrom_put_file hk c links _ _
  · exact .inr (.inl (walkFrom_of_reached hg))
  · exact .inr (.inr (walkFrom_of_refused hg))

theorem walk_put_file (aim : Aim) (hk : fs.TakesFile k) (c : Bytes) (p : Path) :
    (fs.put k (.file c)).walk aim p = fs.walk aim p ∨
      (fs.put k (.file c)).walk aim p = .ok (.occupied k (.file c)) ∨
      (fs.put k (.file c)).walk aim p = .error .notADirectory := by
  unfold FileSystem.walk
  split
  · exact .inl rfl
  · exact walkFrom_put_file hk c maxLinks _ _

/-- A file that is put elsewhere than where a path leads does not change what the path leads to,
except that another error may say that it leads nowhere. -/
theorem walk_put_file_elsewhere (hk : fs.TakesFile k) (c : Bytes) (h : fs.lead p ≠ some k) :
    (fs.put k (.file c)).walk .follow p = fs.walk .follow p ∨
      fs.walk .follow p = .error .notFound ∧
        (fs.put k (.file c)).walk .follow p = .error .notADirectory := by
  have hgrows := Grows.put_file hk c
  rcases walk_put_file .follow hk c p with hw | hw | hw
  · exact .inl hw
  · have hlead := lead_of_walk hw
    rw [hgrows.lead] at hlead
    exact absurd hlead h
  · have hend := hgrows.walk .follow p
    rw [hw] at hend
    cases hold : fs.walk .follow p with
    | error e =>
      by_cases he : e = .notFound
      · exact .inr ⟨by rw [he], hw⟩
      · rw [hold] at hend
        rw [hw]
        exact .inl (hend he)
    | ok place =>
      rw [hold] at hend
      cases place with
      | occupied l node =>
        obtain ⟨_, -, hend⟩ := hend
        cases hend
      | free dir n =>
        cases hn : (fs.put k (.file c)).get? (n :: dir) with
        | none => cases hend.1 hn
        | some node => cases hend.2 node hn

end FileSystem

end GameLauncher
