import GameLauncher.FileSystem.Access

namespace GameLauncher

namespace FileSystem

variable {fs fs' fs'' : FileSystem} {aim : Aim} {l k dir : Location} {n : Name} {node : Node}
  {c : Bytes} {ms rest : List Move}

@[simp] theorem get?_nil (fs : FileSystem) : fs.get? [] = some .directory := rfl

theorem ne_nil_of_get?_none (h : fs.get? l = none) : l ≠ [] := by
  rintro rfl
  simp at h

theorem ne_nil_of_get?_file (h : fs.get? l = some (.file c)) : l ≠ [] := by
  rintro rfl
  simp at h

theorem get?_put_self (hl : l ≠ []) : (fs.put l node).get? l = some node := by
  rw [get?_put _ hl, if_pos rfl]

theorem get?_put_of_ne (hl : l ≠ []) (hk : k ≠ l) : (fs.put l node).get? k = fs.get? k := by
  rw [get?_put _ hl, if_neg hk]

def TakesFile (fs : FileSystem) (l : Location) : Prop :=
  fs.get? l = none ∨ ∃ c, fs.get? l = some (.file c)

theorem TakesFile.ne_nil (h : fs.TakesFile l) : l ≠ [] := by
  rcases h with h | ⟨c, h⟩
  · exact ne_nil_of_get?_none h
  · exact ne_nil_of_get?_file h

/-- A later state of a tree in which nothing was taken away and no link was made: whatever stood
somewhere stands there as what it was, only that files may hold other bytes. -/
structure Grows (fs fs' : FileSystem) : Prop where
  workingDir : fs'.workingDir = fs.workingDir
  host : fs'.host = fs.host
  directory : ∀ l, fs.get? l = some .directory → fs'.get? l = some .directory
  file : ∀ l c, fs.get? l = some (.file c) → ∃ c', fs'.get? l = some (.file c')
  link : ∀ l t, fs.get? l = some (.link t) ↔ fs'.get? l = some (.link t)

namespace Grows

theorem refl (fs : FileSystem) : Grows fs fs :=
  ⟨rfl, rfl, fun _ h ↦ h, fun _ c h ↦ ⟨c, h⟩, fun _ _ ↦ Iff.rfl⟩

theorem trans (h : Grows fs fs') (h' : Grows fs' fs'') : Grows fs fs'' where
  workingDir := h'.workingDir.trans h.workingDir
  host := h'.host.trans h.host
  directory l hl := h'.directory l (h.directory l hl)
  file l c hl := by
    obtain ⟨c', hc'⟩ := h.file l c hl
    exact h'.file l c' hc'
  link l t := (h.link l t).trans (h'.link l t)

theorem put_file (h : fs.TakesFile l) (c : Bytes) : Grows fs (fs.put l (.file c)) where
  workingDir := rfl
  host := rfl
  directory k hk := by
    have hne : k ≠ l := by
      rintro rfl
      rcases h with h | ⟨_, h⟩ <;> simp [hk] at h
    rw [get?_put_of_ne h.ne_nil hne, hk]
  file k b hk := by
    by_cases hkl : k = l
    · exact ⟨c, hkl ▸ get?_put_self (hkl ▸ h.ne_nil)⟩
    · exact ⟨b, by rw [get?_put_of_ne h.ne_nil hkl, hk]⟩
  link k t := by
    by_cases hkl : k = l
    · subst hkl
      rw [get?_put_self h.ne_nil]
      rcases h with h | ⟨_, h⟩ <;> simp [h]
    · rw [get?_put_of_ne h.ne_nil hkl]

theorem put_directory (h : fs.get? l = none) : Grows fs (fs.put l .directory) where
  workingDir := rfl
  host := rfl
  directory k hk := by
    by_cases hkl : k = l
    · exact hkl ▸ get?_put_self (hkl ▸ ne_nil_of_get?_none h)
    · rw [get?_put_of_ne (ne_nil_of_get?_none h) hkl, hk]
  file k b hk := by
    have hne : k ≠ l := by
      rintro rfl
      simp [h] at hk
    exact ⟨b, by rw [get?_put_of_ne (ne_nil_of_get?_none h) hne, hk]⟩
  link k t := by
    by_cases hkl : k = l
    · subst hkl
      simp [get?_put_self (ne_nil_of_get?_none h), h]
    · rw [get?_put_of_ne (ne_nil_of_get?_none h) hkl]

theorem isSome (h : Grows fs fs') (hl : fs.get? l = some node) :
    ∃ node', fs'.get? l = some node' := by
  cases node with
  | file c =>
    obtain ⟨c', hc'⟩ := h.file l c hl
    exact ⟨_, hc'⟩
  | directory => exact ⟨_, h.directory l hl⟩
  | link t => exact ⟨_, (h.link l t).1 hl⟩

end Grows

theorem glide_file (h : fs.get? l = some (.file c)) (m : Move) :
    fs.glide aim l (m :: rest) = .refused .notADirectory := by
  simp only [glide, h]

theorem glide_link {t : String} (h : fs.get? l = some (.link t)) (m : Move) :
    fs.glide aim l (m :: rest) = .refused .notADirectory := by
  simp only [glide, h]

theorem glide_none (h : fs.get? l = none) : fs.glide aim l ms = .refused .notFound := by
  cases ms <;> simp only [glide, h]

theorem get?_of_glide (h : fs.glide aim l ms = .reached k node) : fs.get? k = some node := by
  fun_induction glide fs aim l ms <;> simp_all

theorem free_of_glide (h : fs.glide aim l ms = .missing dir n) :
    fs.get? (n :: dir) = none ∧ fs.get? dir = some .directory := by
  fun_induction glide fs aim l ms <;> simp_all

end FileSystem

/-- How the outcome of a stretch of a walk may change when the tree grows to `fs'`: only what was
missing may be found. -/
def Stop.GrowsTo (fs' : FileSystem) : Stop → Stop → Prop
  | .reached k _, s => ∃ node, fs'.get? k = some node ∧ s = .reached k node
  | .missing dir n, s => (fs'.get? (n :: dir) = none → s = .missing dir n) ∧
      ∀ node, fs'.get? (n :: dir) = some node → s = .reached (n :: dir) node
  | .detour dir t rest, s => s = .detour dir t rest
  | .refused e, s => e ≠ .notFound → s = .refused e

namespace FileSystem

variable {fs fs' : FileSystem} {aim : Aim} {l k dir : Location} {n : Name} {node : Node}
  {c : Bytes} {ms : List Move} {p : Path}

theorem Grows.glide (h : Grows fs fs') (aim : Aim) (l : Location) (ms : List Move) :
    (fs.glide aim l ms).GrowsTo fs' (fs'.glide aim l ms) := by
  induction ms generalizing l with
  | nil =>
    cases hl : fs.get? l with
    | none => simp [FileSystem.glide, hl, Stop.GrowsTo]
    | some node =>
      obtain ⟨node', hl'⟩ := h.isSome hl
      exact by simp [FileSystem.glide, hl, hl', Stop.GrowsTo]
  | cons m rest ih =>
    cases hl : fs.get? l with
    | none => simp [glide_none hl, Stop.GrowsTo]
    | some node => cases node with
      | file c =>
        obtain ⟨c', hl'⟩ := h.file l c hl
        simp [glide_file hl, glide_file hl', Stop.GrowsTo]
      | link t => simp [glide_link hl, glide_link ((h.link l t).1 hl), Stop.GrowsTo]
      | directory =>
        have hl' := h.directory l hl
        cases m with
        | stay | slash => simpa only [FileSystem.glide, hl, hl'] using ih l
        | up => simpa only [FileSystem.glide, hl, hl'] using ih l.tail
        | enter n =>
          simp only [FileSystem.glide, hl, hl']
          split
          · simp [Stop.GrowsTo]
          split
          · simp [Stop.GrowsTo]
          cases hn : fs.get? (n :: l) with
          | none =>
            cases rest with
            | nil =>
              constructor
              · intro hn'
                simp [hn']
              · intro node hn'
                cases node with
                | link t => simp [(h.link _ t).2 hn'] at hn
                | file c => simp [hn', FileSystem.glide]
                | directory => simp [hn', FileSystem.glide]
            | cons m rest => simp [Stop.GrowsTo]
          | some node => cases node with
            | file c =>
              obtain ⟨c', hn'⟩ := h.file _ c hn
              simpa only [hn'] using ih (n :: l)
            | directory => simpa only [h.directory _ hn] using ih (n :: l)
            | link t =>
              simp only [(h.link _ t).1 hn]
              split <;> simp [Stop.GrowsTo, (h.link _ t).1 hn]

def EndGrowsTo (fs' : FileSystem) : Except Errno Place → Except Errno Place → Prop
  | .ok (.occupied k _), r => ∃ node, fs'.get? k = some node ∧ r = .ok (.occupied k node)
  | .ok (.free dir n), r => (fs'.get? (n :: dir) = none → r = .ok (.free dir n)) ∧
      ∀ node, fs'.get? (n :: dir) = some node → r = .ok (.occupied (n :: dir) node)
  | .error e, r => e ≠ .notFound → r = .error e

theorem walkFrom_of_reached {links : Nat} (h : fs.glide aim l ms = .reached k node) :
    fs.walkFrom aim links l ms = .ok (.occupied k node) := by
  rw [FileSystem.walkFrom.eq_def, h]

theorem walkFrom_of_missing {links : Nat} (h : fs.glide aim l ms = .missing dir n) :
    fs.walkFrom aim links l ms = .ok (.free dir n) := by
  rw [FileSystem.walkFrom.eq_def, h]

theorem walkFrom_of_refused {links : Nat} {e : Errno} (h : fs.glide aim l ms = .refused e) :
    fs.walkFrom aim links l ms = .error e := by
  rw [FileSystem.walkFrom.eq_def, h]

theorem Grows.walkFrom (h : Grows fs fs') (aim : Aim) (links : Nat) (l : Location)
    (ms : List Move) :
    EndGrowsTo fs' (fs.walkFrom aim links l ms) (fs'.walkFrom aim links l ms) := by
  -- Both walks take the same detours, so the recursion on the links is theirs.
  have hg := h.glide aim l ms
  cases hs : fs.glide aim l ms <;> simp only [hs, Stop.GrowsTo] at hg
  case reached k node =>
    obtain ⟨node', hk, hg⟩ := hg
    rw [walkFrom_of_reached hs]
    exact ⟨node', hk, walkFrom_of_reached hg⟩
  case missing dir n =>
    rw [walkFrom_of_missing hs]
    exact ⟨fun hn ↦ walkFrom_of_missing (hg.1 hn), fun c hn ↦ walkFrom_of_reached (hg.2 c hn)⟩
  case refused e =>
    rw [walkFrom_of_refused hs]
    exact fun he ↦ walkFrom_of_refused (hg he)
  case detour dir t rest =>
    rw [FileSystem.walkFrom.eq_def, FileSystem.walkFrom.eq_def fs', hs, hg]
    cases links with
    | zero => exact fun _ ↦ rfl
    | succ links => exact h.walkFrom aim links _ _

theorem Grows.walk (h : Grows fs fs') (aim : Aim) (p : Path) :
    EndGrowsTo fs' (fs.walk aim p) (fs'.walk aim p) := by
  have hstart : fs'.startOf p = fs.startOf p := by
    simp only [startOf, h.workingDir]
  unfold FileSystem.walk
  split
  · exact fun _ ↦ rfl
  · rw [hstart]
    exact h.walkFrom aim maxLinks _ _

theorem get?_of_walkFrom {links : Nat} (h : fs.walkFrom aim links l ms = .ok (.occupied k node)) :
    fs.get? k = some node := by
  fun_induction walkFrom fs aim links l ms <;> simp_all
  exact get?_of_glide ‹_›

theorem free_of_walkFrom {links : Nat} (h : fs.walkFrom aim links l ms = .ok (.free dir n)) :
    fs.get? (n :: dir) = none ∧ fs.get? dir = some .directory := by
  fun_induction walkFrom fs aim links l ms <;> simp_all
  exact free_of_glide ‹_›

theorem get?_of_walk (h : fs.walk aim p = .ok (.occupied l node)) : fs.get? l = some node := by
  unfold FileSystem.walk at h
  split at h
  · cases h
  · exact get?_of_walkFrom h

theorem free_of_walk (h : fs.walk aim p = .ok (.free dir n)) :
    fs.get? (n :: dir) = none ∧ fs.get? dir = some .directory := by
  unfold FileSystem.walk at h
  split at h
  · cases h
  · exact free_of_walkFrom h

/-- A walk that ends at a node ends there in every later state. -/
theorem Grows.walk_occupied (h : Grows fs fs') (hw : fs.walk aim p = .ok (.occupied l node)) :
    ∃ node', fs'.get? l = some node' ∧ fs'.walk aim p = .ok (.occupied l node') := by
  have := h.walk aim p
  rwa [hw] at this

theorem glide_follow_of_create (fs : FileSystem) (l : Location) (ms : List Move) :
    fs.glide .create l ms = .refused .isADirectory ∨
      fs.glide .follow l ms = fs.glide .create l ms := by
  induction ms generalizing l with
  | nil => exact .inr (by simp only [FileSystem.glide])
  | cons m rest ih =>
    cases hl : fs.get? l with
    | none => simp [glide_none hl]
    | some node => cases node with
      | file c => simp [glide_file hl]
      | link t => simp [glide_link hl]
      | directory =>
        cases m with
        | stay | slash => simpa only [FileSystem.glide, hl] using ih l
        | up => simpa only [FileSystem.glide, hl] using ih l.tail
        | enter n =>
          simp only [FileSystem.glide, hl]
          split
          · exact .inl rfl
          · have hnext := ih (n :: l)
            simp only [reduceCtorEq, decide_false, Bool.false_and, Bool.false_eq_true, ↓reduceIte,
              Bool.and_false]
            split
            · exact .inr rfl
            · cases hn : fs.get? (n :: l) with
              | none => exact .inr rfl
              | some node => cases node with
                | link t => exact .inr rfl
                | file c => exact hnext
                | directory => exact hnext

theorem walkFrom_follow_of_create {place : Place} {links : Nat} {l : Location} {ms : List Move}
    (h : fs.walkFrom .create links l ms = .ok place) :
    fs.walkFrom .follow links l ms = .ok place := by
  rcases glide_follow_of_create fs l ms with hg | hg
  · rw [walkFrom_of_refused hg] at h
    cases h
  · rw [FileSystem.walkFrom.eq_def] at h ⊢
    rw [hg]
    cases hs : fs.glide .create l ms <;> simp only [hs] at h ⊢
    case detour dir t rest =>
      cases links with
      | zero => cases h
      | succ links =>
        simp only at h ⊢
        exact walkFrom_follow_of_create h
    all_goals exact h

theorem walk_follow_of_create {place : Place} (h : fs.walk .create p = .ok place) :
    fs.walk .follow p = .ok place := by
  unfold FileSystem.walk at h ⊢
  split at h
  · cases h
  · rename_i hlong
    rw [if_neg hlong]
    exact walkFrom_follow_of_create h

theorem resolve_eq_ok {place : Place} (h : fs.resolve aim p = .ok place) :
    p.hasNull = false ∧ fs.walk aim p = .ok place := by
  unfold resolve at h
  split at h
  · cases h
  · rename_i hnull
    cases hw : fs.walk aim p with
    | error e => simp [hw] at h
    | ok place' =>
      simp only [hw, Except.ok.injEq] at h
      exact ⟨by simpa using hnull, congrArg _ h⟩

theorem openForWriting_eq_ok {old : Bytes} (h : fs.openForWriting p = .ok (l, old)) :
    p.hasNull = false ∧ fs.TakesFile l ∧
      ∀ c, (fs.put l (.file c)).walk .follow p = .ok (.occupied l (.file c)) := by
  unfold openForWriting at h
  cases hr : fs.resolve .create p with
  | error f => simp [hr] at h
  | ok place =>
    obtain ⟨hnull, hw⟩ := resolve_eq_ok hr
    have hfollow := walk_follow_of_create hw
    cases place with
    | occupied k node =>
      cases node with
      | file content =>
        simp only [hr, Except.ok.injEq, Prod.mk.injEq] at h
        obtain ⟨rfl, rfl⟩ := h
        have htakes : fs.TakesFile k := .inr ⟨_, get?_of_walk hw⟩
        refine ⟨hnull, htakes, ?_⟩
        intro c
        obtain ⟨node, hk, hwalk⟩ := (Grows.put_file htakes c).walk_occupied hfollow
        rw [get?_put_self htakes.ne_nil] at hk
        cases hk
        exact hwalk
      | directory => simp [hr] at h
      | link t => simp [hr] at h
    | free dir n =>
      simp only [hr, Except.ok.injEq, Prod.mk.injEq] at h
      obtain ⟨rfl, rfl⟩ := h
      have htakes : fs.TakesFile (n :: dir) := .inl (free_of_walk hw).1
      refine ⟨hnull, htakes, ?_⟩
      intro c
      have hgrows := (Grows.put_file htakes c).walk .follow p
      rw [hfollow] at hgrows
      exact hgrows.2 _ (get?_put_self htakes.ne_nil)

theorem write_eq_ok (h : fs.write p c = .ok fs') :
    ∃ l old, fs.openForWriting p = .ok (l, old) ∧ fs' = fs.put l (.file c) := by
  unfold write at h
  cases ho : fs.openForWriting p with
  | error f => simp [ho, Except.map] at h
  | ok opened =>
    simp only [ho, Except.map, Except.ok.injEq] at h
    exact ⟨opened.1, opened.2, rfl, h.symm⟩

end FileSystem

end GameLauncher
