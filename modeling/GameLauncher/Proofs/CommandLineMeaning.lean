import GameLauncher.CommandLine.Interpreter

namespace GameLauncher

namespace Segment

/-- How a command line falls into segments, from the left: the separator takes all that is left, a
spelling of a parameter takes the next token whatever it is, and every other token stands alone. -/
inductive CutInto : List String → List Segment → Prop
  | nil : CutInto [] []
  | separator (rest : List String) : CutInto ("--" :: rest) [.separator rest]
  | switch {s : Switch} {t : String} {rest : List String} {segs : List Segment} :
      t ∈ s.spellings → CutInto rest segs → CutInto (t :: rest) (.switch s t :: segs)
  | valued {p : Parameter} {t : String} (v : String) {rest : List String} {segs : List Segment} :
      t ∈ p.spellings → CutInto rest segs → CutInto (t :: v :: rest) (.valued p t v :: segs)
  | cut {p : Parameter} {t : String} : t ∈ p.spellings → CutInto [t] [.cut p t]
  | unknown {t : String} {rest : List String} {segs : List Segment} :
      t ≠ "--" → (∀ f : Flag, t ∉ f.spellings) → CutInto rest segs →
        CutInto (t :: rest) (.unknown t :: segs)

theorem cutInto_ofTokens (ts : List String) : CutInto ts (ofTokens ts) := by
  fun_induction ofTokens ts with
  | case1 => exact .nil
  | case2 rest => exact .separator rest
  | case3 t rest hsep hflag ih =>
    refine .unknown hsep ?_ ih
    intro f hf
    have := List.find?_eq_none.1 hflag f (Flag.mem_all f)
    simp [hf] at this
  | case4 t rest hsep s hflag ih => exact .switch (Flag.mem_spellings_of_ofSpelling? hflag) ih
  | case5 t hsep p hflag => exact .cut (Flag.mem_spellings_of_ofSpelling? hflag)
  | case6 t hsep p hflag v rest ih => exact .valued v (Flag.mem_spellings_of_ofSpelling? hflag) ih

theorem ofSpelling?_of_mem {f : Flag} {t : String} (h : t ∈ f.spellings) :
    Flag.ofSpelling? t = some f ∧ t ≠ GameLauncher.separator := by
  have hall : ∀ f ∈ Flag.all, ∀ t ∈ f.spellings,
      Flag.ofSpelling? t = some f ∧ t ≠ GameLauncher.separator := by decide
  exact hall f (Flag.mem_all f) t h

theorem CutInto.eq_ofTokens {ts : List String} {segs : List Segment} (h : CutInto ts segs) :
    segs = ofTokens ts := by
  induction h with
  | nil => rfl
  | separator rest => rfl
  | @switch s t rest segs ht h ih =>
    obtain ⟨hflag, hsep⟩ := ofSpelling?_of_mem (f := .switch s) ht
    rw [ofTokens, if_neg hsep, hflag, ih]
  | @valued p t v rest segs ht h ih =>
    obtain ⟨hflag, hsep⟩ := ofSpelling?_of_mem (f := .parameter p) ht
    rw [ofTokens, if_neg hsep, hflag, ih]
  | @cut p t ht =>
    obtain ⟨hflag, hsep⟩ := ofSpelling?_of_mem (f := .parameter p) ht
    rw [ofTokens, if_neg hsep, hflag]
  | @unknown t rest segs hsep hnone h ih =>
    have hflag : Flag.ofSpelling? t = none := by
      cases hf : Flag.ofSpelling? t with
      | none => rfl
      | some f => exact absurd (Flag.mem_spellings_of_ofSpelling? hf) (hnone f)
    rw [ofTokens, if_neg (show t ≠ GameLauncher.separator from hsep), hflag, ih]

def valueFor (q : Parameter) : Segment → Option String
  | valued p _ v => if p = q then some v else none
  | _ => none

def lastValue (q : Parameter) (segs : List Segment) : Option String :=
  (segs.filterMap (valueFor q)).getLast?

def isSwitch (s : Switch) : Segment → Bool
  | switch s' _ => s' = s
  | _ => false

def occurs (s : Switch) (segs : List Segment) : Bool := segs.any (isSwitch s)

def mode? : Segment → Option ConfigMode
  | switch .configClean _ => some .clean
  | switch .configGlobal _ => some .global
  | _ => none

def lastMode (segs : List Segment) : Option ConfigMode := (segs.filterMap mode?).getLast?

def bareWord? : Segment → Option String
  | unknown t => if t ≠ "" ∧ t.toList.head? ≠ some '-' then some t else none
  | _ => none

def namedGame (segs : List Segment) : Option String :=
  (lastValue .game segs).or (segs.findSome? bareWord?)

def tail? : Segment → Option (List String)
  | separator rest => some rest
  | _ => none

def gameArguments (segs : List Segment) : List String := (segs.findSome? tail?).getD []

/-- What is reported of a segment after those before it. A bare word is passed over in silence only
where it names the game. -/
def warning? (before : List Segment) : Segment → Option Warning
  | separator [] => some .emptySeparator
  | unknown t =>
    if namedGame before = none ∧ (bareWord? (unknown t)).isSome then none else some (.unknown t)
  | _ => none

def warningsAfter (before : List Segment) : List Segment → List Warning
  | [] => []
  | seg :: rest => (warning? before seg).toList ++ warningsAfter (before ++ [seg]) rest

variable {segs : List Segment} {seg : Segment}

@[simp] theorem lastValue_concat (q : Parameter) (segs : List Segment) (seg : Segment) :
    lastValue q (segs ++ [seg]) = (valueFor q seg).or (lastValue q segs) := by
  cases h : valueFor q seg <;> simp [lastValue, h]

@[simp] theorem occurs_concat (s : Switch) (segs : List Segment) (seg : Segment) :
    occurs s (segs ++ [seg]) = (occurs s segs || isSwitch s seg) := by
  simp [occurs]

@[simp] theorem lastMode_concat (segs : List Segment) (seg : Segment) :
    lastMode (segs ++ [seg]) = (mode? seg).or (lastMode segs) := by
  cases h : mode? seg <;> simp [lastMode, h]

@[simp] theorem namedGame_concat (segs : List Segment) (seg : Segment) :
    namedGame (segs ++ [seg]) = (valueFor .game seg).or ((namedGame segs).or (bareWord? seg)) := by
  simp [namedGame, List.findSome?_append, Option.or_assoc]

theorem valued_of_lastValue {q : Parameter} {v : String} (h : lastValue q segs = some v) :
    ∃ t, .valued q t v ∈ segs := by
  obtain ⟨seg, hseg, hvalue⟩ := List.mem_filterMap.1 (List.mem_of_getLast? h)
  cases seg with
  | valued p t w =>
    by_cases hp : p = q
    · simp only [valueFor, hp, if_true, Option.some.injEq] at hvalue
      subst hp hvalue
      exact ⟨t, hseg⟩
    · simp [valueFor, hp] at hvalue
  | separator | switch | cut | unknown => cases hvalue

theorem findSome?_tail?_eq_none (h : ∀ rest, .separator rest ∉ segs) :
    segs.findSome? tail? = none := by
  rw [List.findSome?_eq_none_iff]
  intro seg hseg
  cases seg with
  | separator rest => exact absurd hseg (h rest)
  | switch | valued | cut | unknown => rfl

@[simp] theorem warningsAfter_concat (before segs : List Segment) (seg : Segment) :
    warningsAfter before (segs ++ [seg]) =
      warningsAfter before segs ++ (warning? (before ++ segs) seg).toList := by
  induction segs generalizing before with
  | nil => simp [warningsAfter]
  | cons s segs ih => simp [warningsAfter, ih]

attribute [simp] valueFor isSwitch mode? bareWord? tail? warning?

/-- Whether reading goes on behind a segment: its value is one of its flag's, and the flag is none
that ends the run. -/
def IsAccepted (files : FileSystem) : Segment → Prop
  | separator _ | unknown _ => True
  | switch s _ => s ≠ .help
  | cut _ _ => False
  | valued p spelling v => match p with
    | .game | .patch => True
    | .fullscreen => v = "true" ∨ v = "false"
    | .overrideRoot => files.isDirectory (Path.ofString v) = .ok true
    | .waitForPid => ∃ n, CommandLine.readPid spelling v = .ok n
    | .addGameFolder | .setAddonFolder => False

end Segment

def CommandLine.pidValue (v : String) : Int :=
  Decimal.signed (Decimal.sign v.toList).1 (Decimal.ofDigits 10 (Decimal.sign v.toList).2)

namespace CommandLine

theorem readBoolean_eq_ok {flag v : String} {on : Bool} :
    readBoolean flag v = .ok on ↔ (v = "true" ∨ v = "false") ∧ on = decide (v = "true") := by
  unfold readBoolean
  split
  · simp_all [eq_comm]
  split
  · simp_all [eq_comm]
  · simp_all

theorem readPid_eq_ok {flag v : String} {n : Int} (h : readPid flag v = .ok n) :
    n = pidValue v := by
  unfold readPid at h
  split at h
  rename_i negative ds hsign
  split at h
  · cases h
  split at h
  · cases h
  · simp only at h
    split at h
    · simp only [Except.ok.injEq] at h
      simp [pidValue, hsign, ← h]
    · cases h

theorem readFolder_eq_ok {files : FileSystem} {v : String} {p : Path} :
    readFolder files v = .ok p ↔
      files.isDirectory (Path.ofString v) = .ok true ∧ p = Path.ofString v := by
  unfold readFolder
  cases files.isDirectory (Path.ofString v) with
  | error f => simp
  | ok isDir => cases isDir <;> simp [eq_comm]

end CommandLine

namespace Progress

open Segment

variable {session : Session} {files : FileSystem} {segs done : List Segment} {seg : Segment}

/-- What segments that are all accepted bring about. -/
def meaning (session : Session) (files : FileSystem) (segs : List Segment) : Progress where
  session := { session with
    patchFile := (lastValue .patch segs).or session.patchFile
    ignoreGamePatches := session.ignoreGamePatches || occurs .ignoreGamePatch segs
    fullscreen :=
      ((lastValue .fullscreen segs).map fun v ↦ decide (v = "true")).or session.fullscreen
    logAppend := session.logAppend || occurs .logAppend segs
    configMode := (lastMode segs).getD session.configMode
    showFps := session.showFps || occurs .showFps segs }
  files := files
  invocation :=
    { gamePath := namedGame segs
      gameArgs := gameArguments segs
      folderOverride := (lastValue .overrideRoot segs).map Path.ofString
      waitForDebugger := occurs .waitForDebugger segs
      waitPid := (lastValue .waitForPid segs).map CommandLine.pidValue }
  warnings := warningsAfter [] segs
  records := []

theorem applySwitch_meaning {s : Switch} (h : s ≠ .help) (t : String) :
    (meaning session files done).applySwitch s =
      (meaning session files (done ++ [.switch s t]), none) := by
  cases s with
  | help => exact absurd rfl h
  | ignoreGamePatch | logAppend | waitForDebugger | configClean | configGlobal | showFps =>
    simp [applySwitch, proceed, meaning, gameArguments]

theorem applyParameter_meaning {p : Parameter} {t v : String}
    (h : (Segment.valued p t v).IsAccepted files) :
    (meaning session files done).applyParameter p t v =
      (meaning session files (done ++ [.valued p t v]), none) := by
  cases p with
  | game | patch => simp [applyParameter, proceed, meaning, gameArguments]
  | fullscreen =>
    have hread : CommandLine.readBoolean t v = .ok (decide (v = "true")) :=
      CommandLine.readBoolean_eq_ok.2 ⟨h, rfl⟩
    simp [applyParameter, withValue, hread, proceed, meaning, gameArguments]
  | overrideRoot =>
    have hread : CommandLine.readFolder files v = .ok (Path.ofString v) :=
      CommandLine.readFolder_eq_ok.2 ⟨h, rfl⟩
    simp [applyParameter, withValue, hread, proceed, meaning, gameArguments]
  | waitForPid =>
    obtain ⟨n, hread⟩ := h
    have hn := CommandLine.readPid_eq_ok hread
    simp [applyParameter, withValue, hread, hn, proceed, meaning, gameArguments]
  | addGameFolder | setAddonFolder => exact absurd h id

theorem applyUnknown_meaning (t : String) :
    (meaning session files done).step (.unknown t) =
      (meaning session files (done ++ [.unknown t]), none) := by
  have hbare : namesGame t = (bareWord? (.unknown t)).isSome := by
    simp only [namesGame, bareWord?]
    split <;> simp_all
  have hgame : (meaning session files done).invocation.gamePath = namedGame done := rfl
  rw [step, hgame, hbare]
  cases hn : namedGame done with
  | some g => simp [warn, proceed, meaning, gameArguments, hn]
  | none =>
    by_cases hword : t ≠ "" ∧ t.toList.head? ≠ some '-'
    · simp [bareWord?, hword, proceed, meaning, gameArguments, hn]
    · simp only [bareWord?, hword]
      simp [warn, proceed, meaning, gameArguments, hn, bareWord?, hword]

theorem step_meaning (hdone : ∀ rest, .separator rest ∉ done) (h : seg.IsAccepted files) :
    (meaning session files done).step seg = (meaning session files (done ++ [seg]), none) := by
  cases seg with
  | separator rest =>
    have hnone := findSome?_tail?_eq_none hdone
    cases rest <;> simp [step, warn, proceed, meaning, gameArguments, hnone]
  | switch s t => exact applySwitch_meaning h t
  | valued p t v => exact applyParameter_meaning h
  | cut p t => exact absurd h id
  | unknown t => exact applyUnknown_meaning t

theorem withValue_eq_none {α : Type} {s s' : Progress} {v : Except Failure α}
    {f : α → Progress × Option Ending} (h : s.withValue v f = (s', none)) :
    ∃ a, v = .ok a ∧ f a = (s', none) := by
  cases v with
  | error e => simp [withValue, stop] at h
  | ok a => exact ⟨a, rfl, h⟩

theorem persist_ne_none {s s' : Progress} {session : Session} {c : Completion} :
    s.persist session c ≠ (s', none) := by
  intro h
  obtain ⟨_, -, hstop⟩ := withValue_eq_none h
  simp [stop] at hstop

theorem step_eq_none {s s' : Progress} (h : s.step seg = (s', none)) :
    seg.IsAccepted s.files ∧ s'.files = s.files := by
  cases seg with
  | separator rest =>
    refine ⟨trivial, ?_⟩
    cases rest <;> simp [step, proceed, warn] at h <;> simp [← h]
  | switch sw t =>
    cases sw <;> simp [step, applySwitch, proceed, stop] at h <;>
      exact ⟨by simp [Segment.IsAccepted], by simp [← h]⟩
  | valued p t v =>
    cases p with
    | game | patch =>
      simp only [step, applyParameter, proceed, Prod.mk.injEq, and_true] at h
      exact ⟨trivial, by simp [← h]⟩
    | fullscreen =>
      obtain ⟨on, hread, h⟩ := withValue_eq_none h
      simp only [proceed, Prod.mk.injEq, and_true] at h
      exact ⟨(CommandLine.readBoolean_eq_ok.1 hread).1, by simp [← h]⟩
    | overrideRoot =>
      obtain ⟨dir, hread, h⟩ := withValue_eq_none h
      simp only [proceed, Prod.mk.injEq, and_true] at h
      exact ⟨(CommandLine.readFolder_eq_ok.1 hread).1, by simp [← h]⟩
    | waitForPid =>
      obtain ⟨pid, hread, h⟩ := withValue_eq_none h
      simp only [proceed, Prod.mk.injEq, and_true] at h
      exact ⟨⟨pid, hread⟩, by simp [← h]⟩
    | addGameFolder | setAddonFolder =>
      obtain ⟨dir, -, h⟩ := withValue_eq_none h
      exact absurd h persist_ne_none
  | cut p t => simp [step, stop] at h
  | unknown t =>
    refine ⟨trivial, ?_⟩
    simp only [step] at h
    split at h <;> simp [proceed, warn] at h <;> simp [← h]

theorem run_eq_none {s s' : Progress} (h : s.run segs = (s', none)) :
    ∀ seg ∈ segs, seg.IsAccepted s.files := by
  induction segs generalizing s with
  | nil => simp
  | cons seg segs ih =>
    rw [run] at h
    split at h
    · rename_i s₁ hstep
      obtain ⟨hseg, hfiles⟩ := step_eq_none hstep
      have hrest := ih h
      rw [hfiles] at hrest
      exact List.forall_mem_cons.2 ⟨hseg, hrest⟩
    · simp [stop] at h

/-- Accepted segments bring about what they mean, on top of those done before. -/
theorem run_meaning {ts : List String} (hcut : CutInto ts segs)
    (hdone : ∀ rest, .separator rest ∉ done) (h : ∀ seg ∈ segs, seg.IsAccepted files) :
    (meaning session files done).run segs = (meaning session files (done ++ segs), none) := by
  have next : ∀ {done seg segs}, (∀ rest, .separator rest ∉ done) →
      (∀ s ∈ seg :: segs, s.IsAccepted files) →
      (meaning session files done).run (seg :: segs) =
        (meaning session files (done ++ [seg])).run segs := by
    intro done seg segs hdone h
    rw [run, step_meaning hdone (h seg (by simp))]
  -- The segments done grow at their end, and only the last of all can be the separator.
  induction hcut generalizing done with
  | nil => simp [run, proceed]
  | separator rest => rw [next hdone h, run, proceed]
  | @switch s t rest segs _ _ ih =>
    have hd : ∀ rest, .separator rest ∉ done ++ [.switch s t] := by simpa using hdone
    rw [next hdone h, ih hd fun seg hseg ↦ h seg (by simp [hseg])]
    simp
  | @valued p t v rest segs _ _ ih =>
    have hd : ∀ rest, .separator rest ∉ done ++ [.valued p t v] := by simpa using hdone
    rw [next hdone h, ih hd fun seg hseg ↦ h seg (by simp [hseg])]
    simp
  | cut _ => exact absurd (h _ (List.mem_singleton_self _)) id
  | @unknown t rest segs _ _ _ ih =>
    have hd : ∀ rest, .separator rest ∉ done ++ [.unknown t] := by simpa using hdone
    rw [next hdone h, ih hd fun seg hseg ↦ h seg (by simp [hseg])]
    simp

theorem start_eq_meaning (session : Session) (files : FileSystem) :
    ({ session := session, files := files } : Progress) = meaning session files [] := by
  simp [meaning, lastValue, occurs, lastMode, namedGame, gameArguments, warningsAfter]

theorem readCommandLine_eq_none {tokens : List String} {s : Progress}
    (h : readCommandLine session files tokens = (s, none)) :
    2 ≤ tokens.length ∧ (∀ seg ∈ ofTokens tokens.tail, seg.IsAccepted files) ∧
      s = meaning session files (ofTokens tokens.tail) := by
  rw [readCommandLine, start_eq_meaning] at h
  split at h
  · simp [stop] at h
  · rename_i hlen
    have hseg := run_eq_none h
    rw [show (meaning session files []).files = files from rfl] at hseg
    rw [run_meaning (cutInto_ofTokens tokens.tail) (by simp) hseg] at h
    simp only [List.nil_append, Prod.mk.injEq, and_true] at h
    exact ⟨by omega, hseg, h.symm⟩

theorem readCommandLine_of_accepted {tokens : List String} (hlen : 2 ≤ tokens.length)
    (hseg : ∀ seg ∈ ofTokens tokens.tail, seg.IsAccepted files) :
    readCommandLine session files tokens =
      (meaning session files (ofTokens tokens.tail), none) := by
  rw [readCommandLine, start_eq_meaning, if_neg (by omega),
    run_meaning (Segment.cutInto_ofTokens tokens.tail) (by simp) hseg, List.nil_append]

end Progress

open Progress in
/-- A command line is read to its end exactly if it has a token behind the program's name and all
its segments are accepted, and then it brings about what the segments mean. -/
theorem readCommandLine_eq_meaning_iff {session : Session} {files : FileSystem}
    {tokens : List String} {segs : List Segment} {s : Progress}
    (hcut : Segment.CutInto tokens.tail segs) :
    readCommandLine session files tokens = (s, none) ↔
      2 ≤ tokens.length ∧ (∀ seg ∈ segs, seg.IsAccepted files) ∧
        s = meaning session files segs := by
  rw [hcut.eq_ofTokens]
  constructor
  · exact readCommandLine_eq_none
  · rintro ⟨hlen, hseg, rfl⟩
    exact readCommandLine_of_accepted hlen hseg

theorem readCommandLine_mixed :
    let session : Session := { settings := {}, settingsFile := .here, userDir := .here }
    let tokens := ["emucli", "a", "-g", "--", "-p", "--help", "b", "--wait-for-pid", "+07",
      "--config-clean", "--config-global", "--", "-g"]
    let segs := Segment.ofTokens tokens.tail
    Segment.CutInto tokens.tail segs ∧
      readCommandLine session (.bare []) tokens =
        (Progress.meaning session (.bare []) segs, none) ∧
      (Progress.meaning session (.bare []) segs).invocation =
        { gamePath := some "--", gameArgs := ["-g"], waitPid := some 7 } ∧
      (Progress.meaning session (.bare []) segs).session =
        { session with patchFile := some "--help", configMode := .global } ∧
      (Progress.meaning session (.bare []) segs).warnings = [.unknown "b"] := by
  intro session tokens segs
  have hcut : Segment.CutInto tokens.tail segs := Segment.cutInto_ofTokens tokens.tail
  have hsegs : segs = [.unknown "a", .valued .game "-g" "--", .valued .patch "-p" "--help",
      .unknown "b", .valued .waitForPid "--wait-for-pid" "+07",
      .switch .configClean "--config-clean", .switch .configGlobal "--config-global",
      .separator ["-g"]] := by decide
  have haccepted : ∀ seg ∈ segs, seg.IsAccepted (.bare []) := by
    rw [hsegs]
    simp [Segment.IsAccepted]
    exact ⟨7, rfl⟩
  have hlen : 2 ≤ tokens.length := by decide
  have hread : readCommandLine session (.bare []) tokens =
      (Progress.meaning session (.bare []) segs, none) := by
    rw [readCommandLine_eq_meaning_iff hcut]
    exact ⟨hlen, haccepted, rfl⟩
  have hinvocation : (Progress.meaning session (.bare []) segs).invocation =
      { gamePath := some "--", gameArgs := ["-g"], waitPid := some 7 } := by
    rw [hsegs]
    decide
  have hsession : (Progress.meaning session (.bare []) segs).session =
      { session with patchFile := some "--help", configMode := .global } := by
    rw [hsegs]
    decide
  have hwarnings : (Progress.meaning session (.bare []) segs).warnings = [.unknown "b"] := by
    rw [hsegs]
    decide
  exact ⟨hcut, hread, hinvocation, hsession, hwarnings⟩

end GameLauncher
