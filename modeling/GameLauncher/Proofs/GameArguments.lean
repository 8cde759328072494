import GameLauncher.Proofs.CommandLineFailures
import GameLauncher.Proofs.LogContent

namespace GameLauncher

variable {pre r r₁ r₂ tokens : List String} {fs files : FileSystem} {k l : Location}
  {content : Bytes} {session : Session} {clock : Clock} {sur : Launch.Surroundings}

namespace Segment

/-- A segment that would take the tokens behind the end of the line, if there were any. -/
def isOpen : Segment → Bool
  | separator _ | cut .. => true
  | _ => false

theorem ofTokens_append (h : ∀ seg ∈ ofTokens pre, seg.isOpen = false) (ts : List String) :
    ofTokens (pre ++ ts) = ofTokens pre ++ ofTokens ts := by
  fun_induction ofTokens pre with
  | case1 => rfl
  | case2 rest => cases h _ List.mem_cons_self
  | case3 t rest hsep hflag ih =>
    have hrest := ih fun seg hseg ↦ h seg (List.mem_cons_of_mem _ hseg)
    rw [List.cons_append, ofTokens, if_neg hsep, hflag, hrest]
    rfl
  | case4 t rest hsep s hflag ih =>
    have hrest := ih fun seg hseg ↦ h seg (List.mem_cons_of_mem _ hseg)
    rw [List.cons_append, ofTokens, if_neg hsep, hflag, hrest]
    rfl
  | case5 t hsep p hflag => cases h _ List.mem_cons_self
  | case6 t hsep p hflag v rest ih =>
    have hrest := ih fun seg hseg ↦ h seg (List.mem_cons_of_mem _ hseg)
    rw [List.cons_append, List.cons_append, ofTokens, if_neg hsep, hflag]
    simp only [hrest, List.cons_append]

theorem ofTokens_append_separator (h : ∀ seg ∈ ofTokens pre, seg.isOpen = false)
    (r : List String) :
    ofTokens (pre ++ GameLauncher.separator :: r) = ofTokens pre ++ [.separator r] := by
  rw [ofTokens_append h, ofTokens, if_pos rfl]

end Segment

def Invocation.withArguments (i : Invocation) (r : List String) : Invocation :=
  { i with gameArgs := r }

namespace Progress

def withArguments (a : Progress) (r : List String) : Progress :=
  { a with invocation := a.invocation.withArguments r }

/-- What stands behind the separator is not looked at as the command line is read: it ends early
whatever stands there, or all of it becomes the game's arguments. -/
theorem readCommandLine_arguments (hpre : ∀ seg ∈ Segment.ofTokens pre, seg.isOpen = false)
    (session : Session) (files : FileSystem) (name : String) :
    (∃ read e, ∀ r, readCommandLine session files (name :: (pre ++ separator :: r)) =
        (read, some e)) ∨
      ∃ read : Progress, ∀ r, r ≠ [] →
        readCommandLine session files (name :: (pre ++ separator :: r)) =
          (read.withArguments r, none) := by
  have hread : ∀ r, readCommandLine session files (name :: (pre ++ separator :: r)) =
      (meaning session files []).run (Segment.ofTokens pre ++ [.separator r]) := by
    intro r
    rw [readCommandLine, if_neg (by simp), start_eq_meaning, List.tail_cons,
      Segment.ofTokens_append_separator hpre]
  rcases hrun : (meaning session files []).run (Segment.ofTokens pre) with ⟨read, _ | e⟩
  · have haccepted : ∀ seg ∈ Segment.ofTokens pre, seg.IsAccepted files :=
      (run_eq_none hrun :)
    rw [run_meaning (Segment.cutInto_ofTokens pre) (by simp) haccepted, List.nil_append] at hrun
    have hnone : ∀ rest, .separator rest ∉ Segment.ofTokens pre := by
      intro rest hrest
      cases hpre _ hrest
    have hargs : (meaning session files (Segment.ofTokens pre)).invocation.gameArgs = [] := by
      rw [meaning, Segment.gameArguments, Segment.findSome?_tail?_eq_none hnone]
      rfl
    cases hrun
    refine .inr ⟨meaning session files (Segment.ofTokens pre), fun r hr ↦ ?_⟩
    rw [hread, run_append (run_meaning (Segment.cutInto_ofTokens pre) (by simp) haccepted),
      List.nil_append, run, step, List.isEmpty_eq_false_iff.2 hr, if_neg Bool.false_ne_true]
    simp only [hargs, List.nil_append, proceed, run]
    rfl
  · obtain ⟨before, seg, after, m, hsegs, hbefore, hstep⟩ := run_eq_some hrun
    refine .inl ⟨read, e, fun r ↦ ?_⟩
    rw [hread, hsegs, List.append_assoc, run_append hbefore, List.cons_append, run, hstep]
    rfl

end Progress

/-- What is handed to a core, with a game's arguments at its end. -/
def Event.withArguments (r : List String) : Event → Event
  | .spawn argv workingDir env => .spawn (argv ++ r.take 32) workingDir env
  | e => e

namespace Launch

theorem map_withArguments_waitEvents (r : List String) (pid : Int) (interval : Seconds)
    (answers : List Bool) :
    (waitEvents pid interval answers).map (Event.withArguments r) =
      waitEvents pid interval answers := by
  fun_induction waitEvents pid interval answers <;> simp_all [Event.withArguments]

theorem events_start (sur : Surroundings) (core : Path) (game : Game) (invocation : Invocation)
    (session : Session) :
    (start sur core game invocation session).events =
      (start sur core game (invocation.withArguments []) session).events.map
        (Event.withArguments invocation.gameArgs) := by
  have hwait : (invocation.waitPid.elim [] fun pid ↦ waitEvents pid pollInterval sur.alive).map
      (Event.withArguments invocation.gameArgs) =
        invocation.waitPid.elim [] fun pid ↦ waitEvents pid pollInterval sur.alive := by
    cases invocation.waitPid with
    | none => rfl
    | some pid => exact map_withArguments_waitEvents ..
  rw [start, start, List.map_append]
  exact congrArg (· ++ _) hwait.symm

/-- A launch is the same whatever the game's arguments are, but for these at the end of what the
core is started with. -/
theorem run_arguments (sur : Surroundings) (fs : FileSystem) (game : Game)
    (invocation : Invocation) (session : Session) :
    let blind := run sur fs game (invocation.withArguments []) session
    (run sur fs game invocation session).result = blind.result ∧
      (run sur fs game invocation session).events =
        blind.events.map (Event.withArguments invocation.gameArgs) := by
  simp only [run]
  cases session.settings.coreExecutable with
  | none => exact ⟨rfl, rfl⟩
  | some core =>
    simp only
    rcases fs.isFile core with f | _ | _
    · exact ⟨rfl, rfl⟩
    · exact ⟨rfl, rfl⟩
    · exact ⟨rfl, events_start ..⟩

end Launch

/-- Two outcomes that only the arguments of the game tell apart: by what the core is started with,
and by files at some places. -/
structure Outcome.AgreeBut (P : Location → Prop) (r₁ r₂ : List String) (o₁ o₂ : Outcome Event) :
    Prop where
  exit : o₁.exit = o₂.exit
  stdout : o₁.desk.stdout = o₂.desk.stdout
  stderr : o₁.desk.stderr = o₂.desk.stderr
  files : o₁.desk.files.SameBut P o₂.desk.files
  events : ∃ events : List Event, o₁.events = events.map (Event.withArguments r₁) ∧
    o₂.events = events.map (Event.withArguments r₂)

theorem Outcome.AgreeBut.mono {P Q : Location → Prop} {o₁ o₂ : Outcome Event}
    (h : o₁.AgreeBut P r₁ r₂ o₂) (hPQ : ∀ l, P l → Q l) : o₁.AgreeBut Q r₁ r₂ o₂ :=
  ⟨h.exit, h.stdout, h.stderr, h.files.mono hPQ, h.events⟩

namespace Run

variable {desk d : Desk} {game : Game} {invocation : Invocation} {threshold : Level}
  {o o₁ o₂ : Outcome Event} {P : Location → Prop}

theorem agreeBut_of_eq (heq : o₁ = o₂) (hevents : o₁.events = []) : o₁.AgreeBut P r₁ r₂ o₂ := by
  subst heq
  exact ⟨rfl, rfl, rfl, .refl P _, [], hevents, hevents⟩

theorem told_eq (d : Desk) (files : FileSystem) (logging : Logging)
    (result : Except Failure LaunchResult) :
    told { d with files, logging } result = { told d result with files, logging } := by
  unfold told
  cases result with
  | error f => rfl
  | ok r =>
    simp only
    split <;> rfl

theorem launch_arguments (h : d.LogsTo fs threshold k content) (sur : Launch.Surroundings)
    (clock : Clock) (game : Game) (invocation : Invocation) (session : Session)
    (r : List String) :
    let blind := Launch.run sur d.files game (invocation.withArguments []) session
    ∃ files logging, launch (Launch.run sur) clock d game (invocation.withArguments r) session =
        ⟨launchExit blind.result, blind.events.map (Event.withArguments r),
          { told d blind.result with files, logging }⟩ ∧
      fs.SameBut (· = k) files := by
  intro blind
  obtain ⟨hresult, hevents⟩ := Launch.run_arguments sur d.files game
    (invocation.withArguments r) session
  obtain ⟨files, logging, _, hall, -, hlogs⟩ := h.logAll_eq clock
    (launchRecords (Launch.run sur d.files game (invocation.withArguments r) session))
  refine ⟨files, logging, ?_, ?_⟩
  · rw [launch_eq_told]
    simp only [hresult, hevents, hall, told_eq]
    rfl
  · have hfiles := hlogs.elsewhere
    rwa [hall] at hfiles

theorem play_arguments (h : d.LogsTo fs threshold k content) (sur : Launch.Surroundings)
    (clock : Clock) (invocation : Invocation) (session : Session) (r₁ r₂ : List String) :
    (play (Launch.run sur) clock d (invocation.withArguments r₁) session).AgreeBut (· = k)
      r₁ r₂ (play (Launch.run sur) clock d (invocation.withArguments r₂) session) := by
  cases hgiven : invocation.gamePath.isNone with
  | true =>
    have hplay : ∀ r, play (Launch.run sur) clock d (invocation.withArguments r) session =
        (d.error noGameInfo).exit 1 := by
      intro r
      rw [play, if_pos (show (invocation.withArguments r).gamePath.isNone = true from hgiven)]
    rw [hplay, hplay]
    exact agreeBut_of_eq rfl rfl
  | false =>
    have hgiven' : ∀ r, (invocation.withArguments r).gamePath.isNone = false := fun _ ↦ hgiven
    have hsought : ∀ r, sought clock d (invocation.withArguments r) session =
        sought clock d invocation session := fun _ ↦ rfl
    rw [play_eq_sought (hgiven' r₁), play_eq_sought (hgiven' r₂), hsought, hsought]
    rcases hfound : sought clock d invocation session with ⟨d', f | game⟩
    · apply agreeBut_of_eq rfl
      simp only
      split <;> rfl
    · obtain ⟨_, -, hlogs⟩ := sought_logsTo h clock invocation session
      rw [hfound] at hlogs
      obtain ⟨files₁, logging₁, ho₁, hfiles₁⟩ :=
        launch_arguments hlogs sur clock game invocation session r₁
      obtain ⟨files₂, logging₂, ho₂, hfiles₂⟩ :=
        launch_arguments hlogs sur clock game invocation session r₂
      simp only [ho₁, ho₂]
      exact ⟨rfl, rfl, rfl, hfiles₁.symm.trans hfiles₂, _, rfl, rfl⟩

end Run

/-- What stands behind the separator reaches nothing but the log and the end of what the core is
started with, which are the first of these tokens. -/
theorem run_agreeBut_arguments {segs : List Segment} {env : Environment} {userDir : Option Path}
    {logging : Logging} {name : String} (hcut : Segment.CutInto pre segs)
    (hclosed : ∀ seg ∈ segs, seg.isOpen = false) (h₁ : r₁ ≠ []) (h₂ : r₂ ≠ []) :
    let o r := run (Launch.run sur) clock env userDir files logging
      (name :: (pre ++ separator :: r))
    (o r₁).AgreeBut (Run.IsLogPlace env userDir files) r₁ r₂ (o r₂) := by
  intro o
  rw [hcut.eq_ofTokens] at hclosed
  simp only [o, Run.run_eq_opened]
  rcases hopened : Run.opened clock env userDir files logging with ⟨desk, f | session⟩
  · exact Run.agreeBut_of_eq rfl rfl
  simp only
  rcases Progress.readCommandLine_arguments hclosed session desk.files name with
    ⟨read, e, hread⟩ | ⟨read, hread⟩
  · rw [Run.withSession_eq_finish (hread r₁), Run.withSession_eq_finish (hread r₂)]
    exact Run.agreeBut_of_eq rfl (Run.events_finish _ _)
  · have hready : ∀ r, Run.ready clock (Run.heard clock desk (read.withArguments r))
        (read.withArguments r).session (read.withArguments r).warnings =
          Run.ready clock (Run.heard clock desk read) read.session read.warnings := fun _ ↦ rfl
    rw [Run.withSession_eq_proceed (hread r₁ h₁), Run.withSession_eq_proceed (hread r₂ h₂),
      Run.proceed_eq_ready, Run.proceed_eq_ready, hready, hready]
    rcases hd : Run.ready clock (Run.heard clock desk read) read.session read.warnings with
      ⟨d, f | u⟩
    · exact Run.agreeBut_of_eq rfl rfl
    · obtain ⟨threshold, k, kept, opened, hlog, rfl⟩ := Run.ready_eq_ok hd
      have hplace := Run.isLogPlace_of_opensLog hopened (hread r₁ h₁) hlog
      obtain ⟨_, -, hlogs⟩ := hlog.logsTo.logAll clock
        (Run.openingRecords (Run.logFile read.session) read.session.logAppend read.warnings)
      apply (Run.play_arguments hlogs sur clock read.invocation read.session r₁ r₂).mono
      rintro l rfl
      exact hplace

def patchPrefix : List String := ["-g", "g", "--patch", "--"]

theorem cutInto_patchPrefix : Segment.CutInto patchPrefix
    [.valued .game "-g" "g", .valued .patch "--patch" "--"] :=
  .valued "g" (by decide) (.valued "--" (by decide) .nil)

def commandLikes : List String := ["--help", "--", "--add-game-folder"]

def runBehindPatch (r : List String) : Outcome Event :=
  run (Launch.run { env := [] }) .stopped [] (some (.ofString "user")) (treeWithCore "core") {}
    (programName :: (patchPrefix ++ separator :: r))

/-- Of two game's arguments that look like commands one has two tokens too many. -/
theorem run_agreeBut_arguments_commands :
    let r := List.replicate 34 "--log-append"
    Segment.CutInto patchPrefix [.valued .game "-g" "g", .valued .patch "--patch" "--"] ∧
      (runBehindPatch commandLikes).events =
        [.spawn ["core", "g/eboot.bin", "--help", "--", "--add-game-folder"] "g"
          (plainVariables "g" ++ [("EMUCLI_PATCH_FILE", "--")])] ∧
      (runBehindPatch commandLikes).AgreeBut
        (Run.IsLogPlace [] (some (.ofString "user")) (treeWithCore "core")) commandLikes r
        (runBehindPatch r) := by
  intro r
  refine ⟨cutInto_patchPrefix, ?_, ?_⟩
  · rw [runBehindPatch, run_treeWithCore, patchPrefix, commandLikes]
    simp only [List.cons_append, List.nil_append]
    rfl
  · exact run_agreeBut_arguments cutInto_patchPrefix (by decide) (by decide) (by decide)

end GameLauncher
