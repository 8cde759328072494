import GameLauncher.Proofs.ExitStatus
import GameLauncher.Proofs.NearestGame
import GameLauncher.Proofs.SoughtNames
import GameLauncher.Proofs.SpawnPaths

namespace GameLauncher.Launch

/-- What is known of a process that is polled: whether it was alive when it was last polled, and the
answers of the polls to come. -/
structure Hearing where
  latest : Option Bool := none
  coming : List Bool

namespace Hearing

def after (s : Hearing) : Event → Hearing
  | .poll _ => ⟨some (s.coming.headD false), s.coming.tail⟩
  | .sleep _ | .spawn .. => s

/-- Nothing is polled that is known to be gone, only a process that is alive is waited for, and no
core is started while it is. -/
def Allows (s : Hearing) : Event → Prop
  | .poll _ => s.latest ≠ some false
  | .sleep _ => s.latest = some true
  | .spawn .. => s.latest ≠ some true

def Orderly (s : Hearing) : List Event → Prop
  | [] => True
  | e :: events => s.Allows e ∧ (s.after e).Orderly events

end Hearing

variable {sur : Surroundings} {fs : FileSystem} {game : Game} {invocation : Invocation}
  {session : Session} {core : Path} {pid : Int} {interval : Seconds} {answers : List Bool}
  {s : Hearing}

theorem waitEvents_eq (pid : Int) (interval : Seconds) (answers : List Bool) :
    waitEvents pid interval answers =
      (List.replicate (answers.takeWhile id).length [.poll pid, .sleep interval]).flatten ++
        [.poll pid] := by
  fun_induction waitEvents pid interval answers with
  | case1 answers ih => simp [ih, List.replicate_succ]
  | case2 answers hgone =>
    cases answers with
    | nil => rfl
    | cons alive answers => cases alive with
      | true => exact absurd rfl (hgone answers)
      | false => rfl

/-- A wait that is begun with the process not known to be gone ends with the knowledge that it is,
so that a core can be started. -/
theorem orderly_waitEvents (hlatest : s.latest ≠ some false) (hcoming : s.coming = answers)
    (argv : List String) (cwd : String) (vars : Environment) :
    s.Orderly (waitEvents pid interval answers ++ [.spawn argv cwd vars]) := by
  induction answers generalizing s with
  | nil =>
    refine ⟨hlatest, ?_, trivial⟩
    simp [Hearing.Allows, Hearing.after, hcoming]
  | cons alive answers ih => cases alive with
    | false =>
      refine ⟨hlatest, ?_, trivial⟩
      simp [Hearing.Allows, Hearing.after, hcoming]
    | true =>
      have hheard : s.after (.poll pid) = ⟨some true, answers⟩ := by
        simp [Hearing.after, hcoming]
      refine ⟨hlatest, ?_, ?_⟩
      · rw [hheard]
        exact rfl
      · rw [hheard]
        exact ih (by simp [Hearing.after]) rfl

theorem run_of_isFile (hcore : session.settings.coreExecutable = some core)
    (hfile : fs.isFile core = .ok true) :
    run sur fs game invocation session = start sur core game invocation session := by
  simp only [run, hcore, hfile]

theorem orderly_start (sur : Surroundings) (core : Path) (game : Game) (invocation : Invocation)
    (session : Session) :
    Hearing.Orderly { coming := sur.alive } (start sur core game invocation session).events := by
  cases hpid : invocation.waitPid with
  | none => simp [start, hpid, Hearing.Orderly, Hearing.Allows]
  | some pid =>
    simp only [start, hpid, Option.elim_some]
    apply orderly_waitEvents
    · simp
    · rfl

def handOff (sur : Surroundings) (core : Path) (game : Game) (invocation : Invocation)
    (session : Session) : Event :=
  .spawn (core.text :: game.executable.text :: passedArguments invocation.gameArgs)
    game.folder.text (environment game invocation session sur.env)

/-- What a launch does that finds its core: it polls as often as the process is alive and once more,
and then starts the core. -/
structure Traces (sur : Surroundings) (core : Path) (game : Game) (invocation : Invocation)
    (session : Session) (o : LaunchReport Event) : Prop where
  waits : ∀ pid, invocation.waitPid = some pid → o.events =
    (List.replicate (sur.alive.takeWhile id).length [.poll pid, .sleep pollInterval]).flatten ++
      [.poll pid, handOff sur core game invocation session]
  starts : invocation.waitPid = none → o.events = [handOff sur core game invocation session]
  orderly : Hearing.Orderly { coming := sur.alive } o.events
  exits : ∀ n, sur.core = .exits n →
    o.result = .ok ⟨decide (n = 0), s!"Core exited with code {n}.", n⟩
  cannotStart : ∀ reason, sur.core = .cannotStart reason → o.result = .ok ⟨false, reason, 1⟩
  detaches : sur.core = .detaches → o.result = .ok ⟨true, "Launched.", 0⟩

theorem traces_start (sur : Surroundings) (core : Path) (game : Game) (invocation : Invocation)
    (session : Session) :
    Traces sur core game invocation session (start sur core game invocation session) where
  waits pid hpid := by
    simp only [start, hpid, Option.elim_some, waitEvents_eq, handOff, List.append_assoc]
    rfl
  starts hnone := by
    simp only [start, hnone, Option.elim_none, handOff, List.nil_append]
  orderly := orderly_start sur core game invocation session
  exits n hn := by rw [start, hn, CoreOutcome.result]
  cannotStart reason hreason := by rw [start, hreason, CoreOutcome.result]
  detaches hcore := by rw [start, hcore, CoreOutcome.result]

theorem run_eq_error {f : Failure} :
    (run sur fs game invocation session).result = .error f ↔
      ∃ p, session.settings.coreExecutable = some p ∧ fs.Overruns p ∧ f = .overlong p := by
  simp only [← FileSystem.isFile_eq_error]
  cases hcore : session.settings.coreExecutable with
  | none => simp [run, hcore, refuse]
  | some p => rcases hfile : fs.isFile p with g | _ | _ <;> simp [run, hcore, hfile, refuse, start]

theorem run_refuses
    (hno : ∀ p, session.settings.coreExecutable = some p → fs.isFile p ≠ .ok true) :
    (run sur fs game invocation session).events = [] ∧
      ((∀ p, session.settings.coreExecutable = some p → ¬ fs.Overruns p) → ∃ message,
        (run sur fs game invocation session).result = .ok ⟨false, message, 1⟩) := by
  rcases run_cases sur fs game invocation session with ⟨message, hrun, -⟩ | ⟨f, hrun⟩ |
    ⟨core, hcore, hfile, -⟩
  · rw [hrun]
    exact ⟨rfl, fun _ ↦ ⟨message, rfl⟩⟩
  · refine ⟨by rw [hrun], fun hshort ↦ ?_⟩
    have herror := congrArg LaunchReport.result hrun
    obtain ⟨p, hcore, hlong, -⟩ := run_eq_error.1 herror
    exact absurd hlong (hshort p hcore)
  · exact absurd hfile (hno core hcore)

/-- A launch without a core does nothing and says so, unless the core's path or a name that it leads
to is too long for a look. With a core it waits for the process to be gone, starts the core as the
last thing that it does, and ends as the core does. -/
theorem run_traces (sur : Surroundings) (fs : FileSystem) (game : Game) (invocation : Invocation)
    (session : Session) :
    let o := run sur fs game invocation session
    let core := session.settings.coreExecutable
    ((∀ p, core = some p → fs.isFile p ≠ .ok true) → o.events = [] ∧
      ((∀ p, core = some p → ¬ fs.Overruns p) → ∃ message, o.result = .ok ⟨false, message, 1⟩)) ∧
    (∀ p, core = some p → fs.isFile p = .ok true → Traces sur p game invocation session o) ∧
    (∀ f, o.result = .error f ↔ ∃ p, core = some p ∧ fs.Overruns p ∧ f = .overlong p) ∧
    ∀ p, fs.Overruns p → p.isTooLong = true ∨ ∃ n, fs.Seeks p n ∧ n.isTooLong = true := by
  intro o core
  refine ⟨run_refuses, ?_, fun f ↦ run_eq_error, fun p ↦ FileSystem.Overruns.cause⟩
  intro p hcore hfile
  have ho : o = start sur p game invocation session := run_of_isFile hcore hfile
  rw [ho]
  exact traces_start sur p game invocation session

def withCore (core : Path) : Session where
  settings.coreExecutable := some core
  settingsFile := .here
  userDir := .here

/-- A process that is still there at the second poll, and a core that fails. -/
theorem run_traces_waiting :
    let sur : Surroundings := { env := [], alive := [true, true, false, true], core := .exits 3 }
    let core := Path.ofString "core"
    let invocation : Invocation := { waitPid := some 7 }
    let o := run sur (treeWithCore "core") bareGame invocation (withCore core)
    o.events = [.poll 7, .sleep pollInterval, .poll 7, .sleep pollInterval, .poll 7,
        handOff sur core bareGame invocation (withCore core)] ∧
      o.result = .ok ⟨false, "Core exited with code 3.", 3⟩ := by
  intro sur core invocation o
  obtain ⟨-, htraces, -, -⟩ :=
    run_traces sur (treeWithCore "core") bareGame invocation (withCore core)
  have h := htraces core rfl rfl
  exact ⟨h.waits 7 rfl, h.exits 3 rfl⟩

def linkedCore : Path := (Path.ofString "d").child Library.linkName

def deepCore : Path := Path.deep.child Library.dirName

/-- No name in the paths of these two cores is too long, and neither core is there. One path leads
through a link, and the other one goes on and on. -/
theorem run_uncaught :
    let isShort (core : Path) := ∀ n ∈ core.parts, n.isTooLong = false
    let refuses (fs : FileSystem) (core : Path) := ∃ message,
      (run { env := [] } fs bareGame {} (withCore core)).result = .ok ⟨false, message, 1⟩
    (isShort linkedCore ∧ Library.treeWithLongLink.isFile linkedCore ≠ .ok true ∧
      ¬ refuses Library.treeWithLongLink linkedCore) ∧
    isShort deepCore ∧ (FileSystem.bare []).isFile deepCore ≠ .ok true ∧
      ¬ refuses (.bare []) deepCore := by
  intro isShort refuses
  have huncaught : ∀ {fs : FileSystem} {core : Path}, fs.Overruns core →
      fs.isFile core ≠ .ok true ∧ ¬ refuses fs core := by
    intro fs core hlong
    have herror := FileSystem.isFile_eq_error.2 ⟨hlong, rfl⟩
    simp only [refuses]
    rw [run_eq_error.2 ⟨core, rfl, hlong, rfl⟩, herror]
    simp
  refine ⟨⟨by decide, huncaught Library.overruns_longLink⟩, ?_, huncaught ?_⟩
  · intro n hn
    rcases Path.eq_of_mem_deep_child hn with rfl | rfl <;> decide
  · exact FileSystem.overruns_deep _ rfl

end GameLauncher.Launch
