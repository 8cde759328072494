import GameLauncher.Proofs.WrittenPlaces

namespace GameLauncher

open FileSystem

variable {ε : Type} {launcher : Launcher ε} {clock : Clock} {env : Environment}
  {fs : FileSystem} {tokens : List String} {code : Int} {dir : Path} {k : Location}
  {session : Session} {read : Progress}

/-- What a run that is logged has for the log, which it may have emptied before: of the records
those at or above its level. -/
structure LogEntry where
  append : Bool
  threshold : Level
  clock : Clock
  records : List Record

namespace LogEntry

variable {e : LogEntry} {es es' : List LogEntry} {old mid new : Option Bytes} {bytes : Bytes}

def Writes (e : LogEntry) (bytes : Bytes) : Prop :=
  Logging.Lists e.clock (Logging.kept e.threshold e.records) bytes

/-- What the entries have for the log, one behind the other. -/
inductive WritesAll : List LogEntry → Bytes → Prop
  | nil : WritesAll [] []
  | cons {e : LogEntry} {es : List LogEntry} {bytes rest : Bytes} :
      e.Writes bytes → WritesAll es rest → WritesAll (e :: es) (bytes ++ rest)

/-- What the entries make of a log that held something before. -/
inductive Turns : List LogEntry → Option Bytes → Option Bytes → Prop
  | nil {old : Option Bytes} : Turns [] old old
  | cons {e : LogEntry} {es : List LogEntry} {old new : Option Bytes} {bytes : Bytes} :
      e.Writes bytes →
        Turns es (some ((if e.append then old.getD [] else []) ++ bytes)) new →
          Turns (e :: es) old new

theorem Turns.append (h : Turns es old mid) (h' : Turns es' mid new) :
    Turns (es ++ es') old new := by
  induction h with
  | nil => exact h'
  | cons hwrites _ ih => exact .cons hwrites (ih h')

theorem Turns.exists_of_append (h : Turns (es ++ es') old new) : ∃ mid, Turns es' mid new := by
  induction es generalizing old with
  | nil => exact ⟨old, h⟩
  | cons e es ih =>
    cases h with
    | cons _ hrest => exact ih hrest

theorem Turns.appending_some (h : Turns es (some bytes) new) (happend : ∀ e ∈ es, e.append = true) :
    ∃ added, WritesAll es added ∧ new = some (bytes ++ added) := by
  induction es generalizing bytes with
  | nil =>
    cases h with
    | nil => exact ⟨[], .nil, by rw [List.append_nil]⟩
  | cons e es ih =>
    cases h with
    | cons hwrites hrest =>
      rw [happend e List.mem_cons_self, if_pos rfl] at hrest
      obtain ⟨added, hadded, rfl⟩ := ih hrest fun e' he' ↦ happend e' (List.mem_cons_of_mem e he')
      exact ⟨_, .cons hwrites hadded, by rw [Option.getD_some, List.append_assoc]⟩

theorem Turns.appending (h : Turns es old new) (happend : ∀ e ∈ es, e.append = true) :
    ∃ added, WritesAll es added ∧
      new = if es.isEmpty then old else some (old.getD [] ++ added) := by
  cases h with
  | nil => exact ⟨[], .nil, rfl⟩
  | @cons e es _ _ bytes hwrites hrest =>
    rw [happend e List.mem_cons_self, if_pos rfl] at hrest
    obtain ⟨added, hadded, rfl⟩ :=
      hrest.appending_some fun e' he' ↦ happend e' (List.mem_cons_of_mem e he')
    exact ⟨_, .cons hwrites hadded, by rw [List.append_assoc]; rfl⟩

theorem Turns.emptying (h : Turns (e :: es) old new) (he : e.append = false)
    (happend : ∀ e ∈ es, e.append = true) :
    ∃ bytes, WritesAll (e :: es) bytes ∧ new = some bytes := by
  cases h with
  | cons hwrites hrest =>
    rw [he, if_neg Bool.false_ne_true, List.nil_append] at hrest
    obtain ⟨added, hadded, rfl⟩ := hrest.appending_some happend
    exact ⟨_, .cons hwrites hadded, rfl⟩

end LogEntry

namespace Run

/-- What a run that gives an exit code records of its search for a game and of the launch. -/
def gameRecords (launcher : Launcher ε) (clock : Clock) (d : Desk) (invocation : Invocation)
    (session : Session) : List Record :=
  if invocation.gamePath.isNone then []
  else
    let found := Library.resolve d.files invocation session
    found.records ++ match found.result with
      | .error f => [⟨.error, .cli, f.message⟩]
      | .ok game =>
        let report := launcher (sought clock d invocation session).1.files game invocation session
        report.records ++ match report.result with
          | .error _ => []
          | .ok r => [⟨if r.ok then .info else .error, .cli, r.message⟩]

/-- What a run that gives an exit code records, once it has read its command line to the end. -/
def records (launcher : Launcher ε) (clock : Clock) (d : Desk) (read : Progress) : List Record :=
  let appended := if read.session.logAppend then "True" else "False"
  ⟨.info, .cli, s!"Logging to {(logFile read.session).text} (append={appended})"⟩ ::
    read.warnings.map (fun w ↦ ⟨.warning, .cli, w.message⟩) ++
      gameRecords launcher clock d read.invocation read.session

/-- What a run in a new process has for the log, if it reads its command line to the end. -/
def logged? (launcher : Launcher ε) (clock : Clock) (env : Environment) (dir : Path)
    (fs : FileSystem) (tokens : List String) : Option LogEntry :=
  match opened clock env (some dir) fs {} with
  | (_, .error _) => none
  | (desk, .ok session) => match readCommandLine session desk.files tokens with
    | (_, some _) => none
    | (read, none) => match Logging.levelOf read.session.settings.logLevel with
      | .error _ => none
      | .ok threshold =>
        let (d, _) := ready clock (heard clock desk read) read.session read.warnings
        some ⟨read.session.logAppend, threshold, clock, records launcher clock d read⟩

theorem playRecords_eq_gameRecords {d : Desk} {invocation : Invocation}
    (hexit : (play launcher clock d invocation session).exit = .ok code) :
    playRecords launcher clock d invocation session =
      gameRecords launcher clock d invocation session := by
  unfold playRecords gameRecords
  cases hgiven : invocation.gamePath.isNone with
  | true => rfl
  | false =>
    rw [play_eq_sought hgiven] at hexit
    simp only [Bool.false_eq_true, if_false]
    congr 1
    have hfound : (sought clock d invocation session).2 =
        (Library.resolve d.files invocation session).result := by
      unfold sought
      split <;> rfl
    rcases hsought : sought clock d invocation session with ⟨d', f | game⟩ <;>
      rw [hsought] at hfound hexit
    · rw [← hfound]
      simp only at hexit ⊢
      split at hexit
      · rename_i hexpected
        rw [if_pos hexpected]
        rfl
      · cases hexit
    · rw [← hfound]
      simp only [launchRecords]
      cases (launcher d'.files game invocation session).result <;> rfl

theorem Leaves.grows {ending : Option Ending} {fs' : FileSystem} (h : Leaves fs dir ending fs') :
    fs.Grows fs' := by
  cases h with
  | failed f => exact .refl fs
  | help => exact .refl fs
  | saved _ h => exact h.grows
  | played h => exact h.grows

theorem logged?_eq_some {desk d : Desk} {threshold : Level}
    (hopened : opened clock env (some dir) fs {} = (desk, .ok session))
    (hread : readCommandLine session desk.files tokens = (read, none))
    (hlevel : Logging.levelOf read.session.settings.logLevel = .ok threshold)
    (hready : ready clock (heard clock desk read) read.session read.warnings = (d, .ok ())) :
    logged? launcher clock env dir fs tokens =
      some ⟨read.session.logAppend, threshold, clock, records launcher clock d read⟩ := by
  unfold logged?
  simp only [hopened, hread, hlevel, hready]

theorem logged?_eq_none {desk : Desk} {e : Ending}
    (hopened : opened clock env (some dir) fs {} = (desk, .ok session))
    (hread : readCommandLine session desk.files tokens = (read, some e)) :
    logged? launcher clock env dir fs tokens = none := by
  unfold logged?
  simp only [hopened, hread]

theorem bytesAt_of_leaves {e : Ending} {fs' : FileSystem} (h : Leaves fs dir (some e) fs')
    (hapart : ¬ fs.LeadsTo (dir.child UserDirectory.configName) k) :
    fs'.bytesAt k = fs.bytesAt k := by
  cases h with
  | failed f => rfl
  | help => rfl
  | saved _ h => exact h.bytesAt hapart

theorem proceed_bytesAt {desk d : Desk}
    (hready : ready clock desk read.session read.warnings = (d, .ok ()))
    (hexit : (proceed launcher clock desk read.invocation read.session read.warnings).exit =
      .ok code)
    (hlead : desk.files.LeadsTo (Logging.openedPath desk.files read.session.userDir) k) :
    ∃ threshold bytes, Logging.levelOf read.session.settings.logLevel = .ok threshold ∧
      Logging.Lists clock (Logging.kept threshold (records launcher clock d read)) bytes ∧
      (proceed launcher clock desk read.invocation read.session read.warnings).desk.files.bytesAt k =
        some
          ((if read.session.logAppend then (desk.files.bytesAt k).getD [] else []) ++ bytes) := by
  rw [proceed_eq_ready, hready] at hexit ⊢
  obtain ⟨threshold, k', kept, opened, hlog, rfl⟩ := ready_eq_ok hready
  cases hlead.symm.trans hlog.lead
  obtain ⟨opening, hopening, hlogs⟩ := hlog.logsTo.logAll clock
    (openingRecords (logFile read.session) read.session.logAppend read.warnings)
  obtain ⟨playing, hplaying, hplay⟩ :=
    play_logsTo hlogs launcher clock read.invocation read.session
  rw [playRecords_eq_gameRecords hexit] at hplaying
  refine ⟨threshold, opening ++ playing, hlog.level, ?_, ?_⟩
  · have hlists := hopening.append hplaying
    rw [← Logging.kept_append] at hlists
    exact hlists
  · rw [bytesAt_eq_some.2 hplay.content, ← List.append_assoc, hlog.keeps]

/-- A run that is logged adds its records to the log. Any other leaves the log as it was. -/
theorem run_bytesAt (hexit : (run launcher clock env (some dir) fs {} tokens).exit = .ok code)
    (hlead : fs.LeadsTo (Logging.openedPath fs dir) k)
    (hapart : ¬ fs.LeadsTo (dir.child UserDirectory.configName) k) :
    let after := (run launcher clock env (some dir) fs {} tokens).desk.files
    fs.Grows after ∧
      LogEntry.Turns (logged? launcher clock env dir fs tokens).toList (fs.bytesAt k)
        (after.bytesAt k) := by
  obtain ⟨_, settings, read, ending, hdir, hload, hread, hleaves⟩ := exists_leaves hexit
  cases hdir
  refine ⟨hleaves.grows, ?_⟩
  rcases hopened : opened clock env (some dir) fs {} with ⟨desk, f | session⟩
  · rw [run_eq_opened, hopened] at hexit
    cases hexit
  obtain ⟨_, settings', hdir, hload', rfl, -⟩ := opened_eq_ok hopened
  cases hdir
  rw [hload] at hload'
  cases hload'
  obtain ⟨rfl, hheard⟩ := heard_of_new hopened read
  cases ending with
  | some e =>
    rw [logged?_eq_none hopened hread, bytesAt_of_leaves hleaves hapart]
    exact .nil
  | none =>
    obtain ⟨-, -, hmeaning⟩ := Progress.readCommandLine_eq_none hread
    have huser : read.session.userDir = dir := by
      rw [hmeaning]
      rfl
    have hfiles : (heard clock desk read).files = desk.files := by
      rw [hheard, hmeaning]
      rfl
    rw [run_eq_proceed hopened hread] at hexit ⊢
    rcases hready : ready clock (heard clock desk read) read.session read.warnings with ⟨d, f | u⟩
    · rw [proceed_eq_ready, hready] at hexit
      cases hexit
    · obtain ⟨threshold, bytes, hlevel, hlists, hbytes⟩ := proceed_bytesAt hready hexit
        (by rw [hfiles, huser]; exact hlead)
      rw [hbytes, hfiles, logged?_eq_some hopened hread hlevel hready]
      exact .cons hlists .nil

end Run

namespace Visit

/-- What the visits of a history add to the log, one after another. -/
def journal (dir : Path) (d : Desk) : List (Visit ε) → List LogEntry
  | [] => []
  | v :: visits =>
    (Run.logged? v.launcher v.clock v.env dir d.files v.tokens).toList ++
      journal dir (v.run dir d).desk visits

variable {v : Visit ε} {visits : List (Visit ε)} {start d : Desk}

def runAll (dir : Path) (d : Desk) (visits : List (Visit ε)) : Desk :=
  visits.foldl (fun d v ↦ (v.run dir d).desk) d

theorem journal_append (dir : Path) (start : Desk) (visits visits' : List (Visit ε)) :
    journal dir start (visits ++ visits') = journal dir start visits ++
      journal dir (runAll dir start visits) visits' := by
  induction visits generalizing start with
  | nil => rfl
  | cons v visits ih =>
    rw [List.cons_append, journal, journal, ih, List.append_assoc, runAll, runAll, List.foldl_cons]

theorem History.eq_runAll (h : History dir start visits d) : d = runAll dir start visits := by
  induction h with
  | nil => rfl
  | snoc _ _ ih =>
    rw [runAll] at ih
    rw [runAll, List.foldl_append, ← ih, List.foldl_cons, List.foldl_nil]

theorem History.journal_concat (h : History dir start visits d) (v : Visit ε) :
    journal dir start (visits ++ [v]) = journal dir start visits ++
      (Run.logged? v.launcher v.clock v.env dir d.files v.tokens).toList := by
  rw [journal_append, ← h.eq_runAll, journal, journal, List.append_nil]

theorem run_eq_of_new (hnew : v.isNewProcess = true) (dir : Path) (d : Desk) :
    v.run dir d =
      GameLauncher.run v.launcher v.clock v.env (some dir) d.files {} v.tokens := by
  rw [run, desk, hnew, if_pos rfl]

/-- What the log holds after a history is what was there before with the entries added in turn. -/
theorem History.bytesAt (h : History dir start visits d)
    (hnew : ∀ v ∈ visits, v.isNewProcess = true)
    (hlead : start.files.LeadsTo (Logging.openedPath start.files dir) k)
    (hapart : ¬ start.files.LeadsTo (dir.child UserDirectory.configName) k) :
    start.files.Grows d.files ∧
      LogEntry.Turns (journal dir start visits) (start.files.bytesAt k) (d.files.bytesAt k) := by
  induction h with
  | nil => exact ⟨.refl _, .nil⟩
  | @snoc visits d v code h hexit ih =>
    obtain ⟨hgrows, hbytes⟩ := ih fun v hv ↦ hnew v (List.mem_append_left _ hv)
    have hv : v.isNewProcess = true := hnew v (List.mem_append_right _ List.mem_cons_self)
    have hlead' : d.files.LeadsTo (Logging.openedPath d.files dir) k := by
      rw [LeadsTo, Logging.openedPath_grows hgrows, hgrows.lead]
      exact hlead
    have hapart' : ¬ d.files.LeadsTo (dir.child UserDirectory.configName) k := by
      rw [LeadsTo, hgrows.lead]
      exact hapart
    rw [run_eq_of_new hv] at hexit ⊢
    obtain ⟨hstep, hadded⟩ := Run.run_bytesAt hexit hlead' hapart'
    refine ⟨hgrows.trans hstep, ?_⟩
    rw [h.journal_concat]
    exact hbytes.append hadded

/-- Over any history of runs, each in a new process and giving an exit code, the log holds the
records of those that were logged, from the last on that did not append to it: all of them after
what was there before, if there is none such. -/
theorem log_history (hapart : ∀ l, fs.lead (dir.child UserDirectory.configName) = some l →
      fs.lead (Logging.openedPath fs dir) ≠ some l)
    (hnew : ∀ v ∈ visits, v.isNewProcess = true)
    (h : History dir { files := fs, logging := {} } visits d) :
    ∀ k, fs.lead (Logging.openedPath fs dir) = some k →
      let entries := journal dir { files := fs, logging := {} } visits
      (∀ before e after, entries = before ++ e :: after → e.append = false →
        (∀ e' ∈ after, e'.append = true) →
          ∃ bytes, LogEntry.WritesAll (e :: after) bytes ∧ d.files.bytesAt k = some bytes) ∧
      ((∀ e ∈ entries, e.append = true) →
        ∃ bytes, LogEntry.WritesAll entries bytes ∧
          d.files.bytesAt k = if entries.isEmpty then fs.bytesAt k
            else some ((fs.bytesAt k).getD [] ++ bytes)) := by
  intro k hlead entries
  obtain ⟨-, hturns⟩ := h.bytesAt hnew hlead fun hconfig ↦ hapart k hconfig hlead
  constructor
  · intro before e after hentries he hafter
    rw [show journal dir { files := fs, logging := {} } visits = before ++ e :: after
      from hentries] at hturns
    obtain ⟨mid, hrest⟩ := hturns.exists_of_append
    exact hrest.emptying he hafter
  · intro happend
    exact hturns.appending happend

def nothingYet : Desk := { files := .bare [], logging := {} }

def lineClock : Clock := fun d ↦ toString (d.logging.outputs.map LogFile.position)

def timed (args : List String) : Visit Event := { plain args with clock := lineClock }

def appendingVisits : List (Visit Event) :=
  [timed ["--nope", "g"], timed ["--patch"], timed ["--log-append", "h"]]

def appendingEntries : List LogEntry :=
  [⟨false, .info, lineClock,
    [⟨.info, .cli, "Logging to user/log/emucli.log (append=False)"⟩,
      ⟨.warning, .cli, "Unknown argument: --nope, see --help for info."⟩,
      ⟨.error, .cli, "Game ID or file path not found: g"⟩]⟩,
    ⟨true, .info, lineClock,
      [⟨.info, .cli, "Logging to user/log/emucli.log (append=True)"⟩,
        ⟨.error, .cli, "Game ID or file path not found: h"⟩]⟩]

theorem log_history_appending :
    let d := runAll (.ofString "user") nothingYet appendingVisits
    History (.ofString "user") nothingYet appendingVisits d ∧
      journal (.ofString "user") nothingYet appendingVisits = appendingEntries ∧
      ∃ bytes, LogEntry.WritesAll appendingEntries bytes ∧
        d.files.bytesAt (placeAt "user/log/emucli.log") = some bytes := by
  intro d
  have hconfig : (FileSystem.bare []).lead ((Path.ofString "user").child UserDirectory.configName) =
      some (placeAt "user/config.toml") := rfl
  have hlog : (FileSystem.bare []).lead (Logging.openedPath (.bare []) (.ofString "user")) =
      some (placeAt "user/log/emucli.log") := rfl
  have hapart : ∀ l,
      (FileSystem.bare []).lead ((Path.ofString "user").child UserDirectory.configName) = some l →
        (FileSystem.bare []).lead (Logging.openedPath (.bare []) (.ofString "user")) ≠ some l := by
    rw [hconfig, hlog]
    rintro l ⟨⟩
    decide
  have hfirst : ((timed ["--nope", "g"]).run (.ofString "user") nothingYet).exit = .ok 1 := rfl
  have hsecond : ((timed ["--patch"]).run (.ofString "user")
      (runAll (.ofString "user") nothingYet [timed ["--nope", "g"]])).exit = .ok 1 := rfl
  have hthird : ((timed ["--log-append", "h"]).run (.ofString "user")
      (runAll (.ofString "user") nothingYet
        [timed ["--nope", "g"], timed ["--patch"]])).exit = .ok 1 := rfl
  have h : History (.ofString "user") nothingYet appendingVisits d :=
    .snoc (.snoc (.snoc .nil hfirst) hsecond) hthird
  have hentries : journal (.ofString "user") nothingYet appendingVisits = appendingEntries := rfl
  obtain ⟨hemptying, -⟩ := log_history hapart (by decide) h _ hlog
  refine ⟨h, hentries, hemptying [] _ _ hentries rfl ?_⟩
  intro e he
  rw [List.mem_singleton.1 he]

def besideLink : FileSystem :=
  ((((FileSystem.bare []).withDirectory (placeAt "x/u")).withDirectory
    (placeAt "x/y")).withDirectory (placeAt "u/log")).put
      (placeAt "l") (.link "x/y")

/-- The log that the user directory has can stay away although a run was logged. -/
theorem log_elsewhere :
    let dir := Path.ofString "l/../u"
    let log := (dir.child UserDirectory.logName).child Logging.fileName
    let start : Desk := { files := besideLink, logging := {} }
    let v := plain ["--show-fps"]
    besideLink.lead (dir.child UserDirectory.configName) ≠ besideLink.lead log ∧
      (v.run dir start).exit = .ok 1 ∧
      (journal dir start [v]).map LogEntry.append = [false] ∧
      (journal dir start [v]).flatMap (fun e ↦ Logging.kept e.threshold e.records) ≠ [] ∧
      (v.run dir start).desk.files.exists? log = .ok false := by
  refine ⟨by decide, rfl, rfl, by decide, rfl⟩

end Visit

end GameLauncher
