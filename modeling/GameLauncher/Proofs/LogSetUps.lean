import GameLauncher.Proofs.LogHistory

namespace GameLauncher

open FileSystem

theorem Path.collapse_of_notMem {ns : List Name} (h : Name.up ∉ ns) (done : List Name) :
    collapse done ns = done.reverse ++ ns := by
  induction ns generalizing done with
  | nil => rw [collapse, List.append_nil]
  | cons n ns ih =>
    rw [List.mem_cons, not_or] at h
    obtain ⟨hn, hns⟩ := h
    rw [collapse, if_neg (Ne.symm hn), ih hns, List.reverse_cons, List.append_assoc]
    rfl

namespace FileSystem

variable {fs : FileSystem} {p : Path} {l : Location}

/-- A working directory is known by the names on the way to it, none of which is a link. -/
structure HasPlainWorkingDir (fs : FileSystem) : Prop where
  noLink : ∀ l, l <:+ fs.workingDir → ∀ t, fs.get? l ≠ some (.link t)
  notUp : Name.up ∉ fs.workingDir

theorem drift_reverse (h : ∀ k, k <:+ l → ∀ t, fs.get? k ≠ some (.link t)) (ms : List Move) :
    fs.drift [] (l.reverse.map Move.enter ++ ms) = fs.drift l ms := by
  induction l generalizing ms with
  | nil => rfl
  | cons n up ih =>
    rw [List.reverse_cons, List.map_append, List.append_assoc,
      ih fun k hk ↦ h k (hk.trans (List.suffix_cons n up))]
    exact drift_enter (h _ List.suffix_rfl) ms

theorem map_ofName {ns : List Name} (h : Name.up ∉ ns) :
    ns.map Move.ofName = ns.map Move.enter := by
  apply List.map_congr_left
  intro n hn
  rw [Move.ofName, if_neg]
  rintro rfl
  exact h hn

theorem HasPlainWorkingDir.lead_absolute (h : fs.HasPlainWorkingDir) (hp : Name.up ∉ p.parts) :
    fs.lead (Path.absolute (Logging.workingPath fs) p) = fs.lead p := by
  obtain ⟨a, ns⟩ := p
  cases a with
  | root | doubleRoot => simp only [Path.absolute, Path.collapse_of_notMem hp]; rfl
  | here =>
    have hparts : Name.up ∉ fs.workingDir.reverse ++ ns := by
      rw [List.mem_append, List.mem_reverse, not_or]
      exact ⟨h.notUp, hp⟩
    have hnotUp : Name.up ∉ fs.workingDir.reverse := by
      rw [List.mem_reverse]
      exact h.notUp
    simp only [lead, Path.absolute, Logging.workingPath, Path.collapse_of_notMem hparts,
      List.reverse_nil, List.nil_append, List.map_append, map_ofName hnotUp, startOf]
    rw [leadFrom.eq_def, leadFrom.eq_def fs maxLinks fs.workingDir, drift_reverse h.noLink]

end FileSystem

/-- What happens to the log of a process: it is set up, or deals with a record. -/
inductive LogEvent
  | setUp (dir : Path) (append : Bool) (level : String)
  | record (time : String) (r : Record)

def LogEvent.lines (threshold : Level) : LogEvent → Bytes
  | .setUp .. => []
  | .record time r => Logging.written threshold time r

namespace Desk

variable {d opened : Desk} {dir file : Path} {append : Bool} {level : String} {f : Failure}
  {e : LogEvent} {es : List LogEvent} {threshold : Level} {k : Location} {content : Bytes}

def setUp (d : Desk) (dir : Path) (append : Bool) (level : String) :
    Desk × Except Failure Path :=
  let (files, logging, result) := d.logging.setUp d.files dir append level
  ({ d with files, logging }, result)

def after (d : Desk) : LogEvent → Desk
  | .setUp dir append level => (d.setUp dir append level).1
  | .record time r => d.log (fun _ ↦ time) r

def afterAll (d : Desk) (es : List LogEvent) : Desk := es.foldl after d

/-- Whether an event leaves the files open that are open. A log that is set up does so only if that
fails before they are closed. -/
def Spares (d : Desk) : LogEvent → Prop
  | .setUp dir append level => (∃ f, (d.setUp dir append level).2 = .error f) ∧
      (d.setUp dir append level).1.logging.outputs = d.logging.outputs
  | .record .. => True

def SparesAll (d : Desk) : List LogEvent → Prop
  | [] => True
  | e :: es => d.Spares e ∧ (d.after e).SparesAll es

theorem setUp_eq_ok (h : d.setUp dir append level = (opened, .ok file)) :
    file = dir.child Logging.fileName ∧ ∃ k threshold, Logging.levelOf level = .ok threshold ∧
      d.files.lead (Path.absolute (Logging.workingPath d.files) file) = some k ∧
      opened.LogsTo opened.files threshold k
        (if append then (d.files.bytesAt k).getD [] else []) ∧
      ∀ l ≠ k, opened.files.bytesAt l = d.files.bytesAt l := by
  unfold setUp at h
  rcases hlog : d.logging.setUp d.files dir append level with ⟨files, logging, result⟩
  simp only [hlog, Prod.mk.injEq] at h
  obtain ⟨rfl, rfl⟩ := h
  obtain ⟨hfile, fs₁, threshold, k, kept, hmade, hlevel, htakes, hlead, hkept, rfl, rfl⟩ :=
    Logging.setUp_eq_ok hlog
  have hadds := d.files.makeDirectories_adds dir
  rw [hmade] at hadds
  refine ⟨hfile, k, threshold, hlevel, hlead, hkept ▸ .opened d htakes threshold append kept, ?_⟩
  intro l hl
  rw [bytesAt, get?_put_of_ne htakes.ne_nil hl]
  exact hadds.bytesAt l

theorem setUp_eq_error (h : d.setUp dir append level = (opened, .error f)) :
    d.files.AddsDirectories opened.files ∧
      (opened.logging = d.logging ∨ opened.logging.outputs = []) := by
  unfold setUp at h
  rcases hlog : d.logging.setUp d.files dir append level with ⟨files, logging, result⟩
  simp only [hlog, Prod.mk.injEq] at h
  obtain ⟨rfl, rfl⟩ := h
  obtain ⟨hadds, hsame | ⟨threshold, hclosed⟩⟩ := Logging.setUp_eq_error hlog
  · exact ⟨hadds, .inl hsame⟩
  · exact ⟨hadds, .inr (by rw [hclosed])⟩

theorem spares_setUp (h : (∃ f, (d.files.makeDirectories dir).2 = .error f) ∨
      ∃ f, Logging.levelOf level = .error f) : d.Spares (.setUp dir append level) := by
  simp only [Spares, setUp, Logging.setUp_eq]
  rcases hmade : d.files.makeDirectories dir with ⟨fs, f | u⟩
  · exact ⟨⟨f, rfl⟩, rfl⟩
  rcases hlevel : Logging.levelOf level with f | threshold
  · exact ⟨⟨f, rfl⟩, rfl⟩
  · simp [hmade, hlevel] at h

/-- A log goes on in its file, and nothing else is written, as long as the file is not closed. -/
theorem LogsTo.after (h : d.LogsTo d.files threshold k content) (hspares : d.Spares e) :
    (d.after e).LogsTo (d.after e).files threshold k (content ++ e.lines threshold) ∧
      ∀ l ≠ k, (d.after e).files.bytesAt l = d.files.bytesAt l := by
  cases e with
  | record time r =>
    obtain ⟨-, -, -, hlogs⟩ := h.log_eq (fun _ ↦ time) r
    refine ⟨⟨hlogs.threshold, hlogs.output, hlogs.content, .refl _ _⟩, ?_⟩
    intro l hl
    rw [Desk.after, bytesAt, hlogs.elsewhere.elsewhere l hl]
    rfl
  | setUp dir append level =>
    obtain ⟨⟨f, hfailed⟩, hspared⟩ := hspares
    obtain ⟨hadds, hsame | hclosed⟩ := setUp_eq_error (Prod.ext rfl hfailed)
    · rw [LogEvent.lines, List.append_nil]
      refine ⟨⟨?_, ?_, (hadds.content k content).1 h.content, .refl _ _⟩, fun l _ ↦ hadds.bytesAt l⟩
      · rw [Desk.after, hsame]
        exact h.threshold
      · rw [Desk.after, hsame]
        exact h.output
    · obtain ⟨f, hf, -⟩ := h.output
      rw [hspared, hf] at hclosed
      cases hclosed

theorem LogsTo.afterAll (h : d.LogsTo d.files threshold k content) (hspares : d.SparesAll es) :
    (d.afterAll es).LogsTo (d.afterAll es).files threshold k
        (content ++ es.flatMap (LogEvent.lines threshold)) ∧
      ∀ l ≠ k, (d.afterAll es).files.bytesAt l = d.files.bytesAt l := by
  induction es generalizing d content with
  | nil => exact ⟨by rwa [List.flatMap_nil, List.append_nil], fun _ _ ↦ rfl⟩
  | cons e es ih =>
    obtain ⟨hfirst, hrest⟩ := hspares
    obtain ⟨hlogs, helsewhere⟩ := h.after hfirst
    obtain ⟨hlogs', helsewhere'⟩ := ih hlogs hrest
    rw [Desk.afterAll, List.foldl_cons, List.flatMap_cons, ← List.append_assoc]
    exact ⟨hlogs', fun l hl ↦ (helsewhere' l hl).trans (helsewhere l hl)⟩

theorem length_outputs_after (h : d.logging.outputs.length ≤ 1) (e : LogEvent) :
    (d.after e).logging.outputs.length ≤ 1 := by
  cases e with
  | record time r =>
    have hlength := congrArg List.length (d.log_places (fun _ ↦ time) r)
    rw [List.length_map, List.length_map] at hlength
    rw [after, hlength]
    exact h
  | setUp dir append level =>
    rw [after]
    rcases hsetUp : d.setUp dir append level with ⟨opened, f | file⟩
    · obtain ⟨-, hsame | hclosed⟩ := setUp_eq_error hsetUp
      · rwa [hsame]
      · rw [hclosed]
        exact Nat.zero_le 1
    · obtain ⟨-, k, threshold, -, -, hlogs, -⟩ := setUp_eq_ok hsetUp
      obtain ⟨f, hf, -⟩ := hlogs.output
      rw [hf]
      exact Nat.le_refl 1

theorem length_outputs_afterAll (h : d.logging.outputs.length ≤ 1) (es : List LogEvent) :
    (d.afterAll es).logging.outputs.length ≤ 1 := by
  induction es generalizing d with
  | nil => exact h
  | cons e es ih => exact ih (length_outputs_after h e)

/-- Whatever happened before, a log that is set up has one file open, and goes on in it alone until
it is closed; and there is never more than one open from then on. A log that cannot be set up has
the same files open as before or none. -/
theorem setUp_history (start : Desk) (before : List LogEvent) (dir : Path) (append : Bool)
    (level : String) :
    let d := start.afterAll before
    let opened := (d.setUp dir append level).1
    let result := (d.setUp dir append level).2
    (∀ file, result = .ok file →
      (file = dir.child Logging.fileName ∧ ∃ k threshold,
        Logging.levelOf level = .ok threshold ∧
        d.files.lead (Path.absolute (Logging.workingPath d.files) file) = some k ∧
        (d.files.HasPlainWorkingDir → Name.up ∉ dir.parts → d.files.lead file = some k) ∧
        ∀ later, opened.SparesAll later →
          let e := opened.afterAll later
          (∃ f, e.logging.outputs = [f] ∧ f.place = some k) ∧
          e.files.bytesAt k = some ((if append then (d.files.bytesAt k).getD [] else []) ++
            later.flatMap (LogEvent.lines threshold)) ∧
          ∀ l ≠ k, e.files.bytesAt l = d.files.bytesAt l) ∧
      ∀ later, (opened.afterAll later).logging.outputs.length ≤ 1) ∧
    ∀ f, result = .error f →
      (opened.logging = d.logging ∨ opened.logging.outputs = []) ∧
      ∀ l, opened.files.bytesAt l = d.files.bytesAt l := by
  intro d opened result
  constructor
  · intro file hresult
    obtain ⟨hfile, k, threshold, hlevel, hlead, hlogs, helsewhere⟩ :=
      setUp_eq_ok (Prod.ext rfl hresult : d.setUp dir append level = (opened, .ok file))
    refine ⟨⟨hfile, k, threshold, hlevel, hlead, ?_, ?_⟩, ?_⟩
    · intro hplain hup
      rw [← hlead, hplain.lead_absolute]
      rw [hfile, Path.child, List.mem_append, List.mem_singleton, not_or]
      exact ⟨hup, by decide⟩
    · intro later hspares
      obtain ⟨hlogs', helsewhere'⟩ := hlogs.afterAll hspares
      obtain ⟨f, hf, hplace, -⟩ := hlogs'.output
      exact ⟨⟨f, hf, hplace⟩, bytesAt_eq_some.2 hlogs'.content,
        fun l hl ↦ (helsewhere' l hl).trans (helsewhere l hl)⟩
    · obtain ⟨f, hf, -⟩ := hlogs.output
      exact length_outputs_afterAll (by rw [hf]; exact Nat.le_refl 1)
  · intro f hresult
    obtain ⟨hadds, hlogging⟩ :=
      setUp_eq_error (Prod.ext rfl hresult : d.setUp dir append level = (opened, .error f))
    exact ⟨hlogging, hadds.bytesAt⟩

def doubled : Desk where
  files := ((FileSystem.bare []).withFile "log/emucli.log" []).withDirectory (placeAt "x/emucli.log")
  logging :=
    let output : LogFile := ⟨some (placeAt "log/emucli.log"), true, 0⟩
    ⟨.info, [output, output]⟩

def note (level : Level) : Record := ⟨level, .cli, "m"⟩

theorem setUp_history_doubled :
    let dir := Path.ofString "log"
    let d := doubled.afterAll [.record "t" (note .info)]
    let opened := (d.setUp dir true "WARNING").1
    let later : List LogEvent := [.record "t" (note .info), .setUp dir false "BASIC_FORMAT",
      .record "t" (note .error)]
    (d.setUp dir true "WARNING").2 = .ok (dir.child Logging.fileName) ∧ opened.SparesAll later ∧
      (opened.afterAll later).files.bytesAt (placeAt "log/emucli.log") =
        some (Logging.written .info "t" (note .info) ++ Logging.written .info "t" (note .info) ++
          Logging.written .warning "t" (note .error)) ∧
      (d.setUp (.ofString "x") true "INFO").2 =
        .error (.system .isADirectory "/x/emucli.log") ∧
      (d.setUp (.ofString "x") true "INFO").1.logging.outputs = [] := by
  intro dir d opened later
  have hreturns : (d.setUp dir true "WARNING").2 = .ok (dir.child Logging.fileName) := rfl
  have hspares : opened.SparesAll later :=
    ⟨trivial, spares_setUp (.inr ⟨_, rfl⟩), trivial, trivial⟩
  have hplain : d.files.HasPlainWorkingDir := by
    refine ⟨?_, by decide⟩
    intro l hl t
    rw [List.suffix_nil.1 hl]
    simp
  have hfails : (d.setUp (.ofString "x") true "INFO").2 =
      .error (.system .isADirectory "/x/emucli.log") := rfl
  refine ⟨hreturns, hspares, ?_, hfails, ?_⟩
  · obtain ⟨hok, -⟩ := setUp_history doubled [.record "t" (note .info)] dir true "WARNING"
    obtain ⟨⟨-, k, threshold, hlevel, -, hlead, hlater⟩, -⟩ := hok _ hreturns
    cases hlevel
    cases hlead hplain (by decide)
    obtain ⟨-, hbytes, -⟩ := hlater later hspares
    exact hbytes
  · obtain ⟨-, herror⟩ := setUp_history doubled [.record "t" (note .info)] (.ofString "x") true "INFO"
    obtain ⟨hlogging, -⟩ := herror _ hfails
    exact hlogging.resolve_left (by decide)

/-- The log of a directory can stay away although it was set up and has records to keep. -/
theorem setUp_elsewhere :
    let dir := Path.ofString "l/../u/log"
    let file := dir.child Logging.fileName
    let start : Desk := { files := Visit.besideLink, logging := {} }
    let opened := (start.setUp dir false "INFO").1
    let d := opened.after (.record "t" (note .info))
    (start.setUp dir false "INFO").2 = .ok file ∧ opened.logging.keeps (note .info) = true ∧
      d.files.exists? file = .ok false ∧
      d.files.bytesAt (placeAt "u/log/emucli.log") =
        some (Logging.written .info "t" (note .info)) := by
  refine ⟨rfl, rfl, rfl, rfl⟩

end Desk

end GameLauncher
