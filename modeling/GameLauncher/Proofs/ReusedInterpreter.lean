import GameLauncher.CommandLine.Interpreter

namespace GameLauncher

variable {ρ : Type}

/-- What is told each warning of an interpreter as it comes up. It can refuse one, which ends the
call, and its answer can depend on what it was told before. -/
structure Sink (ρ : Type) where
  received : List Warning := []
  refusal? : List Warning → Warning → Option ρ

namespace Sink

def take (k : Sink ρ) (ws : List Warning) : Sink ρ := { k with received := k.received ++ ws }

def answer? (k : Sink ρ) (w : Option Warning) : Option ρ := w.bind (k.refusal? k.received)

@[simp] theorem received_take (k : Sink ρ) (ws : List Warning) :
    (k.take ws).received = k.received ++ ws := rfl

@[simp] theorem take_nil (k : Sink ρ) : k.take [] = k := by
  simp [take]

@[simp] theorem take_take (k : Sink ρ) (ws ws' : List Warning) :
    (k.take ws).take ws' = k.take (ws ++ ws') := by
  simp [take]

end Sink

/-- What ends a call early: what ends the reading of a command line, or the refusal of a warning. -/
inductive Break (ρ : Type)
  | ending (e : Ending)
  | refused (r : ρ)

namespace Progress

variable {s : Progress} {ws : List Warning} {seg : Segment} {segs : List Segment} {k : Sink ρ}

def warning? (s : Progress) : Segment → Option Warning
  | .separator rest => if rest.isEmpty then some .emptySeparator else none
  | .unknown token =>
    if s.invocation.gamePath.isNone && namesGame token then none else some (.unknown token)
  | .switch .. | .valued .. | .cut .. => none

def keep (s : Progress) (ws : List Warning) : Progress := { s with warnings := s.warnings ++ ws }

/-- Reads segments and tells a sink the warnings one by one, each before its segment has any other
effect. The list of warnings is the interpreter's own. -/
def attend (s : Progress) (k : Sink ρ) : List Segment → Progress × Sink ρ × Option (Break ρ)
  | [] => (s, k, none)
  | seg :: rest =>
    let w := s.warning? seg
    match k.answer? w with
    | some r => (s.keep w.toList, k.take w.toList, some (.refused r))
    | none => match s.step seg with
      | (s, none) => attend s (k.take w.toList) rest
      | (s, some e) => (s, k.take w.toList, some (.ending e))

def behind (ws : List Warning) (s : Progress) : Progress := { s with warnings := ws ++ s.warnings }

theorem withValue_behind {α : Type} {v : Except Failure α} {f g : α → Progress × Option Ending}
    (h : ∀ a, f a = ((g a).1.behind ws, (g a).2)) :
    (s.behind ws).withValue v f = ((s.withValue v g).1.behind ws, (s.withValue v g).2) := by
  cases v with
  | error fault => rfl
  | ok a => exact h a

theorem persist_behind (session : Session) (c : Completion) :
    (s.behind ws).persist session c =
      ((s.persist session c).1.behind ws, (s.persist session c).2) :=
  withValue_behind (s := { s with
    session := session
    files := (session.save s.files).1
    records := s.records ++ (session.save s.files).2.records }) fun _ ↦ rfl

theorem step_behind (ws : List Warning) (s : Progress) (seg : Segment) :
    (s.behind ws).step seg = ((s.step seg).1.behind ws, (s.step seg).2) := by
  have hwarn : ∀ w, (s.behind ws).warn w = (s.warn w).behind ws := by
    intro w
    simp [behind, warn]
  cases seg with
  | separator rest =>
    simp only [step, hwarn]
    split <;> rfl
  | switch f t => cases f <;> rfl
  | valued p t v =>
    cases p with
    | game | patch => rfl
    | fullscreen | overrideRoot | waitForPid => exact withValue_behind fun _ ↦ rfl
    | addGameFolder | setAddonFolder => exact withValue_behind fun _ ↦ persist_behind _ _
  | cut p t => rfl
  | unknown t =>
    simp only [step, hwarn]
    change (if s.invocation.gamePath.isNone && namesGame t then _ else _) = _
    split <;> rfl

theorem withValue_warnings {α : Type} {v : Except Failure α} {f : α → Progress × Option Ending}
    (h : ∀ a, (f a).1.warnings = s.warnings) : (s.withValue v f).1.warnings = s.warnings := by
  cases v with
  | error fault => rfl
  | ok a => exact h a

theorem persist_warnings (session : Session) (c : Completion) :
    (s.persist session c).1.warnings = s.warnings :=
  withValue_warnings (s := { s with
    session := session
    files := (session.save s.files).1
    records := s.records ++ (session.save s.files).2.records }) fun _ ↦ rfl

/-- The list of warnings grows by the one that comes up and by nothing else. -/
theorem step_warnings (s : Progress) (seg : Segment) :
    (s.step seg).1.warnings = s.warnings ++ (s.warning? seg).toList := by
  cases seg with
  | separator rest =>
    simp only [step, warning?]
    split
    · rfl
    · exact (List.append_nil _).symm
  | switch f t =>
    rw [warning?, Option.toList_none, List.append_nil]
    cases f <;> rfl
  | valued p t v =>
    rw [warning?, Option.toList_none, List.append_nil]
    cases p with
    | game | patch => rfl
    | fullscreen | overrideRoot | waitForPid => exact withValue_warnings fun _ ↦ rfl
    | addGameFolder | setAddonFolder => exact withValue_warnings fun _ ↦ persist_warnings _ _
  | cut p t => exact (List.append_nil _).symm
  | unknown t =>
    simp only [step, warning?]
    split
    · exact (List.append_nil _).symm
    · rfl

theorem attend_behind (ws : List Warning) (s : Progress) (k : Sink ρ) (segs : List Segment) :
    (s.behind ws).attend k segs = ((s.attend k segs).1.behind ws, (s.attend k segs).2) := by
  induction segs generalizing s k with
  | nil => rfl
  | cons seg rest ih =>
    have hwarning : (s.behind ws).warning? seg = s.warning? seg := by
      cases seg <;> rfl
    simp only [attend, hwarning, step_behind]
    cases k.answer? (s.warning? seg) with
    | some r => simp [behind, keep]
    | none =>
      rcases s.step seg with ⟨m, _ | e⟩
      · exact ih m _
      · rfl

theorem attend_warnings (s : Progress) (k : Sink ρ) (segs : List Segment) :
    ∃ ws, (s.attend k segs).1.warnings = s.warnings ++ ws ∧ (s.attend k segs).2.1 = k.take ws := by
  induction segs generalizing s k with
  | nil => exact ⟨[], (List.append_nil _).symm, k.take_nil.symm⟩
  | cons seg rest ih =>
    have hgrows := s.step_warnings seg
    simp only [attend]
    cases k.answer? (s.warning? seg) with
    | some r => exact ⟨_, rfl, rfl⟩
    | none =>
      rcases hstep : s.step seg with ⟨m, _ | e⟩ <;> simp only [hstep] at hgrows
      · obtain ⟨ws, hkept, htold⟩ := ih m (k.take (s.warning? seg).toList)
        refine ⟨(s.warning? seg).toList ++ ws, ?_, ?_⟩
        · simp only [hkept, hgrows, List.append_assoc]
        · simp only [htold, Sink.take_take]
      · exact ⟨_, hgrows, rfl⟩

/-- Unless the sink refuses something, it makes no difference to what is read. -/
theorem attend_eq_run (h : ∀ r, (s.attend k segs).2.2 ≠ some (.refused r)) :
    (s.attend k segs).1 = (s.run segs).1 ∧
      (s.attend k segs).2.2 = (s.run segs).2.map .ending := by
  induction segs generalizing s k with
  | nil => exact ⟨rfl, rfl⟩
  | cons seg rest ih =>
    simp only [attend, run] at h ⊢
    cases hanswer : k.answer? (s.warning? seg) with
    | some r =>
      rw [hanswer] at h
      exact absurd rfl (h r)
    | none =>
      rw [hanswer] at h
      rcases hstep : s.step seg with ⟨m, _ | e⟩
      · simp only [hstep] at h
        exact ih h
      · exact ⟨rfl, rfl⟩

end Progress

/-- What a call of an interpreter gives and what it leaves behind. -/
structure Report (ρ : Type) where
  interpreter : Interpreter
  sink : Sink ρ
  session : Session
  files : FileSystem
  records : List Record
  result : Except (Break ρ) Invocation

def Report.of (p : Progress) (k : Sink ρ) (b : Option (Break ρ)) : Report ρ where
  interpreter := ⟨p.warnings⟩
  sink := k
  session := p.session
  files := p.files
  records := p.records
  result := b.elim (.ok p.invocation) .error

namespace Interpreter

/-- Reads a command line with a sink for the warnings. -/
def attend (i : Interpreter) (k : Sink ρ) (session : Session) (files : FileSystem)
    (tokens : List String) : Report ρ :=
  let start : Progress := { session, files, warnings := i.warnings }
  if tokens.length ≤ 1 then .of start k (some (.ending (.failed .noArguments)))
  else
    let (p, k, b) := start.attend k (Segment.ofTokens tokens.tail)
    .of p k b

variable {i : Interpreter} {k : Sink ρ} {session : Session} {files : FileSystem}
  {tokens : List String}

/-- An interpreter that was used before reads like a new one, behind its old warnings. -/
theorem attend_eq (i : Interpreter) (k : Sink ρ) (session : Session) (files : FileSystem)
    (tokens : List String) :
    let fresh := ({} : Interpreter).attend k session files tokens
    i.attend k session files tokens =
      { fresh with interpreter := ⟨i.warnings ++ fresh.interpreter.warnings⟩ } := by
  unfold attend
  simp only
  split
  · simp [Report.of]
  · have hstart : ({ session, files, warnings := i.warnings } : Progress) =
        Progress.behind i.warnings { session, files } := by
      simp [Progress.behind]
    rw [hstart, Progress.attend_behind]
    rfl

theorem attend_warnings (i : Interpreter) (k : Sink ρ) (session : Session) (files : FileSystem)
    (tokens : List String) :
    ∃ ws, (i.attend k session files tokens).interpreter.warnings = i.warnings ++ ws ∧
      (i.attend k session files tokens).sink = k.take ws := by
  unfold attend
  simp only
  split
  · exact ⟨[], (List.append_nil _).symm, k.take_nil.symm⟩
  · exact Progress.attend_warnings _ k _

theorem attend_eq_read (h : ∀ r, (({} : Interpreter).attend k session files tokens).result ≠
      .error (.refused r)) :
    let (p, e) := readCommandLine session files tokens
    ({} : Interpreter).attend k session files tokens =
      .of p (k.take p.warnings) (e.map .ending) := by
  unfold attend readCommandLine at *
  simp only at h ⊢
  split
  · simp [Report.of, Progress.stop]
  · rename_i hlen
    rw [if_neg hlen] at h
    generalize Segment.ofTokens tokens.tail = segs at h ⊢
    obtain ⟨ws, hkept, htold⟩ := Progress.attend_warnings { session, files } k segs
    have hwilling : ∀ r, (Progress.attend { session, files } k segs).2.2 ≠ some (.refused r) := by
      intro r hr
      apply h r
      rw [Report.of, hr]
      rfl
    obtain ⟨hprogress, hbreak⟩ := Progress.attend_eq_run hwilling
    simp only at hkept
    rw [htold, hprogress, hbreak, ← hkept.trans (List.nil_append ws), hprogress]

theorem attend_of_willing (h : ∀ r, (({} : Interpreter).attend k session files tokens).result ≠
      .error (.refused r)) (i : Interpreter) :
    let (i', p, e) := i.read session files tokens
    i.attend k session files tokens =
      { Report.of p (k.take p.warnings) (e.map .ending) with interpreter := i' } := by
  have hfresh := attend_eq_read h
  rw [attend_eq]
  simp only at hfresh ⊢
  rw [hfresh]
  rfl

end Interpreter

/-- An interpreter in use, with the warnings that the sinks received which it had before, and the
session and the files that it works on. -/
structure Use (ρ : Type) where
  interpreter : Interpreter := {}
  former : List (List Warning) := []
  sink : Sink ρ
  session : Session
  files : FileSystem

/-- A call of an interpreter in use. Before it anything can happen to the session and the files, and
the interpreter can be given a new sink. -/
structure Call (ρ : Type) where
  meanwhile : Session × FileSystem → Session × FileSystem := id
  newSink? : Option (List Warning → Warning → Option ρ) := none
  tokens : List String

namespace Use

def ready (u : Use ρ) (c : Call ρ) : Use ρ :=
  let (session, files) := c.meanwhile (u.session, u.files)
  let u := { u with session, files }
  match c.newSink? with
  | none => u
  | some refusal? => { u with former := u.former ++ [u.sink.received], sink := { refusal? } }

def report (u : Use ρ) (tokens : List String) : Report ρ :=
  u.interpreter.attend u.sink u.session u.files tokens

def call (u : Use ρ) (c : Call ρ) : Use ρ :=
  let u := u.ready c
  let { interpreter, sink, session, files, .. } := u.report c.tokens
  { u with interpreter, sink, session, files }

def callAll (u : Use ρ) (calls : List (Call ρ)) : Use ρ := calls.foldl call u

/-- No warning is lost, and none comes from anywhere else: an interpreter has kept what its sinks
have received, one after another. -/
def IsWhole (u : Use ρ) : Prop := u.interpreter.warnings = u.former.flatten ++ u.sink.received

theorem interpreter_ready (u : Use ρ) (c : Call ρ) : (u.ready c).interpreter = u.interpreter := by
  unfold ready
  simp only
  split <;> rfl

theorem IsWhole.ready {u : Use ρ} (h : u.IsWhole) (c : Call ρ) : (u.ready c).IsWhole := by
  unfold IsWhole Use.ready at *
  simp only
  split
  · exact h
  · simpa using h

theorem IsWhole.call {u : Use ρ} (h : u.IsWhole) (c : Call ρ) : (u.call c).IsWhole := by
  have hready := h.ready c
  obtain ⟨ws, hkept, htold⟩ := (u.ready c).interpreter.attend_warnings (u.ready c).sink
    (u.ready c).session (u.ready c).files c.tokens
  unfold IsWhole at hready ⊢
  simp only [Use.call, report, hkept, htold, hready, Sink.received_take, List.append_assoc]

theorem IsWhole.callAll {u : Use ρ} (h : u.IsWhole) (calls : List (Call ρ)) :
    (u.callAll calls).IsWhole := by
  induction calls generalizing u with
  | nil => exact h
  | cons c calls ih => exact ih (h.call c)

/-- After any calls, however they ended, an interpreter holds exactly the warnings that its sinks
received, in order, and the next call of it is that of a new interpreter with the same sink in the
same place, behind the old warnings; which, unless the sink refuses one, is the reading of the
command line. -/
theorem call_like_new (refusal? : List Warning → Warning → Option ρ) (session : Session)
    (files : FileSystem) (calls : List (Call ρ)) (c : Call ρ) :
    let u := Use.callAll { sink := { refusal? }, session, files } calls
    let d := u.ready c
    let fresh := ({} : Interpreter).attend d.sink d.session d.files c.tokens
    u.interpreter.warnings = u.former.flatten ++ u.sink.received ∧
    d.report c.tokens =
      { fresh with interpreter := ⟨u.interpreter.warnings ++ fresh.interpreter.warnings⟩ } ∧
    ((∀ r, fresh.result ≠ .error (.refused r)) →
      let (i, p, e) := u.interpreter.read d.session d.files c.tokens
      d.report c.tokens =
        { Report.of p (d.sink.take p.warnings) (e.map .ending) with interpreter := i }) := by
  intro u d fresh
  have hstart : IsWhole ({ sink := { refusal? }, session, files } : Use ρ) := rfl
  have hreport : d.report c.tokens =
      { fresh with interpreter := ⟨u.interpreter.warnings ++ fresh.interpreter.warnings⟩ } := by
    rw [report, Interpreter.attend_eq, interpreter_ready]
  refine ⟨hstart.callAll calls, hreport, ?_⟩
  intro hwilling
  rw [report, interpreter_ready]
  exact Interpreter.attend_of_willing hwilling u.interpreter

def abortedCalls : List (Call Unit) :=
  [{ tokens := ["emucli", "g", "--bogus", "-f", "maybe"] },
    { tokens := ["emucli", "--log-append", "--what", "-i"] },
    { newSink? := some fun _ _ ↦ none, tokens := ["emucli", "-h"] }]

theorem call_like_new_aborted :
    let refusal? : List Warning → Warning → Option Unit := fun heard _ ↦
      if heard.isEmpty then none else some ()
    let session : Session := { settings := {}, settingsFile := .here, userDir := .here }
    let u := Use.callAll { sink := { refusal? }, session, files := .bare [] } abortedCalls
    let fresh := ({} : Interpreter).attend u.sink u.session u.files ["emucli", "h", "--"]
    u.interpreter.warnings = [.unknown "--bogus", .unknown "--what"] ∧
      u.former.flatten ++ u.sink.received = [.unknown "--bogus", .unknown "--what"] ∧
      u.session = { session with logAppend := true } ∧
      (∀ r, fresh.result ≠ .error (.refused r)) ∧
      fresh.result = .ok { gamePath := some "h" } ∧
      u.report ["emucli", "h", "--"] = { fresh with
        interpreter := ⟨[.unknown "--bogus", .unknown "--what", .emptySeparator]⟩ } ∧
      (u.report ["emucli", "h", "--"]).interpreter =
        (u.interpreter.read u.session u.files ["emucli", "h", "--"]).1 := by
  intro refusal? session u fresh
  have hwarnings : u.interpreter.warnings = [.unknown "--bogus", .unknown "--what"] := rfl
  have hresult : fresh.result = .ok { gamePath := some "h" } := rfl
  have hfresh : fresh.interpreter.warnings = [.emptySeparator] := rfl
  have hrefused : ∀ r, fresh.result ≠ .error (.refused r) := by
    intro r hr
    rw [hresult] at hr
    cases hr
  obtain ⟨hwhole, hreport, hread⟩ :=
    call_like_new refusal? session (.bare []) abortedCalls { tokens := ["emucli", "h", "--"] }
  refine ⟨hwarnings, hwhole.symm.trans hwarnings, rfl, hrefused, hresult, ?_, ?_⟩
  · rw [show u.report _ = _ from hreport]
    simp only [← hfresh]
    rfl
  · exact congrArg Report.interpreter (hread hrefused)

end Use

end GameLauncher
