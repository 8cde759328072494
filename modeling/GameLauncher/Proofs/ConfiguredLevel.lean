import GameLauncher.Proofs.MistypedSettings
import GameLauncher.Proofs.RunOutline

namespace GameLauncher

namespace Logging

variable {s : String} {level : Level} {f : Failure} {c : Char}

def Names (s : String) (level : Level) : Prop := (upperCased s, level) ∈ knownLevels

/-- A text that is another name of the logging system's when it is written in capitals. -/
def NamesOther (s : String) (found : NonLevel) : Prop := (upperCased s, found) ∈ reservedNames

/-- The level that a text names, or the one for information if it names none. -/
def StandsFor (s : String) (level : Level) : Prop :=
  Names s level ∨ (∀ l, ¬ Names s l) ∧ level = .info

theorem lookup_eq_some_of_nodup {α β : Type} [BEq α] [LawfulBEq α] {es : List (α × β)} {a : α}
    {b : β} (h : (es.map Prod.fst).Nodup) : es.lookup a = some b ↔ (a, b) ∈ es := by
  induction es with
  | nil => simp
  | cons e es ih =>
    obtain ⟨k, v⟩ := e
    obtain ⟨hnew, hrest⟩ := List.nodup_cons.1 h
    by_cases hak : a = k
    · subst hak
      have hgone : (a, b) ∉ es := fun hmem ↦ hnew (List.mem_map.2 ⟨_, hmem, rfl⟩)
      simp [hgone, @eq_comm _ b]
    · have hne : (a == k) = false := beq_false_of_ne hak
      simp [List.lookup_cons, hne, hak, ih hrest]

theorem lookup_reservedNames {found : NonLevel} :
    reservedNames.lookup (upperCased s) = some found ↔ NamesOther s found :=
  lookup_eq_some_of_nodup (by decide)

theorem lookup_knownLevels : knownLevels.lookup (upperCased s) = some level ↔ Names s level :=
  lookup_eq_some_of_nodup (by decide)

theorem levelOf_eq_error_iff :
    levelOf s = .error f ↔ ∃ found, NamesOther s found ∧ f = .unknownLevel found := by
  simp only [← lookup_reservedNames, levelOf]
  cases reservedNames.lookup (upperCased s) <;> simp [@eq_comm _ f]

theorem levelOf_eq_ok_iff :
    levelOf s = .ok level ↔ (∀ found, ¬ NamesOther s found) ∧ StandsFor s level := by
  simp only [StandsFor, ← lookup_reservedNames, ← lookup_knownLevels, levelOf]
  cases reservedNames.lookup (upperCased s) with
  | some found => simp
  | none =>
    cases knownLevels.lookup (upperCased s) <;> simp [@eq_comm _ level]

def isOutside (c : Char) : Bool := c.toNat < 65 || c = '[' || c = '\x7b'

theorem capitals_of_isOutside (h : isOutside c = true) : capitals c = [c] := by
  simp only [isOutside, Bool.or_eq_true, decide_eq_true_eq] at h
  obtain (hlow | rfl) | rfl := h
  · have hne : ∀ d : Char, 65 ≤ d.toNat → c ≠ d := by
      intro d hd heq
      rw [heq] at hlow
      omega
    have hupper : c.toUpper = c := by
      apply dif_neg
      intro hlower
      have ha : 97 ≤ c.toNat := hlower.1
      omega
    simp [capitals, hne, hupper]
  · decide
  · decide

theorem isOutside_names :
    (knownLevels.map Prod.fst ++ reservedNames.map Prod.fst).all
      (fun name ↦ name.toList.all fun c ↦ !isOutside c) = true := by
  decide

theorem levelOf_of_isOutside (hc : c ∈ s.toList) (h : isOutside c = true) :
    levelOf s = .ok .info := by
  have hcapital : c ∈ (upperCased s).toList := by
    rw [upperCased, String.toList_ofList, List.mem_flatMap]
    exact ⟨c, hc, by simp [capitals_of_isOutside h]⟩
  have hnone : upperCased s ∉ knownLevels.map Prod.fst ++ reservedNames.map Prod.fst := by
    intro hmem
    have hall := List.all_eq_true.1 (List.all_eq_true.1 isOutside_names _ hmem) c hcapital
    rw [h] at hall
    cases hall
  rw [List.mem_append, not_or] at hnone
  refine levelOf_eq_ok_iff.2 ⟨fun found hfound ↦ ?_, .inr ⟨fun l hl ↦ ?_, rfl⟩⟩
  · exact hnone.2 (List.mem_map.2 ⟨_, hfound, rfl⟩)
  · exact hnone.1 (List.mem_map.2 ⟨_, hl, rfl⟩)

end Logging

namespace Decimal

theorem exists_isOutside_toDigits (n : Nat) :
    ∃ c ∈ Nat.toDigits 10 n, Logging.isOutside c = true := by
  obtain ⟨c, r, hdigits⟩ := List.exists_cons_of_ne_nil (Nat.toDigits_ne_nil (n := n) (b := 10))
  have hc : c ∈ Nat.toDigits 10 n := hdigits ▸ List.mem_cons_self
  have hdigit := Nat.isDigit_of_mem_toDigits (by omega) (by omega) hc
  simp only [Char.isDigit, Bool.and_eq_true, decide_eq_true_eq] at hdigit
  have hnine : c.toNat ≤ 57 := hdigit.2
  have hlow : c.toNat < 65 := by omega
  exact ⟨c, hc, by simp [Logging.isOutside, hlow]⟩

end Decimal

namespace Toml.Value

open Logging (isOutside)

theorem exists_isOutside_integer (n : Int) :
    ∃ c ∈ (toString n).toList, isOutside c = true := by
  rw [Int.toString_eq_repr]
  cases n with
  | ofNat m =>
    obtain ⟨c, hc, hout⟩ := Decimal.exists_isOutside_toDigits m
    exact ⟨c, by simpa [Int.repr, Nat.repr] using hc, hout⟩
  | negSucc m => exact ⟨'-', by simp [Int.repr], rfl⟩

theorem exists_isOutside_layOut (digits : List Char) (e : Int) :
    Binary64.layOut digits e = [] ∨ ∃ c ∈ Binary64.layOut digits e, isOutside c = true := by
  unfold Binary64.layOut
  split
  · split
    · exact .inl rfl
    · refine .inr ⟨if e < 0 then '-' else '+', by simp [Binary64.exponentText], ?_⟩
      split <;> rfl
    · exact .inr ⟨'.', by simp, rfl⟩
  · split
    · exact .inr ⟨'.', by simp, rfl⟩
    · exact .inr ⟨'.', by simp, rfl⟩

theorem levelOf_realText (x : Binary64) : Logging.levelOf x.text = .ok .info := by
  cases x with
  | finite negative m e =>
    have hfinite : Binary64.finiteText m e = [] ∨
        ∃ c ∈ Binary64.finiteText m e, isOutside c = true := by
      unfold Binary64.finiteText
      split
      · exact .inr ⟨'.', by simp, rfl⟩
      · exact exists_isOutside_layOut ..
    rcases hfinite with hnil | ⟨c, hc, hout⟩
    · rw [Binary64.text, hnil]
      cases negative <;> rfl
    · exact Logging.levelOf_of_isOutside (by simp [Binary64.text, hc]) hout
  | infinite negative => cases negative <;> rfl
  | notANumber => rfl

theorem levelOf_nested {v : Value} {s : String} (hkind : v.kind ≠ .text)
    (h : v.nested = .ok s) : Logging.levelOf s = .ok .info := by
  cases v with
  | text s => exact absurd rfl hkind
  | integer n =>
    simp only [nested, integerText] at h
    split at h
    · cases h
    · cases h
      obtain ⟨c, hc, hout⟩ := exists_isOutside_integer n
      exact Logging.levelOf_of_isOutside hc hout
  | real x =>
    cases h
    exact levelOf_realText x
  | boolean b =>
    cases h
    cases b <;> rfl
  | date | time | dateTime =>
    cases h
    exact Logging.levelOf_of_isOutside (c := '(') (by simp [call]) rfl
  | array items =>
    obtain ⟨members, -, rfl⟩ := ok_of_map h
    exact Logging.levelOf_of_isOutside (c := '[') (by simp [Text.bracketed]) rfl
  | table members =>
    obtain ⟨ms, -, rfl⟩ := ok_of_map h
    exact Logging.levelOf_of_isOutside (c := '\x7b') (by simp) rfl

theorem levelOf_shown {stack : Stack} {v : Value} {s : String} (hkind : v.kind ≠ .text)
    (h : v.shown stack = .ok s) : Logging.levelOf s = .ok .info := by
  unfold shown at h
  split at h
  · cases h
  · exact levelOf_nested hkind h

/-- Of the values that a document can hold for the log level, only a text ever stands for another
level than the one for information. -/
theorem levelOf_display {stack : Stack} {v : Value} {s : String} (hkind : v.kind ≠ .text)
    (h : v.display stack = .ok s) : Logging.levelOf s = .ok .info := by
  cases v with
  | text s => exact absurd rfl hkind
  | date d =>
    obtain rfl := Except.ok.inj h
    exact Logging.levelOf_of_isOutside (c := '-') (by simp [Date.text, toString]) rfl
  | time t =>
    obtain rfl := Except.ok.inj h
    refine Logging.levelOf_of_isOutside (c := ':') ?_ rfl
    unfold Time.text
    split <;> simp [toString]
  | dateTime d t offset =>
    obtain rfl := Except.ok.inj h
    exact Logging.levelOf_of_isOutside (c := ' ') (by simp [toString]) rfl
  | integer | real | boolean | array | table => exact levelOf_shown hkind h

end Toml.Value

namespace UserDirectory

variable {fs fs' : FileSystem} {P : Location → Prop} {dir : Path}

/-- A directory in which a log can be kept: what of it and of the log is not there can be made. -/
structure CanLog (fs : FileSystem) (dir : Path) : Prop where
  userDir : (ensure fs dir).2.result = .ok ()
  logDir : ((ensure fs dir).1.makeDirectories (dir.child logName)).2 = .ok ()
  logFile : ∃ opened, (prepared fs dir).openForWriting
    (Logging.openedPath (prepared fs dir) dir) = .ok opened

theorem CanLog.sameBut (h : CanLog fs dir) (hsame : fs.SameBut P fs') : CanLog fs' dir := by
  obtain ⟨hensured, hresult⟩ := hsame.ensure dir
  obtain ⟨hmade, hmadeResult⟩ := hensured.makeDirectories (dir.child logName)
  have hprepared : (prepared fs dir).SameBut P (prepared fs' dir) := hmade
  refine ⟨by rw [hresult, h.userDir], by rw [hmadeResult, h.logDir], ?_⟩
  obtain ⟨⟨k, old⟩, hopen⟩ := h.logFile
  rw [Logging.openedPath] at hopen
  have hfile := hprepared.openFile ((dir.child logName).child Logging.fileName) false
  rw [hopen] at hfile
  obtain ⟨kept, hfile⟩ := hfile
  obtain ⟨opened, hopened, -⟩ := ok_of_map hfile
  exact ⟨opened, hopened⟩

end UserDirectory

namespace Run

variable {ε : Type} {launcher : Launcher ε} {clock : Clock} {env : Environment}
  {userDir : Option Path} {fs : FileSystem} {logging : Logging} {tokens : List String} {dir : Path}
  {s : Settings} {d : Desk} {session : Session} {warnings : List Warning}

theorem result_ready (h : UserDirectory.CanLog d.files session.userDir) :
    (ready clock d session warnings).2 =
      (Logging.levelOf session.settings.logLevel).map fun _ ↦ () := by
  obtain ⟨huser, hdir, ⟨opened, hopen⟩⟩ := h
  obtain ⟨hrecords, -⟩ := UserDirectory.ensure_eq_ok huser
  rw [UserDirectory.prepared, Logging.openedPath] at hopen
  unfold ready
  rcases hmade : UserDirectory.ensure d.files session.userDir with ⟨fs₁, records, f | u⟩ <;>
    rw [hmade] at huser hdir hrecords hopen
  · cases huser
  rcases hlog : fs₁.makeDirectories (session.userDir.child UserDirectory.logName)
    with ⟨fs₂, f | u⟩ <;> rw [hlog] at hdir hopen
  · cases hdir
  cases hrecords
  have hfile : ∃ file, Logging.openFile fs₂
      ((session.userDir.child UserDirectory.logName).child Logging.fileName)
      session.logAppend = .ok file := by
    rw [Logging.openFile, hopen]
    exact ⟨_, rfl⟩
  obtain ⟨file, hfile⟩ := hfile
  simp only [Desk.logAll, List.foldl_nil, Logging.setUp_eq, hlog, hfile]
  cases Logging.levelOf session.settings.logLevel <;> rfl

theorem levelOf_of_ready {d' : Desk} (h : ready clock d session warnings = (d', .ok ())) :
    Logging.levelOf session.settings.logLevel = .ok d'.logging.threshold := by
  obtain ⟨threshold, k, kept, opened, hopens, rfl⟩ := ready_eq_ok h
  obtain ⟨_, -, hlogs⟩ := hopens.logsTo.logAll clock
    (openingRecords (logFile session) session.logAppend warnings)
  rw [hopens.level, hlogs.threshold]

theorem exists_heard (clock : Clock) (logging : Logging)
    (hdir : userDir.elim (UserDirectory.default env) .ok = .ok dir)
    (hload : (Settings.load fs (dir.child UserDirectory.configName)).result = .ok s)
    (hread : (readCommandLine (.opened dir s) fs tokens).2 = none)
    (hlog : UserDirectory.CanLog fs dir) :
    ∃ desk read, opened clock env userDir fs logging = (desk, .ok (.opened dir s)) ∧
      readCommandLine (.opened dir s) desk.files tokens = (read, none) ∧
      read.session.settings = s ∧
      UserDirectory.CanLog (heard clock desk read).files read.session.userDir := by
  obtain ⟨desk, hopened, hdesk⟩ := opened_near (P := fun _ ↦ True) clock hdir hload (.refl _ fs)
    fun f (_ : f ∈ logging.outputs) _ _ ↦ trivial
  obtain ⟨hlen, haccepted, -⟩ := Progress.readCommandLine_eq_none (Prod.ext rfl hread)
  exact ⟨desk, _, hopened, readCommandLine_near hdesk hlen haccepted, rfl,
    hlog.sameBut (heard_near hdesk rfl).files⟩

theorem levelOf_of_readsAs {t : Toml.Table} {v : Toml.Value} {p : Path}
    (hload : (Settings.load fs p).result = .ok s) (h : Settings.ReadsAs fs p t)
    (hv : Settings.valueAt t "General" "logLevel" = some v) (hkind : v.kind ≠ .text) :
    Logging.levelOf s.logLevel = .ok .info := by
  by_cases htyped : Settings.WellTyped t
  · rw [Settings.load_of_wellTyped h htyped] at hload
    obtain ⟨level, hlevel, rfl⟩ := ok_of_map hload
    exact Toml.Value.levelOf_display hkind ((Settings.takesGeneral_settingsOf hlevel).logLevel v hv)
  · obtain ⟨text, hdefaults⟩ := (Settings.exists_warning_iff h).2 htyped
    rw [hdefaults] at hload
    cases hload
    rfl

/-- A run that comes to its log, in a place where a log can be kept, sets it up at the level that
the configured text stands for. Only a text that in capitals is a name of the logging system's for
something else ends it. A value of another type than text stands for the level for information. -/
theorem run_level_iff (launcher : Launcher ε) (clock : Clock) (logging : Logging)
    (hdir : userDir.elim (UserDirectory.default env) .ok = .ok dir)
    (hload : (Settings.load fs (dir.child UserDirectory.configName)).result = .ok s)
    (hread : (readCommandLine (.opened dir s) fs tokens).2 = none)
    (hlog : UserDirectory.CanLog fs dir) :
    ∃ desk read d result, opened clock env userDir fs logging = (desk, .ok (.opened dir s)) ∧
      readCommandLine (.opened dir s) desk.files tokens = (read, none) ∧
      ready clock (heard clock desk read) read.session read.warnings = (d, result) ∧
      (result = .ok () ↔ ∀ found, ¬ Logging.NamesOther s.logLevel found) ∧
      (result = .ok () → Logging.StandsFor s.logLevel d.logging.threshold) ∧
      (∀ found, Logging.NamesOther s.logLevel found →
        run launcher clock env userDir fs logging tokens = d.abort (.unknownLevel found)) ∧
      ∀ t v, Settings.ReadsAs fs (dir.child UserDirectory.configName) t →
        Settings.valueAt t "General" "logLevel" = some v → v.kind ≠ .text →
          result = .ok () ∧ d.logging.threshold = .info := by
  obtain ⟨desk, read, hopened, hread, hsettings, hlog⟩ :=
    exists_heard clock logging hdir hload hread hlog
  rcases hready : ready clock (heard clock desk read) read.session read.warnings with ⟨d, result⟩
  have hresult : result = (Logging.levelOf s.logLevel).map fun _ ↦ () := by
    rw [← hsettings, ← result_ready hlog, hready]
  have hthreshold : ∀ level, Logging.levelOf s.logLevel = .ok level →
      result = .ok () ∧ d.logging.threshold = level := by
    intro level hlevel
    rw [hlevel] at hresult
    rw [hresult] at hready
    have hsame := levelOf_of_ready hready
    rw [hsettings, hlevel] at hsame
    exact ⟨hresult, (Except.ok.inj hsame).symm⟩
  have hfails : ∀ found, Logging.NamesOther s.logLevel found →
      result = .error (.unknownLevel found) := by
    intro found hfound
    rw [hresult, Logging.levelOf_eq_error_iff.2 ⟨found, hfound, rfl⟩]
    rfl
  refine ⟨desk, read, d, result, hopened, hread, hready, ⟨?_, ?_⟩, ?_, ?_, ?_⟩
  · intro hok found hfound
    rw [hfails found hfound] at hok
    cases hok
  · intro hnone
    rcases hlevel : Logging.levelOf s.logLevel with f | level
    · obtain ⟨found, hfound, -⟩ := Logging.levelOf_eq_error_iff.1 hlevel
      exact absurd hfound (hnone found)
    · exact (hthreshold level hlevel).1
  · intro hok
    rcases hlevel : Logging.levelOf s.logLevel with f | level
    · rw [hlevel, hok] at hresult
      cases hresult
    · rw [(hthreshold level hlevel).2]
      exact (Logging.levelOf_eq_ok_iff.1 hlevel).2
  · intro found hfound
    rw [run_eq_proceed hopened hread, proceed_eq_ready, hready, hfails found hfound]
  · intro t v hdocument hv hkind
    exact hthreshold _ (levelOf_of_readsAs hload hdocument hv hkind)

def configured (level : String) : FileSystem :=
  (FileSystem.bare []).withFile "user/config.toml"
    (Text.encodeUtf8 (Settings.render { logLevel := level }))

def configuredRun (level : String) : Outcome Event :=
  run (Launch.run { env := [] }) .stopped [] (some (.ofString "user")) (configured level) {}
    [programName, "g"]

theorem load_configured (level : String) :
    Settings.load (configured level) ((Path.ofString "user").child UserDirectory.configName) =
      ⟨[], .ok { logLevel := level }⟩ := by
  have hwalk : (configured level).walk .follow
      ((Path.ofString "user").child UserDirectory.configName) =
      .ok (.occupied (FileSystem.placeAt "user/config.toml")
        (.file (Text.encodeUtf8 (Settings.render { logLevel := level })))) := rfl
  exact Settings.load_of_written rfl hwalk

theorem read_configured (level : String) :
    (readCommandLine (.opened (.ofString "user") { logLevel := level }) (configured level)
      [programName, "g"]).2 = none := by
  have haccepted : ∀ seg ∈ Segment.ofTokens [programName, "g"].tail,
      seg.IsAccepted (configured level) := by
    intro seg hseg
    obtain rfl := List.mem_singleton.1
      (show seg ∈ [Segment.unknown "g"] from hseg)
    trivial
  rw [Progress.readCommandLine_of_accepted (by decide) haccepted]

theorem canLog_configured (level : String) :
    UserDirectory.CanLog (configured level) (.ofString "user") := by
  refine ⟨rfl, rfl, ?_⟩
  have hprepared : UserDirectory.prepared (configured level) (.ofString "user") =
      (configured level).put (FileSystem.placeAt "user/log") .directory := rfl
  have hpath : Logging.openedPath (UserDirectory.prepared (configured level) (.ofString "user"))
      (.ofString "user") = .ofString "/user/log/emucli.log" := rfl
  rw [hpath, hprepared]
  exact ⟨_, rfl⟩

theorem run_level_mixed :
    ∃ desk read d,
      opened .stopped [] (some (.ofString "user")) (configured "wArN") {} =
        (desk, .ok (.opened (.ofString "user") { logLevel := "wArN" })) ∧
      readCommandLine (.opened (.ofString "user") { logLevel := "wArN" }) desk.files
        [programName, "g"] = (read, none) ∧
      ready .stopped (heard .stopped desk read) read.session read.warnings = (d, .ok ()) ∧
      d.logging.threshold = .warning := by
  have hload : (Settings.load (configured "wArN")
      ((Path.ofString "user").child UserDirectory.configName)).result =
        .ok { logLevel := "wArN" } := by rw [load_configured]
  have hdir : (some (Path.ofString "user")).elim (UserDirectory.default []) Except.ok =
      .ok (.ofString "user") := rfl
  obtain ⟨desk, read, d, result, hopened, hread, hready, hiff, hlevel, -⟩ :=
    run_level_iff (Launch.run { env := [] }) .stopped {} hdir hload (read_configured "wArN")
      (canLog_configured "wArN")
  have hok : result = .ok () := by
    apply hiff.2
    intro found hfound
    cases Logging.lookup_reservedNames.2 hfound
  rw [hok] at hready
  refine ⟨desk, read, d, hopened, hread, hready, ?_⟩
  obtain hnames | ⟨hnone, -⟩ := hlevel hok
  · exact (Option.some.inj (Logging.lookup_knownLevels.2 hnames)).symm
  · exact absurd (Logging.lookup_knownLevels.1 rfl) (hnone .warning)

structure EndsRun (level : String) : Prop where
  load : (Settings.load (configured level)
    ((Path.ofString "user").child UserDirectory.configName)).result = .ok { logLevel := level }
  read : (readCommandLine (.opened (.ofString "user") { logLevel := level }) (configured level)
    [programName, "g"]).2 = none
  canLog : UserDirectory.CanLog (configured level) (.ofString "user")
  exit : ∃ found, (configuredRun level).exit = .error (.unknownLevel found)

theorem endsRun_of_exit {level : String} {found : NonLevel}
    (h : (configuredRun level).exit = .error (.unknownLevel found)) : EndsRun level where
  load := by rw [load_configured]
  read := read_configured level
  canLog := canLog_configured level
  exit := ⟨found, h⟩

/-- Texts that happen to name something else in the logging system, in whatever case. -/
theorem run_level_other : EndsRun "basic_format" ∧ EndsRun "_STYLES" := by
  constructor
  · apply endsRun_of_exit
    rw [configuredRun, run_of_load (load_configured _)]
    rfl
  · apply endsRun_of_exit
    rw [configuredRun, run_of_load (load_configured _)]
    rfl

end Run

end GameLauncher
