import GameLauncher.Proofs.LongIntegers
import GameLauncher.Proofs.SearchedFolders

namespace GameLauncher.Settings

open Toml (Table Value)

def isTable : Option Value → Bool
  | none | some (.table _) => true
  | some _ => false

def isArray : Option Value → Bool
  | none | some (.array _) => true
  | some _ => false

def isText : Option Value → Bool
  | none | some (.text _) => true
  | some _ => false

def membersOf : Option Value → Table
  | some (.table members) => members
  | _ => []

def itemsOf : Option Value → List Value
  | some (.array items) => items
  | _ => []

def textOf : Option Value → String
  | some (.text s) => s
  | _ => ""

def pathFrom : Option Value → Option Path
  | some (.text s) => if s = "" then none else some (.ofString s)
  | _ => none

def valueAt (t : Table) (name key : String) : Option Value := (membersOf (t.get? name)).get? key

/-- Whether a directory is on, by its place in the array of flags. Without a flag there it is. -/
def isOn : Option Value → Bool
  | some (.boolean b) => b
  | _ => true

/-- The directory that a place of the array of paths stands for, if a path is there. Its flag is the
one at the same place of the other array. -/
def dirAt (flags : List Value) (v : Value) (i : Nat) : Option InstallDir :=
  (pathFrom (some v)).map fun path ↦ ⟨path, isOn flags[i]?⟩

/-- What must be a table, an array or a text is one, as far as it is there. -/
structure WellTyped (t : Table) : Prop where
  tables : ∀ name ∈ ["General", "GUI", "Launcher"], isTable (t.get? name) = true
  arrays : ∀ key ∈ ["installDirs", "installDirsEnabled"], isArray (valueAt t "GUI" key) = true
  addonDir : isText (valueAt t "GUI" "addonInstallDir") = true
  coreExecutable : isText (valueAt t "Launcher" "coreExecutable") = true

def levelOf (stack : Toml.Stack) (t : Table) : Except Failure String :=
  ((valueAt t "General" "logLevel").map (Value.display stack)).getD (.ok "INFO")

/-- The complaint of a machine that cannot follow the log level's value to its depths. -/
def levelOverflow? (stack : Toml.Stack) (t : Table) : Option String :=
  (valueAt t "General" "logLevel").bind stack.showOverflow?

/-- The settings that a document holds, but for the log level. -/
def settingsOf (t : Table) (logLevel : String) : Settings where
  installDirs := (itemsOf (valueAt t "GUI" "installDirs")).zipIdx.filterMap
    fun (v, i) ↦ dirAt (itemsOf (valueAt t "GUI" "installDirsEnabled")) v i
  addonDir := pathFrom (valueAt t "GUI" "addonInstallDir")
  fullscreen := ((valueAt t "General" "isFullscreen").map Value.isTrue).getD false
  showFps := ((valueAt t "General" "showFpsCounter").map Value.isTrue).getD false
  coreExecutable := pathFrom (valueAt t "Launcher" "coreExecutable")
  logLevel := logLevel

def keys : List (String × String) :=
  [("General", "isFullscreen"), ("General", "showFpsCounter"), ("General", "logLevel"),
    ("GUI", "installDirs"), ("GUI", "installDirsEnabled"), ("GUI", "addonInstallDir"),
    ("Launcher", "coreExecutable")]

structure SameKeys (t t' : Table) : Prop where
  tables : ∀ name ∈ ["General", "GUI", "Launcher"], isTable (t.get? name) = isTable (t'.get? name)
  values : ∀ e ∈ keys, valueAt t e.1 e.2 = valueAt t' e.1 e.2

/-- The places of a document that hold a value of another type than they must, in the order in which
they are looked at. -/
def misfits (t : Table) : List Misfit :=
  (["General", "GUI", "Launcher"].filter fun name ↦ !isTable (t.get? name)).map .notATable ++
    (["installDirs", "installDirsEnabled"].filter fun key ↦
      !isArray (valueAt t "GUI" key)).map .notAnArray ++
    ([("GUI", "addonInstallDir"), ("Launcher", "coreExecutable")].filter fun e ↦
      !isText (valueAt t e.1 e.2)).map fun e ↦ .notAString e.2

def partsOf (t : Table) : Parts where
  general := membersOf (t.get? "General")
  installDirs := installDirsOf (itemsOf (valueAt t "GUI" "installDirs"))
    (itemsOf (valueAt t "GUI" "installDirsEnabled"))
  addonDir := pathFrom (valueAt t "GUI" "addonInstallDir")
  coreExecutable := pathFrom (valueAt t "Launcher" "coreExecutable")

def ReadsAs (fs : FileSystem) (p : Path) (t : Table) : Prop :=
  ∃ content text, fs.read p = .ok content ∧ Text.decodeUtf8 content = .ok text ∧
    Toml.parse fs.host.stack text = .ok t

variable {fs : FileSystem} {p : Path} {t t' : Table} {stack : Toml.Stack}

theorem misfits_eq_nil : misfits t = [] ↔ WellTyped t := by
  simp only [misfits, List.append_eq_nil_iff, List.map_eq_nil_iff, List.filter_eq_nil_iff,
    Bool.not_eq_true', Bool.not_eq_false]
  constructor
  · rintro ⟨⟨htables, harrays⟩, htexts⟩
    exact ⟨htables, harrays, htexts _ (.head _), htexts _ (.tail _ (.head _))⟩
  · rintro ⟨htables, harrays, haddon, hcore⟩
    exact ⟨⟨htables, harrays⟩, by simp [haddon, hcore]⟩

theorem tableAt_eq (t : Table) (name : String) :
    tableAt t name =
      if isTable (t.get? name) then .ok (membersOf (t.get? name)) else .error (.notATable name) := by
  unfold tableAt
  rcases t.get? name with _ | v
  · rfl
  · cases v <;> rfl

theorem arrayAt_eq (t : Table) (key : String) :
    arrayAt t key =
      if isArray (t.get? key) then .ok (itemsOf (t.get? key)) else .error (.notAnArray key) := by
  unfold arrayAt
  rcases t.get? key with _ | v
  · rfl
  · cases v <;> rfl

theorem textAt_eq (t : Table) (key : String) :
    textAt t key =
      if isText (t.get? key) then .ok (textOf (t.get? key)) else .error (.notAString key) := by
  unfold textAt
  rcases t.get? key with _ | v
  · rfl
  · cases v <;> rfl

theorem pathOf_textOf (o : Option Value) : pathOf (textOf o) = pathFrom o := by
  rcases o with _ | v
  · rfl
  · cases v <;> rfl

theorem installDirsOf_drop (ps flags : List Value) (k : Nat) :
    installDirsOf ps (flags.drop k) = (ps.zipIdx k).filterMap fun (v, i) ↦ dirAt flags v i := by
  induction ps generalizing k with
  | nil => rfl
  | cons p ps ih =>
    rw [List.zipIdx_cons, List.filterMap_cons, ← ih]
    cases p with
    | text s =>
      by_cases hs : s = ""
      · simp [installDirsOf, pathOf, dirAt, pathFrom, hs]
      · simp only [installDirsOf, pathOf, dirAt, pathFrom, hs, if_false, List.head?_drop,
          List.tail_drop, Option.map_some]
        rfl
    | _ => simp [installDirsOf, dirAt, pathFrom]

theorem bind_of_check {α β : Type} (b : Bool) (a : α) (m : Misfit) (f : α → Except Misfit β) :
    ((if b then .ok a else .error m) >>= f) = if b then f a else .error m := by
  cases b <;> rfl

theorem elim_firstMisfit {α β : Type} (fits : α → Bool) (misfit : α → Misfit) (a : α) (l : List α)
    (rest : List Misfit) (x : β) (f : Misfit → β) :
    ((((a :: l).filter fun a ↦ !fits a).map misfit) ++ rest).head?.elim x f =
      if fits a then (((l.filter fun a ↦ !fits a).map misfit) ++ rest).head?.elim x f
      else f (misfit a) := by
  cases h : fits a <;> simp [h]

/-- Nothing is made of a document with a misfit, and the first one in it is the one reported. -/
theorem ofTable_eq (t : Table) :
    Parts.ofTable t = (misfits t).head?.elim (.ok (partsOf t)) .error := by
  rw [← List.append_nil (misfits t)]
  simp only [Parts.ofTable, tableAt_eq, arrayAt_eq, textAt_eq, bind_of_check, pathOf_textOf,
    misfits, List.append_assoc, elim_firstMisfit, List.filter_nil, List.map_nil, List.nil_append]
  rfl

theorem logLevelAt_eq (stack : Toml.Stack) (t : Table) :
    logLevelAt stack t = ((t.get? "logLevel").map (Value.display stack)).getD (.ok "INFO") := by
  unfold logLevelAt
  cases t.get? "logLevel" <;> rfl

theorem settings_partsOf (stack : Toml.Stack) (t : Table) :
    (partsOf t).settings stack = (levelOf stack t).map (settingsOf t) := by
  have hdirs := installDirsOf_drop (itemsOf (valueAt t "GUI" "installDirs"))
    (itemsOf (valueAt t "GUI" "installDirsEnabled")) 0
  rw [List.drop_zero] at hdirs
  simp only [Parts.settings, partsOf, logLevelAt_eq, hdirs]
  rfl

theorem mem_of_get? {key : String} {v : Value} (h : t.get? key = some v) : (key, v) ∈ t := by
  obtain ⟨l₁, l₂, rfl, -⟩ := List.lookup_eq_some_iff.1 h
  simp

theorem holdsLong_of_valueAt {name key : String} {v : Value} (h : valueAt t name key = some v)
    (hlong : v.HoldsLong) : (Value.table t).HoldsLong := by
  unfold valueAt membersOf at h
  split at h
  · rename_i members hmembers
    have hmember := Value.holdsLong_table.2 ⟨(key, v), mem_of_get? h, hlong⟩
    exact Value.holdsLong_table.2 ⟨(name, _), mem_of_get? hmembers, hmember⟩
  · cases h

theorem levelOf_eq_error {f : Failure} :
    levelOf stack t = .error f ↔
      ∃ v, valueAt t "General" "logLevel" = some v ∧ v.Unwritable stack f := by
  unfold levelOf
  cases valueAt t "General" "logLevel" with
  | none => simp
  | some v => simp [Value.display_eq_error]

theorem SameKeys.misfits_eq (h : SameKeys t t') : misfits t = misfits t' := by
  obtain ⟨htables, hvalues⟩ := h
  simp only [keys, List.mem_cons, List.not_mem_nil, or_false, forall_eq_or_imp, forall_eq]
    at htables hvalues
  simp only [misfits, List.filter_cons, htables, hvalues, List.filter_nil]

theorem SameKeys.settings_eq (h : SameKeys t t') (stack : Toml.Stack) :
    (partsOf t).settings stack = (partsOf t').settings stack := by
  have hvalues := h.values
  simp only [keys, List.mem_cons, List.not_mem_nil, or_false, forall_eq_or_imp, forall_eq]
    at hvalues
  have hrest : settingsOf t = settingsOf t' := by
    funext level
    simp only [settingsOf, hvalues]
  simp only [settings_partsOf, levelOf, hvalues, hrest]

theorem load_of_readsAs (h : ReadsAs fs p t) :
    load fs p = match (misfits t).head? with
      | some m => warn s!"Invalid settings in {p.text}, using defaults: {m.message}"
      | none => .ofExcept ((partsOf t).settings fs.host.stack) := by
  obtain ⟨content, text, hread, hdecode, hparse⟩ := h
  obtain ⟨hnull, l, hwalk⟩ := FileSystem.read_eq_ok.1 hread
  rw [load_of_walk hnull hwalk, hdecode]
  simp only [ofText, hparse, ofTable_eq]
  cases (misfits t).head? <;> rfl

theorem load_of_wellTyped (h : ReadsAs fs p t) (htyped : WellTyped t) :
    load fs p = ⟨[], (levelOf fs.host.stack t).map (settingsOf t)⟩ := by
  rw [load_of_readsAs h, misfits_eq_nil.2 htyped]
  exact congrArg _ (settings_partsOf _ t)

theorem load_of_not_wellTyped (h : ReadsAs fs p t) (hwrong : ¬ WellTyped t) :
    ∃ m, (misfits t).head? = some m ∧
      load fs p = ⟨[⟨.warning, .settings,
        s!"Invalid settings in {p.text}, using defaults: {m.message}"⟩], .ok {}⟩ := by
  obtain ⟨m, r, hmisfits⟩ := List.exists_cons_of_ne_nil (mt misfits_eq_nil.1 hwrong)
  refine ⟨m, by rw [hmisfits]; rfl, ?_⟩
  rw [load_of_readsAs h, hmisfits]
  rfl

/-- A document in which everything is of its type gives the settings that it holds, unless the log
level is nested deeper than the machine can follow, and any other one gives the defaults and a
warning. Nothing else in a document counts. -/
theorem load_document (hdocument : ReadsAs fs p t)
    (hshort : ∀ n, (Value.table t).Contains n → ¬ Toml.IsLong n) :
    (WellTyped t → levelOverflow? fs.host.stack t = none →
        ∃ level, levelOf fs.host.stack t = .ok level ∧
          load fs p = ⟨[], .ok (settingsOf t level)⟩) ∧
      (WellTyped t → ∀ complaint, levelOverflow? fs.host.stack t = some complaint →
        load fs p = .fail (.tooDeep complaint)) ∧
      (¬ WellTyped t → ∃ m, (misfits t).head? = some m ∧
        load fs p = ⟨[⟨.warning, .settings,
          s!"Invalid settings in {p.text}, using defaults: {m.message}"⟩], .ok {}⟩) ∧
      ∀ fs' t', fs'.host = fs.host → ReadsAs fs' p t' → SameKeys t t' →
        load fs' p = load fs p := by
  refine ⟨?_, ?_, load_of_not_wellTyped hdocument, ?_⟩
  · intro htyped hroom
    cases hlevel : levelOf fs.host.stack t with
    | error f =>
      obtain ⟨v, hv, hunwritable⟩ := levelOf_eq_error.1 hlevel
      cases hunwritable with
      | tooDeep hdeep =>
        rw [levelOverflow?, hv, Option.bind_some, hdeep] at hroom
        cases hroom
      | longInteger _ hlong =>
        obtain ⟨n, hn, hlong⟩ := holdsLong_of_valueAt hv hlong
        exact absurd hlong (hshort n hn)
    | ok level => exact ⟨level, rfl, by rw [load_of_wellTyped hdocument htyped, hlevel]; rfl⟩
  · intro htyped complaint hdeep
    obtain ⟨v, hv, hdeep⟩ := Option.bind_eq_some_iff.1 hdeep
    rw [load_of_wellTyped hdocument htyped, levelOf_eq_error.2 ⟨v, hv, .tooDeep hdeep⟩]
    rfl
  · intro fs' t' hhost hdocument' hsame
    rw [load_of_readsAs hdocument, load_of_readsAs hdocument', hsame.misfits_eq, hsame.settings_eq,
      hhost]

theorem readsAs_render {ss : List Toml.Writer.Section} (hwritable : Toml.Writer.Writable ss)
    (h : fs.read p = .ok (Text.encodeUtf8 (Toml.render ss))) :
    ReadsAs fs p (ss.map fun s ↦ (s.name, s.value)) :=
  ⟨_, _, h, Text.decodeUtf8_encodeUtf8 _, Toml.parse_render hwritable⟩

theorem not_contains_written (ss : List Toml.Writer.Section) (n : Int) :
    ¬ (Value.table (ss.map fun s ↦ (s.name, s.value))).Contains n := by
  intro h
  cases h with
  | member hsection h =>
  obtain ⟨s, -, heq⟩ := List.mem_map.1 hsection
  cases heq
  cases h with
  | member hentry h =>
  obtain ⟨⟨key, e⟩, -, heq⟩ := List.mem_map.1 hentry
  cases heq
  cases e with
  | text | boolean => cases h
  | texts | booleans =>
    cases h with
    | item hitem h =>
    obtain ⟨x, -, rfl⟩ := List.mem_map.1 hitem
    cases h

def drifting : List Toml.Writer.Section :=
  [⟨"General", [("isFullscreen", .text "no"), ("logLevel", .booleans [true])]⟩,
    ⟨"GUI", [("installDirs", .texts ["a", "", "b"]),
      ("installDirsEnabled", .booleans [true, true, false])]⟩]

def driftingAmongOthers : List Toml.Writer.Section :=
  [⟨"Other", [("installDirs", .text "c")]⟩,
    ⟨"General", [("isFullscreen", .text "no"), ("logLevel", .booleans [true]),
      ("addonInstallDir", .boolean true)]⟩,
    ⟨"GUI", [("installDirs", .texts ["a", "", "b"]),
      ("installDirsEnabled", .booleans [true, true, false]), ("isFullscreen", .boolean false)]⟩]

def mistyped : List Toml.Writer.Section :=
  [⟨"General", [("isFullscreen", .text "no")]⟩,
    ⟨"GUI", [("installDirs", .text "a"), ("addonInstallDir", .boolean true)]⟩]

theorem load_document_drifting :
    let file (ss : List Toml.Writer.Section) :=
      (FileSystem.bare []).withFile "c.toml" (Text.encodeUtf8 (Toml.render ss))
    load (file drifting) (.ofString "c.toml") = ⟨[], .ok {
        installDirs := [⟨.ofString "a", true⟩, ⟨.ofString "b", false⟩]
        fullscreen := true
        logLevel := "[True]" }⟩ ∧
      load (file driftingAmongOthers) (.ofString "c.toml") =
        load (file drifting) (.ofString "c.toml") ∧
      load (file mistyped) (.ofString "c.toml") = ⟨[⟨.warning, .settings,
        "Invalid settings in c.toml, using defaults: installDirs must be an array"⟩], .ok {}⟩ := by
  intro file
  have hdocument : ReadsAs (file drifting) (.ofString "c.toml") _ :=
    readsAs_render ⟨by decide, by decide, by decide, by decide⟩ rfl
  have hothers : ReadsAs (file driftingAmongOthers) (.ofString "c.toml") _ :=
    readsAs_render ⟨by decide, by decide, by decide, by decide⟩ rfl
  have hmistyped : ReadsAs (file mistyped) (.ofString "c.toml") _ :=
    readsAs_render ⟨by decide, by decide, by decide, by decide⟩ rfl
  obtain ⟨hloaded, -, -, hsame⟩ := load_document hdocument fun n hn ↦
    absurd hn (not_contains_written _ n)
  obtain ⟨-, -, hwarned, -⟩ := load_document hmistyped fun n hn ↦
    absurd hn (not_contains_written _ n)
  have hhost : (file driftingAmongOthers).host = (file drifting).host :=
    (FileSystem.host_withFile _ _ _).trans (FileSystem.host_withFile _ _ _).symm
  refine ⟨?_, ?_, ?_⟩
  · obtain ⟨level, hlevel, hload⟩ := hloaded ⟨by decide, by decide, by decide, by decide⟩ rfl
    have hshown : levelOf .standard (drifting.map fun s ↦ (s.name, s.value)) = .ok "[True]" := rfl
    obtain rfl := Except.ok.inj (hlevel.symm.trans hshown)
    exact hload
  · refine hsame (file driftingAmongOthers) _ hhost hothers ⟨by decide, ?_⟩
    simp only [keys, List.mem_cons, List.not_mem_nil, or_false, forall_eq_or_imp, forall_eq]
    exact ⟨rfl, rfl, rfl, rfl, rfl, rfl, rfl⟩
  · obtain ⟨m, hm, hload⟩ := hwarned fun htyped ↦ absurd (htyped.arrays "installDirs") (by decide)
    obtain rfl := Option.some.inj hm
    exact hload

end GameLauncher.Settings
