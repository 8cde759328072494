import Mathlib.Data.Nat.Digits.Defs
import GameLauncher.Proofs.CommandLineFailures
import GameLauncher.Proofs.LaunchTrace

namespace GameLauncher

namespace Decimal

def digits : List Char := ['0', '1', '2', '3', '4', '5', '6', '7', '8', '9']

theorem isDigit_iff (c : Char) : isDigit c = true ↔ c ∈ digits := by
  constructor
  · intro h
    simp only [isDigit, Bool.and_eq_true, decide_eq_true_eq, Char.le_def,
      UInt32.le_iff_toNat_le] at h
    have hbounds : 48 ≤ c.toNat ∧ c.toNat ≤ 57 := h
    have hall : ∀ n < 10, Char.ofNat (48 + n) ∈ digits := by decide
    have hcode : c.toNat = 48 + (c.toNat - 48) := by omega
    rw [← Char.ofNat_toNat c, hcode]
    exact hall _ (by omega)
  · have hall : digits.all isDigit = true := by decide
    exact List.all_eq_true.1 hall c

theorem ofDigits_eq (base : Nat) (ds : List Char) :
    ofDigits base ds = Nat.ofDigits base (ds.reverse.map digitValue) := by
  rw [ofDigits, Nat.ofDigits_eq_foldr, List.foldr_map, List.foldr_reverse]
  simp only [Nat.cast_id, Nat.add_comm, Nat.mul_comm base]

end Decimal

namespace CommandLine

variable {v t : String} {n m : Int} {ds cs : List Char}

/-- Digits alone, one at least. -/
def IsDigits (ds : List Char) : Prop := ds ≠ [] ∧ ∀ c ∈ ds, c ∈ Decimal.digits

/-- The number that digits spell: each stands for its place among the ten. -/
def valueOf (ds : List Char) : Nat := Nat.ofDigits 10 (ds.reverse.map Decimal.digits.idxOf)

/-- The integers that texts denote: those that digits spell, behind at most one sign. -/
inductive Denotes : String → Int → Prop
  | plain {ds : List Char} : IsDigits ds → Denotes (String.ofList ds) (valueOf ds)
  | plus {ds : List Char} : IsDigits ds → Denotes (String.ofList ('+' :: ds)) (valueOf ds)
  | minus {ds : List Char} : IsDigits ds → Denotes (String.ofList ('-' :: ds)) (-valueOf ds)

theorem valueOf_eq (h : IsDigits ds) : Decimal.ofDigits 10 ds = valueOf ds := by
  have hall :
      (Decimal.digits.all fun c ↦ Decimal.digitValue c = Decimal.digits.idxOf c) = true := by
    decide
  rw [Decimal.ofDigits_eq, valueOf]
  congr 1
  apply List.map_congr_left
  intro c hc
  exact of_decide_eq_true (List.all_eq_true.1 hall c (h.2 c (List.mem_reverse.1 hc)))

theorem sign_of_isDigits (h : IsDigits ds) : Decimal.sign ds = (false, ds) := by
  obtain ⟨r, rfl, -⟩ | ⟨r, rfl, -⟩ | hplain := Decimal.sign_cases ds
  · exact absurd (h.2 '-' List.mem_cons_self) (by decide)
  · exact absurd (h.2 '+' List.mem_cons_self) (by decide)
  · exact hplain

theorem isInteger_iff_isDigits : IsInteger v ↔ IsDigits (digitsOf v) := by
  simp only [IsInteger, IsDigits, Decimal.isDigit_iff]

/-- What is taken for an integer is one, and the one that its text denotes. -/
theorem denotes_iff : Denotes v n ↔ IsInteger v ∧ n = pidValue v := by
  rw [isInteger_iff_isDigits]
  constructor
  · intro h
    cases h with
    | plain h => simp [digitsOf, pidValue, sign_of_isDigits h, h, Decimal.signed, valueOf_eq h]
    | plus h => simp [digitsOf, pidValue, Decimal.sign, h, Decimal.signed, valueOf_eq h]
    | minus h => simp [digitsOf, pidValue, Decimal.sign, h, Decimal.signed, valueOf_eq h]
  · intro h
    obtain ⟨h, rfl⟩ := h
    obtain ⟨cs, rfl⟩ : ∃ cs, v = String.ofList cs := ⟨v.toList, String.ofList_toList.symm⟩
    simp only [digitsOf, pidValue, String.toList_ofList] at h ⊢
    obtain ⟨r, rfl, hsign⟩ | ⟨r, rfl, hsign⟩ | hsign := Decimal.sign_cases cs
    · rw [hsign] at h ⊢
      rw [valueOf_eq h]
      exact .minus h
    · rw [hsign] at h ⊢
      rw [valueOf_eq h]
      exact .plus h
    · rw [hsign] at h ⊢
      rw [valueOf_eq h]
      exact .plain h

theorem isPid_iff : IsPid v ↔ ∃ n, Denotes v n ∧ 1 ≤ n ∧ n ≤ 2 ^ 31 - 1 := by
  simp only [denotes_iff, IsPid]
  constructor
  · intro h
    exact ⟨_, ⟨h.1, rfl⟩, h.2⟩
  · intro h
    obtain ⟨n, ⟨hinteger, rfl⟩, hrange⟩ := h
    exact ⟨hinteger, hrange⟩

theorem not_isLong (h : v.toList.countP (· ∈ Decimal.digits) ≤ 4300) : ¬ IsLong v := by
  intro hboth
  obtain ⟨hinteger, hlong⟩ := hboth
  have hcount : (digitsOf v).countP (· ∈ Decimal.digits) = (digitsOf v).length := by
    rw [List.countP_eq_length]
    intro c hc
    exact decide_eq_true ((isInteger_iff_isDigits.1 hinteger).2 c hc)
  have hle : (digitsOf v).countP (· ∈ Decimal.digits) ≤ v.toList.countP (· ∈ Decimal.digits) :=
    (Decimal.sign_suffix v.toList).sublist.countP_le
  omega

theorem readPid_eq_ok_iff :
    readPid t v = .ok n ↔ ¬ IsLong v ∧ Denotes v n ∧ 1 ≤ n ∧ n ≤ 2 ^ 31 - 1 := by
  cases hread : readPid t v with
  | error f =>
    apply iff_of_false
    · simp
    · intro h
      obtain ⟨hlong, hv⟩ := h
      rcases readPid_eq_error.1 hread with ⟨hlong', -⟩ | ⟨-, hpid, -⟩
      · exact hlong hlong'
      · exact hpid (isPid_iff.2 ⟨n, hv⟩)
  | ok m =>
    have hfail : ∀ f, readPid t v ≠ .error f := by simp [hread]
    have hlong : ¬ IsLong v := fun h ↦ hfail _ (readPid_eq_error.2 (.inl ⟨h, rfl⟩))
    have hpid : IsPid v := Classical.byContradiction fun h ↦
      hfail _ (readPid_eq_error.2 (.inr ⟨hlong, h, rfl⟩))
    obtain rfl := readPid_eq_ok hread
    rw [Except.ok.injEq]
    constructor
    · intro h
      subst h
      exact ⟨hlong, denotes_iff.2 ⟨hpid.1, rfl⟩, hpid.2⟩
    · intro h
      exact (denotes_iff.1 h.2.1).2.symm

end CommandLine

namespace Segment

variable {ts : List String} {segs : List Segment} {p : Parameter} {t v : String}

theorem CutInto.mem_spellings (h : CutInto ts segs) (hseg : .valued p t v ∈ segs) :
    t ∈ p.spellings := by
  induction h with
  | nil | separator | cut => simp at hseg
  | switch _ _ ih | unknown _ _ _ ih => exact ih (by simpa using hseg)
  | valued w ht _ ih =>
    rcases List.mem_cons.1 hseg with heq | hseg
    · cases heq
      exact ht
    · exact ih hseg

end Segment

namespace Progress

open CommandLine

variable {a : Progress} {files : FileSystem} {tokens : List String}
  {segs before after : List Segment} {seg : Segment} {t v : String} {n : Int}

theorem step_of_denotes (hlong : ¬ IsLong v) (hv : Denotes v n) (hpos : 1 ≤ n)
    (hle : n ≤ 2 ^ 31 - 1) :
    a.step (.valued .waitForPid t v) =
      ({ a with invocation := { a.invocation with waitPid := some n } }, none) := by
  have hread : readPid t v = .ok n := readPid_eq_ok_iff.2 ⟨hlong, hv, hpos, hle⟩
  simp only [step, applyParameter, hread, withValue, proceed]

theorem step_of_not_isPid (hlong : ¬ IsLong v) (hpid : ¬ IsPid v) :
    a.step (.valued .waitForPid t v) = (a, some (.failed (.badPid t v))) := by
  simp only [step, applyParameter, readPid_eq_error.2 (.inr ⟨hlong, hpid, rfl⟩), withValue, stop]

theorem readCommandLine_eq_run (session : Session) (hcut : Segment.CutInto tokens.tail segs)
    (hsegs : segs = before ++ seg :: after) (haccepted : ∀ s ∈ before, s.IsAccepted files) :
    readCommandLine session files tokens = (meaning session files before).run (seg :: after) := by
  have htokens : Segment.ofTokens tokens.tail = before ++ seg :: after :=
    hcut.eq_ofTokens.symm.trans hsegs
  have hlen : ¬ tokens.length ≤ 1 := by
    intro hlen
    have hnil : tokens.tail = [] := List.eq_nil_of_length_eq_zero (by simp; omega)
    simp [hnil, Segment.ofTokens] at htokens
  rw [readCommandLine, start_eq_meaning, if_neg hlen, htokens,
    run_append (run_before htokens haccepted)]

end Progress

namespace Launch

variable {sur : Surroundings} {fs : FileSystem} {game : Game} {invocation : Invocation}
  {session : Session} {pid other : Int} {interval : Seconds} {answers : List Bool}

theorem eq_of_poll_mem_waitEvents (h : .poll pid ∈ waitEvents other interval answers) :
    pid = other := by
  fun_induction waitEvents other interval answers with
  | case1 answers ih =>
    simp only [List.mem_cons, Event.poll.injEq, reduceCtorEq, false_or] at h
    rcases h with rfl | h
    · rfl
    · exact ih h
  | case2 => simpa using h

theorem waitPid_of_poll (h : .poll pid ∈ (run sur fs game invocation session).events) :
    invocation.waitPid = some pid := by
  rcases run_cases sur fs game invocation session with ⟨message, hrun, -⟩ | ⟨f, hrun⟩ |
    ⟨core, -, -, hrun⟩
  · rw [hrun] at h
    cases h
  · rw [hrun] at h
    cases h
  · rw [hrun, start] at h
    cases hpid : invocation.waitPid with
    | none => simp [hpid] at h
    | some other =>
      simp only [hpid, Option.elim_some, List.mem_append, List.mem_singleton, reduceCtorEq,
        or_false] at h
      rw [eq_of_poll_mem_waitEvents h]

end Launch

open CommandLine

theorem denotes_of_poll {sur : Launch.Surroundings} {clock : Clock} {env : Environment}
    {userDir : Option Path} {files : FileSystem} {logging : Logging} {tokens : List String}
    {pid : Int}
    (h : .poll pid ∈ (run (Launch.run sur) clock env userDir files logging tokens).events) :
    ∃ v, Segment.lastValue .waitForPid (Segment.ofTokens tokens.tail) = some v ∧ Denotes v pid ∧
      1 ≤ pid ∧ pid ≤ 2 ^ 31 - 1 := by
  obtain ⟨session, read, b, found, launched, game, -, hread, -, hlaunches⟩ := Run.mem_events_run h
  have hwait := Launch.waitPid_of_poll hlaunches.event
  obtain ⟨-, haccepted, rfl⟩ := Progress.readCommandLine_eq_none hread
  obtain ⟨v, hv, rfl⟩ := Option.map_eq_some_iff.1 hwait
  obtain ⟨t, hseg⟩ := Segment.valued_of_lastValue hv
  obtain ⟨n, hn⟩ := haccepted _ hseg
  obtain rfl := readPid_eq_ok hn
  exact ⟨v, hv, (readPid_eq_ok_iff.1 hn).2⟩

/-- A value of at most 4300 digits is taken exactly if it denotes the number of a process that there
may be, and then it is that process that is waited for. What a run polls is always such a number. -/
theorem waitForPid_language (session : Session) (files : FileSystem) :
    (∀ {tokens segs before after t v}, Segment.CutInto tokens.tail segs →
      segs = before ++ .valued .waitForPid t v :: after →
      (∀ seg ∈ before, seg.IsAccepted files) →
      v.toList.countP (· ∈ Decimal.digits) ≤ 4300 →
        let reached := Progress.meaning session files before
        (∀ n, Denotes v n → 1 ≤ n → n ≤ 2 ^ 31 - 1 → readCommandLine session files tokens =
          { reached with invocation := { reached.invocation with waitPid := some n } }.run after) ∧
        ((∀ n, Denotes v n → ¬ (1 ≤ n ∧ n ≤ 2 ^ 31 - 1)) →
          readCommandLine session files tokens =
            (reached, some (.failed (.badPid "--wait-for-pid" v))))) ∧
    ∀ sur clock env userDir logging tokens pid,
      .poll pid ∈ (run (Launch.run sur) clock env userDir files logging tokens).events →
        1 ≤ pid ∧ pid ≤ 2 ^ 31 - 1 ∧
          ∃ v, Segment.lastValue .waitForPid (Segment.ofTokens tokens.tail) = some v ∧
            Denotes v pid := by
  constructor
  · intro tokens segs before after t v hcut hsegs haccepted hdigits reached
    have hlong := not_isLong hdigits
    have hread := Progress.readCommandLine_eq_run session hcut hsegs haccepted
    constructor
    · intro n hv hpos hle
      rw [hread, Progress.run, Progress.step_of_denotes hlong hv hpos hle]
    · intro hnone
      have hpid : ¬ IsPid v := by
        intro hpid
        obtain ⟨n, hv, hrange⟩ := isPid_iff.1 hpid
        exact hnone n hv hrange
      have ht : t = "--wait-for-pid" := by
        have hseg : .valued .waitForPid t v ∈ segs := by simp [hsegs]
        exact List.mem_singleton.1 (hcut.mem_spellings hseg)
      rw [hread, Progress.run, Progress.step_of_not_isPid hlong hpid, ht]
      rfl
  · intro sur clock env userDir logging tokens pid hpoll
    obtain ⟨v, hv, hdenotes, hpos, hle⟩ := denotes_of_poll hpoll
    exact ⟨hpos, hle, v, hv, hdenotes⟩

/-- A sign and zeros are read over, and an underscore is not. -/
theorem waitForPid_language_zeros :
    let session : Session := { settings := {}, settingsFile := .here, userDir := .here }
    let tokens (v : String) := ["emucli", "--show-fps", "--wait-for-pid", v]
    let segs (v : String) : List Segment :=
      [.switch .showFps "--show-fps", .valued .waitForPid "--wait-for-pid" v]
    (∀ v, Segment.CutInto (tokens v).tail (segs v)) ∧
      (readCommandLine session (.bare []) (tokens "+007")).1.invocation.waitPid = some 7 ∧
      (readCommandLine session (.bare []) (tokens "1_0")).2 =
        some (.failed (.badPid "--wait-for-pid" "1_0")) := by
  intro session tokens segs
  have hcut : ∀ v, Segment.CutInto (tokens v).tail (segs v) := fun v ↦
    .switch (by decide) (.valued v (by decide) .nil)
  have haccepted : ∀ seg ∈ [Segment.switch .showFps "--show-fps"], seg.IsAccepted (.bare []) := by
    simp [Segment.IsAccepted]
  obtain ⟨hlanguage, -⟩ := waitForPid_language session (.bare [])
  refine ⟨hcut, ?_, ?_⟩
  · obtain ⟨htaken, -⟩ := hlanguage (hcut "+007") rfl haccepted (by decide)
    have hdigits : IsDigits ['0', '0', '7'] := by simp [IsDigits, Decimal.digits]
    have hseven : Denotes "+007" 7 := .plus hdigits
    rw [htaken 7 hseven (by decide) (by decide)]
    rfl
  · obtain ⟨-, hrefused⟩ := hlanguage (hcut "1_0") rfl haccepted (by decide)
    rw [hrefused]
    intro n hn
    have hunderscore := (denotes_iff.1 hn).1.2 '_' (by decide)
    cases hunderscore

end GameLauncher
