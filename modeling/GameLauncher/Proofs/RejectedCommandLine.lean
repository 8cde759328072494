import GameLauncher.Proofs.FolderSaving
import GameLauncher.Proofs.ReusedInterpreter

namespace GameLauncher

namespace Segment

variable {ts : List String} {before after : List Segment} {seg : Segment}

theorem tokens_ne_nil (seg : Segment) : seg.tokens ≠ [] := by
  cases seg <;> simp [tokens]

/-- The first segment stands whatever follows it, unless it takes or needs the end of the line. -/
theorem ofTokens_eq_cons (h : ofTokens ts = seg :: after) :
    after = [] ∧ ofTokens seg.tokens = [seg] ∨
      (∃ rest, ofTokens rest = after) ∧
        ∀ more, ofTokens (seg.tokens ++ more) = seg :: ofTokens more := by
  fun_cases ofTokens ts with
  | case1 => cases h
  | case2 rest =>
    rw [ofTokens, if_pos rfl] at h
    cases h
    exact .inl ⟨rfl, rfl⟩
  | case3 t rest hsep hflag =>
    simp only [ofTokens, if_neg hsep, hflag] at h
    cases h
    refine .inr ⟨⟨rest, rfl⟩, ?_⟩
    intro more
    simp only [tokens, List.singleton_append, ofTokens, if_neg hsep, hflag]
  | case4 t rest hsep s hflag =>
    simp only [ofTokens, if_neg hsep, hflag] at h
    cases h
    refine .inr ⟨⟨rest, rfl⟩, ?_⟩
    intro more
    simp only [tokens, List.singleton_append, ofTokens, if_neg hsep, hflag]
  | case5 t hsep p hflag =>
    simp only [ofTokens, if_neg hsep, hflag] at h
    cases h
    refine .inl ⟨rfl, ?_⟩
    simp only [tokens, ofTokens, if_neg hsep, hflag]
  | case6 t hsep p hflag v rest =>
    simp only [ofTokens, if_neg hsep, hflag] at h
    cases h
    refine .inr ⟨⟨rest, rfl⟩, ?_⟩
    intro more
    simp only [tokens, List.cons_append, List.nil_append, ofTokens, if_neg hsep, hflag]

theorem ofTokens_flatMap_tokens (h : ofTokens ts = before ++ after) :
    ofTokens (before.flatMap tokens) = before := by
  induction before generalizing ts with
  | nil => rfl
  | cons seg before ih =>
    rcases ofTokens_eq_cons h with ⟨hend, hseg⟩ | ⟨⟨rest, hrest⟩, hseg⟩
    · obtain ⟨rfl, -⟩ := List.append_eq_nil_iff.1 hend
      simpa using hseg
    · rw [List.flatMap_cons, hseg, ih hrest]

theorem ofTokens_take (h : ofTokens ts = before ++ after) :
    ofTokens (ts.take (before.flatMap tokens).length) = before := by
  have hts : ts = before.flatMap tokens ++ after.flatMap tokens := by
    rw [← List.flatMap_append, ← h, flatMap_tokens_ofTokens]
  have htake : ts.take (before.flatMap tokens).length = before.flatMap tokens := by
    rw [hts, List.take_left]
  rw [htake, ofTokens_flatMap_tokens h]

end Segment

namespace Progress

variable {a b m : Progress} {e : Ending} {f : Failure} {seg : Segment}
  {segs segs' before after : List Segment} {ts : List String}

/-- Reading that ends early ends at a segment, and those before it are read to their end. -/
theorem run_eq_some (h : a.run segs = (b, some e)) :
    ∃ before seg after m, segs = before ++ seg :: after ∧ a.run before = (m, none) ∧
      m.step seg = (b, some e) := by
  induction segs generalizing a with
  | nil => cases h
  | cons seg rest ih =>
    rw [run] at h
    rcases hstep : a.step seg with ⟨m, _ | e'⟩
    · simp only [hstep] at h
      obtain ⟨before, seg', after, m', rfl, hbefore, hend⟩ := ih h
      refine ⟨seg :: before, seg', after, m', rfl, ?_, hend⟩
      simp only [run, hstep, hbefore]
    · simp only [hstep, stop] at h
      cases h
      exact ⟨[], seg, rest, a, rfl, rfl, hstep⟩

/-- A segment that is rejected changes nothing. Only a save that fails does. -/
theorem step_rejected (h : a.step seg = (b, some (.failed f))) (hf : f.isExpected = true) :
    b = a := by
  cases seg with
  | separator rest => cases h
  | switch s t => cases s <;> cases h
  | valued p t v =>
    cases p with
    | game | patch => cases h
    | fullscreen | overrideRoot | waitForPid =>
      rcases withValue_cases h with ⟨hb, -⟩ | ⟨x, -, hx⟩
      · exact hb
      · cases hx
    | addGameFolder | setAddonFolder =>
      rcases withValue_cases h with ⟨hb, -⟩ | ⟨x, -, hx⟩
      · exact hb
      · obtain ⟨-, ⟨-, hend⟩ | ⟨g, hg, hend⟩⟩ := persist_cases hx
        · cases hend
        · cases hend
          rw [hg.isExpected_eq_false] at hf
          cases hf
  | cut p t =>
    cases h
    rfl
  | unknown t =>
    simp only [step] at h
    split at h <;> cases h

theorem run_cons_of_tail (h : a.run (seg :: segs) = (b, some e))
    (htail : ∀ m : Progress, m.run segs = (b, some e) → m.run segs' = (b, some e)) :
    a.run (seg :: segs') = (b, some e) := by
  rw [run] at h ⊢
  rcases hstep : a.step seg with ⟨m, _ | e'⟩
  · simp only [hstep] at h ⊢
    exact htail m h
  · simpa only [hstep] using h

theorem run_ofTokens_append (h : a.run (Segment.ofTokens ts) = (b, some e))
    (he : ∀ flag, e ≠ .failed (.missingArgument flag)) (more : List String) :
    a.run (Segment.ofTokens (ts ++ more)) = (b, some e) := by
  fun_induction Segment.ofTokens ts generalizing a with
  | case1 => cases h
  | case2 rest => cases h
  | case3 t rest hsep hflag ih =>
    rw [List.cons_append, Segment.ofTokens, if_neg hsep, hflag]
    exact run_cons_of_tail h fun m hm ↦ ih hm
  | case4 t rest hsep s hflag ih =>
    rw [List.cons_append, Segment.ofTokens, if_neg hsep, hflag]
    exact run_cons_of_tail h fun m hm ↦ ih hm
  | case5 t hsep p hflag =>
    cases h
    exact absurd rfl (he t)
  | case6 t hsep p hflag v rest ih =>
    rw [List.cons_append, List.cons_append, Segment.ofTokens, if_neg hsep, hflag]
    exact run_cons_of_tail h fun m hm ↦ ih hm

section

variable {ρ : Type} {k k' : Sink ρ}

theorem attend_willing_of_append (after : List Segment)
    (h : ∀ r, (a.attend k (before ++ after)).2.2 ≠ some (.refused r)) (r : ρ) :
    (a.attend k before).2.2 ≠ some (.refused r) := by
  induction before generalizing a k with
  | nil => exact (Option.some_ne_none _).symm
  | cons seg before ih =>
    simp only [List.cons_append, attend] at h ⊢
    cases hanswer : k.answer? (a.warning? seg) with
    | some r' =>
      rw [hanswer] at h
      exact absurd rfl (h r')
    | none =>
      rw [hanswer] at h
      rcases hstep : a.step seg with ⟨m, _ | e⟩
      · simp only [hstep] at h
        exact ih h
      · intro hrefused
        cases hrefused

theorem attend_cons_of_tail (h : a.attend k (seg :: segs) = (b, k', some (.ending e)))
    (htail : ∀ (m : Progress) (l : Sink ρ), m.attend l segs = (b, k', some (.ending e)) →
      m.attend l segs' = (b, k', some (.ending e))) :
    a.attend k (seg :: segs') = (b, k', some (.ending e)) := by
  simp only [attend] at h ⊢
  cases hanswer : k.answer? (a.warning? seg) with
  | some r => simp [hanswer] at h
  | none =>
    simp only [hanswer] at h ⊢
    rcases hstep : a.step seg with ⟨m, _ | e'⟩
    · simp only [hstep] at h ⊢
      exact htail m _ h
    · simpa only [hstep] using h

theorem attend_ofTokens_append
    (h : a.attend k (Segment.ofTokens ts) = (b, k', some (.ending e)))
    (he : ∀ flag, e ≠ .failed (.missingArgument flag)) (more : List String) :
    a.attend k (Segment.ofTokens (ts ++ more)) = (b, k', some (.ending e)) := by
  fun_induction Segment.ofTokens ts generalizing a k with
  | case1 => cases h
  | case2 rest =>
    have hwilling : ∀ r, (a.attend k [.separator rest]).2.2 ≠ some (.refused r) := by simp [h]
    have hrun := (attend_eq_run hwilling).2
    rw [h] at hrun
    cases hrun
  | case3 t rest hsep hflag ih =>
    rw [List.cons_append, Segment.ofTokens, if_neg hsep, hflag]
    exact attend_cons_of_tail h fun m l hm ↦ ih hm
  | case4 t rest hsep s hflag ih =>
    rw [List.cons_append, Segment.ofTokens, if_neg hsep, hflag]
    exact attend_cons_of_tail h fun m l hm ↦ ih hm
  | case5 t hsep p hflag =>
    cases h
    exact absurd rfl (he t)
  | case6 t hsep p hflag v rest ih =>
    rw [List.cons_append, List.cons_append, Segment.ofTokens, if_neg hsep, hflag]
    exact attend_cons_of_tail h fun m l hm ↦ ih hm

end

end Progress

section

variable {i i' : Interpreter} {session : Session} {files : FileSystem} {tokens : List String}
  {b : Progress} {e : Ending} {f : Failure} {o : Option Ending}

theorem Interpreter.read_eq :
    i.read session files tokens = (i', b, o) ↔
      readCommandLine session files tokens = (b, o) ∧ i' = ⟨i.warnings ++ b.warnings⟩ := by
  unfold Interpreter.read
  constructor
  · intro h
    simp only [Prod.mk.injEq] at h
    obtain ⟨rfl, h⟩ := h
    exact ⟨h, by rw [h]⟩
  · rintro ⟨h, rfl⟩
    rw [h]

theorem readCommandLine_append (h : readCommandLine session files tokens = (b, some e))
    (hnone : e ≠ .failed .noArguments) (hcut : ∀ flag, e ≠ .failed (.missingArgument flag))
    (more : List String) : readCommandLine session files (tokens ++ more) = (b, some e) := by
  unfold readCommandLine at h ⊢
  simp only at h ⊢
  split at h
  · cases h
    exact absurd rfl hnone
  · rename_i hlen
    have hne : tokens ≠ [] := by
      rintro rfl
      simp at hlen
    rw [if_neg (by simp only [List.length_append]; omega), List.tail_append_of_ne_nil hne]
    exact Progress.run_ofTokens_append h hcut more

/-- A command line of which the segment behind the first `k` tokens is rejected, and what is left
then: what those tokens alone bring about. -/
structure RejectedAt (i : Interpreter) (session : Session) (files : FileSystem)
    (tokens : List String) (k : Nat) (i' : Interpreter) (b : Progress) (f : Failure) : Prop where
  segment : ∃ before seg after, Segment.CutInto tokens.tail (before ++ seg :: after) ∧
    k = 1 + (before.flatMap Segment.tokens).length ∧ b.step seg = (b, some (.failed f))
  first : k = 1 → i' = i ∧ b = { session := session, files := files }
  later : 1 < k → i.read session files (tokens.take k) = (i', b, none)

theorem exists_rejectedAt (hlen : 2 ≤ tokens.length) (hf : f.isExpected = true)
    (h : i.read session files tokens = (i', b, some (.failed f))) :
    ∃ k, RejectedAt i session files tokens k i' b f := by
  obtain ⟨hread, rfl⟩ := Interpreter.read_eq.1 h
  obtain ⟨name, ts, rfl⟩ : ∃ name ts, tokens = name :: ts := List.exists_cons_of_length_pos (by omega)
  rw [readCommandLine, if_neg (by omega), List.tail_cons] at hread
  obtain ⟨before, seg, after, m, hsegs, hbefore, hstep⟩ := Progress.run_eq_some hread
  obtain rfl := Progress.step_rejected hstep hf
  refine ⟨1 + (before.flatMap Segment.tokens).length, ?_, ?_, ?_⟩
  · exact ⟨before, seg, after, hsegs ▸ Segment.cutInto_ofTokens ts, rfl, hstep⟩
  · intro hk
    have hnil : before = [] := by
      cases before with
      | nil => rfl
      | cons x before =>
        have := List.length_pos_iff.2 x.tokens_ne_nil
        simp only [List.flatMap_cons, List.length_append] at hk
        omega
    subst hnil
    cases hbefore
    simp
  · intro hk
    rw [Interpreter.read_eq]
    refine ⟨?_, rfl⟩
    rw [readCommandLine, if_neg (by rw [List.length_take]; omega), Nat.add_comm,
      List.take_succ_cons, List.tail_cons, Segment.ofTokens_take hsegs]
    exact hbefore

section

variable {ρ : Type} {k : Sink ρ}

theorem Interpreter.result_attend_eq_refused {r : ρ} :
    (i.attend k session files tokens).result = .error (.refused r) ↔ 2 ≤ tokens.length ∧
      (Progress.attend { session, files, warnings := i.warnings } k
        (Segment.ofTokens tokens.tail)).2.2 = some (.refused r) := by
  unfold attend
  simp only
  split
  · rename_i hlen
    simp [Report.of, show ¬ 2 ≤ tokens.length by omega]
  · rename_i hlen
    rw [and_iff_right (by omega)]
    rcases Progress.attend { session, files, warnings := i.warnings } k
      (Segment.ofTokens tokens.tail) with ⟨p, k', _ | o⟩ <;> simp [Report.of]

theorem RejectedAt.attend_take_willing {n : Nat} {l : Interpreter}
    (hrejected : RejectedAt i session files tokens n i' b f) (hlen : 2 ≤ tokens.length)
    (hwilling : ∀ r, (l.attend k session files tokens).result ≠ .error (.refused r)) (r : ρ) :
    (l.attend k session files (tokens.take n)).result ≠ .error (.refused r) := by
  obtain ⟨before, seg, after, hcut, rfl, -⟩ := hrejected.segment
  have htake : (tokens.take (1 + (before.flatMap Segment.tokens).length)).tail =
      tokens.tail.take (before.flatMap Segment.tokens).length := by
    rw [Nat.add_comm]
    cases tokens <;> simp
  intro hr
  rw [Interpreter.result_attend_eq_refused, htake,
    Segment.ofTokens_take hcut.eq_ofTokens.symm] at hr
  refine Progress.attend_willing_of_append (seg :: after) (fun r hr ↦ ?_) r hr.2
  rw [hcut.eq_ofTokens] at hr
  exact hwilling r (Interpreter.result_attend_eq_refused.2 ⟨hlen, hr⟩)

theorem Interpreter.attend_rejected (hlen : 2 ≤ tokens.length) (hf : f.isExpected = true)
    (h : (i.attend k session files tokens).result = .error (.ending (.failed f))) :
    ∃ n i' b, RejectedAt i session files tokens n i' b f ∧
      (n = 1 → i.attend k session files tokens =
        ⟨i, k, session, files, [], .error (.ending (.failed f))⟩) ∧
      (1 < n → ∃ invocation, i.attend k session files (tokens.take n) =
        { i.attend k session files tokens with result := .ok invocation }) := by
  rw [attend_eq] at h
  have hwilling : ∀ r, (({} : Interpreter).attend k session files tokens).result ≠
      .error (.refused r) := by
    intro r hr
    cases h.symm.trans hr
  have hreport := attend_of_willing hwilling i
  have hfresh := attend_of_willing hwilling {}
  rcases hread : readCommandLine session files tokens with ⟨b, o⟩
  simp only [read, hread] at hreport hfresh
  simp only [hfresh, Report.of] at h
  cases o with
  | none => cases h
  | some e =>
    cases h
    obtain ⟨n, hrejected⟩ := exists_rejectedAt hlen hf (read_eq.2 ⟨hread, rfl⟩ :
      i.read session files tokens = (⟨i.warnings ++ b.warnings⟩, b, some (.failed f)))
    refine ⟨n, _, b, hrejected, ?_, ?_⟩
    · intro hn
      obtain ⟨hi, rfl⟩ := hrejected.first hn
      rw [hreport, hi]
      simp [Report.of]
    · intro hn
      have hfirst := attend_of_willing (hrejected.attend_take_willing hlen hwilling) i
      simp only [hrejected.later hn] at hfirst
      rw [hfirst, hreport]
      exact ⟨b.invocation, rfl⟩

theorem Interpreter.attend_append
    (h : (i.attend k session files tokens).result = .error (.ending e))
    (hnone : e ≠ .failed .noArguments) (hcut : ∀ flag, e ≠ .failed (.missingArgument flag))
    (more : List String) :
    i.attend k session files (tokens ++ more) = i.attend k session files tokens := by
  unfold attend at h ⊢
  simp only at h ⊢
  by_cases hlen : tokens.length ≤ 1
  · rw [if_pos hlen] at h
    cases h
    exact absurd rfl hnone
  · have hne : tokens ≠ [] := by
      rintro rfl
      simp at hlen
    rw [if_neg hlen] at h ⊢
    rw [if_neg (by rw [List.length_append]; omega), List.tail_append_of_ne_nil hne]
    rcases hread : Progress.attend { session, files, warnings := i.warnings } k
      (Segment.ofTokens tokens.tail) with ⟨p, k', _ | o⟩ <;> rw [hread] at h
    · cases h
    · cases h
      rw [Progress.attend_ofTokens_append hread hcut more]

end

/-- A command line that is rejected takes effect exactly up to the segment that is rejected, and
what ends the reading is never undone by what stands behind it, except for a missing value. Both
are so with any sink for the warnings. -/
theorem Interpreter.read_rejected (i : Interpreter) (session : Session) (files : FileSystem)
    (tokens : List String) :
    (∀ i' b f, 2 ≤ tokens.length → f.isExpected = true →
      i.read session files tokens = (i', b, some (.failed f)) →
      ∃ k, RejectedAt i session files tokens k i' b f) ∧
    (∀ i' b e, i.read session files tokens = (i', b, some e) → e ≠ .failed .noArguments →
      (∀ flag, e ≠ .failed (.missingArgument flag)) →
      ∀ more, i.read session files (tokens ++ more) = (i', b, some e)) ∧
    ∀ (ρ : Type) (k : Sink ρ),
      (∀ f, 2 ≤ tokens.length → f.isExpected = true →
        (i.attend k session files tokens).result = .error (.ending (.failed f)) →
        ∃ n i' b, RejectedAt i session files tokens n i' b f ∧
          (n = 1 → i.attend k session files tokens =
            ⟨i, k, session, files, [], .error (.ending (.failed f))⟩) ∧
          (1 < n → ∃ invocation, i.attend k session files (tokens.take n) =
            { i.attend k session files tokens with result := .ok invocation })) ∧
      ∀ e, (i.attend k session files tokens).result = .error (.ending e) →
        e ≠ .failed .noArguments → (∀ flag, e ≠ .failed (.missingArgument flag)) →
        ∀ more, i.attend k session files (tokens ++ more) = i.attend k session files tokens := by
  refine ⟨?_, ?_, fun ρ k ↦ ⟨?_, ?_⟩⟩
  · intro i' b f hlen hf h
    exact exists_rejectedAt hlen hf h
  · intro i' b e h hnone hcut more
    obtain ⟨hread, hi⟩ := read_eq.1 h
    exact read_eq.2 ⟨readCommandLine_append hread hnone hcut more, hi⟩
  · intro f hlen hf h
    exact attend_rejected hlen hf h
  · intro e h hnone hcut more
    exact attend_append h hnone hcut more

def onceOnly : Sink Unit where
  refusal? heard _ := if heard.isEmpty then none else some ()

theorem Interpreter.read_rejected_behind_flags :
    let i : Interpreter := ⟨[.emptySeparator]⟩
    let session : Session := { settings := {}, settingsFile := .here, userDir := .here }
    let tokens := ["emucli", "--bogus", "-p", "--", "--show-fps", "-f", "maybe", "--help"]
    let b : Progress :=
      { session := { session with patchFile := some "--", showFps := true }
        files := .bare []
        warnings := [.unknown "--bogus"] }
    let i' : Interpreter := ⟨[.emptySeparator, .unknown "--bogus"]⟩
    let report : Report Unit := ⟨i', onceOnly.take [.unknown "--bogus"], b.session, .bare [], [],
      .error (.ending (.failed (.notTrueOrFalse "-f")))⟩
    i.read session (.bare []) tokens = (i', b, some (.failed (.notTrueOrFalse "-f"))) ∧
      (∃ k, RejectedAt i session (.bare []) tokens k i' b (.notTrueOrFalse "-f")) ∧
      (∀ more, i.read session (.bare []) (tokens ++ more) =
        (i', b, some (.failed (.notTrueOrFalse "-f")))) ∧
      ∀ more, i.attend onceOnly session (.bare []) (tokens ++ more) = report := by
  intro i session tokens b i' report
  have hread : i.read session (.bare []) tokens =
      (i', b, some (.failed (.notTrueOrFalse "-f"))) := rfl
  have hreport : i.attend onceOnly session (.bare []) tokens = report := rfl
  obtain ⟨hrejected, happend, hsink⟩ := read_rejected i session (.bare []) tokens
  obtain ⟨-, hattend⟩ := hsink Unit onceOnly
  refine ⟨hread, hrejected i' b _ (by decide) rfl hread, ?_, fun more ↦ ?_⟩
  · exact happend i' b _ hread (by decide) (by simp)
  · rw [← hreport]
    exact hattend _ (congrArg Report.result hreport) (by decide) (by simp) more

end

end GameLauncher
