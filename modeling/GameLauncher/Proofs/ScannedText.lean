import GameLauncher.Toml.Reader
import Mathlib.Data.List.Infix

namespace GameLauncher.Toml

open Decimal (isDigit)

variable {α β : Type} {cs cs' rest : List Char} {c : Char} {f : Fault} {n : Nat}

/-- A stretch of digits, with underscores among them, that has too many digits for an integer. -/
def HasLongNumeral (cs : List Char) (n : Nat) : Prop :=
  maxDigits < n ∧ ∃ run, run <:+: cs ∧ (∀ c ∈ run, isDigit c = true ∨ c = '_') ∧
    (run.filter isDigit).length = n

def opens (c : Char) : Bool := c = '[' || c = '\x7b'

/-- A text that can hold a value deeper than is safe, some brackets being open before it. -/
def IsDeep (depth : Nat) (cs : List Char) : Prop := safeDepth < depth + cs.countP opens

theorem IsDeep.mono {depth : Nat} (h : IsDeep depth cs) (hs : cs <:+ cs') : IsDeep depth cs' :=
  Nat.lt_of_lt_of_le h (Nat.add_le_add_left (hs.sublist.countP_le) depth)

theorem HasLongNumeral.mono (h : HasLongNumeral cs n) (hs : cs <:+ cs') : HasLongNumeral cs' n := by
  obtain ⟨hn, run, hrun, hdigits⟩ := h
  exact ⟨hn, run, hrun.trans hs.isInfix, hdigits⟩

/-- What a scan of a text gives stays inside the text: it leaves the end of it, the numeral that it
fails at stands in it, and so do the brackets that are too many. -/
inductive Scan.Stays (depth : Nat) (cs : List Char) : Scan α → Prop
  | ok {a : α} {rest : List Char} : rest <:+ cs → Stays depth cs (.ok (a, rest))
  | malformed : Stays depth cs (.error .malformed)
  | longNumeral {n : Nat} : HasLongNumeral cs n → Stays depth cs (.error (.longNumeral n))
  | tooDeep {complaint : String} : IsDeep depth cs → Stays depth cs (.error (.tooDeep complaint))

namespace Scan.Stays

variable {s : Scan α} {depth : Nat}

theorem mono (h : Stays depth cs s) (hs : cs <:+ cs') : Stays depth cs' s := by
  cases h with
  | ok hrest => exact .ok (hrest.trans hs)
  | malformed => exact .malformed
  | longNumeral hn => exact .longNumeral (hn.mono hs)
  | tooDeep hdeep => exact .tooDeep (hdeep.mono hs)

theorem behind (h : Stays depth cs s) : Stays depth (c :: cs) s := h.mono (List.suffix_cons c cs)

theorem inside (h : Stays (depth + 1) cs s) (hc : opens c = true) : Stays depth (c :: cs) s := by
  cases h with
  | ok hrest => exact .ok (hrest.trans (List.suffix_cons c cs))
  | malformed => exact .malformed
  | longNumeral hn => exact .longNumeral (hn.mono (List.suffix_cons c cs))
  | tooDeep hdeep =>
    refine .tooDeep ?_
    unfold IsDeep at hdeep ⊢
    rw [List.countP_cons_of_pos hc]
    omega

theorem map {g : α × List Char → β × List Char} (h : Stays depth cs s) (hg : ∀ x, (g x).2 = x.2) :
    Stays depth cs (Except.map g s) := by
  cases h with
  | @ok a rest hrest =>
    have hg : (g (a, rest)).2 <:+ cs := (hg (a, rest)).symm ▸ hrest
    exact .ok hg
  | malformed => exact .malformed
  | longNumeral hn => exact .longNumeral hn
  | tooDeep hdeep => exact .tooDeep hdeep

theorem cons {s : Scan (List Char)} (h : Stays depth cs s) : Stays depth cs (s.cons c) := by
  cases h with
  | ok hrest => exact .ok hrest
  | malformed => exact .malformed
  | longNumeral hn => exact .longNumeral hn
  | tooDeep hdeep => exact .tooDeep hdeep

theorem of_error (h : Stays depth cs s) (hs : s = .error f) : Stays depth cs (.error f : Scan β) := by
  subst hs
  cases h with
  | malformed => exact .malformed
  | longNumeral hn => exact .longNumeral hn
  | tooDeep hdeep => exact .tooDeep hdeep

theorem hasLongNumeral (h : Stays depth cs s) (hs : s = .error (.longNumeral n)) :
    HasLongNumeral cs n := by
  subst hs
  cases h with
  | longNumeral hn => exact hn

theorem of_ok {a : α} (h : Stays depth cs s) (hs : s = .ok (a, rest)) : rest <:+ cs := by
  subst hs
  cases h with
  | ok hrest => exact hrest

end Scan.Stays

open Scan (Stays)

variable {depth : Nat}

theorem skipBlanks_suffix (cs : List Char) : skipBlanks cs <:+ cs := List.dropWhile_suffix _

theorem skipComment_ok (h : skipComment cs = .ok rest) : rest <:+ cs := by
  unfold skipComment at h
  split at h
  · split at h
    · cases h
    · cases h
      exact (List.dropWhile_suffix _).trans (List.suffix_cons _ _)
  · cases h
    exact List.suffix_rfl

theorem skipComment_error (h : skipComment cs = .error f) : f = .malformed := by
  unfold skipComment at h
  split at h
  · split at h <;> cases h
    rfl
  · cases h

theorem after?_suffix {ps : List Char} (h : after? ps cs = some rest) : rest <:+ cs := by
  induction ps generalizing cs with
  | nil =>
    cases h
    exact List.suffix_rfl
  | cons p ps ih =>
    cases cs with
    | nil => cases h
    | cons c cs =>
      rw [after?] at h
      split at h
      · exact (ih h).trans (List.suffix_cons c cs)
      · cases h

namespace Str

theorem stays_basic (cs : List Char) : Stays depth cs (basic cs) := by
  fun_induction basic cs with
  | case2 r => exact .ok (List.suffix_cons _ r)
  | case3 | case5 | case7 | case10 =>
    rename_i ih
    exact ih.cons.mono (by simp [List.suffix_cons_iff])
  | _ => exact .malformed

theorem stays_block (trim : Trim) (cs : List Char) : Stays depth cs (block trim cs) := by
  fun_induction block trim cs with
  | case5 => exact .ok (by simp [List.suffix_cons_iff])
  | case2 | case3 | case10 | case11 | case14 =>
    rename_i ih
    exact ih.mono (by simp [List.suffix_cons_iff])
  | case6 | case8 | case12 | case16 =>
    rename_i ih
    exact ih.cons.mono (by simp [List.suffix_cons_iff])
  | _ => exact .malformed

theorem stays_literal (cs : List Char) : Stays depth cs (literal cs) := by
  unfold literal
  split
  · exact .malformed
  · rename_i hrest
    dsimp only
    split
    · exact .malformed
    · exact .ok ((List.suffix_cons _ _).trans (hrest ▸ List.dropWhile_suffix _))

theorem stays_literalBlock (cs : List Char) : Stays depth cs (literalBlock cs) := by
  fun_induction literalBlock cs with
  | case2 => exact .ok (by simp [List.suffix_cons_iff])
  | case4 c r _ _ ih => exact ih.cons.behind
  | _ => exact .malformed

theorem stays_withExtraMarks {s : Scan (List Char)} (h : Stays depth cs s) (mark : Char) :
    Stays depth cs (withExtraMarks mark s) := by
  fun_cases withExtraMarks mark s with
  | case1 | case2 | case6 | case7 => exact h
  | case3 | case4 | case5 =>
    refine .ok (List.IsSuffix.trans ?_ (h.of_ok rfl))
    simp [List.suffix_cons_iff]

theorem dropNewline_suffix (cs : List Char) : dropNewline cs <:+ cs := by
  unfold dropNewline
  split
  · exact List.suffix_cons _ _
  · exact List.suffix_rfl

theorem stays_of_scan? {s : Scan (List Char)} (h : scan? cs = some s) : Stays depth cs s := by
  unfold scan? at h
  split at h <;> cases h
  · rename_i r
    have hblock : Stays depth _ _ := stays_withExtraMarks (stays_block .off (dropNewline r)) '\x22'
    exact (hblock.mono (dropNewline_suffix r)).behind.behind.behind
  · exact (stays_basic _).behind
  · rename_i r
    have hblock : Stays depth _ _ := stays_withExtraMarks (stays_literalBlock (dropNewline r)) '\x27'
    exact (hblock.mono (dropNewline_suffix r)).behind.behind.behind
  · exact (stays_literal _).behind

end Str

theorem suffix_of_skipBlanks (h : skipBlanks cs = c :: rest) : rest <:+ cs :=
  (List.suffix_cons c rest).trans (h ▸ skipBlanks_suffix cs)

namespace Key

theorem stays_part (cs : List Char) : Stays depth cs (part cs) := by
  unfold part
  split
  · exact .behind (.map (Str.stays_literal _) fun _ ↦ rfl)
  · exact .behind (.map (Str.stays_basic _) fun _ ↦ rfl)
  · split
    · exact .malformed
    · exact .ok (List.dropWhile_suffix _)

theorem stays_scanParts (fuel : Nat) (cs : List Char) : Stays depth cs (scanParts fuel cs) := by
  induction fuel generalizing cs with
  | zero => exact .malformed
  | succ fuel ih =>
    rw [scanParts]
    split
    · rename_i hpart
      exact (stays_part cs).of_error hpart
    · rename_i rest hpart
      have hrest := (stays_part cs : Stays depth cs _).of_ok hpart
      split
      · rename_i hdot
        have hbehind := (suffix_of_skipBlanks hdot).trans hrest
        exact .map ((ih _).mono ((skipBlanks_suffix _).trans hbehind)) fun _ ↦ rfl
      · exact .ok ((skipBlanks_suffix _).trans hrest)

theorem stays_scan (cs : List Char) : Stays depth cs (scan cs) := stays_scanParts _ cs

end Key

namespace Moment

variable {k low high : Nat} {x : Nat × List Char}

theorem fixed?_suffix (h : fixed? k cs = some x) : x.2 <:+ cs := by
  fun_induction fixed? k cs generalizing x with
  | case1 =>
    cases h
    exact List.suffix_rfl
  | case2 _ c r _ ih =>
    obtain ⟨y, hy, rfl⟩ := Option.map_eq_some_iff.1 h
    exact (ih hy).trans (List.suffix_cons c r)
  | case3 | case4 => cases h

theorem within?_suffix (h : within? k low high cs = some x) : x.2 <:+ cs :=
  fixed?_suffix (Option.filter_eq_some_iff.1 h).1

theorem expect?_suffix (h : expect? c cs = some rest) : rest <:+ cs := by
  unfold expect? at h
  split at h
  · split at h <;> cases h
    exact List.suffix_cons _ _
  · cases h

theorem microseconds_suffix (cs : List Char) : (microseconds cs).2 <:+ cs := by
  unfold microseconds
  split
  · dsimp only
    split
    · exact List.suffix_rfl
    · exact (List.dropWhile_suffix _).trans (List.suffix_cons _ _)
  · exact List.suffix_rfl

theorem date?_suffix {x : Date × List Char} (h : date? cs = some x) : x.2 <:+ cs := by
  simp only [date?, Option.bind_eq_bind, Option.bind_eq_some_iff, Option.pure_def,
    Option.some.injEq] at h
  obtain ⟨year, hyear, r₁, h₁, month, hmonth, r₂, h₂, day, hday, rfl⟩ := h
  exact (within?_suffix hday).trans <| (expect?_suffix h₂).trans <| (within?_suffix hmonth).trans <|
    (expect?_suffix h₁).trans (fixed?_suffix hyear)

theorem time?_suffix {x : Time × List Char} (h : time? cs = some x) : x.2 <:+ cs := by
  simp only [time?, Option.bind_eq_bind, Option.bind_eq_some_iff, Option.pure_def,
    Option.some.injEq] at h
  obtain ⟨hour, hhour, r₁, h₁, minute, hminute, r₂, h₂, second, hsecond, rfl⟩ := h
  exact (microseconds_suffix _).trans <| (within?_suffix hsecond).trans <|
    (expect?_suffix h₂).trans <| (within?_suffix hminute).trans <|
    (expect?_suffix h₁).trans (within?_suffix hhour)

theorem offset?_suffix {x : Int × List Char} (h : offset? cs = some x) : x.2 <:+ cs := by
  unfold offset? at h
  split at h
  · split at h
    · cases h
      exact List.suffix_cons _ _
    · split at h
      · simp only [Option.bind_eq_bind, Option.bind_eq_some_iff, Option.pure_def,
          Option.some.injEq] at h
        obtain ⟨hours, hhours, r₁, h₁, minutes, hminutes, rfl⟩ := h
        exact (within?_suffix hminutes).trans <| (expect?_suffix h₁).trans <|
          (within?_suffix hhours).trans (List.suffix_cons _ _)
      · cases h
  · cases h

theorem timeOfDay?_suffix {x : Time × List Char} (h : timeOfDay? cs = some x) : x.2 <:+ cs := by
  unfold timeOfDay? at h
  split at h
  · split at h
    · exact (time?_suffix h).trans (List.suffix_cons _ _)
    · cases h
  · cases h

theorem stays_of_scan? {s : Scan Value} (h : scan? cs = some s) : Stays depth cs s := by
  unfold scan? at h
  split at h
  · rename_i d r hdate
    have hr := date?_suffix hdate
    cases h
    split
    · rename_i t r' htime
      have hr' := (timeOfDay?_suffix htime).trans hr
      cases hoffset : offset? r' with
      | none =>
        dsimp only
        split
        · exact .ok hr'
        · exact .malformed
      | some x =>
        dsimp only
        split
        · exact .ok ((offset?_suffix hoffset).trans hr')
        · exact .malformed
    · split
      · exact .ok hr
      · exact .malformed
  · obtain ⟨⟨t, r⟩, ht, rfl⟩ := Option.map_eq_some_iff.1 h
    exact .ok (time?_suffix ht)

end Moment

namespace Numeral

theorem moreDigits_run {p : Char → Bool} (hp : p '_' = false) (cs : List Char) :
    ∃ run, cs = run ++ (moreDigits p cs).2 ∧ (∀ c ∈ run, p c = true ∨ c = '_') ∧
      run.filter p = (moreDigits p cs).1 := by
  fun_induction moreDigits p cs with
  | case1 => exact ⟨[], rfl, by simp, rfl⟩
  | case2 c r hc ih =>
    obtain ⟨run, hrun, hdigits, hfilter⟩ := ih
    exact ⟨'_' :: c :: run, by rw [List.cons_append, List.cons_append, ← hrun],
      by simpa [hc] using hdigits, by simp [hp, hc, hfilter]⟩
  | case3 c r hc => exact ⟨[], rfl, by simp, rfl⟩
  | case4 c r _ hc ih =>
    obtain ⟨run, hrun, hdigits, hfilter⟩ := ih
    exact ⟨c :: run, by rw [List.cons_append, ← hrun], by simpa [hc] using hdigits,
      by simp [hc, hfilter]⟩
  | case5 c r _ hc => exact ⟨[], rfl, by simp, rfl⟩

theorem digits?_run {p : Char → Bool} (hp : p '_' = false) {ds : List Char}
    (h : digits? p cs = some (ds, rest)) :
    ∃ run, cs = run ++ rest ∧ (∀ c ∈ run, p c = true ∨ c = '_') ∧ run.filter p = ds := by
  unfold digits? at h
  split at h
  · rename_i c r
    split at h
    · rename_i hc
      cases h
      obtain ⟨run, hrun, hdigits, hfilter⟩ := moreDigits_run hp r
      exact ⟨c :: run, by rw [List.cons_append, ← hrun], by simpa [hc] using hdigits,
        by simp [hc, hfilter]⟩
    · cases h
  · cases h

theorem digits?_suffix {p : Char → Bool} (hp : p '_' = false) {x : List Char × List Char}
    (h : digits? p cs = some x) : x.2 <:+ cs := by
  obtain ⟨run, hrun, -⟩ := digits?_run hp h
  exact ⟨run, hrun.symm⟩

theorem radix?_suffix {x : Nat × List Char} (h : radix? cs = some x) : x.2 <:+ cs := by
  unfold radix? at h
  split at h
  any_goals
    obtain ⟨y, hy, rfl⟩ := Option.map_eq_some_iff.1 h
    refine (digits?_suffix (by decide) hy).trans ?_
    simp [List.suffix_cons_iff]
  · cases h

theorem whole?_run {ds : List Char} (h : whole? cs = some (ds, rest)) :
    ∃ run, cs = run ++ rest ∧ (∀ c ∈ run, isDigit c = true ∨ c = '_') ∧
      run.filter isDigit = ds := by
  unfold whole? at h
  split at h
  · cases h
    refine ⟨['0'], rfl, ?_, rfl⟩
    intro c hc
    rw [List.mem_singleton.1 hc]
    exact .inl rfl
  · exact digits?_run (by decide) h

theorem fraction?_suffix {x : List Char × List Char} (h : fraction? cs = some x) : x.2 <:+ cs := by
  unfold fraction? at h
  split at h
  · exact (digits?_suffix (by decide) h).trans (List.suffix_cons _ _)
  · cases h

theorem exponent?_suffix {x : Int × List Char} (h : exponent? cs = some x) : x.2 <:+ cs := by
  unfold exponent? at h
  split at h
  · split at h
    · obtain ⟨y, hy, rfl⟩ := Option.map_eq_some_iff.1 h
      exact (digits?_suffix (by decide) hy).trans <| (Decimal.sign_suffix _).trans (List.suffix_cons _ _)
    · cases h
  · cases h

theorem tail_suffix (r : List Char) :
    ((exponent? ((fraction? r).elim r Prod.snd)).getD (0, ((fraction? r).getD ([], r)).2)).2 <:+ r := by
  cases hfraction : fraction? r with
  | none =>
    cases hexponent : exponent? r with
    | none => simp [hexponent]
    | some y => simpa [hexponent] using exponent?_suffix hexponent
  | some x =>
    have hx := fraction?_suffix hfraction
    cases hexponent : exponent? x.2 with
    | none => simpa [hexponent] using hx
    | some y => simpa [hexponent] using (exponent?_suffix hexponent).trans hx

theorem stays_of_scan? {s : Scan Value} (h : scan? cs = some s) : Stays depth cs s := by
  unfold scan? at h
  split at h
  · rename_i hradix
    cases h
    exact .ok (radix?_suffix hradix)
  · have hsign := Decimal.sign_suffix cs
    generalize Decimal.sign cs = signed at h hsign
    obtain ⟨⟨ds, r⟩, hwhole, rfl⟩ := Option.map_eq_some_iff.1 h
    obtain ⟨run, hrun, hdigits, hfilter⟩ := whole?_run hwhole
    have hr : r <:+ cs := List.IsSuffix.trans ⟨run, hrun.symm⟩ hsign
    dsimp only
    split
    · unfold ofWhole
      split
      · rename_i hlong
        refine .longNumeral ⟨hlong, run, ?_, hdigits, congrArg List.length hfilter⟩
        exact List.IsInfix.trans ⟨[], r, hrun.symm⟩ hsign.isInfix
      · exact .ok hr
    · exact .ok ((tail_suffix r).trans hr)

end Numeral

namespace Reader

variable {b : Bool}

theorem skipFiller_ok (h : skipFiller b cs = .ok rest) : rest <:+ cs := by
  fun_induction skipFiller b cs with
  | case1 =>
    cases h
    exact List.suffix_rfl
  | case3 => cases h
  | case7 =>
    cases h
    exact List.suffix_rfl
  | case2 | case4 | case5 | case6 =>
    rename_i ih
    exact (ih h).trans (List.suffix_cons _ _)

theorem skipFiller_error (h : skipFiller b cs = .error f) : f = .malformed := by
  fun_induction skipFiller b cs with
  | case1 | case7 => cases h
  | case3 =>
    cases h
    rfl
  | case2 | case4 | case5 | case6 =>
    rename_i ih
    exact ih h

theorem word?_suffix {words : List (String × Value)} {x : Value × List Char}
    (h : word? words cs = some x) : x.2 <:+ cs := by
  obtain ⟨w, -, hw⟩ := List.exists_of_findSome?_eq_some h
  obtain ⟨r, hr, rfl⟩ := Option.map_eq_some_iff.1 hw
  exact after?_suffix hr

theorem stays_scalar (cs : List Char) : Stays depth cs (scalar cs) := by
  unfold scalar
  split
  · rename_i hword
    exact .ok (word?_suffix hword)
  · split
    · rename_i hmoment
      exact Moment.stays_of_scan? hmoment
    · split
      · rename_i hnumeral
        exact Numeral.stays_of_scan? hnumeral
      · split
        · rename_i hword
          exact .ok (word?_suffix hword)
        · exact .malformed

theorem stays_of_filler {s : Scan α} (h : skipFiller b cs = .error f) (hs : s = .error f) :
    Stays depth cs' s := by
  rw [hs, skipFiller_error h]
  exact .malformed

variable (stack : Stack)

mutual

theorem stays_value (fuel : Nat) (within : List Bracket) (cs : List Char) :
    Stays within.length cs (value stack fuel within cs) := by
  cases fuel with
  | zero => exact .malformed
  | succ fuel =>
  unfold value
  split
  · rename_i hoverflow
    have hdeep : safeDepth < within.length := by
      refine Nat.lt_of_not_le fun hsafe ↦ ?_
      rw [stack.readOverflow?_eq_none within cs hsafe] at hoverflow
      cases hoverflow
    exact .tooDeep (Nat.lt_of_lt_of_le hdeep (Nat.le_add_right _ _))
  split
  · rename_i hstring
    have hs : Stays within.length cs _ := Str.stays_of_scan? hstring
    exact .ok (hs.of_ok rfl)
  · rename_i hstring
    have hs : Stays within.length cs _ := Str.stays_of_scan? hstring
    exact hs.of_error rfl
  · split
    · split
      · rename_i hfiller
        exact stays_of_filler hfiller rfl
      · rename_i hfiller
        exact .behind (.ok ((List.suffix_cons _ _).trans (skipFiller_ok hfiller)))
      · rename_i hfiller
        have hitems := (stays_items fuel (.square :: within) _).mono (skipFiller_ok hfiller)
        exact .inside (.map hitems fun _ ↦ rfl) rfl
    · split
      · rename_i hblanks
        exact .behind (.ok (suffix_of_skipBlanks hblanks))
      · refine .inside (.map (.mono ?_ (skipBlanks_suffix _)) fun _ ↦ rfl) rfl
        exact stays_members fuel (.curly :: within) [] [] _
    · exact stays_scalar _

theorem stays_items (fuel : Nat) (within : List Bracket) (cs : List Char) :
    Stays within.length cs (items stack fuel within cs) := by
  cases fuel with
  | zero => exact .malformed
  | succ fuel =>
  unfold items
  split
  · rename_i hvalue
    exact (stays_value fuel within cs).of_error hvalue
  · rename_i r hvalue
    have hr := (stays_value fuel within cs).of_ok hvalue
    split
    · rename_i hfiller
      exact stays_of_filler hfiller rfl
    · rename_i hfiller
      exact .ok ((List.suffix_cons _ _).trans ((skipFiller_ok hfiller).trans hr))
    · rename_i r' hcomma
      have hr' := (List.suffix_cons _ r').trans ((skipFiller_ok hcomma).trans hr)
      split
      · rename_i hfiller
        exact stays_of_filler hfiller rfl
      · rename_i hfiller
        exact .ok ((List.suffix_cons _ _).trans ((skipFiller_ok hfiller).trans hr'))
      · rename_i hfiller
        exact .map ((stays_items fuel _ _).mono ((skipFiller_ok hfiller).trans hr')) fun _ ↦ rfl
    · exact .malformed

theorem stays_members (fuel : Nat) (within : List Bracket) (t : Table) (closed : List Key)
    (cs : List Char) : Stays within.length cs (members stack fuel within t closed cs) := by
  cases fuel with
  | zero => exact .malformed
  | succ fuel =>
  unfold members
  split
  · rename_i hkey
    exact (Key.stays_scan cs).of_error hkey
  · rename_i hkey
    have hkey : Stays within.length cs (.ok _) := hkey ▸ Key.stays_scan cs
    have hequals := (List.suffix_cons _ _).trans (hkey.of_ok rfl)
    have hvalue := (stays_value fuel within _).mono ((skipBlanks_suffix _).trans hequals)
    split
    · rename_i herror
      exact hvalue.of_error herror
    · rename_i hok
      have hr := hvalue.of_ok hok
      split
      · exact .malformed
      · split
        · exact .malformed
        · split
          · rename_i hblanks
            exact .ok ((suffix_of_skipBlanks hblanks).trans hr)
          · rename_i hblanks
            have hbehind := (suffix_of_skipBlanks hblanks).trans hr
            exact (stays_members fuel _ _ _ _).mono ((skipBlanks_suffix _).trans hbehind)
          · exact .malformed
  · exact .malformed

end

theorem stays_scanValue (cs : List Char) : Stays 0 cs (scanValue stack cs) :=
  stays_value stack _ [] cs

theorem stays_tableHeader (d : Draft) (cs : List Char) : Stays depth cs (tableHeader d cs) := by
  have hkey : Stays depth cs _ := (Key.stays_scan (skipBlanks cs)).mono (skipBlanks_suffix cs)
  unfold tableHeader
  split
  · rename_i herror
    exact hkey.of_error herror
  · rename_i hok
    split
    · exact .ok ((List.suffix_cons _ _).trans (hkey.of_ok hok))
    · exact .malformed

theorem stays_arrayHeader (d : Draft) (cs : List Char) : Stays depth cs (arrayHeader d cs) := by
  have hkey : Stays depth cs _ := (Key.stays_scan (skipBlanks cs)).mono (skipBlanks_suffix cs)
  unfold arrayHeader
  split
  · rename_i herror
    exact hkey.of_error herror
  · rename_i hok
    split
    · refine .ok (List.IsSuffix.trans ?_ (hkey.of_ok hok))
      simp [List.suffix_cons_iff]
    · exact .malformed

theorem stays_assignment (d : Draft) (cs : List Char) : Stays 0 cs (assignment stack d cs) := by
  unfold assignment
  split
  · rename_i hkey
    exact (Key.stays_scan cs).of_error hkey
  · rename_i hkey
    have hequals := (List.suffix_cons _ _).trans ((Key.stays_scan cs : Stays 0 cs _).of_ok hkey)
    have hvalue := (stays_scanValue stack _).mono ((skipBlanks_suffix _).trans hequals)
    split
    · rename_i herror
      exact hvalue.of_error herror
    · rename_i hok
      split
      · exact .ok (hvalue.of_ok hok)
      · exact .malformed
  · exact .malformed

theorem stays_statement (d : Draft) (cs : List Char) : Stays 0 cs (statement stack d cs) := by
  unfold statement
  split
  · exact .ok List.suffix_rfl
  · exact (stays_arrayHeader _ _).behind.behind
  · exact (stays_tableHeader _ _).behind
  · split
    · exact .ok List.suffix_rfl
    · split
      · exact stays_assignment stack d _
      · exact .malformed

variable {stack : Stack}

theorem stays_of_statements {d : Draft} {fuel : Nat} (h : statements stack fuel d cs = .error f) :
    Stays 0 cs (.error f : Scan Draft) := by
  induction fuel generalizing d cs with
  | zero =>
    cases h
    exact .malformed
  | succ fuel ih =>
    have hstatement := (stays_statement stack d (skipBlanks cs)).mono (skipBlanks_suffix cs)
    rw [statements] at h
    split at h
    · rename_i herror
      cases h
      exact hstatement.of_error herror
    · rename_i hok
      have hr := (skipBlanks_suffix _).trans (hstatement.of_ok hok)
      split at h
      · rename_i hcomment
        cases h
        rw [skipComment_error hcomment]
        exact .malformed
      · cases h
      · rename_i hcomment
        have hline := (List.suffix_cons _ _).trans ((skipComment_ok hcomment).trans hr)
        exact (ih h).mono hline
      · cases h
        exact .malformed

theorem prefix_of_unixLines {run : List Char} (hrun : '\n' ∉ run) (h : run <+: unixLines cs) :
    run <+: cs := by
  induction cs using unixLines.induct generalizing run with
  | case1 r ih =>
    rw [unixLines, List.prefix_cons_iff] at h
    obtain rfl | ⟨t, rfl, -⟩ := h
    · exact List.nil_prefix
    · simp at hrun
  | case2 c r hc ih =>
    rw [unixLines.eq_2 c r hc, List.prefix_cons_iff] at h
    obtain rfl | ⟨t, rfl, ht⟩ := h
    · exact List.nil_prefix
    · rw [List.cons_prefix_cons]
      exact ⟨rfl, ih (fun hmem ↦ hrun (List.mem_cons_of_mem c hmem)) ht⟩
  | case3 => exact h

theorem infix_of_unixLines {run : List Char} (hrun : '\n' ∉ run) (h : run <:+: unixLines cs) :
    run <:+: cs := by
  induction cs using unixLines.induct with
  | case1 r ih =>
    have hr : run <:+: r := by
      rw [unixLines, List.infix_cons_iff] at h
      obtain hleads | hinfix := h
      · obtain rfl | ⟨t, rfl, -⟩ := List.prefix_cons_iff.1 hleads
        · exact List.nil_infix
        · simp at hrun
      · exact ih hinfix
    exact hr.trans ⟨['\r', '\n'], [], by simp⟩
  | case2 c r hc ih =>
    have hcons := unixLines.eq_2 c r hc
    rw [hcons, List.infix_cons_iff, ← hcons] at h
    exact List.infix_cons_iff.2 (h.imp (prefix_of_unixLines hrun) ih)
  | case3 => exact h

theorem countP_opens_unixLines (cs : List Char) :
    (unixLines cs).countP opens = cs.countP opens := by
  induction cs using unixLines.induct with
  | case1 r ih => simp [unixLines, ih, opens]
  | case2 c r hc ih => rw [unixLines.eq_2 c r hc, List.countP_cons, List.countP_cons, ih]
  | case3 => rfl

theorem stays_of_parse {stack : Stack} {text : String} (h : parse stack text = .error f) :
    Stays 0 (unixLines text.toList) (.error f : Scan Draft) := by
  rw [parse] at h
  cases hread : statements stack ((unixLines text.toList).length + 1) {} (unixLines text.toList) with
  | ok d =>
    rw [hread] at h
    cases h
  | error g =>
    rw [hread] at h
    cases h
    exact stays_of_statements hread

end Reader

/-- An integer is rejected for its digits only where so many of them stand in the text. -/
theorem hasLongNumeral_of_parse {stack : Stack} {text : String}
    (h : parse stack text = .error (.longNumeral n)) : HasLongNumeral text.toList n := by
  obtain ⟨hn, run, hinfix, hrun, hlength⟩ := (Reader.stays_of_parse h).hasLongNumeral rfl
  refine ⟨hn, run, Reader.infix_of_unixLines ?_ hinfix, hrun, hlength⟩
  intro hmem
  exact absurd (hrun _ hmem) (by decide)

/-- A text is too deep to be read only if there are more brackets in it than are safe. -/
theorem isDeep_of_parse {stack : Stack} {text complaint : String}
    (h : parse stack text = .error (.tooDeep complaint)) : IsDeep 0 text.toList := by
  cases Reader.stays_of_parse h with
  | tooDeep hdeep =>
    rwa [IsDeep, Reader.countP_opens_unixLines] at hdeep

end GameLauncher.Toml
