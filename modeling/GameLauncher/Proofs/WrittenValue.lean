import GameLauncher.Toml.Reader
import GameLauncher.Toml.Writer

namespace GameLauncher.Toml

open Writer

variable {c : Char} {rest : List Char}

namespace Writer

theorem ofHex_hexDigits : ∀ n < 128, Str.ofHex (Text.hexDigits 4 n) = some (Char.ofNat n) := by
  decide

theorem basic_numbered (h : c.toNat < 128) (rest : List Char) :
    Str.basic ('\\' :: 'u' :: Text.hexDigits 4 c.toNat ++ rest) = (Str.basic rest).cons c := by
  have hc : Str.ofHex (Text.hexDigits 4 c.toNat) = some c := by
    rw [ofHex_hexDigits _ h, Char.ofNat_toNat]
  simp only [Text.hexDigits, List.nil_append, List.cons_append] at hc ⊢
  rw [Str.basic, hc]

theorem basic_plain (hq : c ≠ '\x22') (hb : c ≠ '\\') (hf : isForbidden c = false)
    (rest : List Char) : Str.basic (c :: rest) = (Str.basic rest).cons c := by
  rw [Str.basic.eq_def]
  split <;> simp_all

theorem basic_short {e : Char} (h : Str.shortEscape e = some c) (hu : e ≠ 'u') (hU : e ≠ 'U')
    (rest : List Char) : Str.basic ('\\' :: e :: rest) = (Str.basic rest).cons c := by
  rw [Str.basic.eq_def]
  split <;> simp_all
  rename_i hno heq
  exact absurd heq.2.symm (hno _ _ heq.1.symm)

theorem basic_escape (c : Char) (rest : List Char) :
    Str.basic (escape c ++ rest) = (Str.basic rest).cons c := by
  unfold escape
  iterate 6
    split
    · rename_i h
      subst h
      exact basic_short rfl (by decide) (by decide) rest
  split
  · rename_i h
    have hlt : c.toNat < 128 := by
      simp only [Bool.or_eq_true, Bool.and_eq_true, decide_eq_true_eq] at h
      omega
    exact basic_numbered hlt rest
  · rename_i hmark hbackslash h
    exact basic_plain hmark hbackslash (by simpa [isForbidden] using h) rest

theorem basic_flatMap_escape (cs rest : List Char) :
    Str.basic (cs.flatMap escape ++ '\x22' :: rest) = .ok (cs, rest) := by
  induction cs with
  | nil => simp [Str.basic]
  | cons c cs ih =>
    rw [List.flatMap_cons, List.append_assoc, basic_escape, ih]
    rfl

theorem head?_escape_ne_mark (c : Char) : (escape c).head? ≠ some '\x22' := by
  unfold escape
  repeat' split
  all_goals simp_all

theorem escape_ne_nil (c : Char) : escape c ≠ [] := by
  unfold escape
  repeat' split
  all_goals simp

end Writer

theorem Str.scan?_textLiteral (s : String) (h : rest.head? ≠ some '\x22') :
    Str.scan? (textLiteral s ++ rest) = some (.ok (s.toList, rest)) := by
  have hbasic := basic_flatMap_escape s.toList rest
  have hlit : textLiteral s ++ rest = '\x22' :: (s.toList.flatMap escape ++ '\x22' :: rest) := by
    simp [textLiteral]
  rw [hlit]
  cases hs : s.toList with
  | nil =>
    cases rest with
    | nil => rfl
    | cons c rest =>
      have hc : c ≠ '\x22' := by simpa using h
      rw [hs] at hbasic
      simp only [List.flatMap_nil, List.nil_append] at hbasic ⊢
      rw [Str.scan?.eq_def]
      split <;> simp_all
  | cons c cs =>
    rw [hs] at hbasic
    obtain ⟨e, es, he⟩ : ∃ e es, escape c = e :: es := List.exists_cons_of_ne_nil (escape_ne_nil c)
    have hmark : e ≠ '\x22' := by
      have := head?_escape_ne_mark c
      simpa [he] using this
    simp only [List.flatMap_cons, he, List.cons_append] at hbasic ⊢
    rw [Str.scan?.eq_def]
    split <;> simp_all

namespace Reader

variable {stack : Stack} {within : List Bracket}

theorem value_textLiteral (hroom : within.length ≤ safeDepth) (fuel : Nat) (s : String)
    (h : rest.head? ≠ some '\x22') :
    value stack (fuel + 1) within (textLiteral s ++ rest) = .ok (.text s, rest) := by
  simp only [value, stack.readOverflow?_eq_none within _ hroom, Str.scan?_textLiteral s h,
    String.ofList_toList]

theorem value_booleanLiteral (hroom : within.length ≤ safeDepth) (fuel : Nat) (b : Bool)
    (rest : List Char) :
    value stack (fuel + 1) within (booleanLiteral b ++ rest) = .ok (.boolean b, rest) := by
  simp only [value, stack.readOverflow?_eq_none within _ hroom]
  cases b <;> rfl

/-- A literal that can be a member of a written array: it reads back as a value in one round, and
neither a blank nor a bracket nor a comment begins with it. -/
structure Member (literal : List Char) (v : Value) : Prop where
  reads : ∀ (stack : Stack) (fuel : Nat) (within : List Bracket) (rest : List Char),
    within.length ≤ safeDepth → rest.head? ≠ some '\x22' →
      value stack (fuel + 1) within (literal ++ rest) = .ok (v, rest)
  starts : ∃ c cs, literal = c :: cs ∧ isBlank c = false ∧ c ≠ '\n' ∧ c ≠ '#' ∧ c ≠ ']'

theorem member_textLiteral (s : String) : Member (textLiteral s) (.text s) where
  reads _ fuel _ _ hroom h := value_textLiteral hroom fuel s h
  starts := ⟨'\x22', s.toList.flatMap escape ++ ['\x22'], rfl, by decide, by decide, by decide,
    by decide⟩

theorem member_booleanLiteral (b : Bool) : Member (booleanLiteral b) (.boolean b) where
  reads _ fuel _ rest hroom _ := value_booleanLiteral hroom fuel b rest
  starts := by cases b <;> exact ⟨_, _, rfl, by decide, by decide, by decide, by decide⟩

theorem Member.skipFiller {literal : List Char} {v : Value} (m : Member literal v)
    (rest : List Char) : Reader.skipFiller false (literal ++ rest) = .ok (literal ++ rest) := by
  obtain ⟨c, cs, rfl, hblank, hline, hhash, -⟩ := m.starts
  simp [Reader.skipFiller, hblank, hline, hhash]

def memberLine (literal : List Char) : List Char := "    ".toList ++ literal ++ [',', '\n']

theorem memberLine_eq (literal : List Char) :
    memberLine literal = [' ', ' ', ' ', ' '] ++ (literal ++ [',', '\n']) := rfl

theorem skipFiller_memberLine {literal : List Char} {v : Value} (m : Member literal v)
    (rest : List Char) : skipFiller false ('\n' :: (memberLine literal ++ rest)) =
      .ok (literal ++ ',' :: '\n' :: rest) := by
  rw [memberLine_eq, List.append_assoc, List.append_assoc]
  exact m.skipFiller (',' :: '\n' :: rest)

section Arrays

variable {α : Type} {lit : α → List Char} {val : α → Value}

/-- The members of a written array, one a line, read back in their order. -/
theorem items_memberLines (stack : Stack) (m : ∀ a, Member (lit a) (val a))
    (hroom : within.length ≤ safeDepth) (a : α) (as : List α) (fuel : Nat)
    (hfuel : as.length < fuel) (rest : List Char) :
    items stack (fuel + 1) within
        (lit a ++ ',' :: '\n' :: (as.flatMap (fun b ↦ memberLine (lit b)) ++ ']' :: rest)) =
      .ok (val a :: as.map val, rest) := by
  induction as generalizing fuel a with
  | nil =>
    obtain ⟨fuel, rfl⟩ := Nat.exists_eq_add_one.2 (Nat.zero_lt_of_lt hfuel)
    rw [items, List.flatMap_nil, List.nil_append, (m a).reads _ _ _ _ hroom (by simp)]
    simp [skipFiller, isBlank]
  | cons b bs ih =>
    obtain ⟨fuel, rfl⟩ := Nat.exists_eq_add_one.2 (Nat.zero_lt_of_lt hfuel)
    have hbs := ih b fuel (by simpa using hfuel)
    obtain ⟨c, cs, hc, -, -, -, hbracket⟩ := (m b).starts
    have hfill := skipFiller_memberLine (m b)
      (bs.flatMap (fun b ↦ memberLine (lit b)) ++ ']' :: rest)
    have hcomma : skipFiller false (',' :: '\n' ::
        ((b :: bs).flatMap (fun b ↦ memberLine (lit b)) ++ ']' :: rest)) =
        .ok (',' :: '\n' :: ((b :: bs).flatMap (fun b ↦ memberLine (lit b)) ++ ']' :: rest)) := by
      simp [skipFiller, isBlank]
    rw [items, (m a).reads _ _ _ _ hroom (by simp)]
    simp only [hcomma]
    rw [List.flatMap_cons, List.append_assoc, hfill]
    simp only [hc, List.cons_append] at hbs ⊢
    split
    · simp_all
    · simp_all
    · simp_all [Except.map]

theorem value_arrayLiteral (m : ∀ a, Member (lit a) (val a)) (as : List α) (fuel : Nat)
    (hfuel : as.length < fuel) (rest : List Char) :
    value stack (fuel + 1) [] (arrayLiteral (as.map lit) ++ rest) =
      .ok (.array (as.map val), rest) := by
  have hroom : [Bracket.square].length ≤ safeDepth := by decide
  simp only [value, stack.readOverflow?_eq_none [] _ (Nat.zero_le _)]
  cases as with
  | nil => rfl
  | cons a as =>
    obtain ⟨fuel, rfl⟩ := Nat.exists_eq_add_one.2 (Nat.zero_lt_of_lt hfuel)
    have hitems := items_memberLines stack m hroom a as fuel (by simpa using hfuel) rest
    obtain ⟨c, cs, hc, -, -, -, hbracket⟩ := (m a).starts
    have hfill := skipFiller_memberLine (m a)
      (as.flatMap (fun b ↦ memberLine (lit b)) ++ ']' :: rest)
    have hlit : arrayLiteral ((a :: as).map lit) ++ rest = '[' :: '\n' ::
        (memberLine (lit a) ++ (as.flatMap (fun b ↦ memberLine (lit b)) ++ ']' :: rest)) := by
      show '[' :: '\n' :: (((a :: as).map lit).flatMap memberLine ++ [']']) ++ rest = _
      rw [List.map_cons, List.flatMap_cons, List.flatMap_map]
      simp only [List.cons_append, List.append_assoc, List.nil_append]
    rw [hlit]
    simp only [Str.scan?]
    rw [hfill]
    simp only [hc, List.cons_append] at hitems ⊢
    split
    · simp_all
    · simp_all
    · simp_all [Except.map]

theorem length_le_arrayLiteral (ls : List (List Char)) : ls.length ≤ (arrayLiteral ls).length := by
  have hlines : ls.length ≤ (ls.flatMap memberLine).length := by
    induction ls with
    | nil => simp
    | cons l ls ih =>
      simp only [List.flatMap_cons, List.length_append, List.length_cons, memberLine_eq]
      omega
  unfold arrayLiteral
  split
  · simp_all
  · simp only [List.length_cons, List.length_append]
    show ls.length ≤ (ls.flatMap memberLine).length + 1 + 1 + 1
    omega

end Arrays

theorem scanValue_literal (stack : Stack) (e : Entry) (rest : List Char) :
    scanValue stack (e.literal ++ '\n' :: rest) = .ok (e.value, '\n' :: rest) := by
  cases e with
  | text s => exact value_textLiteral (Nat.zero_le _) _ s (by simp)
  | boolean b => exact value_booleanLiteral (Nat.zero_le _) _ b _
  | texts ss =>
    have h := length_le_arrayLiteral (ss.map textLiteral)
    refine value_arrayLiteral member_textLiteral ss _ ?_ _
    simp only [Entry.literal, List.length_append, List.length_map] at h ⊢
    omega
  | booleans bs =>
    have h := length_le_arrayLiteral (bs.map booleanLiteral)
    refine value_arrayLiteral member_booleanLiteral bs _ ?_ _
    simp only [Entry.literal, List.length_append, List.length_map] at h ⊢
    omega

theorem literal_starts (e : Entry) : ∃ c cs, e.literal = c :: cs ∧ isBlank c = false := by
  cases e with
  | text s => exact ⟨'\x22', _, rfl, by decide⟩
  | boolean b => cases b <;> exact ⟨_, _, rfl, by decide⟩
  | texts ss => cases ss <;> exact ⟨'[', _, rfl, by decide⟩
  | booleans bs => cases bs <;> exact ⟨'[', _, rfl, by decide⟩

end Reader

end GameLauncher.Toml
