import GameLauncher.Proofs.WrittenValue

namespace GameLauncher.Toml

open Writer

variable {stack : Stack} {k name : String} {rest : List Char}

def IsBareKey (s : String) : Prop := s ≠ "" ∧ ∀ c ∈ s.toList, Key.isBare c = true

instance (s : String) : Decidable (IsBareKey s) :=
  decidable_of_iff (s ≠ "" ∧ s.toList.all Key.isBare = true) (by simp [IsBareKey])

theorem IsBareKey.starts (h : IsBareKey k) : ∃ c cs, k.toList = c :: cs ∧ Key.isBare c = true := by
  cases hk : k.toList with
  | nil => exact absurd (String.toList_eq_nil_iff.1 hk) h.1
  | cons c cs => exact ⟨c, cs, rfl, h.2 c (by simp [hk])⟩

theorem isBlank_of_isBare {c : Char} (h : Key.isBare c = true) : isBlank c = false := by
  rw [Bool.eq_false_iff]
  intro hb
  simp only [isBlank, Bool.or_eq_true, decide_eq_true_eq] at hb
  rcases hb with rfl | rfl <;> exact absurd h (by decide)

theorem Key.part_bare (h : IsBareKey k) (hrest : ∀ c cs, rest = c :: cs → Key.isBare c = false) :
    Key.part (k.toList ++ rest) = .ok (k, rest) := by
  obtain ⟨c, cs, hk, hc⟩ := h.starts
  have htake : (k.toList ++ rest).takeWhile isBare = k.toList := by
    rw [List.takeWhile_append_of_pos h.2]
    cases rest with
    | nil => simp
    | cons d ds => simp [hrest d ds rfl]
  have hdrop : (k.toList ++ rest).dropWhile isBare = rest := by
    rw [List.dropWhile_append_of_pos h.2]
    cases rest with
    | nil => simp
    | cons d ds => simp [hrest d ds rfl]
  have hmark : ∀ m : Char, isBare m = false → c ≠ m := by
    rintro m hm rfl
    simp [hc] at hm
  have hsingle := hmark '\x27' (by decide)
  have hdouble := hmark '\x22' (by decide)
  have hne : k.toList.isEmpty = false := by simp [hk]
  rw [hk, List.cons_append] at htake hdrop ⊢
  rw [Key.part.eq_def]
  split
  · simp_all
  · simp_all
  · rw [htake, hdrop, ← hk, hne, String.ofList_toList]
    rfl

theorem Key.scan_bare (h : IsBareKey k) (hrest : ∀ c cs, rest = c :: cs → Key.isBare c = false)
    (hdot : ∀ r, skipBlanks rest ≠ '.' :: r) :
    Key.scan (k.toList ++ rest) = .ok ([k], skipBlanks rest) := by
  simp only [scan, scanParts, part_bare h hrest]

def Key.dotted (k : String) (ks : List String) : List Char :=
  k.toList ++ ks.flatMap fun k ↦ '.' :: k.toList

theorem Key.dotted_starts (h : IsBareKey k) (ks : List String) :
    ∃ c cs, Key.dotted k ks = c :: cs ∧ Key.isBare c = true := by
  obtain ⟨c, cs, hk, hc⟩ := h.starts
  exact ⟨c, _, by rw [dotted, hk, List.cons_append], hc⟩

theorem Key.skipBlanks_dotted {ks : List String} (h : IsBareKey k) :
    skipBlanks (Key.dotted k ks ++ rest) = Key.dotted k ks ++ rest := by
  obtain ⟨c, cs, hk, hc⟩ := Key.dotted_starts h ks
  simp [hk, skipBlanks, isBlank_of_isBare hc]

theorem Key.scanParts_dotted {ks : List String} (h : ∀ n ∈ k :: ks, IsBareKey n)
    (hrest : ∀ c cs, rest = c :: cs → Key.isBare c = false)
    (hdot : ∀ r, skipBlanks rest ≠ '.' :: r) {fuel : Nat} (hfuel : ks.length < fuel) :
    Key.scanParts fuel (Key.dotted k ks ++ rest) = .ok (k :: ks, skipBlanks rest) := by
  obtain ⟨hk, hks⟩ := List.forall_mem_cons.1 h
  obtain ⟨fuel, rfl⟩ := Nat.exists_eq_add_one.2 (Nat.zero_lt_of_lt hfuel)
  induction ks generalizing k fuel with
  | nil =>
    rw [dotted, List.flatMap_nil, List.append_nil]
    simp only [scanParts, part_bare hk hrest]
  | cons n ks ih =>
    obtain ⟨hn, hks'⟩ := List.forall_mem_cons.1 hks
    rw [List.length_cons] at hfuel
    obtain ⟨fuel, rfl⟩ := Nat.exists_eq_add_one.2 (show 0 < fuel by omega)
    have hdotted : dotted k (n :: ks) ++ rest = k.toList ++ '.' :: (dotted n ks ++ rest) := by
      simp [dotted]
    have hpart : part (dotted k (n :: ks) ++ rest) = .ok (k, '.' :: (dotted n ks ++ rest)) := by
      rw [hdotted]
      exact part_bare hk (by rintro _ _ ⟨⟩; decide)
    have hskip : skipBlanks ('.' :: (dotted n ks ++ rest)) = '.' :: (dotted n ks ++ rest) := by
      simp [skipBlanks, isBlank]
    rw [scanParts, hpart]
    simp only [hskip, skipBlanks_dotted hn, ih hks hn hks' fuel (by omega)]
    rfl

theorem Key.length_le_dots (ks : List String) :
    ks.length ≤ (ks.flatMap fun k ↦ '.' :: k.toList).length := by
  induction ks with
  | nil => exact Nat.le_refl 0
  | cons n ks ih =>
    simp only [List.flatMap_cons, List.length_append, List.length_cons]
    omega

theorem Key.scan_dotted {ks : List String} (h : ∀ n ∈ k :: ks, IsBareKey n)
    (hrest : ∀ c cs, rest = c :: cs → Key.isBare c = false)
    (hdot : ∀ r, skipBlanks rest ≠ '.' :: r) :
    Key.scan (Key.dotted k ks ++ rest) = .ok (k :: ks, skipBlanks rest) := by
  refine scanParts_dotted h hrest hdot ?_
  have hdots := Key.length_le_dots ks
  simp only [dotted, List.length_append]
  omega

namespace Table

theorem get?_of_notMem {t : Table} (h : name ∉ t.map Prod.fst) : t.get? name = none := by
  rw [Table.get?, List.lookup_eq_none_iff]
  rintro ⟨key, v⟩ hp
  rw [bne_iff_ne]
  rintro rfl
  exact h (List.mem_map.2 ⟨_, hp, rfl⟩)

theorem get?_append_of_notMem {t : Table} (h : name ∉ t.map Prod.fst) (v : Value) :
    Table.get? (t ++ [(name, v)]) name = some v := by
  have hnone := get?_of_notMem h
  rw [Table.get?] at hnone ⊢
  simp [List.lookup_append, hnone]

theorem put_of_notMem {t : Table} (h : name ∉ t.map Prod.fst) (v : Value) :
    t.put name v = t ++ [(name, v)] := by
  induction t with
  | nil => rfl
  | cons e t ih =>
    simp only [List.map_cons, List.mem_cons, not_or] at h
    simp [Table.put, Ne.symm h.1, ih h.2]

theorem put_append_of_notMem {t : Table} (h : name ∉ t.map Prod.fst) (v w : Value) :
    Table.put (t ++ [(name, v)]) name w = t ++ [(name, w)] := by
  induction t with
  | nil => simp [Table.put]
  | cons e t ih =>
    simp only [List.map_cons, List.mem_cons, not_or] at h
    simp [Table.put, Ne.symm h.1, ih h.2]

end Table

namespace Draft

/-- A draft that holds some tables, each declared once and with nothing closed but its members. -/
structure Holds (d : Draft) (t : Table) : Prop where
  table : d.table = t
  pending : d.pending = []
  declared : ∀ key, d.isDeclared key = true → ∃ n ∈ t.map Prod.fst, key = [n]
  closed : ∀ n, d.isClosed [n] = false

theorem holds_empty : Holds {} [] := ⟨rfl, rfl, by simp [isDeclared], by simp [isClosed]⟩

theorem settle_eq {d : Draft} {t : Table} (h : d.Holds t) : d.settle = d := by
  obtain ⟨table, marks, pending, header⟩ := d
  have hpending : pending = [] := h.pending
  simp [settle, hpending]

theorem open?_new {d : Draft} {t : Table} (h : d.Holds t) (hname : name ∉ t.map Prod.fst) :
    ∃ d', d.open? [name] = some d' ∧ d'.Holds (t ++ [(name, .table [])]) ∧ d'.header = [name] := by
  have hdecl : d.isDeclared [name] = false := by
    rw [Bool.eq_false_iff]
    intro hd
    obtain ⟨n, hn, he⟩ := h.declared _ hd
    cases he
    exact hname hn
  have hat : d.table.atKey true some [name] = some (t ++ [(name, .table [])]) := by
    simp [Table.atKey, h.table, Table.get?_of_notMem hname, Table.put_of_notMem hname]
  refine ⟨{ d with
    table := t ++ [(name, .table [])]
    marks := d.marks ++ [.declared [name]]
    header := [name] }, ?_, ⟨rfl, h.pending, ?_, ?_⟩, rfl⟩
  · simp [open?, hdecl, h.closed, hat]
  · intro key hk
    simp only [isDeclared, List.contains_append, Bool.or_eq_true] at hk
    rcases hk with hk | hk
    · obtain ⟨n, hn, he⟩ := h.declared key hk
      exact ⟨n, by simp [hn], he⟩
    · exact ⟨name, by simp, by simpa using hk⟩
  · intro n
    have := h.closed n
    simpa [isClosed] using this

theorem assign?_new {d : Draft} {t members : Table} (h : d.Holds (t ++ [(name, .table members)]))
    (hheader : d.header = [name]) (hname : name ∉ t.map Prod.fst)
    (hk : k ∉ members.map Prod.fst) (v : Value) :
    ∃ d', d.assign? [k] v = some d' ∧ d'.Holds (t ++ [(name, .table (members ++ [(k, v)]))]) ∧
      d'.header = [name] := by
  have hadd : d.table.add true [name, k] v =
      some (t ++ [(name, .table (members ++ [(k, v)]))]) := by
    simp [Table.add, Table.atKey, h.table, Table.get?_append_of_notMem hname,
      Table.get?_of_notMem hk, Table.put_of_notMem hk, Table.put_append_of_notMem hname]
  refine ⟨{ d with
    table := t ++ [(name, .table (members ++ [(k, v)]))]
    marks := if isContainer v then d.marks ++ [.closed [name, k]] else d.marks }, ?_,
    ⟨rfl, h.pending, ?_, ?_⟩, hheader⟩
  · simp [assign?, hheader, h.closed, hadd]
  · intro key hd
    have hold : d.isDeclared key = true := by
      simp only [isDeclared] at hd ⊢
      split at hd <;> simpa using hd
    simpa using h.declared key hold
  · intro n
    have := h.closed n
    have hmember : [name, k].isPrefixOf [n] = false := by simp [List.isPrefixOf]
    simp only [isClosed] at this ⊢
    split <;> simp_all

end Draft

namespace Reader

theorem statement_entryLine {d d' : Draft} (h : IsBareKey k) {e : Entry}
    (hd : d.assign? [k] e.value = some d') (rest : List Char) :
    statement stack d (skipBlanks (entryLine k e ++ rest)) = .ok (d', '\n' :: rest) := by
  obtain ⟨c, cs, hk, hc⟩ := h.starts
  obtain ⟨l, ls, hl, hblank⟩ := literal_starts e
  have hline : entryLine k e ++ rest =
      k.toList ++ (' ' :: '=' :: ' ' :: (e.literal ++ '\n' :: rest)) := by
    simp [entryLine]
  have hscan : Key.scan (entryLine k e ++ rest) =
      .ok ([k], '=' :: ' ' :: (e.literal ++ '\n' :: rest)) := by
    rw [hline, Key.scan_bare h (by rintro _ _ ⟨⟩; decide) (by simp [skipBlanks, isBlank])]
    simp [skipBlanks, isBlank]
  have hvalue : skipBlanks (' ' :: (e.literal ++ '\n' :: rest)) = e.literal ++ '\n' :: rest := by
    simp only [skipBlanks, hl, List.cons_append]
    rw [List.dropWhile_cons_of_pos (by decide), List.dropWhile_cons_of_neg (by simp [hblank])]
  have hstart : skipBlanks (entryLine k e ++ rest) = entryLine k e ++ rest := by
    simp [hline, hk, skipBlanks, isBlank_of_isBare hc]
  have hassign : statement stack d (entryLine k e ++ rest) =
      assignment stack d (entryLine k e ++ rest) := by
    have hne : ∀ m : Char, Key.isBare m = false → c ≠ m := by
      rintro m hm rfl
      simp [hc] at hm
    rw [hline, hk, List.cons_append, statement]
    · simp [hne '#' (by decide), hne '\n' (by decide), hc]
    · exact fun _ ↦ by simp [hne '[' (by decide)]
    · exact fun h ↦ absurd h (hne '[' (by decide))
  rw [hstart, hassign, assignment, hscan]
  simp only [hvalue, scanValue_literal, hd]

theorem statement_header {d d' : Draft} {ks : List String} (h : ∀ n ∈ name :: ks, IsBareKey n)
    (hd : d.settle.open? (name :: ks) = some d') (rest : List Char) :
    statement stack d (skipBlanks ('[' :: Key.dotted name ks ++ ']' :: '\n' :: rest)) =
      .ok (d', '\n' :: rest) := by
  have hname := h name List.mem_cons_self
  obtain ⟨c, cs, hk, hc⟩ := Key.dotted_starts hname ks
  have hne : c ≠ '[' := by
    rintro rfl
    exact absurd hc (by decide)
  have hscan : Key.scan (skipBlanks (Key.dotted name ks ++ ']' :: '\n' :: rest)) =
      .ok (name :: ks, ']' :: '\n' :: rest) := by
    rw [Key.skipBlanks_dotted hname,
      Key.scan_dotted h (by rintro _ _ ⟨⟩; decide) (by simp [skipBlanks, isBlank])]
    simp [skipBlanks, isBlank]
  have hskip : skipBlanks ('[' :: Key.dotted name ks ++ ']' :: '\n' :: rest) =
      '[' :: (Key.dotted name ks ++ ']' :: '\n' :: rest) := by
    simp [skipBlanks, isBlank]
  have hopen : statement stack d ('[' :: (Key.dotted name ks ++ ']' :: '\n' :: rest)) =
      tableHeader d.settle (Key.dotted name ks ++ ']' :: '\n' :: rest) := by
    rw [hk, List.cons_append, statement]
    exact fun _ he ↦ hne (by simpa using congrArg List.head? he)
  rw [hskip, hopen, tableHeader, hscan]
  simp only [hd]

theorem statements_line {fuel : Nat} {d d' : Draft} {cs : List Char}
    (h : statement stack d (skipBlanks cs) = .ok (d', '\n' :: rest)) :
    statements stack (fuel + 1) d cs = statements stack fuel d' rest := by
  rw [statements, h]
  simp [skipBlanks, isBlank, skipComment]

def entryLines (es : List (String × Entry)) : List Char := es.flatMap fun (k, e) ↦ entryLine k e

theorem entryLines_cons (k : String) (e : Entry) (es : List (String × Entry)) :
    entryLines ((k, e) :: es) = entryLine k e ++ entryLines es := rfl

/-- The lines of entries under new keys of the last table add them to it in their order. -/
theorem statements_entryLines {t members : Table} {es : List (String × Entry)} {d : Draft}
    (hd : d.Holds (t ++ [(name, .table members)])) (hheader : d.header = [name])
    (hname : name ∉ t.map Prod.fst) (hbare : ∀ e ∈ es, IsBareKey e.1)
    (hkeys : (members.map Prod.fst ++ es.map Prod.fst).Nodup) {fuel : Nat}
    (hfuel : (entryLines es ++ rest).length < fuel) :
    ∃ d' fuel', d'.Holds (t ++ [(name, .table (members ++ es.map fun e ↦ (e.1, e.2.value)))]) ∧
      rest.length < fuel' ∧
        statements stack fuel d (entryLines es ++ rest) = statements stack fuel' d' rest := by
  induction es generalizing members d fuel with
  | nil => exact ⟨d, fuel, by simpa using hd, hfuel, rfl⟩
  | cons e es ih =>
    obtain ⟨k, e⟩ := e
    have hk : k ∉ members.map Prod.fst := by
      intro hmem
      exact (List.nodup_append.1 hkeys).2.2 _ hmem _ (by simp) rfl
    obtain ⟨d₁, hassign, hd₁, hheader₁⟩ := Draft.assign?_new hd hheader hname hk e.value
    obtain ⟨fuel, rfl⟩ := Nat.exists_eq_add_one.2 (Nat.zero_lt_of_lt hfuel)
    rw [entryLines_cons, List.append_assoc] at hfuel ⊢
    have hbare₁ : IsBareKey k := hbare (k, e) (by simp)
    rw [statements_line (statement_entryLine hbare₁ hassign _)]
    -- A line has more than one character, so one round less is enough for the rest.
    have hrest : (entryLines es ++ rest).length < fuel := by
      simp only [entryLine, List.length_append, List.length_cons] at hfuel ⊢
      omega
    obtain ⟨d', fuel', hd', hfuel', hrun⟩ := ih hd₁ hheader₁ (fun e he ↦ hbare e (by simp [he]))
      (by simpa using hkeys) hrest
    exact ⟨d', fuel', by simpa using hd', hfuel', hrun⟩

end Reader

def Writer.Section.value (s : Section) : Value := .table (s.entries.map fun e ↦ (e.1, e.2.value))

/-- Sections whose names and keys can stand without quotation marks and occur once. -/
structure Writer.Writable (sections : List Section) : Prop where
  bareNames : ∀ s ∈ sections, IsBareKey s.name
  bareKeys : ∀ s ∈ sections, ∀ e ∈ s.entries, IsBareKey e.1
  names : (sections.map Section.name).Nodup
  keys : ∀ s ∈ sections, (s.entries.map Prod.fst).Nodup

theorem Writer.Writable.tail {s : Section} {ss : List Section} (h : Writable (s :: ss)) :
    Writable ss where
  bareNames t ht := h.bareNames t (by simp [ht])
  bareKeys t ht := h.bareKeys t (by simp [ht])
  names := (List.nodup_cons.1 h.names).2
  keys t ht := h.keys t (by simp [ht])

namespace Reader

theorem statements_sectionLines (stack : Stack) {t : Table} {s : Section} {d : Draft} (hd : d.Holds t)
    (hname : s.name ∉ t.map Prod.fst) (hbare : IsBareKey s.name)
    (hkeys : ∀ e ∈ s.entries, IsBareKey e.1) (hdistinct : (s.entries.map Prod.fst).Nodup)
    {fuel : Nat} (hfuel : (sectionLines s ++ rest).length < fuel) :
    ∃ d' fuel', d'.Holds (t ++ [(s.name, s.value)]) ∧ rest.length < fuel' ∧
      statements stack fuel d (sectionLines s ++ rest) = statements stack fuel' d' rest := by
  have hlines : sectionLines s ++ rest =
      '[' :: Key.dotted s.name [] ++ ']' :: '\n' :: (entryLines s.entries ++ rest) := by
    simp [sectionLines, entryLines, Key.dotted]
  obtain ⟨fuel, rfl⟩ := Nat.exists_eq_add_one.2 (Nat.zero_lt_of_lt hfuel)
  obtain ⟨d₁, hopen, hd₁, hheader₁⟩ := Draft.open?_new hd hname
  rw [← Draft.settle_eq hd] at hopen
  rw [hlines] at hfuel ⊢
  rw [statements_line (statement_header (by simpa using hbare) hopen _)]
  have hrest : (entryLines s.entries ++ rest).length < fuel := by
    simp only [List.length_append, List.length_cons] at hfuel ⊢
    omega
  exact statements_entryLines hd₁ hheader₁ hname hkeys (by simpa using hdistinct) hrest

theorem statements_lines {ss : List Section} (h : Writable ss) {t : Table} {d : Draft}
    (hd : d.Holds t) (hnew : ∀ s ∈ ss, s.name ∉ t.map Prod.fst) {fuel : Nat}
    (hfuel : (lines ss).length < fuel) :
    ∃ d', d'.Holds (t ++ ss.map fun s ↦ (s.name, s.value)) ∧
      statements stack fuel d (lines ss) = .ok d' := by
  induction ss generalizing t d fuel with
  | nil =>
    obtain ⟨fuel, rfl⟩ := Nat.exists_eq_add_one.2 (Nat.zero_lt_of_lt hfuel)
    exact ⟨d, by simpa using hd, by simp [lines, statements, skipBlanks, statement, skipComment]⟩
  | cons s ss ih =>
    have hsection (rest : List Char) (hrest : (sectionLines s ++ rest).length < fuel) :=
      statements_sectionLines stack hd (hnew s (by simp)) (h.bareNames s (by simp))
        (h.bareKeys s (by simp)) (h.keys s (by simp)) hrest
    have hnew₁ : ∀ u ∈ ss, u.name ∉ (t ++ [(s.name, s.value)]).map Prod.fst := by
      intro u hu
      have hne : u.name ≠ s.name := by
        intro he
        exact (List.nodup_cons.1 h.names).1 (he ▸ List.mem_map_of_mem hu)
      have := hnew u (by simp [hu])
      simp_all
    cases ss with
    | nil =>
      obtain ⟨d₁, fuel₁, hd₁, hfuel₁, hrun⟩ := hsection []
        (by simpa [lines] using hfuel)
      obtain ⟨d', hd', hrest⟩ := ih h.tail hd₁ hnew₁ hfuel₁
      exact ⟨d', by simpa using hd', by rw [← hrest, ← List.append_nil (lines [s])]; exact hrun⟩
    | cons u us =>
      obtain ⟨d₁, fuel₁, hd₁, hfuel₁, hrun⟩ := hsection ('\n' :: lines (u :: us))
        (by simpa [lines] using hfuel)
      obtain ⟨fuel₁, rfl⟩ := Nat.exists_eq_add_one.2 (Nat.zero_lt_of_lt hfuel₁)
      have hlines : (lines (u :: us)).length < fuel₁ := by simpa using hfuel₁
      obtain ⟨d', hd', hrest⟩ := ih h.tail hd₁ hnew₁ hlines
      have hblank : statement stack d₁ (skipBlanks ('\n' :: lines (u :: us))) =
          .ok (d₁, '\n' :: lines (u :: us)) := by
        simp [skipBlanks, isBlank, statement]
      exact ⟨d', by simpa using hd', by rw [← hrest, ← statements_line hblank]; exact hrun⟩

theorem unixLines_of_notMem {cs : List Char} (h : '\r' ∉ cs) : unixLines cs = cs := by
  fun_induction unixLines cs with
  | case1 r ih => simp at h
  | case2 c r hc ih => rw [ih (by simp_all)]
  | case3 => rfl

end Reader

namespace Writer

theorem return_notMem_escape (c : Char) : '\r' ∉ escape c := by
  have hnumbered : ∀ n < 128, '\r' ∉ Text.hexDigits 4 n := by decide
  by_cases hc : c = '\r'
  · subst hc
    decide
  · have hplain : '\r' ∉ [c] := by simpa using Ne.symm hc
    unfold escape
    repeat' split
    all_goals try simp_all
    rename_i h
    exact hnumbered _ (by omega)

theorem return_notMem_textLiteral (s : String) : '\r' ∉ textLiteral s := by
  simp only [textLiteral, List.mem_append, List.mem_cons, List.mem_flatMap, not_or]
  simp [return_notMem_escape]

theorem return_notMem_arrayLiteral {ls : List (List Char)} (h : ∀ l ∈ ls, '\r' ∉ l) :
    '\r' ∉ arrayLiteral ls := by
  unfold arrayLiteral
  split
  · decide
  · simp_all

theorem return_notMem_literal (e : Entry) : '\r' ∉ e.literal := by
  have hboolean : ∀ b, '\r' ∉ booleanLiteral b := by decide
  cases e with
  | text s => exact return_notMem_textLiteral s
  | boolean b => exact hboolean b
  | texts ss =>
    apply return_notMem_arrayLiteral
    intro l hl
    obtain ⟨s, -, rfl⟩ := List.mem_map.1 hl
    exact return_notMem_textLiteral s
  | booleans bs =>
    apply return_notMem_arrayLiteral
    intro l hl
    obtain ⟨b, -, rfl⟩ := List.mem_map.1 hl
    exact hboolean b

theorem return_notMem_bare (h : IsBareKey k) : '\r' ∉ k.toList :=
  fun hmem ↦ absurd (h.2 _ hmem) (by decide)

theorem return_notMem_lines {ss : List Section} (h : Writable ss) : '\r' ∉ lines ss := by
  have hsection : ∀ s, s ∈ ss → '\r' ∉ sectionLines s := by
    intro s hs hmem
    have hname := return_notMem_bare (h.bareNames s hs)
    simp only [sectionLines, entryLine, List.mem_append, List.mem_cons, List.mem_flatMap] at hmem
    simp_all
    obtain ⟨k, e, he, hmem⟩ := hmem
    have hk := return_notMem_bare (h.bareKeys s hs _ he)
    simp_all [return_notMem_literal]
  fun_induction lines ss with
  | case1 => simp
  | case2 s => exact hsection s (by simp)
  | case3 s t r ih =>
    have hrest := ih h.tail (fun u hu ↦ hsection u (by simp [hu]))
    simp [hsection s (by simp), hrest]

end Writer

/-- A written document is read back with all its sections and entries in their order. -/
theorem parse_render {ss : List Section} (h : Writable ss) :
    parse stack (render ss) = .ok (ss.map fun s ↦ (s.name, s.value)) := by
  obtain ⟨d, hd, hrun⟩ := Reader.statements_lines h Draft.holds_empty (by simp)
    (Nat.lt_succ_self (lines ss).length)
  have htable : d.table = ss.map fun s ↦ (s.name, s.value) := hd.table
  simp only [parse, render, String.toList_ofList,
    Reader.unixLines_of_notMem (return_notMem_lines h)]
  rw [hrun, ← htable]
  rfl

end GameLauncher.Toml
