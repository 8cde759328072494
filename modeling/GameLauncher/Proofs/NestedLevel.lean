import GameLauncher.Proofs.DocumentSettings

namespace GameLauncher

namespace Toml

variable {stack : Stack} {k : String} {ks : List String}

def nest : List String → Table
  | [] => []
  | k :: ks => [(k, .table (nest ks))]

theorem Table.atKey_nil (ks : List String) : Table.atKey true some ks [] = some (nest ks) := by
  induction ks with
  | nil => rfl
  | cons k ks ih =>
    simp only [atKey, Table.get?, List.lookup_nil, ih, Option.map_some]
    rfl

theorem depth_nest (ks : List String) : (Value.table (nest ks)).depth = ks.length + 1 := by
  induction ks with
  | nil => rfl
  | cons k ks ih =>
    rw [nest, Value.depth, Value.membersDepth, Value.membersDepth, ih, Nat.max_zero,
      List.length_cons]

theorem not_contains_nest (ks : List String) (n : Int) :
    ¬ (Value.table (nest ks)).Contains n := by
  induction ks with
  | nil =>
    rintro ⟨⟩
    contradiction
  | cons k ks ih =>
    intro h
    cases h with
    | member hmember h =>
      cases List.mem_singleton.1 hmember
      exact ih h

def headerText (k : String) (ks : List String) : String :=
  String.ofList ('[' :: Key.dotted k ks ++ [']', '\n'])

theorem Key.return_notMem_dotted (h : ∀ n ∈ k :: ks, IsBareKey n) : '\r' ∉ dotted k ks := by
  have hbare : ∀ n ∈ k :: ks, '\r' ∉ n.toList := by
    intro n hn hmem
    exact absurd ((h n hn).2 _ hmem) (by decide)
  rw [dotted, List.mem_append, List.mem_flatMap]
  rintro (hk | ⟨n, hn, hmem⟩)
  · exact hbare k List.mem_cons_self hk
  · rw [List.mem_cons] at hmem
    exact hbare n (List.mem_cons_of_mem k hn) (hmem.resolve_left (by decide))

theorem parse_headerText (h : ∀ n ∈ k :: ks, IsBareKey n) :
    parse stack (headerText k ks) = .ok (nest (k :: ks)) := by
  have hopen : ({} : Draft).settle.open? (k :: ks) = some {
      table := nest (k :: ks), marks := [.declared (k :: ks)], header := k :: ks } := by
    simp only [Draft.open?, Draft.settle, Table.atKey_nil]
    rfl
  have hunix : Reader.unixLines (headerText k ks).toList =
      '[' :: Key.dotted k ks ++ [']', '\n'] := by
    rw [headerText, String.toList_ofList, Reader.unixLines_of_notMem]
    simp [Key.return_notMem_dotted h]
  rw [parse, hunix, Reader.statements_line (Reader.statement_header h hopen []), List.cons_append,
    List.length_cons]
  simp only [Reader.statements, skipBlanks, List.dropWhile_nil, Reader.statement, skipComment]
  rfl

end Toml

namespace Settings

open Toml (Table Value)

def levelText (n : Nat) : String := Toml.headerText "General" ("logLevel" :: List.replicate n "a")

def levelTable (n : Nat) : Table := Toml.nest ("General" :: "logLevel" :: List.replicate n "a")

variable {fs : FileSystem} {p : Path} {n : Nat}

theorem readsAs_levelText (h : fs.read p = .ok (Text.encodeUtf8 (levelText n))) :
    ReadsAs fs p (levelTable n) := by
  refine ⟨_, _, h, Text.decodeUtf8_encodeUtf8 _, Toml.parse_headerText ?_⟩
  have hbare : ∀ k ∈ List.replicate n "a", Toml.IsBareKey k := by
    intro k hk
    rw [List.eq_of_mem_replicate hk]
    decide
  simp only [List.forall_mem_cons]
  exact ⟨by decide, by decide, hbare⟩

theorem wellTyped_levelTable (n : Nat) : WellTyped (levelTable n) where
  tables := by
    simp only [List.forall_mem_cons]
    exact ⟨rfl, rfl, rfl, nofun⟩
  arrays := by
    simp only [List.forall_mem_cons]
    exact ⟨rfl, rfl, nofun⟩
  addonDir := rfl
  coreExecutable := rfl

/-- However much room a machine has, the tables can be so deep that it does not suffice. -/
theorem load_levelText (h : fs.read p = .ok (Text.encodeUtf8 (levelText n))) {complaint : String}
    (hdeep : ∀ v : Value, v.depth = n + 1 → fs.host.stack.showOverflow? v = some complaint) :
    load fs p = .fail (.tooDeep complaint) := by
  obtain ⟨-, hoverflow, -⟩ := load_document (readsAs_levelText h) fun m hm ↦
    absurd hm (Toml.not_contains_nest _ m)
  refine hoverflow (wellTyped_levelTable n) complaint ?_
  have hdepth := Toml.depth_nest (List.replicate n "a")
  rw [List.length_replicate] at hdepth
  exact hdeep _ hdepth

/-- A document without a fault, of which nothing is loaded. -/
theorem load_document_nested :
    let fs := (FileSystem.bare []).withFile "c.toml" (Text.encodeUtf8 (levelText 1200))
    ReadsAs fs (.ofString "c.toml") (levelTable 1200) ∧ WellTyped (levelTable 1200) ∧
      (∀ n, ¬ (Value.table (levelTable 1200)).Contains n) ∧
      load fs (.ofString "c.toml") = .fail
        (.tooDeep "maximum recursion depth exceeded while getting the repr of an object") := by
  intro fs
  have hread : fs.read (.ofString "c.toml") = .ok (Text.encodeUtf8 (levelText 1200)) := rfl
  refine ⟨readsAs_levelText hread, wellTyped_levelTable 1200, Toml.not_contains_nest _,
    load_levelText hread fun v hv ↦ ?_⟩
  have hdeep : Toml.Stack.maxShown < v.depth := by
    rw [hv]
    decide
  exact if_pos hdeep

end Settings

end GameLauncher
