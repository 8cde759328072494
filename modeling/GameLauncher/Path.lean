import GameLauncher.Path.Name

namespace GameLauncher

/-- Where a path starts: at the working directory, or at the root written with one slash or two. -/
inductive Anchor
  | here
  | root
  | doubleRoot
  deriving DecidableEq

/-- A path as a user writes it. Double dots stay, since a link may stand before them. -/
structure Path where
  anchor : Anchor
  parts : List Name
  deriving DecidableEq

namespace Path

def pieces : List Char → List (List Char)
  | [] => [[]]
  | c :: r =>
    if c = '/' then [] :: pieces r
    else match pieces r with
      | [] => [[c]]
      | p :: ps => (c :: p) :: ps

def anchorOf : List Char → Anchor
  | '/' :: '/' :: '/' :: _ => .root
  | '/' :: '/' :: _ => .doubleRoot
  | '/' :: _ => .root
  | _ => .here

def names (cs : List Char) : List Name :=
  (pieces cs).filterMap fun p ↦ Name.of? (String.ofList p)

def ofString (s : String) : Path := ⟨anchorOf s.toList, names s.toList⟩

def anchorText : Anchor → String
  | .here => ""
  | .root => "/"
  | .doubleRoot => "//"

def joinNames : List Name → String
  | [] => ""
  | [n] => n.text
  | n :: m :: r => n.text ++ "/" ++ joinNames (m :: r)

def text : Path → String
  | ⟨.here, []⟩ => "."
  | ⟨a, ns⟩ => anchorText a ++ joinNames ns

instance : ToString Path := ⟨text⟩

def here : Path := ⟨.here, []⟩

def name (p : Path) : String := (p.parts.getLast?.map Name.text).getD ""

def parent (p : Path) : Path := { p with parts := p.parts.dropLast }

def child (p : Path) (n : Name) : Path := { p with parts := p.parts ++ [n] }

def withName (p : Path) (n : Name) : Path := p.parent.child n

def maxBytes : Nat := 4095

def isTooLong (p : Path) : Bool := maxBytes < p.text.utf8ByteSize

def hasNull (p : Path) : Bool := p.parts.any Name.hasNull

/-- Double dots undone by the text alone, whatever links there are. -/
def collapse (done : List Name) : List Name → List Name
  | [] => done.reverse
  | n :: r => if n = Name.up then collapse done.tail r else collapse (n :: done) r

def absolute (cwd p : Path) : Path :=
  match p.anchor with
  | .here => ⟨cwd.anchor, collapse [] (cwd.parts ++ p.parts)⟩
  | a => ⟨a, collapse [] p.parts⟩

theorem pieces_of_notMem {cs : List Char} (h : '/' ∉ cs) : pieces cs = [cs] := by
  induction cs with
  | nil => rfl
  | cons c r ih =>
    simp only [List.mem_cons, not_or] at h
    simp [pieces, Ne.symm h.1, ih h.2]

theorem pieces_append_slash {cs : List Char} (h : '/' ∉ cs) (rest : List Char) :
    pieces (cs ++ '/' :: rest) = cs :: pieces rest := by
  induction cs with
  | nil => simp [pieces]
  | cons c r ih =>
    simp only [List.mem_cons, not_or] at h
    simp [pieces, Ne.symm h.1, ih h.2]

theorem names_slash (cs : List Char) : names ('/' :: cs) = names cs := by
  simp [names, pieces, Name.of?]

theorem names_joinNames (ns : List Name) : names (joinNames ns).toList = ns := by
  induction ns with
  | nil => rfl
  | cons n r ih =>
    have hn := n.valid.2.2
    cases r with
    | nil => simp [names, joinNames, pieces_of_notMem hn, Name.of?_text]
    | cons m r =>
      have h : (joinNames (n :: m :: r)).toList =
          n.text.toList ++ '/' :: (joinNames (m :: r)).toList := by
        simp [joinNames]
      rw [h]
      simp only [names] at ih
      simp [names, pieces_append_slash hn, Name.of?_text, ih]

theorem head?_joinNames (ns : List Name) : (joinNames ns).toList.head? ≠ some '/' := by
  cases ns with
  | nil => simp [joinNames]
  | cons n r =>
    obtain ⟨c, cs, hc⟩ : ∃ c cs, n.text.toList = c :: cs := by
      cases h : n.text.toList with
      | nil => exact absurd (String.toList_eq_nil_iff.1 h) n.valid.1
      | cons c cs => exact ⟨c, cs, rfl⟩
    have hn := n.valid.2.2
    rw [hc, List.mem_cons, not_or] at hn
    cases r <;> simp [joinNames, hc, Ne.symm hn.1]

theorem anchorOf_anchorText (a : Anchor) {cs : List Char} (h : cs.head? ≠ some '/') :
    anchorOf ((anchorText a).toList ++ cs) = a := by
  cases cs with
  | nil => cases a <;> rfl
  | cons c r =>
    have hc : c ≠ '/' := by simpa using h
    cases a <;> simp only [anchorText] <;> unfold anchorOf <;> split <;> simp_all
    rename_i hno heq
    exact hno _ heq.symm

theorem ofString_text (p : Path) : ofString p.text = p := by
  obtain ⟨a, ns⟩ := p
  have hnames : names ((anchorText a).toList ++ (joinNames ns).toList) = ns := by
    cases a <;> simp [anchorText, names_slash, names_joinNames]
  have hanchor := anchorOf_anchorText a (head?_joinNames ns)
  unfold text
  split
  · rename_i heq
    cases heq
    rfl
  · rename_i heq
    cases heq
    simp [ofString, hanchor, hnames]

@[simp] theorem parent_child (p : Path) (n : Name) : (p.child n).parent = p := by
  simp [parent, child]

@[simp] theorem name_child (p : Path) (n : Name) : (p.child n).name = n.text := by
  simp [name, child]

end Path

end GameLauncher
