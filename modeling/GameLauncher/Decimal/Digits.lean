namespace GameLauncher.Decimal

def isDigit (c : Char) : Bool := '0' ≤ c && c ≤ '9'

def digitValue (c : Char) : Nat :=
  if isDigit c then c.toNat - 48 else if 'a' ≤ c then c.toNat - 87 else c.toNat - 55

def ofDigits (base : Nat) (ds : List Char) : Nat := ds.foldl (fun a d ↦ a * base + digitValue d) 0

def sign : List Char → Bool × List Char
  | '-' :: r => (true, r)
  | '+' :: r => (false, r)
  | cs => (false, cs)

theorem sign_cases (cs : List Char) :
    (∃ r, cs = '-' :: r ∧ sign cs = (true, r)) ∨ (∃ r, cs = '+' :: r ∧ sign cs = (false, r)) ∨
      sign cs = (false, cs) := by
  unfold sign
  split
  · exact .inl ⟨_, rfl, rfl⟩
  · exact .inr (.inl ⟨_, rfl, rfl⟩)
  · exact .inr (.inr rfl)

theorem sign_suffix (cs : List Char) : (sign cs).2 <:+ cs := by
  obtain ⟨r, rfl, h⟩ | ⟨r, rfl, h⟩ | h := sign_cases cs
  · simp only [h, List.suffix_cons]
  · simp only [h, List.suffix_cons]
  · simp only [h, List.suffix_rfl]

def padded (width n : Nat) : String :=
  let digits := Nat.toDigits 10 n
  String.ofList (List.replicate (width - digits.length) '0' ++ digits)

def signed (negative : Bool) (n : Nat) : Int := if negative then -n else n

end GameLauncher.Decimal
