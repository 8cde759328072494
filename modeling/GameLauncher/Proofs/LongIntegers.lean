import GameLauncher.Proofs.OverlongPaths
import GameLauncher.Toml.Display

namespace GameLauncher.Toml

def IsLong (n : Int) : Prop := Nat.pow 10 maxDigits ≤ n.natAbs

theorem integerText_eq_error {n : Int} {f : Failure} :
    integerText n = .error f ↔ IsLong n ∧ f = .longInteger := by
  unfold integerText
  split
  · rename_i hlong
    rw [Except.error.injEq, and_iff_right (show IsLong n from hlong), eq_comm]
  · rename_i hshort
    exact iff_of_false nofun fun h ↦ hshort h.1

theorem bind_eq_error_or {α β γ : Type} {x : Except Failure α} {y : Except Failure β}
    {g : α → β → γ} {P Q : Prop} {f₀ : Failure} (hx : ∀ {f}, x = .error f ↔ P ∧ f = f₀)
    (hy : ∀ {f}, y = .error f ↔ Q ∧ f = f₀) {f : Failure} :
    (do return g (← x) (← y)) = .error f ↔ (P ∨ Q) ∧ f = f₀ := by
  cases x with
  | error e =>
    obtain ⟨hP, rfl⟩ := hx.1 rfl
    simp [bind, Except.bind, hP, @eq_comm _ e]
  | ok a =>
    have hP : ¬ P := fun hP ↦ nomatch hx.2 ⟨hP, rfl⟩
    cases y with
    | error e =>
      obtain ⟨hQ, rfl⟩ := hy.1 rfl
      simp [bind, Except.bind, hQ, @eq_comm _ e]
    | ok b =>
      have hQ : ¬ Q := fun hQ ↦ nomatch hy.2 ⟨hQ, rfl⟩
      simp [bind, Except.bind, pure, Except.pure, hP, hQ]

theorem safeDepth_lt {stack : Stack} {v : Value} {complaint : String}
    (h : stack.showOverflow? v = some complaint) : safeDepth < v.depth := by
  refine Nat.lt_of_not_le fun hsafe ↦ ?_
  rw [stack.showOverflow?_eq_none v hsafe] at h
  cases h

namespace Value

inductive Contains : Value → Int → Prop
  | integer (n : Int) : Contains (.integer n) n
  | item {items : List Value} {v : Value} {n : Int} :
      v ∈ items → Contains v n → Contains (.array items) n
  | member {members : Table} {key : String} {v : Value} {n : Int} :
      (key, v) ∈ members → Contains v n → Contains (.table members) n

/-- A value with an integer of too many digits in it. -/
def HoldsLong (v : Value) : Prop := ∃ n, v.Contains n ∧ IsLong n

theorem holdsLong_integer {n : Int} : (integer n).HoldsLong ↔ IsLong n := by
  constructor
  · rintro ⟨_, ⟨⟩, hn⟩
    exact hn
  · intro hn
    exact ⟨n, .integer n, hn⟩

theorem holdsLong_array {items : List Value} :
    (array items).HoldsLong ↔ ∃ v ∈ items, v.HoldsLong := by
  constructor
  · rintro ⟨n, hcontains, hn⟩
    cases hcontains with
    | item hv hcontains => exact ⟨_, hv, n, hcontains, hn⟩
  · rintro ⟨v, hv, n, hcontains, hn⟩
    exact ⟨n, .item hv hcontains, hn⟩

theorem holdsLong_table {members : Table} :
    (table members).HoldsLong ↔ ∃ e ∈ members, e.2.HoldsLong := by
  constructor
  · rintro ⟨n, hcontains, hn⟩
    cases hcontains with
    | member hv hcontains => exact ⟨_, hv, n, hcontains, hn⟩
  · rintro ⟨⟨key, v⟩, hv, n, hcontains, hn⟩
    exact ⟨n, .member hv hcontains, hn⟩

mutual

theorem nested_eq_error (v : Value) {f : Failure} :
    v.nested = .error f ↔ v.HoldsLong ∧ f = .longInteger := by
  cases v with
  | integer n => rw [nested, integerText_eq_error, holdsLong_integer]
  | array items => rw [nested, map_eq_error, nestedItems_eq_error, holdsLong_array]
  | table members => rw [nested, map_eq_error, nestedMembers_eq_error, holdsLong_table]
  | text | real | boolean | date | time | dateTime =>
    refine iff_of_false (by simp [nested]) ?_
    rintro ⟨⟨n, ⟨⟩, -⟩, -⟩

theorem nestedItems_eq_error (items : List Value) {f : Failure} :
    nestedItems items = .error f ↔ (∃ v ∈ items, v.HoldsLong) ∧ f = .longInteger := by
  cases items with
  | nil => simp [nestedItems]
  | cons v r =>
    rw [nestedItems, bind_eq_error_or (nested_eq_error v) (nestedItems_eq_error r)]
    simp

theorem nestedMembers_eq_error (members : Table) {f : Failure} :
    nestedMembers members = .error f ↔ (∃ e ∈ members, e.2.HoldsLong) ∧ f = .longInteger := by
  cases members with
  | nil => simp [nestedMembers]
  | cons e r =>
    rw [nestedMembers, bind_eq_error_or (nested_eq_error e.2) (nestedMembers_eq_error r)]
    simp

end

/-- What keeps a value from standing for a text: the machine cannot follow it to its depths, or there
is too long an integer in it. -/
inductive Unwritable (stack : Stack) (v : Value) : Failure → Prop
  | tooDeep {complaint : String} : stack.showOverflow? v = some complaint →
      Unwritable stack v (.tooDeep complaint)
  | longInteger : stack.showOverflow? v = none → v.HoldsLong → Unwritable stack v .longInteger

theorem not_unwritable {stack : Stack} {v : Value} {f : Failure} (hflat : v.depth = 0)
    (hshort : ¬ v.HoldsLong) : ¬ v.Unwritable stack f := by
  intro h
  cases h with
  | tooDeep hdeep =>
    have hsafe := safeDepth_lt hdeep
    rw [hflat] at hsafe
    exact absurd hsafe (Nat.not_lt_zero _)
  | longInteger _ hlong => exact hshort hlong

theorem shown_eq_error {stack : Stack} {v : Value} {f : Failure} :
    v.shown stack = .error f ↔ v.Unwritable stack f := by
  unfold shown
  cases hroom : stack.showOverflow? v with
  | some complaint =>
    simp only [Except.error.injEq]
    constructor
    · rintro rfl
      exact .tooDeep hroom
    · rintro (hdeep | hshort)
      · rw [hroom] at hdeep
        cases hdeep
        rfl
      · rw [hroom] at hshort
        cases hshort
  | none =>
    simp only [nested_eq_error]
    constructor
    · rintro ⟨hlong, rfl⟩
      exact .longInteger hroom hlong
    · rintro (hdeep | ⟨-, hlong⟩)
      · rw [hroom] at hdeep
        cases hdeep
      · exact ⟨hlong, rfl⟩

theorem display_eq_error {stack : Stack} {v : Value} {f : Failure} :
    v.display stack = .error f ↔ v.Unwritable stack f := by
  cases v with
  | text | date | time | dateTime =>
    refine iff_of_false (by simp [display]) (not_unwritable rfl ?_)
    rintro ⟨n, ⟨⟩, -⟩
  | integer | real | boolean | array | table => exact shown_eq_error

end Value

end GameLauncher.Toml
