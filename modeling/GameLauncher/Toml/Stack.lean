import GameLauncher.Toml.Value

namespace GameLauncher.Toml

namespace Value

mutual

def depth : Value → Nat
  | array items => itemsDepth items + 1
  | table members => membersDepth members + 1
  | _ => 0

def itemsDepth : List Value → Nat
  | [] => 0
  | v :: r => max v.depth (itemsDepth r)

def membersDepth : List (String × Value) → Nat
  | [] => 0
  | (_, v) :: r => max v.depth (membersDepth r)

end

end Value

inductive Bracket
  | square
  | curly
  deriving DecidableEq

/-- A depth that no machine is in want of room for. -/
def safeDepth : Nat := 100

/-- How far a machine can follow values into one another. Where its room does not suffice for what
begins inside some open brackets, or for a value that is to be shown, it says so and gives up. -/
structure Stack where
  readOverflow? : List Bracket → List Char → Option String
  showOverflow? : Value → Option String
  readOverflow?_eq_none : ∀ within rest, within.length ≤ safeDepth → readOverflow? within rest = none
  showOverflow?_eq_none : ∀ v, v.depth ≤ safeDepth → showOverflow? v = none

namespace Bracket

def calls : Bracket → Nat
  | square => 2
  | curly => 3

def allCalls : List Bracket → Nat
  | [] => 0
  | b :: bs => b.calls + allCalls bs

theorem allCalls_le (bs : List Bracket) : allCalls bs ≤ 3 * bs.length := by
  induction bs with
  | nil => exact Nat.zero_le _
  | cons b bs ih =>
    have hb : b.calls ≤ 3 := by cases b <;> decide
    rw [allCalls, List.length_cons]
    omega

end Bracket

namespace Stack

def maxCalls : Nat := 960

def maxShown : Nat := 980

/-- Room for a thousand calls, some of which are under way before a document is read. -/
def standard : Stack where
  readOverflow? within _ :=
    if maxCalls < Bracket.allCalls within then some "maximum recursion depth exceeded"
    else none
  showOverflow? v :=
    if maxShown < v.depth then
      some "maximum recursion depth exceeded while getting the repr of an object"
    else none
  readOverflow?_eq_none within _ h := by
    have hcalls := Bracket.allCalls_le within
    rw [if_neg]
    unfold safeDepth at h
    unfold maxCalls
    omega
  showOverflow?_eq_none v h := by
    rw [if_neg]
    unfold safeDepth at h
    unfold maxShown
    omega

end Stack

end GameLauncher.Toml
