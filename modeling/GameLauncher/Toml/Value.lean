import GameLauncher.Decimal.Binary64

namespace GameLauncher.Toml

structure Date where
  year : Nat
  month : Nat
  day : Nat
  deriving DecidableEq

structure Time where
  hour : Nat
  minute : Nat
  second : Nat
  microsecond : Nat
  deriving DecidableEq

/-- A value of a document. The offset of a date with a time counts minutes east of Greenwich;
tables keep their keys in the order in which they were written. -/
inductive Value
  | text (s : String)
  | integer (n : Int)
  | real (x : Binary64)
  | boolean (b : Bool)
  | date (d : Date)
  | time (t : Time)
  | dateTime (d : Date) (t : Time) (offset : Option Int)
  | array (items : List Value)
  | table (members : List (String × Value))

abbrev Table := List (String × Value)

namespace Value

def isTrue : Value → Bool
  | text s => s ≠ ""
  | integer n => n ≠ 0
  | real x => !x.isZero
  | boolean b => b
  | date _ | time _ | dateTime .. => true
  | array items => !items.isEmpty
  | table members => !members.isEmpty

end Value

namespace Table

def get? (t : Table) (key : String) : Option Value := t.lookup key

def put (t : Table) (key : String) (v : Value) : Table :=
  match t with
  | [] => [(key, v)]
  | e :: r => if e.1 = key then (key, v) :: r else e :: put r key v

end Table

end GameLauncher.Toml
