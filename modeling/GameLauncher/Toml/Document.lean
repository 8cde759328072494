import GameLauncher.Toml.Key

namespace GameLauncher.Toml

namespace Table

/-- Works on the table behind a key, making what is missing on the way. An array on the way is
entered at its last table, where that is allowed; any other value bars the way. -/
def atKey (intoArrays : Bool) (f : Table → Option Table) : Key → Table → Option Table
  | [], t => f t
  | k :: ks, t => match t.get? k with
    | none => (atKey intoArrays f ks []).map fun inner ↦ t.put k (.table inner)
    | some (.table members) => (atKey intoArrays f ks members).map fun inner ↦ t.put k (.table inner)
    | some (.array items) => match intoArrays, items.getLast? with
      | true, some (.table members) => (atKey intoArrays f ks members).map fun inner ↦
        t.put k (.array (items.dropLast ++ [.table inner]))
      | _, _ => none
    | some _ => none

def add (intoArrays : Bool) (key : Key) (v : Value) (t : Table) : Option Table :=
  key.getLast?.bind fun stem ↦
    t.atKey intoArrays (fun inner ↦ if (inner.get? stem).isSome then none else some (inner.put stem v))
      key.dropLast

def appendTable (key : Key) (t : Table) : Option Table :=
  key.getLast?.bind fun stem ↦
    t.atKey true (fun inner ↦ match inner.get? stem with
      | none => some (inner.put stem (.array [.table []]))
      | some (.array items) => some (inner.put stem (.array (items ++ [.table []])))
      | some _ => none) key.dropLast

end Table

/-- What may no longer happen to a key: a value written inline is closed with all below it, and a
table that was declared cannot be declared again. -/
inductive Mark
  | closed (key : Key)
  | declared (key : Key)
  deriving DecidableEq

def Mark.key : Mark → Key
  | closed key => key
  | declared key => key

/-- A document while it is read, with the table that the statements now belong to. Tables that dotted
keys opened count as declared once the next header is reached. -/
structure Draft where
  table : Table := []
  marks : List Mark := []
  pending : List Key := []
  header : Key := []

namespace Draft

def isClosed (d : Draft) (key : Key) : Bool :=
  d.marks.any fun
    | .closed k => k.isPrefixOf key
    | .declared _ => false

def isDeclared (d : Draft) (key : Key) : Bool := d.marks.contains (.declared key)

def settle (d : Draft) : Draft :=
  { d with marks := d.marks ++ d.pending.map .declared, pending := [] }

def open? (d : Draft) (key : Key) : Option Draft :=
  if d.isDeclared key || d.isClosed key then none
  else (d.table.atKey true some key).map fun t ↦
    { d with table := t, marks := d.marks ++ [.declared key], header := key }

def append? (d : Draft) (key : Key) : Option Draft :=
  if d.isClosed key then none
  else (d.table.appendTable key).map fun t ↦
    let marks := d.marks.filter fun m ↦ !key.isPrefixOf m.key
    { d with table := t, marks := marks ++ [.declared key], header := key }

def isContainer : Value → Bool
  | .array _ | .table _ => true
  | _ => false

/-- A value at a key below the header. The tables that a dotted key passes through must not be
declared ones, and cannot be declared later. -/
def assign? (d : Draft) (key : Key) (v : Value) : Option Draft :=
  let path := d.header ++ key
  let passed := (List.range (key.length - 1)).map fun i ↦ d.header ++ key.take (i + 1)
  if passed.any d.isDeclared || d.isClosed path.dropLast then none
  else (d.table.add true path v).map fun t ↦
    { d with
      table := t
      marks := if isContainer v then d.marks ++ [.closed path] else d.marks
      pending := d.pending ++ passed }

end Draft

end GameLauncher.Toml
