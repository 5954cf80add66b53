import SchemaStubs.Settings.Toml.Grammar

/-!
The tables of a file as a tree. A key is followed from table to table, and through an array of
tables to the last of them.
-/

namespace SchemaStubs.Settings.Toml

inductive Node where
  | value (value : Value)
  | table (members : List (String × Node))
  /-- An array of tables. -/
  | tables (items : List (List (String × Node)))
  deriving Repr, Inhabited

abbrev Members := List (String × Node)

def put (members : Members) (name : String) (node : Node) : Members :=
  if members.any fun member => member.1 == name then
    members.map fun member => if member.1 == name then (name, node) else member
  else members ++ [(name, node)]

def follow : Key → Members → Option Members
  | [], members => some members
  | name :: rest, members =>
      match members.lookup name with
      | some (.table inner) => follow rest inner
      | some (.tables items) => items.getLast?.bind (follow rest)
      | _ => none

/-- Updates the table that a key leads to. Tables that are missing on the way are made. -/
def update (change : Members → Option Members) : Key → Members → Option Members
  | [], members => change members
  | name :: rest, members =>
      match members.lookup name with
      | none => (update change rest []).map fun inner => members ++ [(name, .table inner)]
      | some (.table inner) => do
          let next ← update change rest inner
          some (put members name (.table next))
      | some (.tables items) => do
          let last ← items.getLast?
          let next ← update change rest last
          some (put members name (.tables (items.dropLast ++ [next])))
      | some (.value _) => none

def putAt (members : Members) (key : Key) (node : Node) : Option Members := do
  let name ← key.getLast?
  update (fun inner => some (put inner name node)) key.dropLast members

/-- Adds an empty table to the array of tables at a key, which may be missing. -/
def addItem (members : Members) (key : Key) : Option Members := do
  let name ← key.getLast?
  update (fun inner =>
    match inner.lookup name with
    | none => some (put inner name (.tables [[]]))
    | some (.tables items) => some (put inner name (.tables (items ++ [[]])))
    | some _ => none) key.dropLast members

mutual

/-- The node for a value; `none` for a table with a key that leads through something else. -/
def Node.ofValue? : Value → Option Node
  | .table members => (membersOf? [] members).map Node.table
  | value => some (.value value)

/-- The members with those of a table between braces added in order. -/
def membersOf? (done : Members) : List (Key × Value) → Option Members
  | [] => some done
  | (key, value) :: rest => do
      let node ← Node.ofValue? value
      let next ← putAt done key node
      membersOf? next rest

end

mutual

/-- The node without tables that hold no values; `none` if nothing is left. -/
def Node.pruned? : Node → Option Node
  | .table members =>
      match pruned members with
      | [] => none
      | left => some (.table left)
  | node => some node

def pruned : Members → Members
  | [] => []
  | (name, node) :: rest =>
      match node.pruned? with
      | none => pruned rest
      | some left => (name, left) :: pruned rest

end

end SchemaStubs.Settings.Toml
