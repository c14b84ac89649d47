import Worksheet.Json.Basic

namespace Worksheet.Toml

/-- What a table came from. -/
inductive Origin where
  /-- A header of its own. -/
  | header
  /-- The header of a table within it. -/
  | implied
  /-- A dotted key. -/
  | dotted
  deriving DecidableEq

inductive Node where
  | value (j : Json)
  | table (origin : Origin) (entries : List (String × Node))
  /-- An array of tables: the values of the finished ones, and the entries of the last. -/
  | tables (finished : List Json) (entries : List (String × Node))

/-- A table as headers and keys build it up. Nothing in it is defined twice. -/
abbrev Table := List (String × Node)

namespace Node

/-- The entries of a table, or those of the last one in an array. -/
def entries : Node → List (String × Node)
  | .value _ => []
  | .table _ entries => entries
  | .tables _ entries => entries

def withEntries (entries : List (String × Node)) : Node → Node
  | .value j => .value j
  | .table origin _ => .table origin entries
  | .tables finished _ => .tables finished entries

end Node

mutual

def Node.toJson : Node → Json
  | .value j => j
  | .table _ entries => .object (membersOf entries)
  | .tables finished entries => .array (finished ++ [.object (membersOf entries)])

def membersOf : List (String × Node) → List (String × Json)
  | [] => []
  | (key, node) :: rest => (key, node.toJson) :: membersOf rest

end

namespace Table

/-- The value of a table. -/
def toJson (t : Table) : Json :=
  .object (membersOf t)

/-- Sets the entry of a key. -/
def put (key : String) (node : Node) : Table → Table
  | [] => [(key, node)]
  | (k, old) :: rest => if k == key then (key, node) :: rest else (k, old) :: put key node rest

/-- Whether a dotted key may lead through a node, which may be the last one on its way. The last
table has to come from a dotted key, and no table on the way may have a header of its own, unless it
is the last item of an array. -/
def admits (isLast : Bool) : Node → Bool
  | .table .dotted _ => true
  | .table .implied _ => !isLast
  | .tables .. => !isLast
  | _ => false

/-- Adds the value of a dotted key. -/
def assign? (path : List String) (key : String) (value : Json) (t : Table) : Option Table :=
  match path with
  | [] => if (t.lookup key).isSome then none else some (t.put key (.value value))
  | k :: ks =>
    match t.lookup k with
    | none => (assign? ks key value []).map fun sub => t.put k (.table .dotted sub)
    | some node =>
      if admits ks.isEmpty node then
        (assign? ks key value node.entries).map fun sub => t.put k (node.withEntries sub)
      else none

/-- Changes the table that a header refers to. Tables on the way are added where there are none, and
of an array of tables the last one is meant. -/
def within? (path : List String) (change : Table → Option Table) (t : Table) : Option Table :=
  match path with
  | [] => change t
  | k :: ks =>
    match t.lookup k with
    | none => (within? ks change []).map fun sub => t.put k (.table .implied sub)
    | some (.value _) => none
    | some node => (within? ks change node.entries).map fun sub => t.put k (node.withEntries sub)

/-- Adds the table of a header. -/
def openTable? (key : String) (t : Table) : Option Table :=
  match t.lookup key with
  | none => some (t.put key (.table .header []))
  | some (.table .implied sub) => some (t.put key (.table .header sub))
  | some _ => none

/-- Adds a table to the array of a header. -/
def openItem? (key : String) (t : Table) : Option Table :=
  match t.lookup key with
  | none => some (t.put key (.tables [] []))
  | some (.tables finished sub) => some (t.put key (.tables (finished ++ [toJson sub]) []))
  | some _ => none

end Table

end Worksheet.Toml
