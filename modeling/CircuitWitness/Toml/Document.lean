/-
  TOML documents as trees, and the rules of what may be entered where.

  Only truth values are kept; every other value is known to be there and to be something else.

  A table can come about in three ways, and they do not mix.  A header makes it *explicit*; a
  header further down makes the tables above it *implicit*, and those may still get a header of
  their own; a dotted key makes the tables above it *dotted*, and those take further dotted keys
  and no header.  An array of tables takes entries through its last table.
-/

namespace CircuitWitness.Toml

/-- A value, as far as it matters. -/
inductive Value where
  | truth (b : Bool)
  | other
deriving DecidableEq, Inhabited

/-- What a key leads to. -/
inductive Node where
  | value (v : Value)
  | table (isImplicit isDotted : Bool) (entries : List (String × Node))
  | tables (items : List Node)
deriving Inhabited

/-- The value of a key in a list of entries. -/
def find? (key : String) : List (String × Node) → Option Node
  | [] => none
  | (k, n) :: rest => if k = key then some n else find? key rest

/-- Put a node in the place of a key, at the end if the key is new. -/
def put (key : String) (node : Node) : List (String × Node) → List (String × Node)
  | [] => [(key, node)]
  | (k, n) :: rest => if k = key then (key, node) :: rest else (k, n) :: put key node rest

/-- Take a key out of a list of entries. -/
def remove (key : String) (entries : List (String × Node)) : List (String × Node) :=
  entries.filter fun e => e.1 != key

namespace Node

/-- A table that nothing was entered in. -/
def emptyTable : Node := .table false false []

/-- The entries of a table; none for anything else. -/
def entries : Node → List (String × Node)
  | .table _ _ entries => entries
  | _ => []

/-- Change the table that a path leads to.  Tables on the way that do not exist yet are made,
    dotted or merely implicit; an array of tables is entered through its last table. -/
def within (isDotted : Bool) (change : Node → Option Node) : List String → Node → Option Node
  | [], node => change node
  | key :: path, .table i d entries =>
    let child := (find? key entries).getD (.table true isDotted [])
    match child with
    | .value _ => none
    | .table isImplicit _ _ =>
      if isDotted && !isImplicit then none
      else (within isDotted change path child).map fun c => .table i d (put key c entries)
    | .tables items =>
      match items.getLast? with
      | none => none
      | some last =>
        (within isDotted change path last).map fun c =>
          .table i d (put key (.tables (items.dropLast ++ [c])) entries)
  | _ :: _, _ => none

/-- Enter a value under a key in the table that the parts before the key lead to.  That table has
    to be dotted exactly if there are such parts, and the key has to be new. -/
def enter (node : Node) (path : List String) (key : String) (v : Value) : Option Node :=
  within true (fun
    | .table i d entries =>
      if d == path.isEmpty || (find? key entries).isSome then none
      else some (.table i d (put key (.value v) entries))
    | _ => none) path node

/-- Enter a finished table under a header. -/
def enterTable (node : Node) (path : List String) (key : String) (t : Node) : Option Node :=
  within false (fun
    | .table i d entries => some (.table i d (put key t entries))
    | _ => none) path node

/-- Append a finished table to an array of tables. -/
def appendTable (node : Node) (path : List String) (key : String) (t : Node) : Option Node :=
  within false (fun
    | .table i d entries =>
      match find? key entries with
      | none => some (.table i d (put key (.tables [t]) entries))
      | some (.tables items) => some (.table i d (put key (.tables (items ++ [t])) entries))
      | some _ => none
    | _ => none) path node

end Node

/-! ## A document while it is read -/

/-- What is known of a document up to some line: the tables finished so far, and the table that
    lines are entered in. -/
structure Draft where
  root : Node
  current : Node
  /-- Whether the current table is the next one of an array of tables. -/
  inArray : Bool
  /-- The header of the current table; none before the first header. -/
  header : Option (List String × String)

namespace Draft

/-- A document before its first line. -/
def empty : Draft := ⟨.emptyTable, .emptyTable, false, none⟩

/-- Finish the current table. -/
def finish (d : Draft) : Option Node :=
  match d.header with
  | none => some d.current
  | some (path, key) =>
    if d.inArray then d.root.appendTable path key d.current
    else d.root.enterTable path key d.current

/-- Enter a line into the current table. -/
def enter (d : Draft) (path : List String) (key : String) (v : Value) : Option Draft :=
  (d.current.enter path key v).map fun current => { d with current := current }

/-- Begin the table of a header.  It may exist only as an implicit table, and then it goes on with
    the entries that it has. -/
def beginTable (d : Draft) (path : List String) (key : String) : Option Draft := do
  let root ← d.finish
  let parent ← root.within false some path
  let existing ← lookup path key parent
  match existing with
  | none => return ⟨parent, .emptyTable, false, some (path, key)⟩
  | some (.table true false entries) =>
    let root ← parent.within false (fun
      | .table i d es => some (.table i d (remove key es))
      | _ => none) path
    return ⟨root, .table false false entries, false, some (path, key)⟩
  | some _ => none
where
  /-- What a path and a key lead to, in a tree where the path exists. -/
  lookup (path : List String) (key : String) (node : Node) : Option (Option Node) :=
    match path with
    | [] => some (find? key node.entries)
    | part :: path =>
      match find? part node.entries with
      | some (.tables items) => items.getLast?.bind (lookup path key)
      | some child => lookup path key child
      | none => none

/-- Begin the next table of an array of tables. -/
def beginArrayTable (d : Draft) (path : List String) (key : String) : Option Draft := do
  let root ← d.finish
  let parent ← root.within false some path
  let existing ← beginTable.lookup path key parent
  match existing with
  | none | some (.tables _) => return ⟨parent, .emptyTable, true, some (path, key)⟩
  | some _ => none

end Draft
end CircuitWitness.Toml
