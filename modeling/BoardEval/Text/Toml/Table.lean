import BoardEval.Text.Tree

/-!
# Building TOML tables

Statements add to one table of the document after the other. What a statement
may touch depends on how a table came about: by a header of its own, on the way
of a header to another table, or by the dots of a key. A header may open a table
that lay on the way of an earlier header, and nothing else that exists. A key
with dots goes through tables that have no header of their own and ends in a
table that dots have made; a key without dots is new to its table.

Values, inline tables among them, are sealed: nothing goes through them.
-/

namespace BoardEval.Text.Toml

/-- How a table came about. -/
inductive Origin where
  | header
  /-- On the way of a header to another table. -/
  | passage
  | dots
  deriving DecidableEq

/-- What stands under a key while the document is still being read. -/
inductive Node where
  | sealed (value : Tree)
  | table (origin : Origin) (entries : List (String × Node))
  /-- An array of tables, last one first; headers go through the last one. -/
  | tables (elements : List (List (String × Node)))

/-- The entries of a table in the order in which they came. -/
abbrev Entries := List (String × Node)

namespace Entries

/-- Replace the entry of a key. -/
def replace (entries : Entries) (key : String) (node : Node) : Entries :=
  entries.map fun (k, old) => if k = key then (k, node) else (k, old)

/-- Change the table at the end of a path, making the tables on the way that are
missing. The change is told how its table came about. -/
def alter (byDots : Bool) (change : Origin → Entries → Option Entries) :
    List String → Origin → Entries → Option Entries
  | [], origin, entries => change origin entries
  | key :: path, _, entries =>
    match entries.lookup key with
    | none => do
      let origin := if byDots then Origin.dots else .passage
      let made ← alter byDots change path origin []
      return entries ++ [(key, .table origin made)]
    | some (.table origin inner) =>
      if byDots ∧ origin = .header then none
      else do return entries.replace key (.table origin (← alter byDots change path origin inner))
    | some (.tables (last :: before)) => do
      return entries.replace key (.tables ((← alter byDots change path .header last) :: before))
    | some (.tables []) => none
    | some (.sealed _) => none

/-- Add a value under a key that may have dots. -/
def insert (entries : Entries) (key : List String) (value : Tree) : Option Entries := do
  let last ← key.getLast?
  alter true (fun origin inner =>
    if (origin = .dots) = (key.dropLast = []) then none
    else if (inner.lookup last).isSome then none
    else some (inner ++ [(last, .sealed value)])) key.dropLast .header entries

/-- Open the table of a header. -/
def openTable (entries : Entries) (path : List String) : Option Entries := do
  let last ← path.getLast?
  alter false (fun _ inner =>
    match inner.lookup last with
    | none => some (inner ++ [(last, .table .header [])])
    | some (.table .passage kept) => some (Entries.replace inner last (.table .header kept))
    | _ => none) path.dropLast .header entries

/-- Open a new element of an array of tables. -/
def openElement (entries : Entries) (path : List String) : Option Entries := do
  let last ← path.getLast?
  alter false (fun _ inner =>
    match inner.lookup last with
    | none => some (inner ++ [(last, .tables [[]])])
    | some (.tables elements) => some (Entries.replace inner last (.tables ([] :: elements)))
    | _ => none) path.dropLast .header entries

/-- Add a value to the table that the last header has opened. -/
def insertAt (entries : Entries) (current : List String) (key : List String) (value : Tree) :
    Option Entries :=
  alter false (fun _ inner => Entries.insert inner key value) current .header entries

end Entries

mutual

/-- The value of an entry. -/
def Node.tree : Node → Tree
  | .sealed value => value
  | .table _ entries => .record (entriesTrees entries)
  | .tables elements => .list (elementsTrees elements).reverse

/-- The values of the entries of a table, under their keys. -/
def entriesTrees : List (String × Node) → List (String × Tree)
  | [] => []
  | (key, node) :: rest => (key, node.tree) :: entriesTrees rest

/-- The elements of an array of tables, last one first, as it keeps them. -/
def elementsTrees : List (List (String × Node)) → List Tree
  | [] => []
  | element :: rest => .record (entriesTrees element) :: elementsTrees rest

end

end BoardEval.Text.Toml
