import BoardEval.Text.Toml.Scan
import BoardEval.Text.Toml.Table

/-!
# Reading TOML

A document is a sequence of statements, each on a line of its own: headers and
values with keys. Statements are scanned first and then carried out one after
the other on the tables of the document. Arrays and inline tables may nest to a
fixed depth; an array may go over several lines, an inline table may not.
-/

namespace BoardEval.Text.Toml

namespace Scan

/-- Items with commas between them and maybe one after the last. -/
def array (item : Scan Tree) : Scan Tree := do
  char '['
  let items ← optional (separated (gap *> item <* gap) (char ','))
  if items.isSome then
    let _ ← optional (char ',')
  gap
  char ']'
  return .list (items.getD [])

/-- A key and its value. -/
def pair (value : Scan Tree) : Scan (List String × Tree) := do
  let path ← key
  char '='
  blanks
  return (path, ← value)

/-- Pairs with commas between them. -/
def inlineTable (value : Scan Tree) : Scan Tree := do
  char '\x7b'
  let pairs ← optional (separated (pair value <* blanks) (char ','))
  blanks
  char '\x7d'
  match (pairs.getD []).foldlM (fun entries (path, v) => Entries.insert entries path v) [] with
  | some entries => return .record (entriesTrees entries)
  | none => failure

/-- A value in which arrays and inline tables nest at most so deep. -/
def value : Nat → Scan Tree
  | 0 => scalar
  | depth + 1 => array (value depth) <|> inlineTable (value depth) <|> scalar

end Scan

/-- What one line of a document does: nothing, give a value to a key, open a table,
or open a new element of an array of tables. -/
inductive Statement where
  | nothing
  | pair (key : List String) (value : Tree)
  | header (path : List String)
  | element (path : List String)

namespace Scan

/-- The header of an element of an array of tables, in double brackets. -/
def element : Scan Statement := do
  exactly ['[', '[']
  let path ← key
  exactly [']', ']']
  lineRest
  return .element path

/-- The header of a table, in single brackets. -/
def header : Scan Statement := do
  char '['
  let path ← key
  char ']'
  lineRest
  return .header path

/-- A key with its value, whose arrays and inline tables nest less deep than the
limit. -/
def assignment : Scan Statement := do
  let (path, v) ← pair (value (depthLimit - 1))
  lineRest
  return .pair path v

/-- One statement. Double brackets are tried before single ones, which would take
the first bracket of the two. -/
def statement : Scan Statement :=
  element <|> header
    <|> (do comment; lineEnd; return .nothing)
    <|> (do newline; return .nothing)
    <|> assignment

/-- All statements of a text, which may begin with a byte order mark. -/
def statements : Scan (List Statement) := do
  let _ ← optional (char '\ufeff')
  blanks
  let found ← many (statement <* blanks)
  finish
  return found

end Scan

/-- Carry out a statement on the document and the path of the last header. -/
def Statement.carryOut : Entries × List String → Statement → Option (Entries × List String)
  | state, .nothing => some state
  | (entries, current), .pair key value => do
    return (← entries.insertAt current key value, current)
  | (entries, _), .header path => do return (← entries.openTable path, path)
  | (entries, _), .element path => do return (← entries.openElement path, path)

/-- The record that a document is. -/
def tree? (text : String) : Option Tree := do
  let (found, _) ← Scan.statements text.toList
  let (entries, _) ← found.foldlM Statement.carryOut ([], [])
  return .record (entriesTrees entries)

/-- A name alone is a text, or a record of one empty field; a list may be longer
than the record that it stands for. -/
def dialect : Dialect where
  isBare
    | .record [] => true
    | .list [] => true
    | _ => false
  ignoresSurplus := true

end BoardEval.Text.Toml
