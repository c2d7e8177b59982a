import BoardEval.Tensor.Copy
import BoardEval.Text.Json.Reader
import BoardEval.Text.Json.Writer

/-!
# Exchanged values

Settings, descriptors, evaluations, positions and reports are exchanged as
texts. Each has one reading from a tree, whatever the notation it was written
in, and one writing as JSON. A record is read by the names of its fields or from
a list in their order, and written with all its fields in that order.
-/

namespace BoardEval

open Text (Dialect Tree)
open Text.Json (Block)

/-- Values that are exchanged as texts: one reading, of a tree in either
notation, and one writing. Several trees may read as the same value; one of them
is written. -/
class Exchange (α : Type) where
  read : Dialect → Tree → Option α
  write : α → Block

namespace Exchange

variable {α : Type} [Exchange α]

/-- The value that a JSON text stands for. -/
def ofJson? (text : String) : Option α := do
  read Text.Json.dialect (← Text.Json.tree? text)

/-- JSON without spaces. -/
def toJson (x : α) : String := (write x).compact

/-- JSON with one item or field a line. -/
def toSpreadJson (x : α) : String := (write x).spread 0

/-- The value with a name, as a list of all named values has it. -/
def named? {β : Type} (names : List (String × β)) (d : Dialect) (t : Tree) : Option β := do
  names.lookup (← t.name? d)

/-- The numbers of a list, none of which may be missing. -/
def tensor? (t : Tree) : Option Tensor := do
  return (← t.list? Tree.single?).toArray

/-- A tensor is written as the list of its numbers. -/
def tensorBlock (t : Tensor) : Block := .list (t.toList.map Block.single)

end Exchange

end BoardEval
