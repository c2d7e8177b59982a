import BoardEval.Number.Binary

/-!
# Trees of values

What a text says, apart from how it is written: scalars, lists, and records of
named fields. Fields are kept in the order of the text, repeated ones included;
whoever reads a record decides which names matter, and only those may not be
repeated.

A value can be well written and still stand for nothing, such as a number beyond
all bounds. It is kept as unreadable, so that it does no harm where nobody asks
for it.

Notations differ in two points, which a dialect fixes: what may follow a name
that is written as a record of one field, and whether a list that stands for a
record may be longer than it.
-/

namespace BoardEval.Text

/-- The values of both notations, with a case of its own for what is well written
and stands for nothing. -/
inductive Tree where
  | absent
  | flag (value : Bool)
  | integer (value : Int)
  | real (value : Number.Double)
  | text (value : String)
  /-- A date, a time, or both. -/
  | moment
  | list (items : List Tree)
  | record (fields : List (String × Tree))
  | unreadable

/-- What two notations disagree about. -/
structure Dialect where
  /-- What may follow a bare name. -/
  isBare : Tree → Bool
  /-- Items of a list beyond the fields of a record are ignored. -/
  ignoresSurplus : Bool

/-- The fields that a reader knows, by name. -/
abbrev Fields := String → Option Tree

namespace Tree

/-- A truth value. -/
def flag? : Tree → Option Bool
  | .flag value => some value
  | _ => none

/-- An integer, of whatever size; a number with a point is none. -/
def integer? : Tree → Option Int
  | .integer value => some value
  | _ => none

/-- A text. -/
def text? : Tree → Option String
  | .text value => some value
  | _ => none

/-- A natural number below `limit`. -/
def natural? (limit : Nat) (t : Tree) : Option Nat := do
  let value ← t.integer?
  if 0 ≤ value ∧ value < limit then some value.toNat else none

/-- A size or an index. -/
def word? : Tree → Option Nat := natural? 0x10000000000000000

/-- A signed number of 32 bits. -/
def signed? (t : Tree) : Option Int := do
  let value ← t.integer?
  if -0x80000000 ≤ value ∧ value < 0x80000000 then some value else none

/-- A single-precision number; whole ones are rounded directly. -/
def single? : Tree → Option Number.Single
  | .integer value => some (.ofInt value)
  | .real value => some value.toSingle
  | _ => none

/-- A list all of whose items can be read. -/
def list? {α : Type} (item : Tree → Option α) : Tree → Option (List α)
  | .list items => items.mapM item
  | _ => none

/-- Nothing where the value is absent. -/
def optional? {α : Type} (value : Tree → Option α) : Tree → Option (Option α)
  | .absent => some none
  | t => (value t).map some

/-- A name, alone or as the only field of a record. -/
def name? (d : Dialect) : Tree → Option String
  | .text name => some name
  | .record [(name, value)] => if d.isBare value then some name else none
  | _ => none

/-- The values of the fields with this name. -/
def valuesOf (fields : List (String × Tree)) (name : String) : List Tree :=
  fields.filterMap fun (n, value) => if n = name then some value else none

/-- The fields of a record, none of the known ones repeated, or of a list that
gives them in order. A moment counts as a record of fields that nobody knows. -/
def fields? (d : Dialect) (names : List String) : Tree → Option Fields
  | .record fields =>
    if names.all fun name => (valuesOf fields name).length ≤ 1 then
      some fun name => (valuesOf fields name).head?
    else none
  | .list items =>
    if d.ignoresSurplus || items.length ≤ names.length then
      some fun name => (names.zip items).lookup name
    else none
  | .moment => some fun _ => none
  | _ => none

end Tree

namespace Fields

variable {α : Type}

/-- A field that has to be there. -/
def get? (f : Fields) (name : String) (read : Tree → Option α) : Option α := do
  read (← f name)

/-- A field with a default. -/
def getD? (f : Fields) (name : String) (default : α) (read : Tree → Option α) : Option α :=
  match f name with
  | some t => read t
  | none => some default

end Fields

end BoardEval.Text
