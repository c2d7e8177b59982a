import BoardEval.Number.Shortest

/-!
# Writing JSON

Numbers and texts are written first; how the lists and records around them are
laid out is decided afterwards, either without any space or with one item or
field a line. An empty list or record stays on its line.
-/

namespace BoardEval.Text.Json

open Number (DecimalStyle Single)

/-- A value whose scalars are written and whose lists and records are not laid
out yet. -/
inductive Block where
  | leaf (text : String)
  | list (items : List Block)
  | record (fields : List (String × Block))

/-! ## Scalars -/

/-- Numbers from a millionth to below ten trillions are written positionally. -/
def numberStyle : DecimalStyle := ⟨-6, 12⟩

/-- A number by its shortest digits; what is not finite has no number. -/
def singleText (x : Single) : String :=
  if !x.isFinite then "null"
  else
    let magnitude := x.shortest.text numberStyle
    if 0x80000000 ≤ x.bits then "-" ++ magnitude else magnitude

/-- A character of a text. Quotes, backslashes and control characters are
escaped, by a letter where there is one. -/
def escaped (c : Char) : List Char :=
  match c with
  | '"' => ['\\', '"']
  | '\\' => ['\\', '\\']
  | '\x08' => ['\\', 'b']
  | '\x0c' => ['\\', 'f']
  | '\n' => ['\\', 'n']
  | '\r' => ['\\', 'r']
  | '\t' => ['\\', 't']
  | c =>
    if c < ' ' then
      ['\\', 'u', '0', '0', Nat.digitChar (c.toNat / 16), Nat.digitChar (c.toNat % 16)]
    else [c]

/-- A text between quotes, escaped where it has to be. -/
def quoted (text : String) : String :=
  String.ofList ('"' :: (text.toList.flatMap escaped ++ ['"']))

namespace Block

/-- A number without a sign. -/
def natural (n : Nat) : Block := .leaf (toString n)

/-- A number that may have a minus sign. -/
def integer (n : Int) : Block := .leaf (toString n)

/-- A truth value by its name. -/
def flag (b : Bool) : Block := .leaf (if b then "true" else "false")

/-- A text, quoted. -/
def text (s : String) : Block := .leaf (quoted s)

/-- The shortest decimal that reads back as the same number; what is no finite
number is written as absent. -/
def single (x : Single) : Block := .leaf (singleText x)

/-- No value. -/
def absent : Block := .leaf "null"

/-! ## Layout -/

/-- Put a separator between texts. -/
def joined (separator : String) (texts : List String) : String := separator.intercalate texts

mutual

/-- Without spaces. -/
def compact : Block → String
  | .leaf text => text
  | .list items => "[" ++ joined "," (compactItems items) ++ "]"
  | .record fields => "\x7b" ++ joined "," (compactFields fields) ++ "\x7d"

/-- The texts of the items of a list. -/
def compactItems : List Block → List String
  | [] => []
  | item :: rest => compact item :: compactItems rest

/-- The texts of the fields of a record, each after its name. -/
def compactFields : List (String × Block) → List String
  | [] => []
  | (name, value) :: rest => (quoted name ++ ":" ++ compact value) :: compactFields rest

end

/-- The start of a line, two spaces a level. -/
def lineStart (level : Nat) : String := String.ofList ('\n' :: List.replicate (2 * level) ' ')

/-- Items or fields on lines of their own between two brackets. -/
def onLines (level : Nat) (before after : String) (lines : List String) : String :=
  if lines.isEmpty then before ++ after
  else before ++ lineStart (level + 1) ++ joined ("," ++ lineStart (level + 1)) lines
    ++ lineStart level ++ after

mutual

/-- With one item or field a line, inside `level` open lists and records. -/
def spread (level : Nat) : Block → String
  | .leaf text => text
  | .list items => onLines level "[" "]" (spreadItems (level + 1) items)
  | .record fields => onLines level "\x7b" "\x7d" (spreadFields (level + 1) fields)

/-- The texts of the items of a list, which may go over several lines. -/
def spreadItems (level : Nat) : List Block → List String
  | [] => []
  | item :: rest => spread level item :: spreadItems level rest

/-- The texts of the fields of a record, each after its name and a space. -/
def spreadFields (level : Nat) : List (String × Block) → List String
  | [] => []
  | (name, value) :: rest =>
    (quoted name ++ ": " ++ spread level value) :: spreadFields level rest

end

end Block

end BoardEval.Text.Json
