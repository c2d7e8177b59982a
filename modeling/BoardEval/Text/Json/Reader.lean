import BoardEval.Text.Json.Token

/-!
# Reading JSON

Tokens are folded over a state: what is due next, and the lists and records that
are still open, innermost first. Each token either is refused or moves the state
on, so how deep a text is nested does not matter. Reading ends well if the last
token completes a value outside all lists and records.
-/

namespace BoardEval.Text.Json

/-- A list or a record that is still open, last item or field first. Of a record
the name of the value that is due is known. -/
inductive Frame where
  | list (items : List Tree)
  | record (fields : List (Option String × Tree)) (name : Option String)

/-- What is due. -/
inductive State where
  /-- A value; in a list that was just opened also its end. -/
  | value (fresh : Bool) (stack : List Frame)
  /-- A name; in a record that was just opened also its end. -/
  | name (fresh : Bool) (fields : List (Option String × Tree)) (stack : List Frame)
  | colon (fields : List (Option String × Tree)) (name : Option String) (stack : List Frame)
  /-- A comma or the end of a list. -/
  | afterItem (items : List Tree) (stack : List Frame)
  /-- A comma or the end of a record. -/
  | afterField (fields : List (Option String × Tree)) (stack : List Frame)
  | finished (value : Tree)

/-- A record; one of whose names has no value is unreadable. -/
def closeRecord (fields : List (Option String × Tree)) : Tree :=
  match fields.reverse.mapM fun (name, value) => name.map (·, value) with
  | some fields => .record fields
  | none => .unreadable

namespace State

/-- A value is complete. -/
def complete (item : Tree) : List Frame → State
  | [] => .finished item
  | .list items :: stack => .afterItem (item :: items) stack
  | .record fields key :: stack => .afterField ((key, item) :: fields) stack

/-- Take one token. -/
def step : State → Token → Option State
  | .value _ stack, .scalar item => some (complete item stack)
  | .value _ stack, .text (some text) => some (complete (.text text) stack)
  | .value _ stack, .text none => some (complete .unreadable stack)
  | .value _ stack, .listOpen => some (.value true (.list [] :: stack))
  | .value _ stack, .recordOpen => some (.name true [] stack)
  | .value true (.list [] :: stack), .listClose => some (complete (.list []) stack)
  | .name _ fields stack, .text key => some (.colon fields key stack)
  | .name true [] stack, .recordClose => some (complete (.record []) stack)
  | .colon fields key stack, .colon => some (.value false (.record fields key :: stack))
  | .afterItem items stack, .comma => some (.value false (.list items :: stack))
  | .afterItem items stack, .listClose => some (complete (.list items.reverse) stack)
  | .afterField fields stack, .comma => some (.name false fields stack)
  | .afterField fields stack, .recordClose => some (complete (closeRecord fields) stack)
  | _, _ => none

end State

/-- The tree of a text that is one value and nothing else. -/
def tree? (text : String) : Option Tree := do
  match ← (← tokens text).foldlM State.step (.value false []) with
  | .finished value => some value
  | _ => none

/-- A name alone is a text, or a record of one field without a value; a list has
no more items than the record it stands for has fields. -/
def dialect : Dialect where
  isBare
    | .absent => true
    | _ => false
  ignoresSurplus := false

end BoardEval.Text.Json
