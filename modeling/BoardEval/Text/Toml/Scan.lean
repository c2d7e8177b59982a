import BoardEval.Text.Json.Token

/-!
# Scanning TOML

A scanner takes a part off the front of the characters that are left, or
refuses. A refused scanner takes nothing, so alternatives are tried from the same
place. Below are the parts without nesting: blanks, comments and ends of lines,
the four kinds of text, keys, numbers and moments.
-/

namespace BoardEval.Text.Toml

open Number (Decimal Double)

/-- A scanner: from the characters that are left to a value and the characters after
it, or nothing. -/
abbrev Scan := StateT (List Char) Option

namespace Scan

variable {α β : Type}

/-- One character of a class. -/
def one (p : Char → Bool) : Scan Char
  | c :: rest => if p c then some (c, rest) else none
  | [] => none

/-- Exactly this character. -/
def char (c : Char) : Scan Unit := do
  let _ ← one (· == c)

/-- Exactly these characters. -/
def exactly (cs : List Char) : Scan Unit := cs.forM char

/-- All characters of a class, as far as they go. -/
def run (p : Char → Bool) : Scan (List Char) := fun cs => some (cs.span p)

/-- Maybe a part. -/
def optional (part : Scan α) : Scan (Option α) := (some <$> part) <|> pure none

/-- Parts, as many as there are, up to the fuel. -/
def manyFrom (part : Scan α) : Nat → List α → Scan (List α)
  | 0, found => pure found.reverse
  | fuel + 1, found => fun cs =>
    match part cs with
    | some (x, rest) => manyFrom part fuel (x :: found) rest
    | none => some (found.reverse, cs)

/-- Parts, as many as there are, each of at least one character. -/
def many (part : Scan α) : Scan (List α) := fun cs => manyFrom part cs.length [] cs

/-- One part or more with separators between them. -/
def separated (part : Scan α) (separator : Scan β) : Scan (List α) := do
  let first ← part
  let rest ← many (separator *> part)
  return first :: rest

/-- The end of the text. -/
def finish : Scan Unit
  | [] => some ((), [])
  | _ => none

/-! ## Blanks and lines -/

/-- The characters that separate within a line. -/
def isBlank (c : Char) : Bool := c = ' ' || c = '\t'

/-- All blanks, maybe none. -/
def blanks : Scan Unit := do
  let _ ← run isBlank

/-- A tab or any character that is not a control character. -/
def isPlain (c : Char) : Bool := c = '\t' || (' ' ≤ c && c != '\x7f')

/-- The end of a line, in either convention. -/
def newline : Scan Unit := char '\n' <|> exactly ['\r', '\n']

/-- A number sign and all plain characters after it. -/
def comment : Scan Unit := do
  char '#'
  let _ ← run isPlain

/-- The end of a line or of the text. -/
def lineEnd : Scan Unit := newline <|> finish

/-- What may follow a statement. -/
def lineRest : Scan Unit := do
  blanks
  let _ ← optional comment
  lineEnd

/-- What may stand between the items of an array. -/
def gap : Scan Unit := do
  let _ ← many ((do let _ ← one isBlank) <|> newline <|> comment)

/-! ## Texts -/

/-- The character with a code of so many hexadecimal digits. -/
def codePoint (digits : Nat) : Scan Char := do
  let cs ← (List.replicate digits ()).mapM fun () => one fun c => (Json.hexDigit? c).isSome
  match Json.hex? cs with
  | some n => if n.isValidChar then pure (Char.ofNat n) else failure
  | none => failure

/-- The character that a backslash and what follows it stand for. -/
def escaped : Scan Char := do
  char '\\'
  match ← one fun _ => true with
  | 'b' => pure '\x08'
  | 't' => pure '\t'
  | 'n' => pure '\n'
  | 'f' => pure '\x0c'
  | 'r' => pure '\r'
  | '"' => pure '"'
  | '\\' => pure '\\'
  | 'u' => codePoint 4
  | 'U' => codePoint 8
  | _ => failure

/-- A plain character that is none of these. -/
def plainExcept (excluded : List Char) : Scan Char := one fun c => isPlain c && !excluded.contains c

/-- A text in double quotes. -/
def basicText : Scan (List Char) := do
  char '"'
  let cs ← many (plainExcept ['"', '\\'] <|> escaped)
  char '"'
  return cs

/-- A text in single quotes. -/
def literalText : Scan (List Char) := do
  char '\''
  let cs ← many (plainExcept ['\''])
  char '\''
  return cs

/-- A line break within a text, in either convention; the text gets one character
for it. -/
def lineBreak : Scan (List Char) := do
  newline
  return ['\n']

/-- A backslash at the end of a line swallows it and all blanks after it. -/
def continuation : Scan (List Char) := do
  char '\\'
  blanks
  newline
  let _ ← many ((do let _ ← one isBlank) <|> newline)
  return []

/-- A quote that does not begin the end of the text. -/
def loneQuote (quote : Char) : Scan (List Char) := fun cs =>
  match cs with
  | a :: b :: c :: _ =>
    if a = quote ∧ ¬ (b = quote ∧ c = quote) then some ([quote], cs.drop 1) else none
  | _ => none

/-- Three quotes; up to two more before them belong to the text. -/
def closing (quote : Char) : Scan (List Char) := do
  exactly [quote, quote, quote]
  let first ← optional (char quote)
  let second ← optional (char quote)
  return List.replicate ((if first.isSome then 1 else 0) + (if second.isSome then 1 else 0)) quote

/-- A text over several lines between three quotes; a line break right after the
opening quotes is not part of it. -/
def blockText (quote : Char) (piece : Scan (List Char)) : Scan (List Char) := do
  exactly [quote, quote, quote]
  let _ ← optional newline
  let pieces ← many (piece <|> lineBreak <|> loneQuote quote)
  let last ← closing quote
  return pieces.flatten ++ last

/-- A text over several lines in double quotes, with escapes. -/
def basicBlock : Scan (List Char) :=
  blockText '"' ((do return [← plainExcept ['"', '\\']]) <|> continuation <|> (do return [← escaped]))

/-- A text over several lines in single quotes, where a backslash is itself. -/
def literalBlock : Scan (List Char) := blockText '\'' (do return [← plainExcept ['\'']])

/-- A text of any of the four kinds. Blocks are tried first, since three quotes
begin with an empty text. -/
def text : Scan String := do
  return String.ofList (← basicBlock <|> basicText <|> literalBlock <|> literalText)

/-! ## Keys -/

/-- The characters of which a key without quotes is made. -/
def isKeyChar (c : Char) : Bool := c.isAlphanum || c = '-' || c = '_'

/-- A key without quotes, of one character at least. -/
def bareKey : Scan (List Char) := do
  let cs ← run isKeyChar
  if cs.isEmpty then failure else pure cs

/-- A key without dots, quoted or bare. -/
def simpleKey : Scan String := do
  return String.ofList (← basicText <|> literalText <|> bareKey)

/-- Keys, arrays and inline tables nest less deep than this. -/
def depthLimit : Nat := 80

/-- A key, or keys with dots between them. -/
def key : Scan (List String) := do
  let keys ← separated (blanks *> simpleKey <* blanks) (char '.')
  if keys.length < depthLimit then pure keys else failure

/-! ## Numbers -/

/-- Digits of a class with single underscores between them; the underscores are
dropped. -/
def digits (isDigit : Char → Bool) : Scan (List Char) := do
  let first ← one isDigit
  let rest ← many (one isDigit <|> (char '_' *> one isDigit))
  return first :: rest

/-- Whether a number is negative; a plus sign may be written. -/
def sign : Scan Bool := do
  match ← optional (one fun c => c = '+' || c = '-') with
  | some '-' => return true
  | _ => return false

/-- Decimal digits without a superfluous zero in front. -/
def wholeDigits : Scan (List Char) :=
  (do
    let first ← one fun c => c.isDigit && c != '0'
    let rest ← many (one Char.isDigit <|> (char '_' *> one Char.isDigit))
    return first :: rest)
    <|> (do return [← one Char.isDigit])

/-- An integer of 64 bits. -/
def bounded (negative : Bool) (n : Nat) : Scan Tree :=
  if negative then
    if n ≤ 0x8000000000000000 then pure (.integer (-(n : Int))) else failure
  else if n < 0x8000000000000000 then pure (.integer n) else failure

/-- An integer in a base other than ten, which has no sign. -/
def basedInteger (letter : Char) (base : Nat) : Scan Tree := do
  exactly ['0', letter]
  let cs ← digits fun c => ((Json.hexDigit? c).map fun d => decide (d < base)).getD false
  bounded false (cs.foldl (fun n c => base * n + (Json.hexDigit? c).getD 0) 0)

/-- An integer of 64 bits in one of four bases, of which only the decimal one has a
sign. -/
def integer : Scan Tree :=
  basedInteger 'x' 16 <|> basedInteger 'o' 8 <|> basedInteger 'b' 2 <|> do
    let negative ← sign
    bounded negative (Json.naturalOf (← wholeDigits))

/-- The power of ten after an `e`. -/
def exponent : Scan Int := do
  let _ ← one fun c => c = 'e' || c = 'E'
  let negative ← sign
  let n := Json.naturalOf (← digits Char.isDigit)
  return if negative then -(n : Int) else n

/-- A number with a fraction, an exponent or both. It may not round to positive
infinity; the negative one is let through. -/
def float : Scan Tree := do
  let negative ← sign
  let whole ← wholeDigits
  let fraction ← optional (char '.' *> digits Char.isDigit)
  let power ← if fraction.isSome then optional exponent else some <$> exponent
  let after := fraction.getD []
  let d : Decimal := ⟨Json.naturalOf (whole ++ after), power.getD 0 - after.length⟩
  let x := Double.ofValue (d.value negative)
  if x.isInfinite && !negative then failure else pure (.real x)

/-- Infinity or no number, by name. -/
def specialFloat : Scan Tree := do
  let negative ← sign
  (do exactly ['i', 'n', 'f']; return .real (.ofValue (.infinity negative)))
    <|> (do exactly ['n', 'a', 'n']; return .real (.ofValue .nan))

/-! ## Moments -/

/-- A number of exactly so many digits, within bounds. -/
def field (count least greatest : Nat) : Scan Nat := do
  let cs ← (List.replicate count ()).mapM fun () => one Char.isDigit
  let n := Json.naturalOf cs
  if least ≤ n ∧ n ≤ greatest then pure n else failure

/-- Leap years of the Gregorian calendar. -/
def isLeapYear (year : Nat) : Bool := year % 4 == 0 && (year % 100 != 0 || year % 400 == 0)

/-- Number of days of a month. -/
def daysOf (year month : Nat) : Nat :=
  if month = 2 then (if isLeapYear year then 29 else 28)
  else if month = 4 ∨ month = 6 ∨ month = 9 ∨ month = 11 then 30
  else 31

/-- A date that the calendar has; its value is not kept. -/
def date : Scan Unit := do
  let year ← field 4 0 9999
  char '-'
  let month ← field 2 1 12
  char '-'
  let _ ← field 2 1 (daysOf year month)

/-- A time of day, maybe with a leap second and a fraction. -/
def time : Scan Unit := do
  let _ ← field 2 0 23
  char ':'
  let _ ← field 2 0 59
  char ':'
  let _ ← field 2 0 60
  let _ ← optional (char '.' *> one Char.isDigit *> run Char.isDigit)

/-- A distance from universal time, or none by a letter. -/
def offset : Scan Unit :=
  (do let _ ← one fun c => c = 'Z' || c = 'z')
    <|> do
      let _ ← one fun c => c = '+' || c = '-'
      let _ ← field 2 0 23
      char ':'
      let _ ← field 2 0 59

/-- A date, a date with a time, or a time. -/
def moment : Scan Tree := do
  (do
    date
    let _ ← optional do
      let _ ← one fun c => c = 'T' || c = 't' || c = ' '
      time
      let _ ← optional offset) <|> time
  return .moment

/-! ## Scalars -/

/-- A truth value by its name. -/
def flag : Scan Tree :=
  (do exactly "true".toList; return .flag true)
    <|> (do exactly "false".toList; return .flag false)

/-- A value without parts. -/
def scalar : Scan Tree :=
  (.text <$> text) <|> flag <|> moment <|> float <|> specialFloat <|> integer

end Scan

end BoardEval.Text.Toml
