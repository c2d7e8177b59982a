import BoardEval.Number.Decimal
import BoardEval.Text.Tree

/-!
# JSON tokens

A text is cut into punctuation, texts and scalars before anything is asked about
their order. Runs of other characters are words: the three names and numbers.

A text whose escapes name half of a surrogate pair is well written and has no
value. A number is an integer if it is written as one and fits into 64 bits,
signed or not; negative zero does not. Any other number is read by scaling, from
as many leading digits as fit into 64 bits.
-/

namespace BoardEval.Text.Json

open Number (Decimal Double)

/-- Punctuation, or a piece of the text that has a value. -/
inductive Token where
  | listOpen
  | listClose
  | recordOpen
  | recordClose
  | comma
  | colon
  /-- Nothing where the text has no value. -/
  | text (value : Option String)
  | scalar (value : Tree)

/-! ## Numbers -/

/-- Digits as they are gathered: the ones that fit, how many of them there are
after the point, and how many before it were left out. -/
structure Gathered where
  significand : Nat
  exponent : Int

/-- Significands stay below this. -/
def significandLimit : Nat := 0x10000000000000000

/-- The value of a decimal digit. Of other characters it means nothing. -/
def digitOf (c : Char) : Nat := c.toNat - '0'.toNat

/-- Gather digits before the point. From the first one that does not fit on,
digits only count. -/
def gatherWhole (significand : Nat) : List Char → Gathered
  | [] => ⟨significand, 0⟩
  | c :: rest =>
    let next := 10 * significand + digitOf c
    if next < significandLimit then gatherWhole next rest
    else ⟨significand, (rest.length : Int) + 1⟩

/-- Gather digits after the point, up to the first one that does not fit. -/
def gatherFraction (g : Gathered) : List Char → Gathered
  | [] => g
  | c :: rest =>
    let next := 10 * g.significand + digitOf c
    if next < significandLimit then gatherFraction ⟨next, g.exponent - 1⟩ rest else g

/-- The value of decimal digits. -/
def naturalOf (digits : List Char) : Nat := digits.foldl (fun n c => 10 * n + digitOf c) 0

/-- A number without fraction and exponent. -/
def wholeNumber (negative : Bool) (digits : List Char) : Tree :=
  let n := naturalOf digits
  if !negative && n < significandLimit then .integer n
  else if negative && 0 < n && n ≤ 0x8000000000000000 then .integer (-(n : Int))
  else
    let g := gatherWhole 0 digits
    match Double.scaled? ⟨g.significand, g.exponent⟩ with
    | some x => .real (if negative then x.neg else x)
    | none => .unreadable

/-- A number with a fraction, an exponent or both. -/
def otherNumber (negative : Bool) (whole fraction : List Char) (exponent : Int) : Tree :=
  let g := gatherFraction (gatherWhole 0 whole) fraction
  match Double.scaled? ⟨g.significand, g.exponent + exponent⟩ with
  | some x => .real (if negative then x.neg else x)
  | none => .unreadable

/-- Digits, at least one, and what follows them. -/
def takeDigits (cs : List Char) : Option (List Char × List Char) :=
  match cs.span Char.isDigit with
  | ([], _) => none
  | found => some found

/-- The part of a number before the point: one zero, or digits of which the first
is not zero. -/
def takeWhole (cs : List Char) : Option (List Char × List Char) := do
  let (digits, rest) ← takeDigits cs
  if digits.head? = some '0' ∧ 1 < digits.length then none else some (digits, rest)

/-- The exponent of a number and nothing after it. -/
def exponent? (cs : List Char) : Option Int := do
  let (negative, cs) := match cs with
    | '-' :: rest => (true, rest)
    | '+' :: rest => (false, rest)
    | _ => (false, cs)
  let (digits, rest) ← takeDigits cs
  if rest.isEmpty then some (if negative then -(naturalOf digits : Int) else naturalOf digits)
  else none

/-- A number that takes up all the characters, as a tree. The grammar is strict:
no sign but a minus, no superfluous zero in front, and digits on both sides of a
point. -/
def number? (cs : List Char) : Option Tree := do
  let (negative, cs) := match cs with
    | '-' :: rest => (true, rest)
    | _ => (false, cs)
  let (whole, cs) ← takeWhole cs
  let (fraction, cs) ← match cs with
    | '.' :: rest => takeDigits rest
    | _ => some ([], cs)
  match cs with
  | [] =>
    if fraction.isEmpty then some (wholeNumber negative whole)
    else some (otherNumber negative whole fraction 0)
  | c :: rest =>
    if c = 'e' ∨ c = 'E' then otherNumber negative whole fraction <$> exponent? rest else none

/-- A name or a number. -/
def word? (cs : List Char) : Option Tree :=
  match String.ofList cs with
  | "null" => some .absent
  | "true" => some (.flag true)
  | "false" => some (.flag false)
  | _ => number? cs

/-! ## Texts -/

/-- The value of a hexadecimal digit, in either case. -/
def hexDigit? (c : Char) : Option Nat :=
  if c.isDigit then some (digitOf c)
  else if 'a' ≤ c ∧ c ≤ 'f' then some (c.toNat - 'a'.toNat + 10)
  else if 'A' ≤ c ∧ c ≤ 'F' then some (c.toNat - 'A'.toNat + 10)
  else none

/-- The value of hexadecimal digits. -/
def hex? (digits : List Char) : Option Nat :=
  digits.foldlM (fun n c => (hexDigit? c).map (16 * n + ·)) 0

/-- The character that a letter after a backslash stands for. -/
def escape? : Char → Option Char
  | '"' => some '"'
  | '\\' => some '\\'
  | '/' => some '/'
  | 'b' => some '\x08'
  | 'f' => some '\x0c'
  | 'n' => some '\n'
  | 'r' => some '\r'
  | 't' => some '\t'
  | _ => none

/-- A text as far as it was read: its characters, last one first, whether it has
a value, and the first half of a surrogate pair that still lacks the second. -/
structure Partial where
  reversed : List Char
  valued : Bool
  firstHalf : Option Nat

namespace Partial

/-- The text right after its opening quote. -/
def empty : Partial := ⟨[], true, none⟩

/-- Add a character; an open half stays half. -/
def push (t : Partial) (c : Char) : Partial :=
  ⟨c :: t.reversed, t.valued && t.firstHalf.isNone, none⟩

/-- Add a code unit of sixteen bits. -/
def pushUnit (t : Partial) (unit : Nat) : Partial :=
  if 0xD800 ≤ unit ∧ unit < 0xDC00 then
    ⟨t.reversed, t.valued && t.firstHalf.isNone, some unit⟩
  else if 0xDC00 ≤ unit ∧ unit < 0xE000 then
    match t.firstHalf with
    | some first =>
      ⟨Char.ofNat (0x10000 + (first - 0xD800) * 0x400 + (unit - 0xDC00)) :: t.reversed, t.valued, none⟩
    | none => ⟨t.reversed, false, none⟩
  else t.push (Char.ofNat unit)

/-- The value of a text that has come to its end. -/
def value (t : Partial) : Option String :=
  if t.valued && t.firstHalf.isNone then some (String.ofList t.reversed.reverse) else none

end Partial

/-- Read a text after its opening quote. Control characters have to be
escaped. -/
def takeText (t : Partial) : List Char → Option (Option String × List Char)
  | [] => none
  | '"' :: rest => some (t.value, rest)
  | '\\' :: 'u' :: a :: b :: c :: d :: rest => do
    takeText (t.pushUnit (← hex? [a, b, c, d])) rest
  | '\\' :: c :: rest => do takeText (t.push (← escape? c)) rest
  | c :: rest => if c < ' ' ∨ c = '\\' then none else takeText (t.push c) rest

/-! ## Tokens -/

/-- The four characters that may stand between tokens. -/
def isSpace (c : Char) : Bool := c = ' ' || c = '\n' || c = '\t' || c = '\r'

/-- The token that is one character. -/
def punctuation? : Char → Option Token
  | '[' => some .listOpen
  | ']' => some .listClose
  | '\x7b' => some .recordOpen
  | '\x7d' => some .recordClose
  | ',' => some .comma
  | ':' => some .colon
  | _ => none

/-- A character that belongs to a word. -/
def isWordChar (c : Char) : Bool := !isSpace c && (punctuation? c).isNone && c != '"'

/-- Tokens, first one last, of a text that has at most as many characters as
there is fuel. -/
def tokensFrom : Nat → List Token → List Char → Option (List Token)
  | _, found, [] => some found
  | 0, _, _ => none
  | fuel + 1, found, c :: rest =>
    if isSpace c then tokensFrom fuel found rest
    else
      match punctuation? c with
      | some token => tokensFrom fuel (token :: found) rest
      | none =>
        if c = '"' then do
          let (text, rest) ← takeText .empty rest
          tokensFrom fuel (.text text :: found) rest
        else do
          let (word, rest) := (c :: rest).span isWordChar
          tokensFrom fuel (.scalar (← word? word) :: found) rest

/-- The tokens of a text. Every token takes at least one character. -/
def tokens (text : String) : Option (List Token) :=
  let cs := text.toList
  (tokensFrom cs.length [] cs).map List.reverse

end BoardEval.Text.Json
