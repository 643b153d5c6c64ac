import Triage.Text.Cut
import Triage.Text.Hex
import Triage.Json.Literal

/-!
# JSON tokens

`lex` cuts a text into the tokens of RFC 8259 and refuses everything else.  A string token keeps
each `\u` escape as the 16-bit unit it writes, and a number token keeps its digits: what they
mean is decided by whoever reads the value (`Piece.decode?`, `Literal.integer?`,
`Literal.double?`), so a value that nobody reads need not mean anything.

* `Token.chars`                   writes a token;
* `Token.ofText`, `Token.ofInt`   the tokens of a string and of a whole number.
-/

namespace Triage.Json

/-- one element between the quotes: a character, or a unit written as `\u` and four digits -/
inductive Piece where
  | char (c : Char)
  | unit (n : Nat)
deriving DecidableEq, Repr

inductive Token where
  | openList
  | closeList
  | openRecord
  | closeRecord
  | comma
  | colon
  | null
  | bool (b : Bool)
  | number (n : Literal)
  | text (ps : List Piece)
deriving DecidableEq, Repr

/-- space, tab, line feed and carriage return -/
def isSpace (c : Char) : Bool := c == ' ' || c == '\t' || c == '\n' || c == '\r'

/-- the character of a short escape -/
def shortEscape? : Char → Option Char
  | '"' => some '"'
  | '\\' => some '\\'
  | '/' => some '/'
  | 'b' => some '\x08'
  | 'f' => some '\x0c'
  | 'n' => some '\n'
  | 'r' => some '\r'
  | 't' => some '\t'
  | _ => none

def hexUnit? (a b c d : Char) : Option Nat := do
  let a ← Text.hexValue? a
  let b ← Text.hexValue? b
  let c ← Text.hexValue? c
  let d ← Text.hexValue? d
  some (((a * 16 + b) * 16 + c) * 16 + d)

/-- the pieces up to the closing quote, and what follows it -/
def lexText : List Char → Option (List Piece × List Char)
  | [] => none
  | '"' :: cs => some ([], cs)
  | '\\' :: 'u' :: a :: b :: c :: d :: cs => do
    let n ← hexUnit? a b c d
    let (ps, rest) ← lexText cs
    some (.unit n :: ps, rest)
  | '\\' :: e :: cs => do
    let c ← shortEscape? e
    let (ps, rest) ← lexText cs
    some (.char c :: ps, rest)
  | c :: cs =>
    if c.toNat < 0x20 ∨ c = '\\' then none
    else do
      let (ps, rest) ← lexText cs
      some (.char c :: ps, rest)

/-- a run of digits and what follows it -/
def lexDigits (cs : List Char) : List Char × List Char :=
  (cs.takeWhile Char.isDigit, cs.dropWhile Char.isDigit)

/-- digits after a point, none without one; a point without digits is refused -/
def lexFraction : List Char → Option (List Char × List Char)
  | '.' :: cs =>
    let (ds, rest) := lexDigits cs
    if ds = [] then none else some (ds, rest)
  | cs => some ([], cs)

/-- whether the sign is a minus, and what follows the sign -/
def lexSign : List Char → Bool × List Char
  | '-' :: cs => (true, cs)
  | '+' :: cs => (false, cs)
  | cs => (false, cs)

def lexExponent : List Char → Option (Option (Bool × List Char) × List Char)
  | c :: cs =>
    if c = 'e' ∨ c = 'E' then
      let (minus, cs) := lexSign cs
      let (ds, rest) := lexDigits cs
      if ds = [] then none else some (some (minus, ds), rest)
    else some (none, c :: cs)
  | [] => some (none, [])

/-- no sign but a minus, and no zero before another digit -/
def lexNumber (cs : List Char) : Option (Literal × List Char) := do
  let (minus, cs) := match cs with
    | '-' :: rest => (true, rest)
    | _ => (false, cs)
  let (whole, cs) := lexDigits cs
  if whole = [] ∨ (whole.head? = some '0' ∧ whole ≠ ['0']) then none
  else do
    let (fraction, cs) ← lexFraction cs
    let (exponent, cs) ← lexExponent cs
    some (⟨minus, whole, fraction, exponent⟩, cs)

/-- the first token, of a text that starts with none of the spaces, and what follows it -/
def lexOne : List Char → Option (Token × List Char)
  | [] => none
  | '[' :: cs => some (.openList, cs)
  | ']' :: cs => some (.closeList, cs)
  | '{' :: cs => some (.openRecord, cs)
  | '}' :: cs => some (.closeRecord, cs)
  | ',' :: cs => some (.comma, cs)
  | ':' :: cs => some (.colon, cs)
  | '"' :: cs => (lexText cs).map fun (ps, rest) => (.text ps, rest)
  | 'n' :: cs => (Text.after? ['u', 'l', 'l'] cs).map (Token.null, ·)
  | 't' :: cs => (Text.after? ['r', 'u', 'e'] cs).map (Token.bool true, ·)
  | 'f' :: cs => (Text.after? ['a', 'l', 's', 'e'] cs).map (Token.bool false, ·)
  | cs => (lexNumber cs).map fun (n, rest) => (.number n, rest)

/-- the tokens, with room for `fuel` of them -/
def lexFrom : Nat → List Char → Option (List Token)
  | fuel, cs =>
    match cs.dropWhile isSpace with
    | [] => some []
    | c :: rest =>
      match fuel with
      | 0 => none
      | fuel + 1 => do
        let (t, rest) ← lexOne (c :: rest)
        let ts ← lexFrom fuel rest
        some (t :: ts)

/-- Every token takes at least one character, so the length of the text is room enough. -/
def lex (cs : List Char) : Option (List Token) := lexFrom cs.length cs

namespace Piece

/-- The text of pieces: a high surrogate must be followed by a low one, and then both are one
character. -/
def decode? : List Piece → Option (List Char)
  | [] => some []
  | .char c :: ps => (decode? ps).map (c :: ·)
  | .unit hi :: .unit lo :: ps =>
    if 0xD800 ≤ hi ∧ hi < 0xDC00 then
      if 0xDC00 ≤ lo ∧ lo < 0xE000 then
        (decode? ps).map (Char.ofNat (0x10000 + (hi - 0xD800) * 0x400 + (lo - 0xDC00)) :: ·)
      else none
    else if 0xDC00 ≤ hi ∧ hi < 0xE000 then none
    else (decode? (.unit lo :: ps)).map (Char.ofNat hi :: ·)
  | .unit n :: ps =>
    if 0xD800 ≤ n ∧ n < 0xE000 then none else (decode? ps).map (Char.ofNat n :: ·)

/-- A character below U+0020 that has no short escape is written as a unit. -/
def ofChar (c : Char) : Piece :=
  if c.toNat < 0x20 ∧ c ∉ ['\x08', '\t', '\n', '\x0c', '\r'] then .unit c.toNat else .char c

def chars : Piece → List Char
  | .unit n =>
    ['\\', 'u', Text.lowerHex (n / 4096 % 16), Text.lowerHex (n / 256 % 16),
      Text.lowerHex (n / 16 % 16), Text.lowerHex (n % 16)]
  | .char '"' => ['\\', '"']
  | .char '\\' => ['\\', '\\']
  | .char '\x08' => ['\\', 'b']
  | .char '\t' => ['\\', 't']
  | .char '\n' => ['\\', 'n']
  | .char '\x0c' => ['\\', 'f']
  | .char '\r' => ['\\', 'r']
  | .char c => [c]

end Piece

namespace Token

def ofText (s : List Char) : Token := .text (s.map Piece.ofChar)

def ofInt (n : Int) : Token := .number (.ofInt n)

def chars : Token → List Char
  | .openList => ['[']
  | .closeList => [']']
  | .openRecord => ['{']
  | .closeRecord => ['}']
  | .comma => [',']
  | .colon => [':']
  | .null => ['n', 'u', 'l', 'l']
  | .bool true => ['t', 'r', 'u', 'e']
  | .bool false => ['f', 'a', 'l', 's', 'e']
  | .number n => n.chars
  | .text ps => '"' :: ps.flatMap Piece.chars ++ ['"']

end Token

end Triage.Json
