import Triage.Json.Value
import Triage.Json.Token

/-!
# Writing JSON

* `Value.tokens`    the tokens of a value;
* `Value.compact`   its text without any space;
* `Value.pretty`    its text on lines indented by two spaces, an empty list or record on one line.
-/

namespace Triage.Json.Value

mutual

def tokens : Value → List Token
  | .null => [.null]
  | .bool b => [.bool b]
  | .int n => [.ofInt n]
  | .double x => [.number x.literal]
  | .text s => [.ofText s.toList]
  | .list items => .openList :: itemTokens items
  | .record fields => .openRecord :: fieldTokens fields

/-- the items and the closing bracket -/
def itemTokens : List Value → List Token
  | [] => [.closeList]
  | v :: vs => v.tokens ++ moreItems vs

/-- the items after the first, each behind a comma -/
def moreItems : List Value → List Token
  | [] => [.closeList]
  | v :: vs => .comma :: (v.tokens ++ moreItems vs)

def fieldTokens : List (String × Value) → List Token
  | [] => [.closeRecord]
  | (k, v) :: rest => .ofText k.toList :: .colon :: (v.tokens ++ moreFields rest)

def moreFields : List (String × Value) → List Token
  | [] => [.closeRecord]
  | (k, v) :: rest => .comma :: .ofText k.toList :: .colon :: (v.tokens ++ moreFields rest)

end

def compact (v : Value) : String := String.ofList (v.tokens.flatMap Token.chars)

/-- a new line at a depth -/
def newLine (depth : Nat) : List Char := '\n' :: List.replicate (2 * depth) ' '

mutual

def prettyAt (depth : Nat) : Value → List Char
  | .list [] => ['[', ']']
  | .list (v :: vs) =>
    '[' :: newLine (depth + 1) ++ prettyAt (depth + 1) v ++ prettyItems (depth + 1) vs ++
      newLine depth ++ [']']
  | .record [] => ['{', '}']
  | .record ((k, v) :: rest) =>
    '{' :: newLine (depth + 1) ++ (Token.ofText k.toList).chars ++ [':', ' '] ++
      prettyAt (depth + 1) v ++ prettyFields (depth + 1) rest ++ newLine depth ++ ['}']
  | .null => Token.null.chars
  | .bool b => (Token.bool b).chars
  | .int n => (Token.ofInt n).chars
  | .double x => (Token.number x.literal).chars
  | .text s => (Token.ofText s.toList).chars

def prettyItems (depth : Nat) : List Value → List Char
  | [] => []
  | v :: vs => ',' :: newLine depth ++ prettyAt depth v ++ prettyItems depth vs

def prettyFields (depth : Nat) : List (String × Value) → List Char
  | [] => []
  | (k, v) :: rest =>
    ',' :: newLine depth ++ (Token.ofText k.toList).chars ++ [':', ' '] ++ prettyAt depth v ++
      prettyFields depth rest

end

def pretty (v : Value) : String := String.ofList (prettyAt 0 v)

end Triage.Json.Value
