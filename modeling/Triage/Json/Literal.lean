import Triage.Text.Decimal

/-!
# JSON numerals

A `Literal` is a number as it is written: its digits, without a value.

* `Literal.chars`      the text; an exponent always has a sign;
* `Literal.ofInt n`    the numeral of a whole number;
* `Literal.integer?`   the whole number it denotes, if it has neither point nor exponent and lies
                       between `-2 ^ 63` and `2 ^ 64 - 1`; `-0` denotes none (`integer?_ofInt`).
-/

namespace Triage.Json

structure Literal where
  negative : Bool
  whole : List Char
  fraction : List Char
  exponent : Option (Bool × List Char)
deriving DecidableEq, Repr

namespace Literal

def ofInt (n : Int) : Literal := ⟨n < 0, Text.digits n.natAbs, [], none⟩

/-- the part after the digits before the point -/
def tailChars (n : Literal) : List Char :=
  (if n.fraction = [] then [] else '.' :: n.fraction) ++
    match n.exponent with
    | none => []
    | some (minus, ds) => 'e' :: (if minus then '-' else '+') :: ds

def chars (n : Literal) : List Char :=
  (if n.negative then ['-'] else []) ++ n.whole ++ n.tailChars

def integer? (n : Literal) : Option Int :=
  if n.fraction = [] ∧ n.exponent = none then
    let m := Nat.ofDigitChars 10 n.whole 0
    if n.negative then
      if 0 < m ∧ m ≤ 9223372036854775808 then some (-(m : Int)) else none
    else if m < 18446744073709551616 then some m else none
  else none

theorem integer?_ofInt {n : Int} (lo : -9223372036854775808 ≤ n)
    (hi : n < 18446744073709551616) :
    (ofInt n).integer? = some n := by
  simp only [integer?, ofInt, Text.digits, Nat.ofDigitChars_ten_toDigits, and_self, if_true,
    decide_eq_true_eq]
  split
  · rw [if_pos (by omega)]; congr 1; omega
  · rw [if_pos (by omega)]; congr 1; omega

end Literal

end Triage.Json
